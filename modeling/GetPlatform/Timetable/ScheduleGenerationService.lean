import GetPlatform.Store.Alone
import GetPlatform.Timetable.SchoolService

set_option autoImplicit false

/-! # `ScheduleGenerationService`

The timetable of a school is filled in: for each requirement of a class, in the order of their hours,
sessions are placed in the first time slots and rooms that are free. The generation sends statements
one after the other, and two of its steps are calls of `SchoolService`. -/

namespace GetPlatform.Timetable

/-! ## What it reads -/

structure GenerateScheduleDto where
  academicYearId : Id
  classId : Option Id := none
  subjectId : Option Id := none
  teacherId : Option Id := none
  roomId : Option Id := none

/-- A requirement read with its subject, its teacher, and its course with the slots of it. -/
structure RequirementRow extends SubjectRequirement where
  subject : SchoolSubject
  assignment : Option Teacher
  course : Option (Course × List CourseSlot)

/-- A class read with its programme and its requirements. -/
structure ClassRow extends SchoolClass where
  program : Option SchoolProgram
  requirements : List RequirementRow

structure CreateSchoolCourseDto where
  teacherId : Id
  code : String
  subjectId : Id
  programId : Id
  programLevel : Int
  isPublished : Bool

namespace World

/-- The class a slot is for, by the requirement of its course. -/
def classOf (s : World) (slot : CourseSlot) : Option Id := do
  let course ← s.courses.find? slot.courseId
  let requirement ← s.requirements.find? (← course.subjectRequirementId)
  return requirement.classId

/-- The slots of a class that a candidate overlaps, compared as texts. -/
def classConflicts (s : World) (classId : Id) (slot : CandidateSlot) : List CourseSlot :=
  s.slots.rows.filter fun other =>
    other.dayOfWeek = slot.dayOfWeek ∧ other.period.startTime < slot.period.endTime ∧
      slot.period.startTime < other.period.endTime ∧ s.classOf other = some classId

/-- The course of a requirement. -/
def courseFor (s : World) (requirementId : Id) : Option Course :=
  s.courses.rows.find? fun c => c.subjectRequirementId = some requirementId

/-- A requirement with what it refers to. -/
def requirementRow (s : World) (r : SubjectRequirement) : Option RequirementRow := do
  let subject ← s.subjects.find? r.subjectId
  let assignment := (s.requirementAssignments.find? r.id).bind fun a => s.teachers.find? a.teacherId
  let course := (s.courseFor r.id).map fun c => (c, s.slots.rows.filter (·.courseId = c.id))
  return { r with subject, assignment, course }

/-- A class with its requirements, filtered by subject and teacher. -/
def classRow (s : World) (dto : GenerateScheduleDto) (c : SchoolClass) : ClassRow :=
  { c with
    program := c.programId.bind s.programs.find?
    requirements := (s.requirements.rows.filterMap fun r =>
      if r.classId = c.id ∧ dto.subjectId.all (· = r.subjectId) then s.requirementRow r
      else none).filter fun r => dto.teacherId.all fun id => r.assignment.any (·.id = id) }

end World

/-! ## Statements -/

inductive Stmt where
  | schoolTimeSlotFindMany (schoolId : Id)
  | roomFindMany (schoolId : Id) (roomId : Option Id)
  | schoolClassFindMany (schoolId : Id) (dto : GenerateScheduleDto)
  | teacherSchoolFindFirst (schoolId teacherId : Id)
  | schoolSubjectFindFirst (id schoolId : Id)
  | schoolProgramFindFirst (id schoolId : Id)
  | courseCreate (data : Course)
  | courseUpdate (id subjectRequirementId : Id)
  | courseSlotFindFirst (classId : Id) (slot : CandidateSlot)
  /-- A call of `SchoolService.createCourseSlot`. -/
  | createCourseSlot (schoolId courseId : Id) (dto : CreateCourseSlotDto)

abbrev Ans : Stmt → Type
  | .schoolTimeSlotFindMany _ => List SchoolTimeSlot
  | .roomFindMany .. => List Room
  | .schoolClassFindMany .. => List ClassRow
  | .teacherSchoolFindFirst .. => Option TeacherSchool
  | .schoolSubjectFindFirst .. => Option SchoolSubject
  | .schoolProgramFindFirst .. => Option SchoolProgram
  | .courseCreate _ => Course
  | .courseUpdate .. => Course
  | .courseSlotFindFirst .. => Option CourseSlot
  | .createCourseSlot .. => CourseSlot

abbrev interface : Interface := ⟨Stmt, Ans, Err⟩

/-- Answer a statement; the choice is the identifier of a row that is created. -/
def exec : (q : Stmt) → Id → World → Option (Ans q)
  | .schoolTimeSlotFindMany schoolId, _, s =>
      some <| orderBy
        (fun a b => a.dayOfWeek < b.dayOfWeek || a.dayOfWeek = b.dayOfWeek &&
          !(b.period.startTime < a.period.startTime))
        (s.timeSlots.rows.filter fun t => t.schoolId = schoolId ∧ t.isActive)
  | .roomFindMany schoolId roomId, _, s =>
      some <| orderBy (fun a b => a.name ≤ b.name)
        (s.rooms.rows.filter fun r => r.schoolId = schoolId ∧ r.isActive ∧ roomId.all (· = r.id))
  | .schoolClassFindMany schoolId dto, _, s =>
      some ((s.classes.rows.filter fun c =>
        c.schoolId = schoolId ∧ c.academicYearId = dto.academicYearId ∧
          dto.classId.all (· = c.id)).map (s.classRow dto))
  | .teacherSchoolFindFirst schoolId teacherId, _, s =>
      some ((s.assignments.find? (teacherId, schoolId)).filter (·.isActive))
  | .schoolSubjectFindFirst id schoolId, _, s =>
      some ((s.subjects.find? id).filter fun b => b.schoolId = schoolId ∧ b.isActive)
  | .schoolProgramFindFirst id schoolId, _, s =>
      some ((s.programs.find? id).filter fun p => p.schoolId = schoolId ∧ p.isActive)
  | .courseCreate data, id, s =>
      -- A new identifier is one that no row refers to yet.
      if s.courses.contains id ∨ s.slots.rows.any (·.courseId = id) then none
      else some { data with id }
  | .courseUpdate id subjectRequirementId, _, s =>
      if s.courses.rows.any fun c =>
          c.id ≠ id && c.subjectRequirementId = some subjectRequirementId then none
      else (s.courses.find? id).map fun c => { c with subjectRequirementId }
  | .courseSlotFindFirst classId slot, _, s => some (s.classConflicts classId slot).head?
  | .createCourseSlot _ courseId dto, id, s => do
      let course ← s.courses.find? courseId
      let period ← (period? dto.startTime dto.endTime).toOption
      if s.slots.contains id then none
      else some ⟨id, courseId, course.teacherId, dto.dayOfWeek, period, dto.room⟩

inductive Write where
  | course (row : Course)
  | slot (row : CourseSlot)

def writes : (q : Stmt) → Ans q → List Write
  | .courseCreate _, row => [.course row]
  | .courseUpdate .., row => [.course row]
  | .createCourseSlot .., row => [.slot row]
  | _, _ => []

def World.apply : Write → World → World
  | .course row, s => { s with courses := s.courses.put row }
  | .slot row, s => { s with slots := s.slots.put row }

/-- Nothing else changes the timetable meanwhile. -/
abbrev model : Model interface where
  State := World
  Choice := Id
  Write := Write
  Key := Empty
  Env := Empty
  exec := exec
  writes := writes
  apply := World.apply
  key := fun _ => none
  env := Empty.elim

/-! ## `generate` -/

abbrev Call (α : Type) := Prog interface Err α

def send (q : Stmt) : Call (Ans q) := @Prog.query interface Err id q

def ensureActiveTeacherAssignment (schoolId teacherId : Id) : Call Unit := do
  let some _ ← send (.teacherSchoolFindFirst schoolId teacherId)
    | throw <| .ForbiddenException
        "Le professeur doit être activement affecté à cet établissement"

def createCourse (schoolId : Id) (dto : CreateSchoolCourseDto) : Call Course := do
  ensureActiveTeacherAssignment schoolId dto.teacherId
  let subject ← send (.schoolSubjectFindFirst dto.subjectId schoolId)
  let program ← send (.schoolProgramFindFirst dto.programId schoolId)
  match subject, program with
  | some subject, some program =>
      if dto.programLevel > program.durationYears then
        throw <| .BadRequestException
          s!"Ce programme ne compte que {program.durationYears} année(s)"
      send <| .courseCreate
        { id := "", schoolId, teacherId := dto.teacherId, code := dto.code, title := subject.name
          subjectId := some subject.id, programId := some program.id
          programLevel := some dto.programLevel
          level := s!"Année {dto.programLevel} · {program.name}", isPublished := dto.isPublished
          subjectRequirementId := none }
  | _, _ => throw (.NotFoundException "Matière ou filière introuvable")

structure UnresolvedItem where
  classId : Id
  className : String
  subjectId : Id
  subjectName : String
  teacherName : Option String
  hoursPerWeek : Int
  sessionsPlaced : Int
  sessionsNeeded : Int
  reason : String
  deriving DecidableEq

structure GenerationResult where
  createdSlots : Nat
  unresolved : List UnresolvedItem

/-- A requirement of a class. -/
structure Job extends RequirementRow where
  schoolClass : ClassRow

/-- `Math.round` of a quotient. -/
def roundDiv (n d : Int) : Int := (2 * n + d) / (2 * d)

/-- The average duration of the time slots. -/
def typicalDurationMinutes (timeSlots : List SchoolTimeSlot) : Int :=
  if timeSlots.isEmpty then 0
  else
    roundDiv
      (timeSlots.map fun t => toMinutes t.period.endTime - toMinutes t.period.startTime).sum
      timeSlots.length

def sessionsNeededFor (hoursPerWeek typicalDurationMinutes : Int) : Int :=
  if typicalDurationMinutes ≤ 0 then 1
  else max 1 (roundDiv (hoursPerWeek * 60) typicalDurationMinutes)

def comboKey (entityKey : String) (slot : CandidateSlot) : String :=
  s!"{entityKey}|{slot.dayOfWeek}|{slot.period.startTime.text}"

/-- The heaviest requirements first, then by the names of class and subject. -/
def compareJobs (localeCompare : String → String → Int) (a b : Job) : Int :=
  if b.hoursPerWeek - a.hoursPerWeek ≠ 0 then b.hoursPerWeek - a.hoursPerWeek
  else if localeCompare a.schoolClass.name b.schoolClass.name ≠ 0 then
    localeCompare a.schoolClass.name b.schoolClass.name
  else localeCompare a.subject.name b.subject.name

/-- The first and the last name of a teacher who has one of them. -/
def teacherName (teacher : Teacher) : Option String :=
  let first := teacher.firstName.getD ""
  let last := teacher.lastName.getD ""
  if first ≠ "" ∨ last ≠ "" then some s!"{first} {last}".trimAscii.toString else none

def baseUnresolved (typicalDurationMinutes : Int) (job : Job) (sessionsPlaced : Int)
    (reason : String) : UnresolvedItem :=
  { classId := job.schoolClass.id, className := job.schoolClass.name, subjectId := job.subjectId
    subjectName := job.subject.name, teacherName := job.assignment.bind teacherName
    hoursPerWeek := job.hoursPerWeek, sessionsPlaced
    sessionsNeeded := sessionsNeededFor job.hoursPerWeek typicalDurationMinutes, reason }

/-- What the generation has done so far. -/
structure Generation where
  createdSlots : Nat := 0
  unresolved : List UnresolvedItem := []
  usedTeacherSlots : List String := []
  usedRoomSlots : List String := []

def Generation.leave (g : Generation) (item : UnresolvedItem) : Generation :=
  { g with unresolved := g.unresolved ++ [item] }

def isClassBusy (classId : Id) (slot : CandidateSlot) : Call Bool := do
  return (← send (.courseSlotFindFirst classId slot)).isSome

/-- The rooms are tried in turn, until one takes the session. The second component counts the sessions
    placed for the job. -/
def tryRooms (schoolId courseId teacherId : Id) (sessionsToPlace : Int) (slotKey : CandidateSlot) :
    List Room → Generation × Int → Call (Generation × Int)
  | [], (g, placed) => return (g, placed)
  | room :: rooms, (g, placed) => do
      if placed ≥ sessionsToPlace then return (g, placed)
      if comboKey room.name slotKey ∈ g.usedRoomSlots then
        tryRooms schoolId courseId teacherId sessionsToPlace slotKey rooms (g, placed)
      else
        let created ←
          try
            let slot ← send <| .createCourseSlot schoolId courseId
              ⟨slotKey.dayOfWeek, slotKey.period.startTime, slotKey.period.endTime, room.name⟩
            pure (some slot)
          catch _ => pure none
        match created with
        | some _ =>
            return ({ g with
              usedTeacherSlots := g.usedTeacherSlots ++ [comboKey teacherId slotKey]
              usedRoomSlots := g.usedRoomSlots ++ [comboKey room.name slotKey]
              createdSlots := g.createdSlots + 1 }, placed + 1)
        | none => tryRooms schoolId courseId teacherId sessionsToPlace slotKey rooms (g, placed)

/-- The time slots are tried in turn, until enough sessions are placed. -/
def placeSessions (schoolId courseId teacherId classId : Id) (sessionsToPlace : Int)
    (rooms : List Room) : List SchoolTimeSlot → Generation × Int → Call (Generation × Int)
  | [], (g, placed) => return (g, placed)
  | timeSlot :: timeSlots, (g, placed) => do
      if placed ≥ sessionsToPlace then return (g, placed)
      let slotKey : CandidateSlot := ⟨timeSlot.dayOfWeek, timeSlot.period⟩
      if comboKey teacherId slotKey ∈ g.usedTeacherSlots then
        placeSessions schoolId courseId teacherId classId sessionsToPlace rooms timeSlots (g, placed)
      else if ← isClassBusy classId slotKey then
        placeSessions schoolId courseId teacherId classId sessionsToPlace rooms timeSlots (g, placed)
      else
        let next ← tryRooms schoolId courseId teacherId sessionsToPlace slotKey rooms (g, placed)
        placeSessions schoolId courseId teacherId classId sessionsToPlace rooms timeSlots next

/-- The course of a job: the one it has, or a new one that is linked to its requirement. -/
def courseOfJob (schoolId teacherId programId : Id) (job : Job) : Call (Except String Id) := do
  match job.course with
  | some (course, _) => return .ok course.id
  | none =>
      try
        let created ← createCourse schoolId
          { teacherId, code := s!"AUTO-{(job.id.take 8).toString.toUpper}", subjectId := job.subjectId
            programId, programLevel := job.schoolClass.level.getD 1, isPublished := true }
        let _ ← send (.courseUpdate created.id job.id)
        pure (.ok created.id)
      catch
        | .BadRequestException message => pure (.error message)
        | _ => pure (.error "Erreur")

def placeJob (schoolId : Id) (timeSlots : List SchoolTimeSlot) (rooms : List Room) (job : Job)
    (g : Generation) : Call Generation := do
  let typical := typicalDurationMinutes timeSlots
  match job.assignment, job.schoolClass.programId, job.schoolClass.program with
  | none, _, _ => return g.leave (baseUnresolved typical job 0 "Aucun professeur affecté")
  | some teacher, some programId, some _ =>
      if timeSlots.isEmpty ∨ rooms.isEmpty ∨ typical ≤ 0 then
        return g.leave (baseUnresolved typical job 0
          "Aucun créneau-type ou salle active configuré pour cette école")
      let existingSessions : Int := (job.course.map (·.2.length)).getD 0
      let sessionsToPlace := sessionsNeededFor job.hoursPerWeek typical - existingSessions
      if sessionsToPlace ≤ 0 then return g
      match ← courseOfJob schoolId teacher.id programId job with
      | .error message =>
          return g.leave (baseUnresolved typical job 0 s!"Cours impossible à créer : {message}")
      | .ok courseId =>
          let (g, placed) ← placeSessions schoolId courseId teacher.id job.schoolClass.id
            sessionsToPlace rooms timeSlots (g, 0)
          if placed < sessionsToPlace then
            return g.leave (baseUnresolved typical job (existingSessions + placed)
              "Aucun créneau libre compatible (disponibilité prof / salle / classe)")
          else return g
  | _, _, _ => return g.leave (baseUnresolved typical job 0 "Classe sans filière associée")

def placeJobs (schoolId : Id) (timeSlots : List SchoolTimeSlot) (rooms : List Room) :
    List Job → Generation → Call Generation
  | [], g => return g
  | job :: jobs, g => do
      placeJobs schoolId timeSlots rooms jobs (← placeJob schoolId timeSlots rooms job g)

def generate (localeCompare : String → String → Int) (schoolId : Id) (dto : GenerateScheduleDto) :
    Call GenerationResult := do
  let timeSlots ← send (.schoolTimeSlotFindMany schoolId)
  let rooms ← send (.roomFindMany schoolId dto.roomId)
  let classes ← send (.schoolClassFindMany schoolId dto)
  let jobs := orderBy (fun a b => compareJobs localeCompare a b ≤ 0)
    (classes.flatMap fun c => c.requirements.map fun r => (⟨r, c⟩ : Job))
  let g ← placeJobs schoolId timeSlots rooms jobs {}
  return ⟨g.createdSlots, g.unresolved⟩

end GetPlatform.Timetable
