import GetPlatform.Store.Semantics
import GetPlatform.Schools.Types

set_option autoImplicit false

/-! # The database of the schools

`World` is the content of the tables. The name of a programme or a subject and the label of a year are
unique in a school; a teacher is assigned once to a school, and a student enrolled once. Nothing is
deleted but enrolments in courses and qualifications. A new row has a new identifier, so a row that is
inserted takes the place of none. People belong to other services. -/

namespace GetPlatform.Schools

structure World where
  users : Table User
  students : Table Student
  teachers : Table Teacher
  programs : Table SchoolProgram
  academicYears : Table SchoolAcademicYear
  subjects : Table SchoolSubject
  teacherSchools : Indexed TeacherSchool
  teacherSchoolSubjects : Table TeacherSchoolSubject
  courses : Table Course
  courseSlots : Table CourseSlot
  studentEnrollments : Indexed StudentEnrollment
  courseEnrollments : Table CourseEnrollment

def World.empty : World where
  users := .empty
  students := .empty
  teachers := .empty
  programs := .empty
  academicYears := .empty
  subjects := .empty
  teacherSchools := .empty
  teacherSchoolSubjects := .empty
  courses := .empty
  courseSlots := .empty
  studentEnrollments := .empty
  courseEnrollments := .empty

inductive Failure where
  | database
  /-- A slot of the teacher would overlap another one. -/
  | exclusionConstraint
  deriving DecidableEq, Inhabited

/-! ## What rows are given -/

/-- The columns of an enrolment that enrolling sets. -/
structure EnrollmentData where
  programId : Id
  programLevel : Int
  academicYearId : Id
  enrolledYear : String
  deriving DecidableEq

structure CourseData where
  schoolId : Id
  teacherId : Id
  code : String
  title : String
  subjectId : Id
  programId : Id
  programLevel : Int
  level : String
  isPublished : Bool

structure CourseChanges where
  teacherId : Id
  code : Option String
  title : Option String
  subjectId : Option (Option Id)
  programId : Option (Option Id)
  programLevel : Option (Option Int)
  level : Option String
  isPublished : Option Bool

def UpdateSchoolProgramDto.set (data : UpdateSchoolProgramDto) (row : SchoolProgram) : SchoolProgram :=
  { row with
    name := data.name.getD row.name
    diploma := data.diploma.getD row.diploma
    durationYears := data.durationYears.getD row.durationYears
    isActive := data.isActive.getD row.isActive }

def UpdateSchoolAcademicYearDto.set (data : UpdateSchoolAcademicYearDto) (row : SchoolAcademicYear) :
    SchoolAcademicYear :=
  { row with
    label := data.label.getD row.label
    enrollmentOpensAt := data.enrollmentOpensAt.getD row.enrollmentOpensAt
    enrollmentClosesAt := data.enrollmentClosesAt.getD row.enrollmentClosesAt
    isCurrent := data.isCurrent.getD row.isCurrent }

def UpdateTeacherAssignmentDto.set (data : UpdateTeacherAssignmentDto) (row : TeacherSchool) :
    TeacherSchool :=
  { row with
    department := data.department.getD row.department
    specialty := data.specialty.getD row.specialty
    isActive := data.isActive.getD row.isActive }

def CourseData.row (data : CourseData) (id : Id) : Course :=
  { id, schoolId := data.schoolId, teacherId := data.teacherId, code := data.code, title := data.title
    level := data.level, subjectId := some data.subjectId, programId := some data.programId
    programLevel := some data.programLevel, isPublished := data.isPublished }

def CourseChanges.set (data : CourseChanges) (row : Course) : Course :=
  { row with
    teacherId := data.teacherId
    code := data.code.getD row.code
    title := data.title.getD row.title
    subjectId := data.subjectId.getD row.subjectId
    programId := data.programId.getD row.programId
    programLevel := data.programLevel.getD row.programLevel
    level := data.level.getD row.level
    isPublished := data.isPublished.getD row.isPublished }

def EnrollmentData.row (data : EnrollmentData) (id studentId schoolId : Id) : StudentEnrollment :=
  { id, studentId, schoolId, programId := data.programId, programLevel := data.programLevel
    academicYearId := data.academicYearId, enrolledYear := data.enrolledYear, status := .ACTIVE }

def EnrollmentData.set (data : EnrollmentData) (row : StudentEnrollment) : StudentEnrollment :=
  data.row row.id row.studentId row.schoolId

/-! ## Statements -/

inductive Stmt where
  | now
  /-- With the profile of the student. -/
  | userFindUnique (email : String)
  | studentFindUnique (id : Id)
  | teacherFindUnique (id : Id)
  | schoolProgramFindFirst (id schoolId : Id)
  /-- Among those that are not archived. -/
  | schoolProgramFindFirstActive (id schoolId : Id)
  | schoolProgramFindManyActive (schoolId : Id)
  | schoolProgramCreate (schoolId : Id) (data : CreateSchoolProgramDto)
  | schoolProgramUpdate (id : Id) (data : UpdateSchoolProgramDto)
  | schoolAcademicYearFindFirst (id schoolId : Id)
  | schoolAcademicYearFindMany (schoolId : Id)
  /-- Clear the flag of every year of the school that has it, but for one. -/
  | schoolAcademicYearUpdateManyCurrent (schoolId : Id) (excludedId : Option Id)
  | schoolAcademicYearCreate (schoolId : Id) (data : CreateSchoolAcademicYearDto)
  | schoolAcademicYearUpdate (id : Id) (data : UpdateSchoolAcademicYearDto)
  | schoolSubjectFindFirst (id schoolId : Id)
  | schoolSubjectFindFirstActive (id schoolId : Id)
  | schoolSubjectFindManyActive (ids : List Id) (schoolId : Id)
  | schoolSubjectCreate (schoolId : Id) (name : String)
  | schoolSubjectUpdate (id : Id) (isActive : Bool)
  | teacherSchoolFindFirst (id schoolId : Id)
  | teacherSchoolFindFirstActive (schoolId teacherId : Id)
  | teacherSchoolFindUnique (id : Id)
  | teacherSchoolUpsert (schoolId : Id) (data : AssignTeacherDto)
  | teacherSchoolUpdate (id : Id) (data : UpdateTeacherAssignmentDto)
  | teacherSchoolSubjectDeleteMany (teacherSchoolId : Id)
  | teacherSchoolSubjectCreateMany (teacherSchoolId : Id) (subjectIds : List Id)
  | courseFindFirst (id schoolId : Id)
  /-- The published courses of a level of a programme. -/
  | courseFindMany (schoolId programId : Id) (programLevel : Int)
  | courseCreate (data : CourseData)
  | courseUpdate (id : Id) (data : CourseChanges)
  | courseSlotUpdateMany (courseId teacherId : Id)
  /-- The students of the course whose enrolment in the school is active. -/
  | courseEnrollmentCount (courseId schoolId : Id)
  /-- Of the student, in courses of the school that are not among these. -/
  | courseEnrollmentDeleteMany (studentId schoolId : Id) (courseIds : List Id)
  | courseEnrollmentUpsert (courseId studentId : Id)
  /-- An active enrolment in the programme above a level. -/
  | studentEnrollmentFindFirst (programId : Id) (level : Int)
  /-- With the student. -/
  | studentEnrollmentFindUnique (studentId schoolId : Id)
  /-- With the labels of their years. -/
  | studentEnrollmentFindManyByProgram (programId : Id)
  /-- With the names of their programmes. -/
  | studentEnrollmentFindManyByAcademicYear (academicYearId : Id)
  | studentEnrollmentUpsert (studentId schoolId : Id) (data : EnrollmentData)
  | studentEnrollmentUpdate (id : Id) (data : EnrollmentData)
  | studentEnrollmentUpdateStatus (id : Id) (status : EnrollmentStatus)
  | studentEnrollmentUpdateLabel (id : Id) (enrolledYear : String)

abbrev Ans : Stmt → Type
  | .now => Int
  | .userFindUnique _ => Option (User × Option Student)
  | .studentFindUnique _ => Option Student
  | .teacherFindUnique _ => Option Teacher
  | .schoolProgramFindFirst .. => Option SchoolProgram
  | .schoolProgramFindFirstActive .. => Option SchoolProgram
  | .schoolProgramFindManyActive _ => List SchoolProgram
  | .schoolProgramCreate .. => SchoolProgram
  | .schoolProgramUpdate .. => SchoolProgram
  | .schoolAcademicYearFindFirst .. => Option SchoolAcademicYear
  | .schoolAcademicYearFindMany _ => List SchoolAcademicYear
  | .schoolAcademicYearUpdateManyCurrent .. => List Id
  | .schoolAcademicYearCreate .. => SchoolAcademicYear
  | .schoolAcademicYearUpdate .. => SchoolAcademicYear
  | .schoolSubjectFindFirst .. => Option SchoolSubject
  | .schoolSubjectFindFirstActive .. => Option SchoolSubject
  | .schoolSubjectFindManyActive .. => List Id
  | .schoolSubjectCreate .. => SchoolSubject
  | .schoolSubjectUpdate .. => SchoolSubject
  | .teacherSchoolFindFirst .. => Option TeacherSchool
  | .teacherSchoolFindFirstActive .. => Option TeacherSchool
  | .teacherSchoolFindUnique _ => Option TeacherSchool
  | .teacherSchoolUpsert .. => TeacherSchool
  | .teacherSchoolUpdate .. => TeacherSchool
  | .teacherSchoolSubjectDeleteMany _ => List Id
  | .teacherSchoolSubjectCreateMany .. => Unit
  | .courseFindFirst .. => Option Course
  | .courseFindMany .. => List Id
  | .courseCreate _ => Course
  | .courseUpdate .. => Course
  | .courseSlotUpdateMany .. => List Id
  | .courseEnrollmentCount .. => Nat
  | .courseEnrollmentDeleteMany .. => List Id
  | .courseEnrollmentUpsert .. => CourseEnrollment
  | .studentEnrollmentFindFirst .. => Option StudentEnrollment
  | .studentEnrollmentFindUnique .. => Option (StudentEnrollment × Student)
  | .studentEnrollmentFindManyByProgram _ => List (StudentEnrollment × String)
  | .studentEnrollmentFindManyByAcademicYear _ => List (StudentEnrollment × String)
  | .studentEnrollmentUpsert .. => StudentEnrollment
  | .studentEnrollmentUpdate .. => StudentEnrollment
  | .studentEnrollmentUpdateStatus .. => StudentEnrollment
  | .studentEnrollmentUpdateLabel .. => StudentEnrollment

abbrev interface : Interface := ⟨Stmt, Ans, Failure⟩

namespace World

def programNameFree (s : World) (row : SchoolProgram) : Bool :=
  s.programs.rows.all fun p => p.id = row.id ∨ ¬(p.schoolId = row.schoolId ∧ p.name = row.name)

def labelFree (s : World) (row : SchoolAcademicYear) : Bool :=
  s.academicYears.rows.all fun y => y.id = row.id ∨ ¬(y.schoolId = row.schoolId ∧ y.label = row.label)

def subjectNameFree (s : World) (row : SchoolSubject) : Bool :=
  s.subjects.rows.all fun b => b.id = row.id ∨ ¬(b.schoolId = row.schoolId ∧ b.name = row.name)

/-- Does the student exist, and is the account not deleted? -/
def hasStudent (s : World) (studentId : Id) : Bool :=
  (s.students.find? studentId).any fun x => x.isDeleted = false

/-- Is the student actively enrolled in the school? -/
def isEnrolled (s : World) (studentId schoolId : Id) : Bool :=
  (s.studentEnrollments.find? (studentId, schoolId)).any (·.status = .ACTIVE)

/-- The courses of the school in which the student is enrolled. -/
def coursesOf (s : World) (studentId schoolId : Id) : List Id :=
  (s.courseEnrollments.rows.filter fun e => e.studentId = studentId ∧
    (s.courses.find? e.courseId).any (·.schoolId = schoolId)).map (·.courseId)

end World

/-- What a statement is answered with that the rows do not say: the time, or the identifier of a row
    that is created. -/
structure Choice where
  now : Int := 0
  id : Id := 0

/-- Answer a statement; `none` where it cannot succeed. -/
def exec : (q : Stmt) → Choice → World → Option (Ans q)
  | .now, c, _ => some c.now
  | .userFindUnique email, _, s =>
      some <| (s.users.rows.find? (·.email = email)).map fun user =>
        (user, s.students.rows.find? (·.userId = user.id))
  | .studentFindUnique id, _, s => some (s.students.find? id)
  | .teacherFindUnique id, _, s => some (s.teachers.find? id)
  | .schoolProgramFindFirst id schoolId, _, s =>
      some ((s.programs.find? id).filter (·.schoolId = schoolId))
  | .schoolProgramFindFirstActive id schoolId, _, s =>
      some ((s.programs.find? id).filter fun p => p.schoolId = schoolId ∧ p.isActive)
  | .schoolProgramFindManyActive schoolId, _, s =>
      some (s.programs.rows.filter fun p => p.schoolId = schoolId ∧ p.isActive)
  | .schoolProgramCreate schoolId data, c, s =>
      let row : SchoolProgram := ⟨c.id, schoolId, data.name, data.diploma, data.durationYears, true⟩
      if s.programs.contains c.id ∨ ¬ s.programNameFree row then none else some row
  | .schoolProgramUpdate id data, _, s =>
      ((s.programs.find? id).map data.set).filter s.programNameFree
  | .schoolAcademicYearFindFirst id schoolId, _, s =>
      some ((s.academicYears.find? id).filter (·.schoolId = schoolId))
  | .schoolAcademicYearFindMany schoolId, _, s =>
      some (s.academicYears.rows.filter (·.schoolId = schoolId))
  | .schoolAcademicYearUpdateManyCurrent schoolId excludedId, _, s =>
      some ((s.academicYears.rows.filter fun y =>
        y.schoolId = schoolId ∧ y.isCurrent ∧ excludedId ≠ some y.id).map (·.id))
  | .schoolAcademicYearCreate schoolId data, c, s =>
      let row : SchoolAcademicYear := ⟨c.id, schoolId, data.label, data.enrollmentOpensAt,
        data.enrollmentClosesAt, data.isCurrent.getD false⟩
      if s.academicYears.contains c.id ∨ ¬ s.labelFree row then none else some row
  | .schoolAcademicYearUpdate id data, _, s =>
      ((s.academicYears.find? id).map data.set).filter s.labelFree
  | .schoolSubjectFindFirst id schoolId, _, s =>
      some ((s.subjects.find? id).filter (·.schoolId = schoolId))
  | .schoolSubjectFindFirstActive id schoolId, _, s =>
      some ((s.subjects.find? id).filter fun b => b.schoolId = schoolId ∧ b.isActive)
  | .schoolSubjectFindManyActive ids schoolId, _, s =>
      some ((s.subjects.rows.filter fun b => b.id ∈ ids ∧ b.schoolId = schoolId ∧ b.isActive).map (·.id))
  | .schoolSubjectCreate schoolId name, c, s =>
      let row : SchoolSubject := ⟨c.id, schoolId, name, true⟩
      if s.subjects.contains c.id ∨ ¬ s.subjectNameFree row then none else some row
  | .schoolSubjectUpdate id isActive, _, s =>
      (s.subjects.find? id).map fun b => { b with isActive }
  | .teacherSchoolFindFirst id schoolId, _, s =>
      some ((s.teacherSchools.findNumber? id).filter (·.schoolId = schoolId))
  | .teacherSchoolFindFirstActive schoolId teacherId, _, s =>
      some ((s.teacherSchools.find? (teacherId, schoolId)).filter (·.isActive))
  | .teacherSchoolFindUnique id, _, s => some (s.teacherSchools.findNumber? id)
  | .teacherSchoolUpsert schoolId data, c, s =>
      match s.teacherSchools.find? (data.teacherId, schoolId) with
      | some a =>
          some { a with
            department := data.department.getD a.department
            specialty := data.specialty.getD a.specialty
            isActive := true }
      | none =>
          let row : TeacherSchool := ⟨c.id, data.teacherId, schoolId, data.department.getD none,
            data.specialty.getD none, true⟩
          if s.teacherSchools.Fits row then some row else none
  | .teacherSchoolUpdate id data, _, s => (s.teacherSchools.findNumber? id).map data.set
  | .teacherSchoolSubjectDeleteMany teacherSchoolId, _, s =>
      some ((s.teacherSchoolSubjects.rows.filter (·.teacherSchoolId = teacherSchoolId)).map
        (·.subjectId))
  | .teacherSchoolSubjectCreateMany .., _, _ => some ()
  | .courseFindFirst id schoolId, _, s => some ((s.courses.find? id).filter (·.schoolId = schoolId))
  | .courseFindMany schoolId programId programLevel, _, s =>
      some ((s.courses.rows.filter fun course => course.schoolId = schoolId ∧
        course.programId = some programId ∧ course.programLevel = some programLevel ∧
          course.isPublished).map (·.id))
  | .courseCreate data, c, s => if s.courses.contains c.id then none else some (data.row c.id)
  | .courseUpdate id data, _, s => (s.courses.find? id).map data.set
  | .courseSlotUpdateMany courseId _, _, s =>
      some ((s.courseSlots.rows.filter (·.courseId = courseId)).map (·.id))
  | .courseEnrollmentCount courseId schoolId, _, s =>
      some (s.courseEnrollments.count fun e => e.courseId = courseId ∧ s.hasStudent e.studentId ∧
        s.isEnrolled e.studentId schoolId)
  | .courseEnrollmentDeleteMany studentId schoolId courseIds, _, s =>
      some ((s.coursesOf studentId schoolId).filter (· ∉ courseIds))
  | .courseEnrollmentUpsert courseId studentId, _, s =>
      if s.courses.contains courseId ∧ s.students.contains studentId then some ⟨courseId, studentId⟩
      else none
  | .studentEnrollmentFindFirst programId level, _, s =>
      some (s.studentEnrollments.rows.find? fun e => e.programId = programId ∧ level < e.programLevel ∧
        e.status = .ACTIVE ∧ s.hasStudent e.studentId)
  | .studentEnrollmentFindUnique studentId schoolId, _, s =>
      some <| (s.studentEnrollments.find? (studentId, schoolId)).bind fun e =>
        (s.students.find? studentId).map fun x => (e, x)
  | .studentEnrollmentFindManyByProgram programId, _, s =>
      some <| (s.studentEnrollments.rows.filter fun e =>
          e.programId = programId ∧ s.hasStudent e.studentId).filterMap fun e =>
        (s.academicYears.find? e.academicYearId).map fun y => (e, y.label)
  | .studentEnrollmentFindManyByAcademicYear academicYearId, _, s =>
      some <| (s.studentEnrollments.rows.filter fun e =>
          e.academicYearId = academicYearId ∧ s.hasStudent e.studentId).filterMap fun e =>
        (s.programs.find? e.programId).map fun p => (e, p.name)
  | .studentEnrollmentUpsert studentId schoolId data, c, s =>
      match s.studentEnrollments.find? (studentId, schoolId) with
      | some e => some (data.set e)
      | none =>
          let row := data.row c.id studentId schoolId
          if s.studentEnrollments.Fits row ∧ s.students.contains studentId then some row else none
  | .studentEnrollmentUpdate id data, _, s => (s.studentEnrollments.findNumber? id).map data.set
  | .studentEnrollmentUpdateStatus id status, _, s =>
      (s.studentEnrollments.findNumber? id).map fun e => { e with status }
  | .studentEnrollmentUpdateLabel id enrolledYear, _, s =>
      (s.studentEnrollments.findNumber? id).map fun e => { e with enrolledYear }

/-! ## Writes -/

inductive Write where
  | program (row : SchoolProgram)
  | setProgram (id : Id) (data : UpdateSchoolProgramDto)
  | academicYear (row : SchoolAcademicYear)
  | setAcademicYear (id : Id) (data : UpdateSchoolAcademicYearDto)
  | subject (row : SchoolSubject)
  | setSubject (id : Id) (isActive : Bool)
  | teacherSchool (row : TeacherSchool)
  | setTeacherSchool (id : Id) (data : UpdateTeacherAssignmentDto)
  | qualification (row : TeacherSchoolSubject)
  | unqualified (row : TeacherSchoolSubject)
  | course (row : Course)
  | setCourse (id : Id) (data : CourseChanges)
  | setCourseSlot (id teacherId : Id)
  | courseEnrollment (row : CourseEnrollment)
  | courseLeft (row : CourseEnrollment)
  | studentEnrollment (row : StudentEnrollment)
  | setStudentEnrollment (id : Id) (data : EnrollmentData)
  | setStatus (id : Id) (status : EnrollmentStatus)
  | setLabel (id : Id) (enrolledYear : String)

def writes : (q : Stmt) → Ans q → List Write
  | .schoolProgramCreate .., row => [.program row]
  | .schoolProgramUpdate id data, _ => [.setProgram id data]
  | .schoolAcademicYearUpdateManyCurrent .., ids =>
      List.map (fun id => .setAcademicYear id { isCurrent := some false }) ids
  | .schoolAcademicYearCreate .., row => [.academicYear row]
  | .schoolAcademicYearUpdate id data, _ => [.setAcademicYear id data]
  | .schoolSubjectCreate .., row => [.subject row]
  | .schoolSubjectUpdate id isActive, _ => [.setSubject id isActive]
  | .teacherSchoolUpsert .., row => [.teacherSchool row]
  | .teacherSchoolUpdate id data, _ => [.setTeacherSchool id data]
  | .teacherSchoolSubjectDeleteMany teacherSchoolId, subjectIds =>
      List.map (fun id => .unqualified ⟨teacherSchoolId, id⟩) subjectIds
  | .teacherSchoolSubjectCreateMany teacherSchoolId subjectIds, _ =>
      subjectIds.map fun id => .qualification ⟨teacherSchoolId, id⟩
  | .courseCreate _, row => [.course row]
  | .courseUpdate id data, _ => [.setCourse id data]
  | .courseSlotUpdateMany _ teacherId, ids => List.map (fun id => .setCourseSlot id teacherId) ids
  | .courseEnrollmentDeleteMany studentId .., courseIds =>
      List.map (fun id => .courseLeft ⟨id, studentId⟩) courseIds
  | .courseEnrollmentUpsert courseId studentId, _ => [.courseEnrollment ⟨courseId, studentId⟩]
  | .studentEnrollmentUpsert .., row => [.studentEnrollment row]
  | .studentEnrollmentUpdate id data, _ => [.setStudentEnrollment id data]
  | .studentEnrollmentUpdateStatus id status, _ => [.setStatus id status]
  | .studentEnrollmentUpdateLabel id enrolledYear, _ => [.setLabel id enrolledYear]
  | _, _ => []

/-- Assign a teacher who is not assigned yet, or set the columns of the assignment. -/
def putTeacherSchool (row : TeacherSchool) (t : Indexed TeacherSchool) : Indexed TeacherSchool :=
  if t.contains (Keyed.key row) then
    t.modify (Keyed.key row) (fun a => { a with
      department := row.department, specialty := row.specialty, isActive := row.isActive })
      (fun _ => rfl) fun _ => rfl
  else t.insert row

/-- Enrol a student who is not enrolled yet, or set the columns of the enrolment. -/
def putStudentEnrollment (row : StudentEnrollment) (t : Indexed StudentEnrollment) :
    Indexed StudentEnrollment :=
  if t.contains (Keyed.key row) then
    t.modify (Keyed.key row) (fun e => { e with
      programId := row.programId, programLevel := row.programLevel
      academicYearId := row.academicYearId, enrolledYear := row.enrolledYear, status := row.status })
      (fun _ => rfl) fun _ => rfl
  else t.insert row

def World.apply : Write → World → World
  | .program row, s => { s with programs := s.programs.insert row }
  | .setProgram id data, s => { s with programs := s.programs.modify id data.set fun _ => rfl }
  | .academicYear row, s => { s with academicYears := s.academicYears.insert row }
  | .setAcademicYear id data, s =>
      { s with academicYears := s.academicYears.modify id data.set fun _ => rfl }
  | .subject row, s => { s with subjects := s.subjects.insert row }
  | .setSubject id isActive, s =>
      { s with subjects := s.subjects.modify id (fun b => { b with isActive }) fun _ => rfl }
  | .teacherSchool row, s => { s with teacherSchools := putTeacherSchool row s.teacherSchools }
  | .setTeacherSchool id data, s =>
      { s with
        teacherSchools := s.teacherSchools.modifyNumber id data.set (fun _ => rfl) fun _ => rfl }
  | .qualification row, s => { s with teacherSchoolSubjects := s.teacherSchoolSubjects.insert row }
  | .unqualified row, s =>
      { s with teacherSchoolSubjects := s.teacherSchoolSubjects.filter (· ≠ row) }
  | .course row, s => { s with courses := s.courses.insert row }
  | .setCourse id data, s => { s with courses := s.courses.modify id data.set fun _ => rfl }
  | .setCourseSlot id teacherId, s =>
      { s with courseSlots := s.courseSlots.modify id (fun x => { x with teacherId }) fun _ => rfl }
  | .courseEnrollment row, s => { s with courseEnrollments := s.courseEnrollments.insert row }
  | .courseLeft row, s => { s with courseEnrollments := s.courseEnrollments.filter (· ≠ row) }
  | .studentEnrollment row, s =>
      { s with studentEnrollments := putStudentEnrollment row s.studentEnrollments }
  | .setStudentEnrollment id data, s =>
      { s with
        studentEnrollments :=
          s.studentEnrollments.modifyNumber id data.set (fun _ => rfl) fun _ => rfl }
  | .setStatus id status, s =>
      { s with
        studentEnrollments :=
          s.studentEnrollments.modifyNumber id (fun e => { e with status }) (fun _ => rfl) fun _ => rfl }
  | .setLabel id enrolledYear, s =>
      { s with
        studentEnrollments := s.studentEnrollments.modifyNumber id (fun e => { e with enrolledYear })
          (fun _ => rfl) fun _ => rfl }

/-! ## People -/

/-- What other services do to people: they register, and accounts are changed or deleted. -/
inductive Change where
  | user (row : User)
  | student (row : Student)
  | teacher (row : Teacher)
  | studentDeleted (id : Id)

def World.change : Change → World → World
  | .user row, s => { s with users := s.users.put row }
  | .student row, s => { s with students := s.students.insert row }
  | .teacher row, s => { s with teachers := s.teachers.insert row }
  | .studentDeleted id, s =>
      { s with students := s.students.modify id (fun x => { x with isDeleted := true }) fun _ => rfl }

abbrev model : Model interface where
  State := World
  Choice := Choice
  Write := Write
  Key := Empty
  Env := Change
  exec := exec
  writes := writes
  apply := World.apply
  key _ := none
  env := World.change

end GetPlatform.Schools
