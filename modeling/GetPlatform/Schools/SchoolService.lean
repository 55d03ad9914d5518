import GetPlatform.Store.Trace
import GetPlatform.Schools.World
import GetPlatform.Text

set_option autoImplicit false

/-! # `SchoolService`

Programmes, academic years, subjects, teachers, courses and enrolments of a school. Only the writes that
follow an enrolment, a new label, a current year and a list of subjects are transactions: whatever a
call has checked before it writes may have changed since. -/

namespace GetPlatform.Schools

/-- The exceptions a call can end with. -/
inductive Err where
  | NotFoundException (message : String)
  | BadRequestException (message : String)
  | ForbiddenException (message : String)
  | failure (f : Failure)
  deriving DecidableEq

abbrev Call (α : Type) := Prog interface Err α

def perform (q : Stmt) : Call (Ans q) := @Prog.query interface Err .failure q

def transaction {α : Type} (body : Call α) : Call α :=
  Prog.transaction .failure .readCommitted body

/-- What the host's texts are made of. -/
structure Host where
  toLowerCase : String → String
  toLocaleDateString : Int → String

/-! ## Courses of a student -/

/-- Enrol the student in each course, if he is not yet. -/
def upsertCourses (studentId : Id) : List Id → Call Unit
  | [] => return
  | courseId :: courseIds => do
      let _ ← perform (.courseEnrollmentUpsert courseId studentId)
      upsertCourses studentId courseIds

def syncCourseEnrollments (studentId schoolId programId : Id) (programLevel : Int) : Call Unit := do
  let courses ← perform (.courseFindMany schoolId programId programLevel)
  transaction do
    let _ ← perform (.courseEnrollmentDeleteMany studentId schoolId courses)
    upsertCourses studentId courses

/-! ## Programmes and academic years -/

def enrollmentLabel (programName : String) (level : Int) (academicYearLabel : String) : String :=
  s!"Année {level} · {programName} · {academicYearLabel}"

def createProgram (schoolId : Id) (dto : CreateSchoolProgramDto) : Call SchoolProgram :=
  perform (.schoolProgramCreate schoolId
    { dto with name := trim dto.name, diploma := trim dto.diploma })

/-- Give each enrolment its label. -/
def updateLabels : List (Id × String) → Call Unit
  | [] => return
  | (id, label) :: labels => do
      let _ ← perform (.studentEnrollmentUpdateLabel id label)
      updateLabels labels

def refreshProgramEnrollmentLabels (programId : Id) (programName : String) : Call Unit := do
  let enrollments ← perform (.studentEnrollmentFindManyByProgram programId)
  transaction <| updateLabels <| enrollments.map fun (enrollment, label) =>
    (enrollment.id, enrollmentLabel programName enrollment.programLevel label)

def refreshAcademicYearEnrollmentLabels (academicYearId : Id) (academicYearLabel : String) :
    Call Unit := do
  let enrollments ← perform (.studentEnrollmentFindManyByAcademicYear academicYearId)
  transaction <| updateLabels <| enrollments.map fun (enrollment, name) =>
    (enrollment.id, enrollmentLabel name enrollment.programLevel academicYearLabel)

/-- The duration that a request asks for, when it is shorter than the one there is. -/
def shorterDuration (dto : UpdateSchoolProgramDto) (program : SchoolProgram) : Option Int :=
  dto.durationYears.filter fun years => years ≠ 0 ∧ years < program.durationYears

def updateProgram (schoolId id : Id) (dto : UpdateSchoolProgramDto) : Call SchoolProgram := do
  let some program ← perform (.schoolProgramFindFirst id schoolId)
    | throw <| .NotFoundException "Filière introuvable"
  if let some durationYears := shorterDuration dto program then
    let higherLevelEnrollment ← perform (.studentEnrollmentFindFirst id durationYears)
    if higherLevelEnrollment.isSome then
      throw <| .BadRequestException
        "La durée ne peut pas être inférieure au niveau d’un étudiant inscrit"
  let updated ← perform (.schoolProgramUpdate id
    { dto with name := dto.name.map trim, diploma := dto.diploma.map trim })
  if dto.name.isSome then refreshProgramEnrollmentLabels id updated.name
  return updated

def assertEnrollmentPeriod (opensAt closesAt : Int) : Call Unit :=
  if closesAt < opensAt then
    throw <| .BadRequestException "La date de fermeture doit être postérieure à la date d'ouverture"
  else return

def createAcademicYear (schoolId : Id) (dto : CreateSchoolAcademicYearDto) :
    Call SchoolAcademicYear := do
  assertEnrollmentPeriod dto.enrollmentOpensAt dto.enrollmentClosesAt
  transaction do
    if dto.isCurrent = some true then
      let _ ← perform (.schoolAcademicYearUpdateManyCurrent schoolId none)
    perform (.schoolAcademicYearCreate schoolId { dto with label := trim dto.label })

def updateAcademicYear (schoolId id : Id) (dto : UpdateSchoolAcademicYearDto) :
    Call SchoolAcademicYear := do
  let some academicYear ← perform (.schoolAcademicYearFindFirst id schoolId)
    | throw <| .NotFoundException "Année académique introuvable"
  assertEnrollmentPeriod (dto.enrollmentOpensAt.getD academicYear.enrollmentOpensAt)
    (dto.enrollmentClosesAt.getD academicYear.enrollmentClosesAt)
  let updated ← transaction do
    if dto.isCurrent = some true then
      let _ ← perform (.schoolAcademicYearUpdateManyCurrent schoolId (some id))
    perform (.schoolAcademicYearUpdate id { dto with label := dto.label.map trim })
  if dto.label.isSome then refreshAcademicYearEnrollmentLabels id updated.label
  return updated

/-! ## Subjects and teachers -/

def createSubject (schoolId : Id) (name : String) : Call SchoolSubject :=
  perform (.schoolSubjectCreate schoolId (trim name))

def updateSubject (schoolId id : Id) (isActive : Bool) : Call SchoolSubject := do
  let some _ ← perform (.schoolSubjectFindFirst id schoolId)
    | throw <| .NotFoundException "Matière introuvable"
  perform (.schoolSubjectUpdate id isActive)

/-- Of the subjects that are asked for, the school's own take the place of what there was. -/
def syncTeacherSubjects (schoolId teacherSchoolId : Id) (subjectIds : List Id) : Call Unit := do
  let subjects ← perform (.schoolSubjectFindManyActive subjectIds schoolId)
  transaction do
    let _ ← perform (.teacherSchoolSubjectDeleteMany teacherSchoolId)
    perform (.teacherSchoolSubjectCreateMany teacherSchoolId subjects)

def assignTeacher (schoolId : Id) (dto : AssignTeacherDto) : Call (Option TeacherSchool) := do
  let some _ ← perform (.teacherFindUnique dto.teacherId)
    | throw <| .NotFoundException "Teacher not found"
  let assignment ← perform (.teacherSchoolUpsert schoolId dto)
  if let some subjectIds := dto.subjectIds then
    syncTeacherSubjects schoolId assignment.id subjectIds
  perform (.teacherSchoolFindUnique assignment.id)

def updateTeacherAssignment (schoolId teacherSchoolId : Id) (dto : UpdateTeacherAssignmentDto) :
    Call TeacherSchool := do
  let some _ ← perform (.teacherSchoolFindFirst teacherSchoolId schoolId)
    | throw <| .NotFoundException "Teacher assignment not found"
  let updated ← perform (.teacherSchoolUpdate teacherSchoolId dto)
  if let some subjectIds := dto.subjectIds then
    syncTeacherSubjects schoolId teacherSchoolId subjectIds
  return updated

/-! ## Courses -/

def ensureActiveTeacherAssignment (schoolId teacherId : Id) : Call Unit := do
  let some _ ← perform (.teacherSchoolFindFirstActive schoolId teacherId)
    | throw <| .ForbiddenException
        "Le professeur doit être activement affecté à cet établissement"

def createCourse (schoolId : Id) (dto : CreateSchoolCourseDto) : Call Course := do
  ensureActiveTeacherAssignment schoolId dto.teacherId
  let subject ← perform (.schoolSubjectFindFirstActive dto.subjectId schoolId)
  let program ← perform (.schoolProgramFindFirstActive dto.programId schoolId)
  match subject, program with
  | some subject, some program =>
      if dto.programLevel > program.durationYears then
        throw <| .BadRequestException
          s!"Ce programme ne compte que {program.durationYears} année(s)"
      perform <| .courseCreate
        { schoolId, teacherId := dto.teacherId, code := dto.code, title := subject.name
          subjectId := subject.id, programId := program.id, programLevel := dto.programLevel
          level := s!"Année {dto.programLevel} · {program.name}"
          isPublished := dto.isPublished.getD true }
  | _, _ => throw <| .NotFoundException "Matière ou filière introuvable"

/-- The subject that a change names, if it names one. -/
def namedSubject (schoolId : Id) : Option Id → Call (Option SchoolSubject)
  | none => return none
  | some id => perform (.schoolSubjectFindFirstActive id schoolId)

def namedProgram (schoolId : Id) : Option Id → Call (Option SchoolProgram)
  | none => return none
  | some id => perform (.schoolProgramFindFirstActive id schoolId)

/-- The level of a course, when its programme and its level are both given. -/
def courseLevel (program : Option SchoolProgram) (programLevel : Option Int) : Option String := do
  let program ← program
  let level ← programLevel.filter (· ≠ 0)
  return s!"Année {level} · {program.name}"

/-- What a slot that would overlap another one of the teacher is reported as. -/
def translateExclusionConstraintError : Err → Option Err
  | .failure .exclusionConstraint => some <| .BadRequestException
      "Ce professeur vient d'être réservé sur ce créneau par un autre établissement. Veuillez réessayer avec un autre horaire."
  | _ => none

/-- The slots of a course go to its teacher. -/
def moveCourseSlots (courseId teacherId : Id) : Call Unit :=
  try
    let _ ← perform (.courseSlotUpdateMany courseId teacherId)
  catch error => throw ((translateExclusionConstraintError error).getD error)

def updateCourse (schoolId courseId : Id) (dto : UpdateSchoolCourseDto) : Call Course := do
  let some course ← perform (.courseFindFirst courseId schoolId)
    | throw <| .NotFoundException "Course not found"
  if dto.isPublished = some false then
    let activeEnrollmentCount ← perform (.courseEnrollmentCount courseId schoolId)
    if activeEnrollmentCount > 0 then
      throw <| .BadRequestException
        "Impossible de désactiver ce cours : des étudiants y sont encore inscrits."
  let teacherId := dto.teacherId.getD course.teacherId
  ensureActiveTeacherAssignment schoolId teacherId
  let subject ← namedSubject schoolId dto.subjectId.join
  let program ← namedProgram schoolId dto.programId.join
  if (dto.subjectId.join.isSome ∧ subject.isNone) ∨ (dto.programId.join.isSome ∧ program.isNone) then
    throw <| .NotFoundException "Matière ou filière introuvable"
  let updated ← perform <| .courseUpdate courseId
    { teacherId, code := dto.code, title := subject.map (·.name), subjectId := dto.subjectId
      programId := dto.programId, programLevel := dto.programLevel
      level := courseLevel program dto.programLevel.join, isPublished := dto.isPublished }
  if dto.teacherId.any (· ≠ course.teacherId) then moveCourseSlots courseId teacherId
  return updated

/-! ## Enrolments -/

variable (host : Host)

/-- The student of an address, if it belongs to a student whose account is not deleted. -/
def studentOf (found : Option (User × Option Student)) : Option Student := do
  let (user, student) ← found
  let student ← student
  if user.role ≠ some "STUDENT" ∨ student.isDeleted then none else some student

def enrollStudent (schoolId : Id) (dto : EnrollStudentDto) : Call (Option Student) := do
  let found ← perform (.userFindUnique (host.toLowerCase (trim dto.email)))
  let some student := studentOf found
    | throw <| .NotFoundException "Aucun compte étudiant trouvé pour cet e-mail"
  let some academicYear ← perform (.schoolAcademicYearFindFirst dto.academicYearId schoolId)
    | throw <| .NotFoundException "Année académique introuvable"
  let now ← perform .now
  if now < academicYear.enrollmentOpensAt ∨ now > academicYear.enrollmentClosesAt then
    throw <| .ForbiddenException s!"Les inscriptions pour cette année académique ne sont pas ouvertes actuellement (période : {host.toLocaleDateString academicYear.enrollmentOpensAt} – {host.toLocaleDateString academicYear.enrollmentClosesAt})."
  let some program ← perform (.schoolProgramFindFirstActive dto.programId schoolId)
    | throw <| .NotFoundException "Filière introuvable ou archivée"
  if dto.level > program.durationYears then
    throw <| .BadRequestException s!"Ce programme ne compte que {program.durationYears} année(s)"
  let _ ← perform <| .studentEnrollmentUpsert student.id schoolId
    ⟨dto.programId, dto.level, dto.academicYearId,
      enrollmentLabel program.name dto.level academicYear.label⟩
  syncCourseEnrollments student.id schoolId program.id dto.level
  perform (.studentFindUnique student.id)

def updateEnrollment (schoolId studentId : Id) (data : UpdateSchoolStudentEnrollmentDto) :
    Call StudentEnrollment := do
  let some (enrollment, student) ← perform (.studentEnrollmentFindUnique studentId schoolId)
    | throw <| .NotFoundException "Étudiant inscrit introuvable"
  if student.isDeleted then throw <| .NotFoundException "Étudiant inscrit introuvable"
  if data.status ≠ .ACTIVE then
    return ← perform (.studentEnrollmentUpdateStatus enrollment.id data.status)
  let level := data.level.getD enrollment.programLevel
  let program ← perform (.schoolProgramFindFirst (data.programId.getD enrollment.programId) schoolId)
  let academicYear ← perform
    (.schoolAcademicYearFindFirst (data.academicYearId.getD enrollment.academicYearId) schoolId)
  match program, academicYear with
  | some program, some academicYear =>
      if level = 0 ∨ level > program.durationYears then
        throw <| .BadRequestException "Filière, niveau ou année académique invalide"
      let updatedEnrollment ← perform <| .studentEnrollmentUpdate enrollment.id
        ⟨program.id, level, academicYear.id, enrollmentLabel program.name level academicYear.label⟩
      syncCourseEnrollments studentId schoolId program.id level
      return updatedEnrollment
  | _, _ => throw <| .BadRequestException "Filière, niveau ou année académique invalide"

/-! ## Imports -/

/-- The outcome of an import: the addresses that were enrolled, and the lines that were not, each with
    the exception whose message is the reason. -/
structure Import where
  succeeded : List String := []
  failed : List (EnrollmentRow × Err) := []
  deriving DecidableEq

/-- The last of the rows whose text reads as `text`, but for case and the blanks around it. -/
def byText {ρ : Type} (textOf : ρ → String) (rows : List ρ) (text : String) : Option ρ :=
  rows.reverse.find? fun r => host.toLowerCase (trim (textOf r)) = host.toLowerCase (trim text)

def enrollRow (schoolId : Id) (programs : List SchoolProgram) (academicYears : List SchoolAcademicYear)
    (row : EnrollmentRow) : Call Unit := do
  let program := byText host (·.name) programs row.programName
  let academicYear := byText host (·.label) academicYears row.academicYearLabel
  let some program := program | throw <| .NotFoundException "Filière introuvable"
  let some academicYear := academicYear
    | throw <| .NotFoundException "Année académique introuvable"
  let _ ← enrollStudent host schoolId ⟨row.email, program.id, row.level, academicYear.id⟩

/-- Each line by itself: one that fails does not stop the others. -/
def enrollRows (schoolId : Id) (programs : List SchoolProgram)
    (academicYears : List SchoolAcademicYear) : List EnrollmentRow → Import → Call Import
  | [], done => return done
  | row :: rows, done => do
      let done ←
        try
          enrollRow host schoolId programs academicYears row
          pure { done with succeeded := done.succeeded ++ [row.email] }
        catch error => pure { done with failed := done.failed ++ [(row, error)] }
      enrollRows schoolId programs academicYears rows done

def bulkEnrollStudents (schoolId : Id) (rows : List EnrollmentRow) : Call Import := do
  let programs ← perform (.schoolProgramFindManyActive schoolId)
  let academicYears ← perform (.schoolAcademicYearFindMany schoolId)
  enrollRows host schoolId programs academicYears rows {}

/-! ## Calls -/

inductive Op where
  | createProgram (schoolId : Id) (dto : CreateSchoolProgramDto)
  | updateProgram (schoolId id : Id) (dto : UpdateSchoolProgramDto)
  | createAcademicYear (schoolId : Id) (dto : CreateSchoolAcademicYearDto)
  | updateAcademicYear (schoolId id : Id) (dto : UpdateSchoolAcademicYearDto)
  | createSubject (schoolId : Id) (name : String)
  | updateSubject (schoolId id : Id) (isActive : Bool)
  | assignTeacher (schoolId : Id) (dto : AssignTeacherDto)
  | updateTeacherAssignment (schoolId teacherSchoolId : Id) (dto : UpdateTeacherAssignmentDto)
  | createCourse (schoolId : Id) (dto : CreateSchoolCourseDto)
  | updateCourse (schoolId courseId : Id) (dto : UpdateSchoolCourseDto)
  | enrollStudent (schoolId : Id) (dto : EnrollStudentDto)
  | updateEnrollment (schoolId studentId : Id) (data : UpdateSchoolStudentEnrollmentDto)
  | bulkEnrollStudents (schoolId : Id) (rows : List EnrollmentRow)

/-- What a call returns. -/
inductive Reply where
  | program (row : SchoolProgram)
  | academicYear (row : SchoolAcademicYear)
  | subject (row : SchoolSubject)
  | assignment (row : Option TeacherSchool)
  | course (row : Course)
  | student (row : Option Student)
  | enrollment (row : StudentEnrollment)
  | imported (outcome : Import)
  deriving DecidableEq

def program : Op → Call Reply
  | .createProgram schoolId dto => .program <$> createProgram schoolId dto
  | .updateProgram schoolId id dto => .program <$> updateProgram schoolId id dto
  | .createAcademicYear schoolId dto => .academicYear <$> createAcademicYear schoolId dto
  | .updateAcademicYear schoolId id dto => .academicYear <$> updateAcademicYear schoolId id dto
  | .createSubject schoolId name => .subject <$> createSubject schoolId name
  | .updateSubject schoolId id isActive => .subject <$> updateSubject schoolId id isActive
  | .assignTeacher schoolId dto => .assignment <$> assignTeacher schoolId dto
  | .updateTeacherAssignment schoolId id dto =>
      (fun row => .assignment (some row)) <$> updateTeacherAssignment schoolId id dto
  | .createCourse schoolId dto => .course <$> createCourse schoolId dto
  | .updateCourse schoolId courseId dto => .course <$> updateCourse schoolId courseId dto
  | .enrollStudent schoolId dto => .student <$> enrollStudent host schoolId dto
  | .updateEnrollment schoolId studentId data => .enrollment <$> updateEnrollment schoolId studentId data
  | .bulkEnrollStudents schoolId rows => .imported <$> bulkEnrollStudents host schoolId rows

end GetPlatform.Schools
