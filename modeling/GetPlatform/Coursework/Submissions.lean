import GetPlatform.Coursework.World

set_option autoImplicit false

/-! # Handing in and grading

`StudentService.submitAssignment` and `TeachingService.gradeSubmission`. None of their statements is in
a transaction. -/

namespace GetPlatform.Coursework

/-- The exceptions a call can end with. -/
inductive Err where
  | NotFoundException (message : String)
  | ForbiddenException (message : String)
  | ConflictException (message : String)
  | failure (f : Failure)
  deriving DecidableEq

abbrev Call (α : Type) := Prog interface Err α

def perform (q : Stmt) : Call (Ans q) := @Prog.query interface Err .failure q

/-! ## `StudentService` -/

def enrolledStudent (userId : Id) : Call Student := do
  let some student ← perform (.studentFindUnique userId)
    | throw <| .NotFoundException "Student not found"
  return student

/-- An enrolment counts while the one in the school of the course is active. -/
def courseEnrollment (studentId courseId : Id) : Call Unit := do
  let some schoolId ← perform (.courseEnrollmentFindUnique courseId studentId)
    | throw <| .NotFoundException "Cours introuvable"
  let status ← perform (.studentEnrollmentFindUnique studentId schoolId)
  if status ≠ some .ACTIVE then throw <| .NotFoundException "Cours introuvable"

def submitAssignment (userId assignmentId : Id) (file : File) : Call AssignmentSubmission := do
  let student ← enrolledStudent userId
  let some assignment ← perform (.assignmentFindUnique assignmentId)
    | throw <| .NotFoundException "Devoir introuvable"
  if assignment.publishedAt = none then throw <| .NotFoundException "Devoir introuvable"
  courseEnrollment student.id assignment.courseId
  let existingSubmission ← perform (.submissionFindUniqueByStudent assignmentId student.id)
  if (existingSubmission.bind (·.grade)).isSome then
    throw <| .ConflictException
      "Cette soumission a déjà été notée et ne peut plus être remplacée"
  let object ← perform (.uploadDocument file student.id)
  let now ← perform .now
  perform (.submissionUpsert assignmentId student.id object.url now)

/-! ## `TeachingService` -/

def teacher (userId : Id) : Call Teacher := do
  let some teacher ← perform (.teacherFindUnique userId)
    | throw <| .ForbiddenException "Profil professeur introuvable"
  return teacher

def course (userId courseId : Id) : Call Course := do
  let teacher ← teacher userId
  let some course ← perform (.courseFindFirst courseId teacher.id)
    | throw <| .NotFoundException "Cours introuvable"
  return course

def assignment (userId assignmentId : Id) : Call Assignment := do
  let some assignment ← perform (.assignmentFindUnique assignmentId)
    | throw <| .NotFoundException "Devoir introuvable"
  let _ ← course userId assignment.courseId
  return assignment

def submission (userId submissionId : Id) : Call AssignmentSubmission := do
  let some submission ← perform (.submissionFindUnique submissionId)
    | throw <| .NotFoundException "Soumission introuvable"
  let _ ← assignment userId submission.assignmentId
  return submission

def gradeSubmission (userId submissionId : Id) (grade : Rat) (feedback : Option String) :
    Call AssignmentSubmission := do
  let _ ← submission userId submissionId
  perform (.submissionUpdate submissionId grade feedback)

/-! ## Calls -/

inductive Op where
  | submitAssignment (userId assignmentId : Id) (file : File)
  | gradeSubmission (userId submissionId : Id) (grade : Rat) (feedback : Option String)

def program : Op → Call AssignmentSubmission
  | .submitAssignment userId assignmentId file => submitAssignment userId assignmentId file
  | .gradeSubmission userId submissionId grade feedback =>
      gradeSubmission userId submissionId grade feedback

end GetPlatform.Coursework
