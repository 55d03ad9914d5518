import GetPlatform.Store.Record
import GetPlatform.Store.Table

set_option autoImplicit false

/-! # Assignments and submissions: the database

The rows behind the work that students hand in, with the columns that handing in and grading read or
write. There is one submission for a student and an assignment. The people, the courses and their
enrolments belong to other services: what these do to them is one new `Roster`. -/

namespace GetPlatform.Coursework

abbrev Id := Nat

structure Student where
  id : Id
  userId : Id
  deriving DecidableEq

structure Teacher where
  id : Id
  userId : Id
  deriving DecidableEq

structure TeacherSchool where
  teacherId : Id
  schoolId : Id
  isActive : Bool
  deriving DecidableEq

structure Course where
  id : Id
  schoolId : Id
  teacherId : Option Id
  deriving DecidableEq

structure CourseEnrollment where
  courseId : Id
  studentId : Id
  deriving DecidableEq

inductive EnrollmentStatus where
  | ACTIVE
  | WITHDRAWN
  | GRADUATED
  deriving DecidableEq

structure StudentEnrollment where
  studentId : Id
  schoolId : Id
  status : EnrollmentStatus
  deriving DecidableEq

structure Assignment where
  id : Id
  courseId : Id
  publishedAt : Option Nat
  deriving DecidableEq

/-- A grade is a finite number. -/
structure AssignmentSubmission where
  id : Id
  assignmentId : Id
  studentId : Id
  contentUrl : Option String
  submittedAt : Nat
  grade : Option Rat
  feedback : Option String
  deriving DecidableEq

structure File where
  originalname : String
  mimetype : String
  buffer : List UInt8
  deriving DecidableEq

/-- An object of the private bucket, under the address it is reached by. -/
structure StoredObject where
  url : String
  contentType : String
  body : List UInt8
  deriving DecidableEq

instance : Keyed Student Id := ⟨(·.userId)⟩
instance : Keyed Teacher Id := ⟨(·.userId)⟩
instance : Keyed TeacherSchool (Id × Id) := ⟨fun a => (a.teacherId, a.schoolId)⟩
instance : Keyed Course Id := ⟨(·.id)⟩
instance : Keyed CourseEnrollment (Id × Id) := ⟨fun e => (e.courseId, e.studentId)⟩
instance : Keyed StudentEnrollment (Id × Id) := ⟨fun e => (e.studentId, e.schoolId)⟩
instance : Keyed Assignment Id := ⟨(·.id)⟩
instance : Keyed AssignmentSubmission (Id × Id) := ⟨fun x => (x.assignmentId, x.studentId)⟩
instance : Keyed StoredObject String := ⟨(·.url)⟩

structure Roster where
  students : Table Student
  teachers : Table Teacher
  teacherSchools : Table TeacherSchool
  courses : Table Course
  courseEnrollments : Table CourseEnrollment
  studentEnrollments : Table StudentEnrollment
  assignments : Table Assignment

structure World where
  roster : Roster
  submissions : Table AssignmentSubmission
  objects : Table StoredObject

inductive Failure where
  | database
  /-- The storage refuses a file, or cannot be reached. -/
  | storage
  deriving DecidableEq, Inhabited

/-! ## Statements -/

inductive Stmt where
  | now
  | studentFindUnique (userId : Id)
  | teacherFindUnique (userId : Id)
  | assignmentFindUnique (id : Id)
  /-- With the school of the course. -/
  | courseEnrollmentFindUnique (courseId studentId : Id)
  | studentEnrollmentFindUnique (studentId schoolId : Id)
  /-- The course, if the teacher has it and is active in its school. -/
  | courseFindFirst (id teacherId : Id)
  | submissionFindUniqueByStudent (assignmentId studentId : Id)
  | submissionFindUnique (id : Id)
  | uploadDocument (file : File) (studentId : Id)
  | submissionUpsert (assignmentId studentId : Id) (contentUrl : String) (submittedAt : Nat)
  | submissionUpdate (id : Id) (grade : Rat) (feedback : Option String)

abbrev Ans : Stmt → Type
  | .now => Nat
  | .studentFindUnique _ => Option Student
  | .teacherFindUnique _ => Option Teacher
  | .assignmentFindUnique _ => Option Assignment
  | .courseEnrollmentFindUnique .. => Option Id
  | .studentEnrollmentFindUnique .. => Option EnrollmentStatus
  | .courseFindFirst .. => Option Course
  | .submissionFindUniqueByStudent .. => Option AssignmentSubmission
  | .submissionFindUnique _ => Option AssignmentSubmission
  | .uploadDocument .. => StoredObject
  | .submissionUpsert .. => AssignmentSubmission
  | .submissionUpdate .. => AssignmentSubmission

abbrev interface : Interface := ⟨Stmt, Ans, Failure⟩

/-- The time, the identifier of a new row with the time of the database, or the random name of a new
    object. -/
inductive Choice where
  | nat (n : Nat)
  | row (id now : Nat)
  | name (url : String)

/-- Answer a statement; `none` where it cannot succeed. The answer to a write is the row as it stands
    then. A random name is one that nothing is stored under. -/
def exec : (q : Stmt) → Choice → World → Option (Ans q)
  | .now, .nat n, _ => some n
  | .studentFindUnique userId, _, s => some (s.roster.students.find? userId)
  | .teacherFindUnique userId, _, s => some (s.roster.teachers.find? userId)
  | .assignmentFindUnique id, _, s => some (s.roster.assignments.find? id)
  | .courseEnrollmentFindUnique courseId studentId, _, s =>
      some <| (s.roster.courseEnrollments.find? (courseId, studentId)).bind fun e =>
        (s.roster.courses.find? e.courseId).map (·.schoolId)
  | .studentEnrollmentFindUnique studentId schoolId, _, s =>
      some ((s.roster.studentEnrollments.find? (studentId, schoolId)).map (·.status))
  | .courseFindFirst id teacherId, _, s =>
      some <| (s.roster.courses.find? id).filter fun course =>
        course.teacherId = some teacherId ∧
          (s.roster.teacherSchools.find? (teacherId, course.schoolId)).any (·.isActive)
  | .submissionFindUniqueByStudent assignmentId studentId, _, s =>
      some (s.submissions.find? (assignmentId, studentId))
  | .submissionFindUnique id, _, s => some (s.submissions.rows.find? fun x => x.id = id)
  | .uploadDocument file _, .name url, s =>
      if s.objects.contains url then none else some ⟨url, file.mimetype, file.buffer⟩
  | .submissionUpsert assignmentId studentId contentUrl submittedAt, .row id now, s =>
      match s.submissions.find? (assignmentId, studentId) with
      | some x => some { x with contentUrl := some contentUrl, submittedAt }
      | none =>
          if s.submissions.rows.any fun x => x.id = id then none
          else some ⟨id, assignmentId, studentId, some contentUrl, now, none, none⟩
  | .submissionUpdate id grade feedback, _, s =>
      (s.submissions.rows.find? fun x => x.id = id).map fun x =>
        { x with grade := some grade, feedback := feedback.orElse fun _ => x.feedback }
  | _, _, _ => none

/-! ## Writes -/

inductive Write where
  | submission (row : AssignmentSubmission)
  | object (object : StoredObject)

def writes : (q : Stmt) → Ans q → List Write
  | .uploadDocument .., object => [.object object]
  | .submissionUpsert .., row => [.submission row]
  | .submissionUpdate .., row => [.submission row]
  | _, _ => []

def World.apply : Write → World → World
  | .submission row, s => { s with submissions := s.submissions.put row }
  | .object object, s => { s with objects := s.objects.put object }

/-- Other services move people and courses. -/
def World.move (roster : Roster) (s : World) : World := { s with roster }

abbrev model : Model interface where
  State := World
  Choice := Choice
  Write := Write
  Key := Unit
  Env := Roster
  exec := exec
  writes := writes
  apply := World.apply
  key _ := none
  env := World.move

end GetPlatform.Coursework
