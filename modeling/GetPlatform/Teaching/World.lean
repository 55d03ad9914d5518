import GetPlatform.Store.Reliable
import GetPlatform.Teaching.Types

set_option autoImplicit false

/-! # Attendance: the database

There is one row for a course, a student and a day. -/

namespace GetPlatform.Teaching

structure World where
  roster : Roster
  attendances : Table Attendance

inductive Failure where
  | database
  deriving DecidableEq, Inhabited

/-! ## Statements -/

/-- A `date` of `none` is an invalid date, which the database refuses. -/
inductive Stmt where
  | teacherFindUnique (userId : Id)
  /-- The course, if the teacher has it and is active in its school. -/
  | courseFindFirst (id teacherId : Id)
  /-- Which of the students are enrolled in the course. -/
  | courseEnrollmentFindMany (courseId : Id) (studentIds : List Id)
  /-- The students of the course, by their last names. -/
  | courseEnrollmentFindStudents (courseId : Id)
  | attendanceFindMany (courseId : Id) (date : Option Int)
  | attendanceUpsert (courseId studentId : Id) (date : Option Int) (status : String) (markedBy : Id)

abbrev Ans : Stmt → Type
  | .teacherFindUnique _ => Option Teacher
  | .courseFindFirst .. => Option Course
  | .courseEnrollmentFindMany .. => List Id
  | .courseEnrollmentFindStudents _ => List Student
  | .attendanceFindMany .. => List Attendance
  | .attendanceUpsert .. => Attendance

abbrev interface : Interface := ⟨Stmt, Ans, Failure⟩

/-- The students of a course. -/
def Roster.studentsOf (roster : Roster) (courseId : Id) : List Student :=
  (roster.courseEnrollments.rows.filter (·.courseId = courseId)).filterMap fun e =>
    roster.students.find? e.studentId

/-- Answer a statement, with the id of a new row; `collation` is how the database compares names. -/
def exec (collation : String → String → Bool) : (q : Stmt) → Id → World → Option (Ans q)
  | .teacherFindUnique userId, _, s => some (s.roster.teachers.find? userId)
  | .courseFindFirst id teacherId, _, s =>
      some <| (s.roster.courses.find? id).filter fun course =>
        course.teacherId = teacherId ∧
          (s.roster.teacherSchools.find? (teacherId, course.schoolId)).any (·.isActive)
  | .courseEnrollmentFindMany courseId studentIds, _, s =>
      some <| (s.roster.courseEnrollments.rows.filter fun e =>
        e.courseId = courseId ∧ e.studentId ∈ studentIds).map (·.studentId)
  | .courseEnrollmentFindStudents courseId, _, s =>
      some <| (s.roster.studentsOf courseId).mergeSort fun a b => collation a.lastName b.lastName
  | .attendanceFindMany courseId date, _, s =>
      date.map fun day => s.attendances.rows.filter fun a => a.courseId = courseId ∧ a.date = day
  | .attendanceUpsert courseId studentId date status markedBy, id, s =>
      date.bind fun day =>
        match s.attendances.find? (courseId, studentId, day) with
        | some a => some { a with status, markedBy }
        | none =>
            if s.attendances.rows.any fun a => a.id = id then none
            else some ⟨id, courseId, studentId, day, status, markedBy⟩

/-! ## Writes -/

inductive Write where
  | attendance (row : Attendance)

def writes : (q : Stmt) → Ans q → List Write
  | .attendanceUpsert .., row => [.attendance row]
  | _, _ => []

def World.apply : Write → World → World
  | .attendance row, s => { s with attendances := s.attendances.put row }

abbrev model (collation : String → String → Bool) : Model interface where
  State := World
  Choice := Id
  Write := Write
  Key := Id × Id × Int
  Env := Unit
  exec := exec collation
  writes := writes
  apply := World.apply
  key := fun | .attendance row => some (Keyed.key row)
  env _ s := s

end GetPlatform.Teaching
