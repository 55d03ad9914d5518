import GetPlatform.Teaching.World

set_option autoImplicit false

/-! # The attendance of a course

`TeachingService.getAttendance` and `TeachingService.markAttendance`, which a teacher may call for a
course of theirs. -/

namespace GetPlatform.Teaching

/-- The exceptions a call can end with. -/
inductive Err where
  | ForbiddenException (message : String)
  | NotFoundException (message : String)
  | BadRequestException (message : String)
  | failure (f : Failure)
  deriving DecidableEq

abbrev Call (α : Type) := Prog interface Err α

def perform (q : Stmt) : Call (Ans q) := @Prog.query interface Err .failure q

/-- What is marked of a student. -/
structure AttendanceRecord where
  studentId : Id
  status : String
  deriving DecidableEq

/-- A line of the sheet of a course. -/
structure AttendanceEntry where
  studentId : Id
  firstName : String
  lastName : String
  status : Option String
  deriving DecidableEq

def teacher (userId : Id) : Call Teacher := do
  let some teacher ← perform (.teacherFindUnique userId)
    | throw <| .ForbiddenException "Profil professeur introuvable"
  return teacher

def course (userId courseId : Id) : Call Course := do
  let teacher ← teacher userId
  let some course ← perform (.courseFindFirst courseId teacher.id)
    | throw <| .NotFoundException "Cours introuvable"
  return course

variable (parseDate : String → Option Date)

/-- `new Date(date)`, as a column that holds dates without time takes it. -/
def dayOf (date : String) : Option Int := (parseDate date).map Date.dayNumber

/-- Each student of the course with the status that is recorded, if any. -/
def sheet (students : List Student) (existing : List Attendance) : List AttendanceEntry :=
  students.map fun student =>
    { studentId := student.id, firstName := student.firstName, lastName := student.lastName
      -- of two records of a student the map would keep the last
      status := (existing.reverse.find? (·.studentId = student.id)).map (·.status) }

def getAttendance (userId courseId : Id) (date : String) : Call (List AttendanceEntry) := do
  let _ ← course userId courseId
  let day := dayOf parseDate date
  let students ← perform (.courseEnrollmentFindStudents courseId)
  let existing ← perform (.attendanceFindMany courseId day)
  return sheet students existing

/-- The upserts of all records, in one transaction. -/
def upsertAll (courseId : Id) (day : Option Int) (markedBy : Id) (records : List AttendanceRecord) :
    Call PUnit :=
  @Prog.transaction interface _ _ .failure .readCommitted <| records.forM fun record => do
    let _ ← perform (.attendanceUpsert courseId record.studentId day record.status markedBy)

def markAttendance (userId courseId : Id) (date : String) (records : List AttendanceRecord) :
    Call (List AttendanceEntry) := do
  let teacher ← teacher userId
  let _ ← course userId courseId
  let day := dayOf parseDate date
  let enrolledIds ← perform (.courseEnrollmentFindMany courseId (records.map (·.studentId)))
  match records.find? fun record => record.studentId ∉ enrolledIds with
  | some unknown =>
      throw <| .BadRequestException
        ("L'étudiant " ++ toString unknown.studentId ++ " n'est pas inscrit à ce cours")
  | none =>
      upsertAll courseId day teacher.id records
      getAttendance parseDate userId courseId date

end GetPlatform.Teaching
