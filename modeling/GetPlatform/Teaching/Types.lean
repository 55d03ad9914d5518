import GetPlatform.Format.Date
import GetPlatform.Store.Record
import GetPlatform.Store.Table

set_option autoImplicit false

/-! # Courses, who teaches them and who is enrolled

The rows that teachers and students of a course are known by. A student is enrolled in a school once, and
in a course once; leaving the school leaves the enrolments in its courses in place. -/

namespace GetPlatform.Teaching

abbrev Id := Nat

structure Student where
  id : Id
  userId : Id
  firstName : String
  lastName : String
  deriving DecidableEq

structure Teacher where
  id : Id
  userId : Id
  deriving DecidableEq

structure TeacherSchool where
  teacherId : Id
  schoolId : Id
  isActive : Bool
  deriving DecidableEq

structure Course where
  id : Id
  schoolId : Id
  teacherId : Id
  code : String
  title : String
  deriving DecidableEq

structure CourseEnrollment where
  courseId : Id
  studentId : Id
  deriving DecidableEq

inductive EnrollmentStatus where
  | ACTIVE
  | WITHDRAWN
  | GRADUATED
  deriving DecidableEq

structure StudentEnrollment where
  studentId : Id
  schoolId : Id
  status : EnrollmentStatus
  deriving DecidableEq

structure CourseSlot where
  id : Id
  courseId : Id
  dayOfWeek : Int
  startTime : String
  endTime : String
  room : String
  deriving DecidableEq

/-- `date` is a calendar date, by the number of its day. -/
structure Attendance where
  id : Id
  courseId : Id
  studentId : Id
  date : Int
  status : String
  markedBy : Id
  deriving DecidableEq

instance : Keyed Student Id := ⟨(·.id)⟩
instance : Keyed Teacher Id := ⟨(·.userId)⟩
instance : Keyed TeacherSchool (Id × Id) := ⟨fun a => (a.teacherId, a.schoolId)⟩
instance : Keyed Course Id := ⟨(·.id)⟩
instance : Keyed CourseEnrollment (Id × Id) := ⟨fun e => (e.courseId, e.studentId)⟩
instance : Keyed StudentEnrollment (Id × Id) := ⟨fun e => (e.studentId, e.schoolId)⟩
instance : Keyed CourseSlot Id := ⟨(·.id)⟩
instance : Keyed Attendance (Id × Id × Int) := ⟨fun a => (a.courseId, a.studentId, a.date)⟩

/-- People, courses and enrolments. -/
structure Roster where
  students : Table Student
  teachers : Table Teacher
  teacherSchools : Table TeacherSchool
  courses : Table Course
  courseEnrollments : Table CourseEnrollment
  studentEnrollments : Table StudentEnrollment
  courseSlots : Table CourseSlot
  /-- A user is one student at most. -/
  userIds : (students.rows.map (·.userId)).Nodup
  /-- An enrolment is one of a student in a course. -/
  enrolledStudent : ∀ e ∈ courseEnrollments, students.contains e.studentId = true
  enrolledCourse : ∀ e ∈ courseEnrollments, courses.contains e.courseId = true

end GetPlatform.Teaching
