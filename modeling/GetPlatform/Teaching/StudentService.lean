import GetPlatform.Teaching.TeachingService

set_option autoImplicit false

/-! # The courses of a student

The reads of `StudentService` that say which courses a student has. Each is a function of the rows as
they stand. -/

namespace GetPlatform.Teaching

def enrolledStudent (roster : Roster) (userId : Id) : Except Err Student := do
  let some student := roster.students.rows.find? (·.userId = userId)
    | throw <| .NotFoundException "Student not found"
  return student

/-- The enrolment in a course, while the one in its school is active. -/
def courseEnrollment (roster : Roster) (studentId courseId : Id) : Except Err CourseEnrollment := do
  let some enrollment := roster.courseEnrollments.find? (courseId, studentId)
    | throw <| .NotFoundException "Cours introuvable"
  let schoolEnrollment := (roster.courses.find? enrollment.courseId).bind fun course =>
    roster.studentEnrollments.find? (studentId, course.schoolId)
  if schoolEnrollment.map (·.status) ≠ some .ACTIVE then
    throw <| .NotFoundException "Cours introuvable"
  return enrollment

/-- The schools in which the student's enrolment is active. -/
def activeSchoolIds (roster : Roster) (studentId : Id) : List Id :=
  (roster.studentEnrollments.rows.filter fun e => e.studentId = studentId ∧ e.status = .ACTIVE).map
    (·.schoolId)

/-- The enrolments of a student in courses. -/
def Roster.enrollmentsOf (roster : Roster) (studentId : Id) : List CourseEnrollment :=
  roster.courseEnrollments.rows.filter (·.studentId = studentId)

def getCourses (roster : Roster) (userId : Id) : Except Err (List Course) := do
  let student ← enrolledStudent roster userId
  let courses := (roster.enrollmentsOf student.id).filterMap fun e => roster.courses.find? e.courseId
  return courses.filter fun course => course.schoolId ∈ activeSchoolIds roster student.id

/-- The columns of a course that are shown with a slot. -/
structure CourseSummary where
  id : Id
  title : String
  code : String
  deriving DecidableEq

structure ScheduleEntry where
  slot : CourseSlot
  course : CourseSummary
  deriving DecidableEq

variable (collation : String → String → Bool)

/-- By the day of the week, then by the start. -/
def ScheduleEntry.le (a b : ScheduleEntry) : Bool :=
  a.slot.dayOfWeek < b.slot.dayOfWeek ||
    (a.slot.dayOfWeek = b.slot.dayOfWeek && collation a.slot.startTime b.slot.startTime)

def getSchedule (roster : Roster) (userId : Id) : Except Err (List ScheduleEntry) := do
  let student ← enrolledStudent roster userId
  let courseIds := (roster.enrollmentsOf student.id).map (·.courseId)
  if courseIds.length = 0 then return []
  let slots := roster.courseSlots.rows.filter (·.courseId ∈ courseIds)
  let entries := slots.filterMap fun slot =>
    (roster.courses.find? slot.courseId).map fun course =>
      ({ slot, course := ⟨course.id, course.title, course.code⟩ } : ScheduleEntry)
  return entries.mergeSort (ScheduleEntry.le collation)

end GetPlatform.Teaching
