import GetPlatform.Store.Table
import GetPlatform.Timetable.Time

set_option autoImplicit false

/-! # Timetables: the rows

The tables behind the timetable of a school, with the columns its services read or write. Identifiers
are texts, as two of the services compare them or spell them out. -/

namespace GetPlatform.Timetable

abbrev Id := String

/-- A range of time within a day; every service that stores one checks the order of its times. -/
structure Period where
  startTime : Time
  endTime : Time
  ordered : startTime < endTime
  deriving DecidableEq

/-! ## Schools, teachers and their courses -/

structure School where
  id : Id
  name : String
  deriving DecidableEq

structure Teacher where
  id : Id
  firstName : Option String
  lastName : Option String
  deriving DecidableEq

/-- A teacher is assigned to a school. -/
structure TeacherSchool where
  teacherId : Id
  schoolId : Id
  isActive : Bool
  deriving DecidableEq

structure SchoolSubject where
  id : Id
  schoolId : Id
  name : String
  isActive : Bool
  deriving DecidableEq

structure SchoolProgram where
  id : Id
  schoolId : Id
  name : String
  isActive : Bool
  durationYears : Int
  deriving DecidableEq

structure Course where
  id : Id
  schoolId : Id
  teacherId : Id
  code : String
  title : String
  subjectId : Option Id
  programId : Option Id
  programLevel : Option Int
  level : String
  isPublished : Bool
  subjectRequirementId : Option Id
  deriving DecidableEq

structure CourseSlot where
  id : Id
  courseId : Id
  teacherId : Id
  dayOfWeek : Nat
  period : Period
  room : String
  deriving DecidableEq

/-! ## Availability of teachers -/

/-- A range of time in which a teacher cannot work: every week, or on one date. -/
structure TeacherAvailability where
  id : Id
  teacherId : Id
  dayOfWeek : Option Nat
  date : Option String
  period : Period
  reason : Option String
  deriving DecidableEq

/-- The time a teacher needs between two schools. -/
structure TeacherTravelBuffer where
  teacherId : Id
  schoolAId : Id
  schoolBId : Id
  minutesBuffer : Nat
  deriving DecidableEq

/-! ## What the generation of a timetable starts from -/

structure SchoolTimeSlot where
  id : Id
  schoolId : Id
  dayOfWeek : Nat
  period : Period
  label : Option String
  isActive : Bool
  deriving DecidableEq

structure Room where
  id : Id
  schoolId : Id
  name : String
  isActive : Bool
  deriving DecidableEq

structure SchoolClass where
  id : Id
  schoolId : Id
  academicYearId : Id
  programId : Option Id
  name : String
  level : Option Int
  deriving DecidableEq

/-- What a class needs: so many hours of a subject a week. -/
structure SubjectRequirement where
  id : Id
  classId : Id
  subjectId : Id
  hoursPerWeek : Int
  deriving DecidableEq

/-- The teacher who covers a requirement. -/
structure TeacherAssignment where
  subjectRequirementId : Id
  teacherId : Id
  deriving DecidableEq

/-! ## Keys -/

instance : Keyed School Id := ⟨(·.id)⟩
instance : Keyed Teacher Id := ⟨(·.id)⟩
instance : Keyed TeacherSchool (Id × Id) := ⟨fun a => (a.teacherId, a.schoolId)⟩
instance : Keyed SchoolSubject Id := ⟨(·.id)⟩
instance : Keyed SchoolProgram Id := ⟨(·.id)⟩
instance : Keyed Course Id := ⟨(·.id)⟩
instance : Keyed CourseSlot Id := ⟨(·.id)⟩
instance : Keyed TeacherAvailability Id := ⟨(·.id)⟩
instance : Keyed TeacherTravelBuffer (Id × Id × Id) :=
  ⟨fun b => (b.teacherId, b.schoolAId, b.schoolBId)⟩
instance : Keyed SchoolTimeSlot Id := ⟨(·.id)⟩
instance : Keyed Room Id := ⟨(·.id)⟩
instance : Keyed SchoolClass Id := ⟨(·.id)⟩
instance : Keyed SubjectRequirement Id := ⟨(·.id)⟩
instance : Keyed TeacherAssignment Id := ⟨(·.subjectRequirementId)⟩

end GetPlatform.Timetable
