import GetPlatform.Store.Indexed

set_option autoImplicit false

/-! # Schools, their programmes and their students

The rows of a school with the columns that its service reads or checks, and the bodies of its requests.
A column that may be null is cleared by a body that gives null for it. -/

namespace GetPlatform.Schools

abbrev Id := Nat

inductive EnrollmentStatus where
  | ACTIVE
  | WITHDRAWN
  | GRADUATED
  deriving DecidableEq, Repr

structure User where
  id : Id
  email : String
  /-- The name of the role. -/
  role : Option String
  deriving DecidableEq

structure Student where
  id : Id
  userId : Id
  /-- Is `deletedAt` set? -/
  isDeleted : Bool
  deriving DecidableEq

structure Teacher where
  id : Id
  deriving DecidableEq

structure SchoolProgram where
  id : Id
  schoolId : Id
  name : String
  diploma : String
  durationYears : Int
  isActive : Bool
  deriving DecidableEq

/-- The enrolment period is given by two instants. -/
structure SchoolAcademicYear where
  id : Id
  schoolId : Id
  label : String
  enrollmentOpensAt : Int
  enrollmentClosesAt : Int
  isCurrent : Bool
  deriving DecidableEq

structure SchoolSubject where
  id : Id
  schoolId : Id
  name : String
  isActive : Bool
  deriving DecidableEq

structure TeacherSchool where
  id : Id
  teacherId : Id
  schoolId : Id
  department : Option String
  specialty : Option String
  isActive : Bool
  deriving DecidableEq

structure TeacherSchoolSubject where
  teacherSchoolId : Id
  subjectId : Id
  deriving DecidableEq

structure Course where
  id : Id
  schoolId : Id
  teacherId : Id
  code : String
  title : String
  level : String
  subjectId : Option Id
  programId : Option Id
  programLevel : Option Int
  isPublished : Bool
  deriving DecidableEq

structure CourseSlot where
  id : Id
  courseId : Id
  teacherId : Id
  deriving DecidableEq

structure StudentEnrollment where
  id : Id
  studentId : Id
  schoolId : Id
  programId : Id
  programLevel : Int
  academicYearId : Id
  enrolledYear : String
  status : EnrollmentStatus
  deriving DecidableEq

structure CourseEnrollment where
  courseId : Id
  studentId : Id
  deriving DecidableEq

instance : Keyed User Id := ⟨(·.id)⟩
instance : Keyed Student Id := ⟨(·.id)⟩
instance : Keyed Teacher Id := ⟨(·.id)⟩
instance : Keyed SchoolProgram Id := ⟨(·.id)⟩
instance : Keyed SchoolAcademicYear Id := ⟨(·.id)⟩
instance : Keyed SchoolSubject Id := ⟨(·.id)⟩
instance : Keyed TeacherSchool (Id × Id) := ⟨fun a => (a.teacherId, a.schoolId)⟩
instance : Numbered TeacherSchool Id := ⟨(·.id)⟩
instance : Keyed TeacherSchoolSubject (Id × Id) := ⟨fun q => (q.teacherSchoolId, q.subjectId)⟩
instance : Keyed Course Id := ⟨(·.id)⟩
instance : Keyed CourseSlot Id := ⟨(·.id)⟩
instance : Keyed StudentEnrollment (Id × Id) := ⟨fun e => (e.studentId, e.schoolId)⟩
instance : Numbered StudentEnrollment Id := ⟨(·.id)⟩
instance : Keyed CourseEnrollment (Id × Id) := ⟨fun e => (e.courseId, e.studentId)⟩

/-! ## Requests -/

structure CreateSchoolProgramDto where
  name : String
  diploma : String
  durationYears : Int

structure UpdateSchoolProgramDto where
  name : Option String := none
  diploma : Option String := none
  durationYears : Option Int := none
  isActive : Option Bool := none

structure CreateSchoolAcademicYearDto where
  label : String
  enrollmentOpensAt : Int
  enrollmentClosesAt : Int
  isCurrent : Option Bool := none

structure UpdateSchoolAcademicYearDto where
  label : Option String := none
  enrollmentOpensAt : Option Int := none
  enrollmentClosesAt : Option Int := none
  isCurrent : Option Bool := none

structure AssignTeacherDto where
  teacherId : Id
  department : Option (Option String) := none
  specialty : Option (Option String) := none
  subjectIds : Option (List Id) := none

structure UpdateTeacherAssignmentDto where
  department : Option (Option String) := none
  specialty : Option (Option String) := none
  isActive : Option Bool := none
  subjectIds : Option (List Id) := none

structure CreateSchoolCourseDto where
  teacherId : Id
  code : String
  subjectId : Id
  programId : Id
  programLevel : Int
  isPublished : Option Bool := none

structure UpdateSchoolCourseDto where
  teacherId : Option Id := none
  code : Option String := none
  subjectId : Option (Option Id) := none
  programId : Option (Option Id) := none
  programLevel : Option (Option Int) := none
  isPublished : Option Bool := none

structure EnrollStudentDto where
  email : String
  programId : Id
  level : Int
  academicYearId : Id

structure UpdateSchoolStudentEnrollmentDto where
  programId : Option Id := none
  level : Option Int := none
  academicYearId : Option Id := none
  status : EnrollmentStatus

/-- A line of an imported file. -/
structure EnrollmentRow where
  email : String
  programName : String
  level : Int
  academicYearLabel : String
  deriving DecidableEq

end GetPlatform.Schools
