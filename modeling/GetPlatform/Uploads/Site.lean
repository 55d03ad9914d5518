import GetPlatform.Admission.Types
import GetPlatform.Format.Date
import GetPlatform.Teaching.Types
import GetPlatform.Uploads.StorageService

set_option autoImplicit false

/-! # Who may read a protected file: the rows

The rows that the routes of protected files go by, with the columns they read. Identifiers are texts
here, as they stand in URLs and in keys. -/

namespace GetPlatform.Uploads

open Admission (ApplicationStatus)
open Teaching (EnrollmentStatus)

abbrev Id := String

inductive RoleName where
  | ADMIN_GET | SCHOOL_ADMIN | TEACHER | STUDENT | MINISTRY
  deriving DecidableEq

structure User where
  id : Id
  isActive : Bool
  sessionVersion : Nat
  role : Option RoleName
  deriving DecidableEq

structure Student where
  id : Id
  userId : Id
  deriving DecidableEq

structure Teacher where
  id : Id
  userId : Id
  deriving DecidableEq

structure SchoolAdmin where
  userId : Id
  schoolId : Id
  deriving DecidableEq

structure Offer where
  id : Id
  schoolId : Id
  deriving DecidableEq

structure Application where
  id : Id
  studentId : Id
  offerId : Id
  status : ApplicationStatus
  deriving DecidableEq

structure Document where
  id : Id
  studentId : Id
  type : String
  name : String
  fileUrl : String
  fileSize : Nat
  mimeType : String
  uploadedAt : Date
  deletedAt : Option Date
  deriving DecidableEq

structure Course where
  id : Id
  teacherId : Id
  schoolId : Id
  deriving DecidableEq

structure CourseEnrollment where
  courseId : Id
  studentId : Id
  deriving DecidableEq

structure StudentEnrollment where
  studentId : Id
  schoolId : Id
  status : EnrollmentStatus
  deriving DecidableEq

structure Message where
  id : Id
  senderId : Id
  recipientId : Id
  deriving DecidableEq

instance : Keyed User Id := ⟨(·.id)⟩
instance : Keyed Student Id := ⟨(·.userId)⟩
instance : Keyed Teacher Id := ⟨(·.userId)⟩
instance : Keyed SchoolAdmin Id := ⟨(·.userId)⟩
instance : Keyed Offer Id := ⟨(·.id)⟩
instance : Keyed Application Id := ⟨(·.id)⟩
instance : Keyed Document Id := ⟨(·.id)⟩
instance : Keyed Course Id := ⟨(·.id)⟩
instance : Keyed CourseEnrollment (Id × Id) := ⟨fun e => (e.courseId, e.studentId)⟩
instance : Keyed StudentEnrollment (Id × Id) := ⟨fun e => (e.studentId, e.schoolId)⟩
instance : Keyed Message Id := ⟨(·.id)⟩

/-- The tables, and the objects of the storage. A user is one student, one teacher and one
    administrator at most, so their rows are found by the user. -/
structure Site where
  users : Table User
  students : Table Student
  teachers : Table Teacher
  schoolAdmins : Table SchoolAdmin
  offers : Table Offer
  applications : Table Application
  documents : Table Document
  courses : Table Course
  courseEnrollments : Table CourseEnrollment
  studentEnrollments : Table StudentEnrollment
  messages : Table Message
  objects : Table StoredObject

end GetPlatform.Uploads
