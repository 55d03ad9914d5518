import GetPlatform.Admission.Types
import GetPlatform.Format.Date
import GetPlatform.Store.Map
import GetPlatform.Store.Sweep
import GetPlatform.Teaching.Types

set_option autoImplicit false

/-! # The backfill of enrolments

A script that makes an enrolment of a student in a school of the last application of the student to the
school that was accepted. -/

namespace GetPlatform.Enrollment

open Admission (ApplicationStatus)
open Teaching (EnrollmentStatus)

abbrev Id := Nat

structure Offer where
  id : Id
  schoolId : Id
  programId : Option Id
  deriving DecidableEq

structure Application where
  id : Id
  studentId : Id
  offer : Offer
  status : ApplicationStatus
  decisionDate : Option Date
  submittedAt : Date
  deletedAt : Option Date
  deriving DecidableEq

structure SchoolProgram where
  id : Id
  schoolId : Id
  name : String
  deriving DecidableEq

structure SchoolAcademicYear where
  id : Id
  schoolId : Id
  label : String
  isCurrent : Bool
  deriving DecidableEq

structure StudentEnrollment where
  studentId : Id
  schoolId : Id
  programId : Id
  programLevel : Int
  academicYearId : Id
  enrolledYear : String
  status : EnrollmentStatus
  deriving DecidableEq

instance : Keyed Application Id := ⟨(·.id)⟩
instance : Keyed SchoolProgram Id := ⟨(·.id)⟩
instance : Keyed SchoolAcademicYear Id := ⟨(·.id)⟩
instance : Keyed StudentEnrollment (Id × Id) := ⟨fun e => (e.studentId, e.schoolId)⟩

structure Database where
  applications : Table Application
  programs : Table SchoolProgram
  academicYears : Table SchoolAcademicYear
  studentEnrollments : Table StudentEnrollment

def enrollmentLabel (programName : String) (level : Int) (academicYearLabel : String) : String :=
  "Année " ++ toString level ++ " · " ++ programName ++ " · " ++ academicYearLabel

/-! ## The applications -/

/-- `where: { status: { in: ['ACCEPTED', 'ENROLLED'] }, deletedAt: null }` -/
def isAccepted (a : Application) : Bool := a.status ∈ [.ACCEPTED, .ENROLLED] ∧ a.deletedAt = none

/-- `orderBy: [{ decisionDate: 'asc' }, { submittedAt: 'asc' }]`: nulls come last. -/
def comesBefore (a b : Application) : Bool :=
  match a.decisionDate, b.decisionDate with
  | some d, some e => d.ms < e.ms ∨ d.ms = e.ms ∧ a.submittedAt.ms ≤ b.submittedAt.ms
  | some _, none => true
  | none, some _ => false
  | none, none => a.submittedAt.ms ≤ b.submittedAt.ms

/-- The database may answer the query so. -/
structure Answers (db : Database) (applications : List Application) : Prop where
  perm : applications.Perm (db.applications.rows.filter isAccepted)
  sorted : applications.Pairwise fun a b => comesBefore a b = true

/-- The student and the school of an application. -/
def Application.pair (a : Application) : Id × Id := (a.studentId, a.offer.schoolId)

def latestByStudentSchool (applications : List Application) : Map (Id × Id) Application :=
  applications.foldl (fun m a => m.set a.pair a) .empty

/-! ## The enrolments -/

def programLevel : Int := 1

/-- The enrolment for an application, unless its offer has no programme or the school no current
    year. -/
def enrollmentFor (db : Database) (a : Application) : Option StudentEnrollment := do
  let programId ← a.offer.programId
  let program ← (db.programs.find? programId).filter (·.schoolId = a.offer.schoolId)
  let academicYear ← db.academicYears.rows.find? fun y =>
    y.schoolId = a.offer.schoolId ∧ y.isCurrent
  return { studentId := a.studentId, schoolId := a.offer.schoolId, programId := program.id
           programLevel, academicYearId := academicYear.id
           enrolledYear := enrollmentLabel program.name programLevel academicYear.label
           status := .ACTIVE }

/-- What the script leaves, when its query is answered so. -/
def backfill (applications : List Application) (db : Database) : Database :=
  { db with
    studentEnrollments :=
      .putAll (enrollmentFor db) (latestByStudentSchool applications).values db.studentEnrollments }

end GetPlatform.Enrollment
