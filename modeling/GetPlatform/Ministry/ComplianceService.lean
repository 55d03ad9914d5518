import GetPlatform.Format.Number
import GetPlatform.Ministry.MinistryService
import GetPlatform.Order.Pages

set_option autoImplicit false

/-! # `MinistryService`: compliance checks

The history of the checks of each school, the list of them and their summary. A query is answered with
the rows in the order that it asks for; `orderBy` is what the database makes of the rows that the order
leaves undecided. -/

namespace GetPlatform.Ministry.Compliance

abbrev Id := String

structure School where
  id : Id
  name : String
  city : String
  region : Option String
  type : String
  deletedAt : Option Date
  deriving DecidableEq

structure ComplianceCheck where
  id : Id
  schoolId : Id
  status : String
  score : Option Rat
  remarks : Option String
  checkedAt : Date
  createdAt : Date
  deriving DecidableEq

instance : Keyed School Id := ⟨(·.id)⟩
instance : Keyed ComplianceCheck Id := ⟨(·.id)⟩

structure World where
  schools : Table School
  checks : Table ComplianceCheck

inductive ComplianceStatus where
  | PASSED
  | FAILED
  | PENDING
  deriving DecidableEq

/-- `String(status)` -/
def ComplianceStatus.text : ComplianceStatus → String
  | PASSED => "PASSED"
  | FAILED => "FAILED"
  | PENDING => "PENDING"

/-- A check with its school. -/
structure Row where
  check : ComplianceCheck
  school : School
  deriving DecidableEq

/-- The checks of the schools that are not deleted. -/
def World.live (s : World) : List Row :=
  s.checks.rows.filterMap fun check =>
    ((s.schools.find? check.schoolId).filter fun school => school.deletedAt = none).map (⟨check, ·⟩)

/-! ## Pages -/

structure Options where
  status : Option ComplianceStatus := none
  page : Option Number := none
  limit : Option Number := none
  latestOnly : Option Bool := none

structure Pagination where
  page : Nat
  limit : Nat

/-- Pages are counted from one. -/
def Pagination.skip (p : Pagination) : Nat := (p.page - 1) * p.limit

structure Meta where
  page : Nat
  limit : Nat
  total : Nat
  totalPages : Nat
  deriving DecidableEq

structure Page where
  items : List Row
  pageMeta : Meta
  deriving DecidableEq

/-! ## The calls -/

variable (orderBy : List Row → List Row)

end GetPlatform.Ministry.Compliance
