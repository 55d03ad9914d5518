import GetPlatform.Format.Date
import GetPlatform.Format.Json
import GetPlatform.Order.Compare
import GetPlatform.Store.Map

set_option autoImplicit false

/-! # Figures for the ministry: the data

What the statistics read of an application, and the rows they are made of. No person is part of it. -/

namespace GetPlatform.Ministry

def UNKNOWN_REGION : String := "Non renseignée"
def UNKNOWN_CITY : String := "Non renseignée"
def ACCEPTED_APPLICATION_STATUSES : List String := ["ACCEPTED", "ENROLLED"]
def PENDING_APPLICATION_STATUSES : List String :=
  ["PENDING", "UNDER_REVIEW", "TEST_SCHEDULED", "INTERVIEW_SCHEDULED", "PRESELECTED", "WAITLISTED"]

/-! ## What is read -/

structure School where
  name : String
  region : Option String
  city : Option String
  deriving DecidableEq

structure Program where
  name : String
  deriving DecidableEq

structure Offer where
  title : String
  program : Option Program
  school : School
  deriving DecidableEq

structure ApplicationRecord where
  status : String
  submittedAt : Date
  offer : Offer
  deriving DecidableEq

/-! ## The rows

The rows of a breakdown carry the same three counters. What else they carry, and what tells them apart,
is their dimension. -/

structure Aggregate (δ : Type) where
  dimension : δ
  count : Nat := 0
  acceptedCount : Nat := 0
  pendingCount : Nat := 0
  deriving DecidableEq

structure Filiere where
  filiere : String
  programme : Option String
  deriving DecidableEq

structure SchoolDimension where
  school : String
  region : String
  city : String
  deriving DecidableEq

structure SchoolProgramme where
  school : String
  region : String
  city : String
  filiere : String
  programme : Option String
  deriving DecidableEq

structure Period where
  period : String
  deriving DecidableEq

structure StatusCount where
  status : String
  count : Nat
  deriving DecidableEq

structure RegionalAggregate where
  region : String
  count : Nat
  deriving DecidableEq

structure PeriodRange where
  «from» : Option String
  «to» : Option String
  deriving DecidableEq

structure ApplicationAnalyticsResult where
  period : PeriodRange
  total : Nat
  acceptedCount : Nat
  pendingCount : Nat
  byStatus : List StatusCount
  byRegion : List RegionalAggregate
  byFiliere : List (Aggregate Filiere)
  bySchool : List (Aggregate SchoolDimension)
  bySchoolProgramme : List (Aggregate SchoolProgramme)
  byPeriod : List (Aggregate Period)
  deriving DecidableEq

/-! ## The rows as JSON -/

def ofOption (text : Option String) : Json Nat := (text.map .str).getD .null

/-- The columns of a dimension, in the order they are written. -/
class Dimension (δ : Type) where
  fields : δ → List (String × Json Nat)
  injective : Function.Injective fields

theorem ofOption_injective : Function.Injective ofOption := by
  rintro (_ | s) (_ | t) h
  · rfl
  · cases h
  · cases h
  · exact congrArg some (Json.str.inj h)

instance : Dimension Filiere where
  fields d := [("filiere", .str d.filiere), ("programme", ofOption d.programme)]
  injective := by
    rintro ⟨f, p⟩ ⟨f', p'⟩ h
    simp only [List.cons.injEq, Prod.mk.injEq, Json.str.injEq, true_and, and_true] at h
    obtain ⟨rfl, hp⟩ := h
    rw [ofOption_injective hp]

instance : Dimension SchoolDimension where
  fields d := [("school", .str d.school), ("region", .str d.region), ("city", .str d.city)]
  injective := by
    rintro ⟨s, r, c⟩ ⟨s', r', c'⟩ h
    simp only [List.cons.injEq, Prod.mk.injEq, Json.str.injEq, true_and, and_true] at h
    obtain ⟨rfl, rfl, rfl⟩ := h
    rfl

instance : Dimension SchoolProgramme where
  fields d := [("school", .str d.school), ("region", .str d.region), ("city", .str d.city),
    ("filiere", .str d.filiere), ("programme", ofOption d.programme)]
  injective := by
    rintro ⟨s, r, c, f, p⟩ ⟨s', r', c', f', p'⟩ h
    simp only [List.cons.injEq, Prod.mk.injEq, Json.str.injEq, true_and, and_true] at h
    obtain ⟨rfl, rfl, rfl, rfl, hp⟩ := h
    rw [ofOption_injective hp]

variable {δ : Type}

/-- The counters follow the dimension. -/
def Aggregate.toJson [Dimension δ] (a : Aggregate δ) : Json Nat :=
  .obj (Dimension.fields a.dimension ++
    [("count", .num a.count), ("acceptedCount", .num a.acceptedCount),
      ("pendingCount", .num a.pendingCount)])

def StatusCount.toJson (row : StatusCount) : Json Nat :=
  .obj [("status", .str row.status), ("count", .num row.count)]

def RegionalAggregate.toJson (row : RegionalAggregate) : Json Nat :=
  .obj [("region", .str row.region), ("count", .num row.count)]

theorem Aggregate.toJson_injective [Dimension δ] :
    Function.Injective (toJson : Aggregate δ → Json Nat) := by
  rintro ⟨d, n, a, p⟩ ⟨d', n', a', p'⟩ h
  obtain ⟨hfields, hcounters⟩ := List.append_inj' (Json.obj.inj h) rfl
  simp only [List.cons.injEq, Prod.mk.injEq, Json.num.injEq, true_and, and_true] at hcounters
  obtain ⟨rfl, rfl, rfl⟩ := hcounters
  obtain rfl : d = d' := Dimension.injective hfields
  rfl

theorem StatusCount.toJson_injective : Function.Injective toJson := by
  rintro ⟨s, n⟩ ⟨s', n'⟩ h
  simp only [toJson, Json.obj.injEq, List.cons.injEq, Prod.mk.injEq, Json.str.injEq, Json.num.injEq,
    true_and, and_true] at h
  obtain ⟨rfl, rfl⟩ := h
  rfl

theorem RegionalAggregate.toJson_injective : Function.Injective toJson := by
  rintro ⟨r, n⟩ ⟨r', n'⟩ h
  simp only [toJson, Json.obj.injEq, List.cons.injEq, Prod.mk.injEq, Json.str.injEq, Json.num.injEq,
    true_and, and_true] at h
  obtain ⟨rfl, rfl⟩ := h
  rfl

end GetPlatform.Ministry
