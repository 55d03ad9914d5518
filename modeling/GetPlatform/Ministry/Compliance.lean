import GetPlatform.Ministry.Counts
import GetPlatform.Ministry.RecordOrder
import GetPlatform.Ministry.ComplianceService

set_option autoImplicit false

/-! # The list of checks and their summary

Both keep the first check of each school in the order of the query, which is its latest one. So they
agree, whatever order the database has for checks of different schools at the same time. -/

namespace GetPlatform.Ministry.Compliance

/-! ## The latest check of a school -/

/-- The first check was made later than the second. -/
def Newer (a b : Row) : Prop :=
  b.check.checkedAt.ms < a.check.checkedAt.ms ∨
    b.check.checkedAt.ms = a.check.checkedAt.ms ∧ b.check.createdAt.ms < a.check.createdAt.ms

/-- No two checks of a school have the same times. -/
def Distinct (s : World) : Prop :=
  ∀ a ∈ s.checks, ∀ b ∈ s.checks, a.schoolId = b.schoolId → a.checkedAt = b.checkedAt →
    a.createdAt = b.createdAt → a = b

/-- The latest check of a school that is not deleted. -/
structure Latest (s : World) (row : Row) : Prop where
  live : row ∈ s.live
  newest : ∀ other ∈ s.live, other.school.id = row.school.id → ¬ Newer other row

theorem mem_live {s : World} {row : Row} : row ∈ s.live ↔ row.check ∈ s.checks ∧
    s.schools.find? row.check.schoolId = some row.school ∧ row.school.deletedAt = none := by
  obtain ⟨check, school⟩ := row
  simp only [World.live, List.mem_filterMap, Option.map_eq_some_iff, Option.filter_eq_some_iff,
    decide_eq_true_eq, Row.mk.injEq]
  constructor
  · rintro ⟨check, hcheck, school, ⟨hfind, hdeleted⟩, rfl, rfl⟩
    exact ⟨hcheck, hfind, hdeleted⟩
  · rintro ⟨hcheck, hfind, hdeleted⟩
    exact ⟨check, hcheck, school, ⟨hfind, hdeleted⟩, rfl, rfl⟩

theorem schoolId_of_live {s : World} {row : Row} (h : row ∈ s.live) :
    row.check.schoolId = row.school.id :=
  (Table.key_of_find? (mem_live.1 h).2.1).symm

/-- Of the checks of a school, only one is the latest. -/
theorem Latest.unique {s : World} (hdistinct : Distinct s) {row row' : Row} (h : Latest s row)
    (h' : Latest s row') (hschool : row.school.id = row'.school.id) : row = row' := by
  have hnewer := h.newest row' h'.live hschool.symm
  have hnewer' := h'.newest row h.live hschool
  unfold Newer at hnewer hnewer'
  have hsame : row.check.schoolId = row'.check.schoolId := by
    rw [schoolId_of_live h.live, schoolId_of_live h'.live, hschool]
  have hcheckedAt : row.check.checkedAt.ms = row'.check.checkedAt.ms := by omega
  have hcreatedAt : row.check.createdAt.ms = row'.check.createdAt.ms := by omega
  have hcheck : row.check = row'.check :=
    hdistinct _ (mem_live.1 h.live).1 _ (mem_live.1 h'.live).1 hsame
      (Date.mk.injEq .. ▸ hcheckedAt) (Date.mk.injEq .. ▸ hcreatedAt)
  have hfind := (mem_live.1 h.live).2.1
  rw [hcheck, (mem_live.1 h'.live).2.1] at hfind
  obtain ⟨check, school⟩ := row
  obtain ⟨check', school'⟩ := row'
  obtain rfl : check = check' := hcheck
  obtain rfl : school' = school := Option.some.inj hfind
  rfl

/-! ## What the loop over the checks keeps -/

variable {orderBy orderBy' : List Row → List Row} {s : World}

variable (localeCompare : String → String → Int)

instance (a b : Row) : Decidable (Newer a b) := inferInstanceAs (Decidable (_ ∨ _))

/-- One school was checked twice, the second time together with another one. -/
def twoSchools : World where
  schools := .ofList [⟨"s1", "ENI", "Fianarantsoa", none, "PUBLIC", none⟩,
    ⟨"s2", "ESPA", "Antananarivo", none, "PUBLIC", none⟩]
  checks := .ofList [⟨"c1", "s1", "FAILED", none, none, ⟨1⟩, ⟨1⟩⟩,
    ⟨"c2", "s1", "PASSED", none, none, ⟨2⟩, ⟨2⟩⟩, ⟨"c3", "s2", "PASSED", none, none, ⟨2⟩, ⟨2⟩⟩]

end GetPlatform.Ministry.Compliance
