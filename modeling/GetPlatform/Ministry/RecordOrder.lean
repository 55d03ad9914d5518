import GetPlatform.Ministry.Counts

set_option autoImplicit false

/-! # The order of the records does not matter

The database returns the records in any order. What a group holds depends on its members only, and the
sort decides between any two rows, so the rows that are cut off are the same in any order. -/

namespace GetPlatform.Ministry

section Groups

variable {δ : Type} {key : δ → String} {records records' : List ApplicationRecord}

theorem increment_comm (record record' : ApplicationRecord) (a : Aggregate δ) :
    (a.increment record'.isAccepted record'.isPending).increment record.isAccepted record.isPending =
      (a.increment record.isAccepted record.isPending).increment record'.isAccepted
        record'.isPending := by
  simp only [Aggregate.increment, Aggregate.mk.injEq, true_and]
  refine ⟨?_, ?_⟩ <;> split <;> split <;> rfl

theorem perm_aggregates (hkey : Function.Injective key) (dimension : ApplicationRecord → δ)
    (h : records.Perm records') : (aggregates key dimension records).rows.Perm
      (aggregates key dimension records').rows := by
  have hinitial : ∀ a b : ApplicationRecord, key (dimension a) = key (dimension b) →
      ({ dimension := dimension a } : Aggregate δ) = { dimension := dimension b } := by
    intro a b hab
    rw [hkey hab]
  exact Map.perm_rows (Map.get?_group_perm hinitial increment_comm h)

theorem perm_counts (key : ApplicationRecord → String) (h : records.Perm records') :
    (counts key records).rows.Perm (counts key records').rows :=
  Map.perm_rows (Map.get?_group_perm (fun _ _ _ => rfl) (fun _ _ _ => rfl) h)

end Groups

section Result

variable {localeCompare : String → String → Int} (hlinear : LinearCompare localeCompare)
include hlinear

/-- Rows with different texts are never left undecided. -/
theorem linear_sortByCount {α : Type} {toJson : α → Json Nat} (hjson : Function.Injective toJson)
    (count : α → Nat) : LinearCompare
      (compareByCount count (comparing (fun item => (toJson item).stringify) localeCompare)) :=
  (hlinear.on (Json.stringify_injective.comp hjson)).byCount count

theorem breakdown_of_perm {δ : Type} [Dimension δ] {key : δ → String} (hkey : Function.Injective key)
    (dimension : ApplicationRecord → δ) (limit : Nat) {records records' : List ApplicationRecord}
    (h : records.Perm records') :
    breakdown localeCompare limit (aggregates key dimension records) =
      breakdown localeCompare limit (aggregates key dimension records') := by
  have hvalues := (perm_aggregates hkey dimension h).map Entry.value
  rw [breakdown, breakdown]
  exact congrArg (List.take limit)
    ((linear_sortByCount hlinear Aggregate.toJson_injective Aggregate.count).sortBy_eq hvalues)

/-- The rows by month differ in their months. -/
theorem byPeriod_of_perm {records records' : List ApplicationRecord} (h : records.Perm records') :
    sortBy (comparing (·.dimension.period) localeCompare)
        (aggregates Period.period (·.period) records).values =
      sortBy (comparing (·.dimension.period) localeCompare)
        (aggregates Period.period (·.period) records').values := by
  refine sortBy_eq_of_perm (fun a b => hlinear.total a.dimension.period b.dimension.period)
    (fun a b c => hlinear.trans a.dimension.period b.dimension.period c.dimension.period)
    (fun a ha b hb hab hba => ?_)
    ((perm_aggregates Period.period_injective (·.period) h).map Entry.value)
  have hperiod : a.dimension = b.dimension :=
    Period.period_injective (hlinear.antisymm _ _ hab hba)
  rw [mem_values_aggregates Period.period_injective ha,
    mem_values_aggregates Period.period_injective hb, hperiod]

/-- **Analytics depend on the records, and not on their order.** -/
theorem analytics_of_perm (filters : ResolvedAnalyticsFilters)
    {records records' : List ApplicationRecord} (h : records.Perm records') :
    collectApplicationAnalytics localeCompare filters records =
      collectApplicationAnalytics localeCompare filters records' := by
  have hstatus := (linear_sortByCount hlinear StatusCount.toJson_injective StatusCount.count).sortBy_eq
    ((perm_counts ApplicationRecord.status h).map fun e => ⟨e.key, e.value⟩)
  have hregion := (linear_sortByCount hlinear RegionalAggregate.toJson_injective
    RegionalAggregate.count).sortBy_eq ((perm_counts ApplicationRecord.region h).map fun e => ⟨e.key, e.value⟩)
  simp only [collectApplicationAnalytics, collect_byStatus, collect_byRegion, collect_byFiliere,
    collect_bySchool, collect_bySchoolProgramme, collect_byPeriod, collect_acceptedCount,
    collect_pendingCount]
  rw [h.length_eq, h.countP_eq, h.countP_eq, byPeriod_of_perm hlinear h,
    breakdown_of_perm hlinear Filiere.key_injective (·.filiere) _ h,
    breakdown_of_perm hlinear SchoolDimension.key_injective (·.schoolDimension) _ h,
    breakdown_of_perm hlinear SchoolProgramme.key_injective (·.schoolProgramme) _ h]
  rw [sortByCount, hstatus, sortByCount, hregion]
  rfl

end Result

/-! ## Two records whose rows tie -/

/-- A comparison by code points. -/
def byCodePoint (a b : String) : Int := if a < b then -1 else if a = b then 0 else 1

theorem byCodePoint_le_iff {a b : String} : byCodePoint a b ≤ 0 ↔ a ≤ b := by
  unfold byCodePoint
  by_cases hlt : a < b
  · simp [hlt, hlt.le]
  · by_cases heq : a = b
    · simp [heq]
    · simp [hlt, heq, lt_of_le_of_ne (not_lt.1 hlt) (Ne.symm heq)]

theorem byCodePoint_linear : LinearCompare byCodePoint where
  total a b := by
    rw [byCodePoint_le_iff, byCodePoint_le_iff]
    exact le_total a b
  trans a b c hab hbc := by
    rw [byCodePoint_le_iff] at hab hbc ⊢
    exact hab.trans hbc
  antisymm a b hab hba := by
    rw [byCodePoint_le_iff] at hab hba
    exact le_antisymm hab hba

/-- An application to a school in a region. -/
def applicationTo (school region : String) : ApplicationRecord :=
  ⟨"PENDING", ⟨0⟩, ⟨"Informatique", some ⟨"Licence"⟩, ⟨school, some region, none⟩⟩⟩

/-- One of the two rows is cut off, and it is the same one in both orders. -/
theorem analytics_of_perm_two :
    let first := applicationTo "ENI" "Haute Matsiatra"
    let second := applicationTo "ESPA" "Analamanga"
    let filters : ResolvedAnalyticsFilters := ⟨none, none, 1⟩
    collectApplicationAnalytics byCodePoint filters [first, second] =
      collectApplicationAnalytics byCodePoint filters [second, first] :=
  analytics_of_perm byCodePoint_linear _ (.swap _ _ _)

end GetPlatform.Ministry
