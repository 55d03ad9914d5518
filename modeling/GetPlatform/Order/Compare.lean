import Mathlib.Data.List.Sort

set_option autoImplicit false

/-! # Comparison functions

A comparison says by the sign of a number which of two items comes first. `sortBy` is a stable sort by
a comparison. Sorted by a linear comparison, a list does not remember the order it had
(`sortBy_eq_of_perm`). -/

variable {α β : Type}

/-- A comparison that orders all items, distinct ones strictly. -/
structure LinearCompare (compare : α → α → Int) : Prop where
  total : ∀ a b, compare a b ≤ 0 ∨ compare b a ≤ 0
  trans : ∀ a b c, compare a b ≤ 0 → compare b c ≤ 0 → compare a c ≤ 0
  antisymm : ∀ a b, compare a b ≤ 0 → compare b a ≤ 0 → a = b

def sortBy (compare : α → α → Int) (items : List α) : List α :=
  items.insertionSort fun a b => compare a b ≤ 0

theorem perm_sortBy (compare : α → α → Int) (items : List α) : (sortBy compare items).Perm items :=
  List.perm_insertionSort _ items

/-- Compare by what `f` makes of the items. -/
def comparing (f : α → β) (compare : β → β → Int) (a b : α) : Int := compare (f a) (f b)

theorem LinearCompare.on {compare : β → β → Int} (h : LinearCompare compare) {f : α → β}
    (hf : Function.Injective f) : LinearCompare (comparing f compare) where
  total a b := h.total (f a) (f b)
  trans a b c := h.trans (f a) (f b) (f c)
  antisymm _ _ hab hba := hf (h.antisymm _ _ hab hba)

/-- The larger count comes first, and `tie` decides between equal ones. -/
def compareByCount (count : α → Nat) (tie : α → α → Int) (a b : α) : Int :=
  if count b ≠ count a then (count b : Int) - count a else tie a b

theorem compareByCount_le_iff {count : α → Nat} {tie : α → α → Int} {a b : α} :
    compareByCount count tie a b ≤ 0 ↔ count b < count a ∨ count b = count a ∧ tie a b ≤ 0 := by
  unfold compareByCount
  split <;> omega

theorem LinearCompare.byCount {tie : α → α → Int} (h : LinearCompare tie) (count : α → Nat) :
    LinearCompare (compareByCount count tie) where
  total a b := by
    rw [compareByCount_le_iff, compareByCount_le_iff]
    rcases h.total a b with hab | hba
    · rcases lt_trichotomy (count b) (count a) with hlt | heq | hgt
      · exact .inl (.inl hlt)
      · exact .inl (.inr ⟨heq, hab⟩)
      · exact .inr (.inl hgt)
    · rcases lt_trichotomy (count b) (count a) with hlt | heq | hgt
      · exact .inl (.inl hlt)
      · exact .inr (.inr ⟨heq.symm, hba⟩)
      · exact .inr (.inl hgt)
  trans a b c hab hbc := by
    rw [compareByCount_le_iff] at hab hbc ⊢
    rcases hab with hab | ⟨hab, hab'⟩ <;> rcases hbc with hbc | ⟨hbc, hbc'⟩
    · exact .inl (hbc.trans hab)
    · exact .inl (hbc ▸ hab)
    · exact .inl (hab ▸ hbc)
    · exact .inr ⟨hbc.trans hab, h.trans a b c hab' hbc'⟩
  antisymm a b hab hba := by
    rw [compareByCount_le_iff] at hab hba
    rcases hab with hab | ⟨hab, hab'⟩ <;> rcases hba with hba | ⟨hba, hba'⟩
    · exact absurd hab hba.asymm
    · exact absurd hba hab.ne'
    · exact absurd hab hba.ne'
    · exact h.antisymm a b hab' hba'

/-! ## Sorting -/

/-- Sorted by a comparison that never leaves two items of the list undecided, two permutations are the
    same. -/
theorem sortBy_eq_of_perm {compare : α → α → Int} (htotal : ∀ a b, compare a b ≤ 0 ∨ compare b a ≤ 0)
    (htrans : ∀ a b c, compare a b ≤ 0 → compare b c ≤ 0 → compare a c ≤ 0) {items items' : List α}
    (hanti : ∀ a ∈ items, ∀ b ∈ items, compare a b ≤ 0 → compare b a ≤ 0 → a = b)
    (h : items.Perm items') : sortBy compare items = sortBy compare items' := by
  let le : α → α → Prop := fun a b => compare a b ≤ 0
  have : Std.Total le := ⟨htotal⟩
  have : IsTrans α le := ⟨htrans⟩
  have hsorted := List.pairwise_insertionSort le items
  have hsorted' := List.pairwise_insertionSort le items'
  have hperm : (sortBy compare items).Perm (sortBy compare items') :=
    (perm_sortBy _ _).trans (h.trans (perm_sortBy _ _).symm)
  refine hperm.eq_of_pairwise (fun a b ha hb hab hba => ?_) hsorted hsorted'
  refine hanti a ((perm_sortBy _ _).mem_iff.1 ha) b (h.mem_iff.2 ((perm_sortBy _ _).mem_iff.1 hb))
    hab hba

theorem LinearCompare.sortBy_eq {compare : α → α → Int} (h : LinearCompare compare)
    {items items' : List α} (hperm : items.Perm items') :
    sortBy compare items = sortBy compare items' :=
  sortBy_eq_of_perm h.total h.trans (fun a _ b _ => h.antisymm a b) hperm

/-- Whatever decides between equal counts, larger counts come first. -/
theorem pairwise_sortBy_count (count : α → Nat) (tie : α → α → Int) (items : List α) :
    (sortBy (compareByCount count tie) items).Pairwise fun a b => count b ≤ count a := by
  induction items with
  | nil => exact .nil
  | cons a items ih =>
      change (List.orderedInsert _ a (sortBy (compareByCount count tie) items)).Pairwise _
      generalize sortBy (compareByCount count tie) items = sorted at ih
      induction sorted with
      | nil => exact List.pairwise_singleton _ _
      | cons b sorted ihs =>
          obtain ⟨hb, hsorted⟩ := List.pairwise_cons.1 ih
          by_cases hab : compareByCount count tie a b ≤ 0
          · rw [List.orderedInsert, if_pos hab]
            have hba : count b ≤ count a := by
              rcases compareByCount_le_iff.1 hab with hlt | ⟨heq, -⟩
              · exact hlt.le
              · exact heq.le
            refine List.pairwise_cons.2 ⟨fun c hc => ?_, ih⟩
            rcases List.mem_cons.1 hc with rfl | hc
            · exact hba
            · exact (hb c hc).trans hba
          · rw [List.orderedInsert, if_neg hab]
            refine List.pairwise_cons.2 ⟨fun c hc => ?_, ihs hsorted⟩
            rcases (List.mem_orderedInsert _).1 hc with rfl | hc
            · by_contra hlt
              exact hab (compareByCount_le_iff.2 (.inl (not_le.1 hlt)))
            · exact hb c hc
