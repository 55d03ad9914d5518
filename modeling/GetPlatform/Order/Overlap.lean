import Mathlib.Order.Interval.Set.Basic

set_option autoImplicit false

/-! # Overlap of half-open intervals

Two intervals `[a, b)` and `[c, d)` of a linear order overlap when each starts before the other ends.
For intervals that are not empty this says that they have a point in common. -/

section LinearOrder

variable {α β : Type} [LinearOrder α] [LinearOrder β] {a b c d : α}

/-- `[a, b)` and `[c, d)` overlap. -/
def Overlap (a b c d : α) : Prop := a < d ∧ c < b

instance : Decidable (Overlap a b c d) := inferInstanceAs (Decidable (_ ∧ _))

theorem overlap_comm : Overlap a b c d ↔ Overlap c d a b := and_comm

/-- Two intervals that do not overlap come one after the other. -/
theorem not_overlap_iff : ¬ Overlap a b c d ↔ d ≤ a ∨ b ≤ c := by
  rw [Overlap, not_and_or, not_lt, not_lt]

theorem overlap_iff_nonempty (hab : a < b) (hcd : c < d) :
    Overlap a b c d ↔ (Set.Ico a b ∩ Set.Ico c d).Nonempty := by
  constructor
  · rintro ⟨had, hcb⟩
    -- The later of the two starts is a common point.
    refine ⟨max a c, ⟨le_max_left a c, max_lt hab hcb⟩, le_max_right a c, max_lt had hcd⟩
  · rintro ⟨x, ⟨hax, hxb⟩, hcx, hxd⟩
    exact ⟨hax.trans_lt hxd, hcx.trans_lt hxb⟩

/-- Overlap does not depend on the scale. -/
theorem overlap_map {f : α → β} (hf : ∀ x y, f x < f y ↔ x < y) :
    Overlap (f a) (f b) (f c) (f d) ↔ Overlap a b c d := by
  rw [Overlap, Overlap, hf, hf]

end LinearOrder
