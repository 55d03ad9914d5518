import Mathlib.Data.List.Induction
import Mathlib.Data.List.Nodup

set_option autoImplicit false

/-! # The distinct elements of a list

`List.eraseDups` keeps the first occurrence of each element, as a set that keeps the order of insertion
does. -/

variable {α : Type} [DecidableEq α]

/-- An element that is there already is a duplicate. -/
theorem eraseDups_concat (l : List α) (x : α) :
    (l ++ [x]).eraseDups = if x ∈ l then l.eraseDups else l.eraseDups ++ [x] := by
  rw [List.eraseDups_append]
  by_cases h : x ∈ l <;> simp [List.removeAll, h, List.eraseDups_cons]

theorem nodup_eraseDups (l : List α) : l.eraseDups.Nodup := by
  induction l using List.reverseRecOn with
  | nil => exact List.nodup_nil
  | append_singleton l x ih =>
      rw [eraseDups_concat]
      split
      · exact ih
      · next hnew => simpa [List.nodup_append] using ⟨ih, fun y hy heq => hnew (heq ▸ hy)⟩
