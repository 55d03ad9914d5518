import Mathlib.Data.List.TakeWhile

set_option autoImplicit false

/-! # Chains of tests

The first test of a chain that passes decides. Where what is tested has two parts, a test passes if
either part does, and the part that comes second decides only what stands in the chain above the
first part's own test. -/

namespace GetPlatform

variable {α : Type*}

/-! ## Occurrence in a text cut in two -/

theorem prefix_append_cons {pattern : List α} (left : List α) {right : List α} {x : α} (hx : x ∉ pattern)
    (h : pattern <+: left ++ x :: right) : pattern <+: left := by
  induction left generalizing pattern with
  | nil =>
    cases pattern with
    | nil => exact List.nil_prefix
    | cons y pattern =>
      rw [List.nil_append, List.cons_prefix_cons] at h
      exact absurd (List.mem_cons.2 (.inl h.1.symm)) hx
  | cons y left ih =>
    cases pattern with
    | nil => exact List.nil_prefix
    | cons z pattern =>
      rw [List.cons_append, List.cons_prefix_cons] at h
      rw [List.cons_prefix_cons]
      exact ⟨h.1, ih (fun hm => hx (List.mem_cons_of_mem _ hm)) h.2⟩

/-- A pattern without the separator lies on one of its sides. -/
theorem infix_append_cons {pattern : List α} (left : List α) {right : List α} {x : α}
    (hx : x ∉ pattern) :
    pattern <:+: left ++ x :: right ↔ pattern <:+: left ∨ pattern <:+: right := by
  constructor
  · intro h
    induction left with
    | nil =>
      rw [List.nil_append, List.infix_cons_iff] at h
      rcases h with h | h
      · have hnil : pattern = [] := by
          have hprefix : pattern <+: [] := prefix_append_cons [] hx h
          exact List.prefix_nil.1 hprefix
        exact .inl (hnil ▸ List.nil_infix)
      · exact .inr h
    | cons y left ih =>
      rw [List.cons_append, List.infix_cons_iff] at h
      rcases h with h | h
      · exact .inl (prefix_append_cons (y :: left) hx h).isInfix
      · rcases ih h with h | h
        · exact .inl (List.infix_cons h)
        · exact .inr h
  · rintro (h | h)
    · exact h.trans (List.prefix_append _ _).isInfix
    · exact h.trans ((List.suffix_cons x right).trans (List.suffix_append _ _)).isInfix

/-! ## The first test that passes -/

/-- The tests above the first one that `p` passes, of these the first that `q` passes. -/
def brings (p q : α → Bool) (chain : List α) : Option α :=
  (chain.takeWhile (!p ·)).find? q

theorem find?_or_eq (p q : α → Bool) (chain : List α) :
    chain.find? (fun x => p x || q x) = (brings p q chain).or (chain.find? p) := by
  induction chain with
  | nil => rfl
  | cons x chain ih =>
    unfold brings at ih ⊢
    by_cases hp : p x
    · simp [hp]
    · by_cases hq : q x
      · simp [hp, hq]
      · simp [hp, hq, ih]

theorem not_of_brings {p q : α → Bool} {chain : List α} {x : α} (h : brings p q chain = some x) :
    p x = false := by
  have := List.mem_takeWhile_imp (List.mem_of_find?_eq_some h)
  simpa using this

/-- Two second parts are decided alike exactly when they bring in the same. -/
theorem find?_or_eq_iff (p q r : α → Bool) (chain : List α) :
    chain.find? (fun x => p x || q x) = chain.find? (fun x => p x || r x) ↔
      brings p q chain = brings p r chain := by
  rw [find?_or_eq, find?_or_eq]
  constructor
  · intro h
    cases hq : brings p q chain with
    | none =>
      cases hr : brings p r chain with
      | none => rfl
      | some y =>
        rw [hq, hr, Option.none_or, Option.some_or] at h
        have hy : p y := List.find?_some h
        rw [not_of_brings hr] at hy
        exact absurd hy (by simp)
    | some x =>
      cases hr : brings p r chain with
      | none =>
        rw [hq, hr, Option.none_or, Option.some_or] at h
        have hx : p x := List.find?_some h.symm
        rw [not_of_brings hq] at hx
        exact absurd hx (by simp)
      | some y =>
        rw [hq, hr, Option.some_or, Option.some_or] at h
        exact h
  · intro h
    rw [h]

end GetPlatform
