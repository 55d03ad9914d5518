import Mathlib.Data.List.Lex
import Mathlib.Data.Sym.Sym2

set_option autoImplicit false

/-! # One key for two words

Two words are joined in their order, with a separator between them. The key does not depend on the
order they are given in, and tells apart the unordered pairs of words without the separator. -/

/-- The smaller of two words, the separator, and the other word. -/
def pairKey {α : Type} [LinearOrder α] (sep : α) (a b : List α) : List α :=
  if b < a then b ++ sep :: a else a ++ sep :: b

section PairKey

variable {α : Type} [LinearOrder α] {sep : α} {a b c d : List α}

theorem pairKey_comm (sep : α) (a b : List α) : pairKey sep a b = pairKey sep b a := by
  unfold pairKey
  rcases lt_trichotomy a b with h | rfl | h
  · rw [if_pos h, if_neg h.asymm]
  · rfl
  · rw [if_pos h, if_neg h.asymm]

/-- A key is the one or the other word, the separator, and what is left. -/
theorem pairKey_cases (sep : α) (a b : List α) :
    ∃ x y, s(x, y) = s(a, b) ∧ pairKey sep a b = x ++ sep :: y := by
  unfold pairKey
  split
  · exact ⟨b, a, Sym2.eq_swap, rfl⟩
  · exact ⟨a, b, rfl, rfl⟩

theorem pairKey_inj (ha : sep ∉ a) (hb : sep ∉ b) (h : pairKey sep a b = pairKey sep c d) :
    s(a, b) = s(c, d) := by
  obtain ⟨x, y, hxy, hkey⟩ := pairKey_cases sep a b
  obtain ⟨z, w, hzw, hkey'⟩ := pairKey_cases sep c d
  have hfree : sep ∉ x ∧ sep ∉ y := by
    rcases Sym2.eq_iff.1 hxy with ⟨rfl, rfl⟩ | ⟨rfl, rfl⟩
    · exact ⟨ha, hb⟩
    · exact ⟨hb, ha⟩
  rw [hkey, hkey'] at h
  obtain ⟨rfl, -, rfl⟩ := (List.append_cons_inj_of_notMem hfree.1 hfree.2).1 h
  exact hxy.symm.trans hzw

/-- Two words joined are told apart at the last separator. -/
theorem append_cons_inj_last {β : Type} {sep : β} {x y z w : List β} (hz : sep ∉ z) (hw : sep ∉ w)
    (h : x ++ sep :: z = y ++ sep :: w) : x = y ∧ z = w := by
  rcases List.append_eq_append_iff.1 h with ⟨c, rfl, hc⟩ | ⟨c, rfl, hc⟩
  · rcases List.cons_eq_append_iff.1 hc with ⟨rfl, hzw⟩ | ⟨c, rfl, rfl⟩
    · exact ⟨(List.append_nil x).symm, (List.cons.inj hzw).2.symm⟩
    · exact absurd (List.mem_append_right c (.head w)) hz
  · rcases List.cons_eq_append_iff.1 hc with ⟨rfl, hzw⟩ | ⟨c, rfl, rfl⟩
    · exact ⟨List.append_nil y, (List.cons.inj hzw).2⟩
    · exact absurd (List.mem_append_right c (.head z)) hw

end PairKey
