import GetPlatform.Text
import Mathlib.Data.List.DropRight

set_option autoImplicit false

/-! # Lists without their ends

`strip p` drops from both ends of a list what satisfies `p`, as `trim` drops blanks. -/

variable {α : Type} {p : α → Bool} {l left right : List α}

def strip (p : α → Bool) (l : List α) : List α := (l.dropWhile p).rdropWhile p

/-- Neither end of the list satisfies `p`. -/
structure Stripped (p : α → Bool) (l : List α) : Prop where
  head : ∀ a ∈ l.head?, p a = false
  last : ∀ a ∈ l.getLast?, p a = false

instance (p : α → Bool) (l : List α) : Decidable (Stripped p l) :=
  decidable_of_iff ((l.head?.all fun a => !p a) = true ∧ (l.getLast?.all fun a => !p a) = true) <| by
    constructor
    · rintro ⟨hhead, hlast⟩
      exact ⟨fun a ha => by simpa using (Option.all_eq_true _ _).1 hhead a ha,
        fun a ha => by simpa using (Option.all_eq_true _ _).1 hlast a ha⟩
    · rintro ⟨hhead, hlast⟩
      exact ⟨(Option.all_eq_true _ _).2 fun a ha => by simpa using hhead a ha,
        (Option.all_eq_true _ _).2 fun a ha => by simpa using hlast a ha⟩

theorem dropWhile_of_head (h : ∀ a ∈ l.head?, p a = false) : l.dropWhile p = l := by
  cases l with
  | nil => rfl
  | cons a l => rw [List.dropWhile_cons_of_neg (by simpa using h a rfl)]

theorem rdropWhile_of_last (h : ∀ a ∈ l.getLast?, p a = false) : l.rdropWhile p = l := by
  rw [List.rdropWhile_eq_self_iff]
  intro hne
  simpa using h _ (List.getLast?_eq_some_getLast hne)

theorem Stripped.strip_eq (h : Stripped p l) : strip p l = l := by
  rw [strip, dropWhile_of_head h.head, rdropWhile_of_last h.last]

theorem rdropWhile_append_of_pos (h : ∀ a ∈ right, p a = true) :
    (l ++ right).rdropWhile p = l.rdropWhile p := by
  rw [List.rdropWhile, List.reverse_append, List.dropWhile_append_of_pos (by simpa using h)]
  rfl

theorem rdropWhile_append_of_last (h : ∀ a ∈ right.getLast?, p a = false) (hne : right ≠ []) :
    (l ++ right).rdropWhile p = l ++ right := by
  refine rdropWhile_of_last fun a ha => h a ?_
  rwa [List.getLast?_append_of_ne_nil _ hne] at ha

/-- What surrounds a list is dropped. -/
theorem strip_surrounded (l : List α) (hleft : ∀ a ∈ left, p a = true) (hright : ∀ a ∈ right, p a = true) :
    strip p (left ++ l ++ right) = strip p l := by
  rw [strip, List.append_assoc, List.dropWhile_append_of_pos hleft, List.dropWhile_append]
  split
  · next hnil =>
      have hdrop : right.dropWhile p = [] := List.dropWhile_eq_nil_iff.2 hright
      rw [strip, hdrop, List.isEmpty_iff.1 hnil]
  · rw [strip, rdropWhile_append_of_pos hright]

theorem head?_dropWhile {a : α} (h : a ∈ (l.dropWhile p).head?) : p a = false := by
  have hnot := List.head?_dropWhile_not p l
  rw [Option.mem_def.1 h] at hnot
  exact hnot

/-- What is left has neither end. -/
theorem stripped_strip (p : α → Bool) (l : List α) : Stripped p (strip p l) := by
  constructor
  · intro a ha
    have hprefix : (strip p l) <+: l.dropWhile p := List.rdropWhile_prefix p _
    obtain ⟨rest, hrest⟩ := hprefix
    refine head?_dropWhile (l := l) ?_
    rw [← hrest, List.head?_append, Option.mem_def.1 ha]
    rfl
  · intro a ha
    have hne : strip p l ≠ [] := by
      rintro hnil
      rw [hnil] at ha
      exact absurd ha (by simp)
    have hlast : ¬p ((strip p l).getLast hne) = true := List.rdropWhile_last_not p (l.dropWhile p) hne
    rw [List.getLast?_eq_some_getLast hne] at ha
    obtain rfl := Option.some.inj ha
    simpa using hlast

theorem strip_eq_self_iff : strip p l = l ↔ Stripped p l :=
  ⟨fun h => h ▸ stripped_strip p l, Stripped.strip_eq⟩

theorem mem_of_mem_strip {a : α} (h : a ∈ strip p l) : a ∈ l :=
  (List.dropWhile_suffix p).subset ((List.rdropWhile_prefix p _).subset h)

namespace GetPlatform

theorem toList_trim (text : String) : (trim text).toList = strip isSpace text.toList := by
  rw [trim, String.toList_ofList]
  rfl

end GetPlatform
