import Mathlib.Data.Int.Order.Basic
import Mathlib.Data.String.Basic
import Mathlib.Tactic.Linarith
import GetPlatform.Order.Overlap

set_option autoImplicit false

/-! # Times of the day

A time is a text `HH:mm`. Some of the program compares times as texts, some converts them to minutes
first, and the database converts them in SQL. On the texts that the request bodies may hold, the order
is the same. -/

namespace GetPlatform.Timetable

/-! ## Texts -/

/-- `\d` -/
def digit (c : Char) : Bool := '0' ≤ c && c ≤ '9'

/-- `TIME_PATTERN`: `^([01]\d|2[0-3]):[0-5]\d$`. -/
def matchesTimePattern (text : String) : Bool :=
  match text.toList with
  | [h₁, h₂, ':', m₁, m₂] =>
      ((h₁ = '0' || h₁ = '1') && digit h₂ || h₁ = '2' && ('0' ≤ h₂ && h₂ ≤ '3')) &&
        ('0' ≤ m₁ && m₁ ≤ '5') && digit m₂
  | _ => false

/-- A text that a request body may hold as a time. -/
structure Time where
  text : String
  accepted : matchesTimePattern text = true
  deriving DecidableEq

theorem accepted_eight : matchesTimePattern "08:00" = true := by decide

theorem accepted_ten : matchesTimePattern "10:00" = true := by decide

/-- Texts are compared character by character. -/
instance : LT Time := ⟨fun s t => s.text < t.text⟩

instance (s t : Time) : Decidable (s < t) := inferInstanceAs (Decidable (s.text < t.text))

/-! ## Minutes -/

/-- `Number`, for a text of decimal digits. -/
def number (digits : List Char) : Int :=
  digits.foldl (fun n c => 10 * n + ((c.toNat : Int) - '0'.toNat)) 0

/-- `toMinutes`: the text is cut at the colon. -/
def toMinutes (time : Time) : Int :=
  match (time.text.toList.splitOn ':').map number with
  | [h, m] => h * 60 + m
  | _ => 0

/-- `split_part(text, ':', n)` -/
def splitPart (text : String) (n : Nat) : List Char := (text.toList.splitOn ':').getD (n - 1) []

/-- The expression of the exclusion constraint. -/
def sqlMinutes (time : Time) : Int :=
  number (splitPart time.text 1) * 60 + number (splitPart time.text 2)

theorem lt_iff_toNat_lt {c d : Char} : c < d ↔ c.toNat < d.toNat := Iff.rfl

theorem le_iff_toNat_le {c d : Char} : c ≤ d ↔ c.toNat ≤ d.toNat := Iff.rfl

theorem eq_iff_toNat_eq {c d : Char} : c = d ↔ c.toNat = d.toNat :=
  ⟨congrArg _, fun h => le_antisymm (le_iff_toNat_le.2 h.le) (le_iff_toNat_le.2 h.ge)⟩

theorem digit_iff {c : Char} : digit c = true ↔ 48 ≤ c.toNat ∧ c.toNat ≤ 57 := by
  rw [digit, Bool.and_eq_true, decide_eq_true_eq, decide_eq_true_eq]
  exact Iff.rfl

theorem digit_of_le {c d : Char} (h : '0' ≤ c ∧ c ≤ d) (hd : d ≤ '9') : digit c = true :=
  digit_iff.2 ⟨h.1, (le_iff_toNat_le.1 h.2).trans hd⟩

/-- The characters of a time: four digits around a colon, and less than sixty minutes. -/
theorem Time.spelled (t : Time) : ∃ h₁ h₂ m₁ m₂ : Char, t.text.toList = [h₁, h₂, ':', m₁, m₂] ∧
    digit h₁ = true ∧ digit h₂ = true ∧ digit m₁ = true ∧ digit m₂ = true ∧ m₁ ≤ '5' := by
  have h := t.accepted
  rw [matchesTimePattern] at h
  split at h
  · next h₁ h₂ m₁ m₂ ht =>
      simp only [Bool.and_eq_true, Bool.or_eq_true, decide_eq_true_eq] at h
      obtain ⟨⟨hhour, hm₁⟩, hm₂⟩ := h
      refine ⟨h₁, h₂, m₁, m₂, ht, ?_, ?_, digit_of_le hm₁ (by decide), hm₂, hm₁.2⟩
      · rcases hhour with ⟨rfl | rfl, -⟩ | ⟨rfl, -⟩ <;> rfl
      · rcases hhour with ⟨-, hh₂⟩ | ⟨-, hh₂⟩
        · exact hh₂
        · exact digit_of_le hh₂ (by decide)
  · cases h

theorem ne_colon_of_digit {c : Char} (h : digit c = true) : c ≠ ':' := by
  rintro rfl
  exact absurd h (by decide)

/-- Cut at the colon, a time leaves its hours and its minutes. -/
theorem splitOn_spelled {h₁ h₂ m₁ m₂ : Char} (hh₁ : digit h₁ = true) (hh₂ : digit h₂ = true)
    (hm₁ : digit m₁ = true) (hm₂ : digit m₂ = true) :
    [h₁, h₂, ':', m₁, m₂].splitOn ':' = [[h₁, h₂], [m₁, m₂]] := by
  simp [List.splitOn, List.splitOnP_cons_eq_if_modifyHead, ne_colon_of_digit hh₁,
    ne_colon_of_digit hh₂, ne_colon_of_digit hm₁, ne_colon_of_digit hm₂]

/-- The two conversions to minutes agree. -/
theorem sqlMinutes_eq (t : Time) : sqlMinutes t = toMinutes t := by
  obtain ⟨h₁, h₂, m₁, m₂, ht, hh₁, hh₂, hm₁, hm₂, -⟩ := t.spelled
  simp [sqlMinutes, splitPart, toMinutes, ht, splitOn_spelled hh₁ hh₂ hm₁ hm₂]

/-- **Texts and minutes have the same order.** -/
theorem toMinutes_lt_iff (s t : Time) : toMinutes s < toMinutes t ↔ s < t := by
  obtain ⟨h₁, h₂, m₁, m₂, hs, hh₁, hh₂, hm₁, hm₂, hlt⟩ := s.spelled
  obtain ⟨k₁, k₂, n₁, n₂, ht, hk₁, hk₂, hn₁, hn₂, hlt'⟩ := t.spelled
  have hminutes : toMinutes s < toMinutes t ↔
      (((10 * (h₁.toNat : Int) + h₂.toNat) * 60 + (10 * (m₁.toNat : Int) + m₂.toNat)) <
        (10 * (k₁.toNat : Int) + k₂.toNat) * 60 + (10 * (n₁.toNat : Int) + n₂.toNat)) := by
    simp only [toMinutes, hs, ht, splitOn_spelled hh₁ hh₂ hm₁ hm₂, splitOn_spelled hk₁ hk₂ hn₁ hn₂,
      List.map_cons, List.map_nil, number, List.foldl_cons, List.foldl_nil]
    omega
  have htext : s < t ↔ [h₁, h₂, ':', m₁, m₂] < [k₁, k₂, ':', n₁, n₂] := by
    rw [← hs, ← ht]
    exact String.lt_iff_toList_lt
  rw [hminutes, htext]
  simp only [List.cons_lt_cons_iff, lt_iff_toNat_lt, eq_iff_toNat_eq, lt_irrefl, true_and, false_or,
    and_false, or_false]
  rw [digit_iff] at hh₁ hh₂ hm₁ hm₂ hk₁ hk₂ hn₁ hn₂
  rw [le_iff_toNat_le, show '5'.toNat = 53 from rfl] at hlt hlt'
  omega

end GetPlatform.Timetable
