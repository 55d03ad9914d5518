import GetPlatform.Format.Number
import GetPlatform.Text
import Mathlib.Data.Int.Log

set_option autoImplicit false

/-! # Numbers that are read from a text

`Number(text)`: a text is blank, or a decimal number with an exponent, or a natural number in another base, or
no number at all. The value is the nearest one that a double has; among two nearest ones, the one with the even
significand. -/

namespace Number

open GetPlatform

/-! ## Doubles -/

/-- The nearest integer, and the even one of two. -/
def roundEven (q : Rat) : Int :=
  if q - ⌊q⌋ < 1 / 2 then ⌊q⌋
  else if 1 / 2 < q - ⌊q⌋ then ⌊q⌋ + 1
  else if ⌊q⌋ % 2 = 0 then ⌊q⌋ else ⌊q⌋ + 1

/-- What one unit in the last place of the significand is worth: there are 53 bits, and no exponent is
below -1074. -/
def ulp (q : Rat) : Rat := 2 ^ max (Int.log 2 |q| - 52) (-1074)

def ofRat (q : Rat) : Number :=
  let value := roundEven (|q| / ulp q) * ulp q
  if 2 ^ 1024 ≤ value then infinity (q < 0) else finite (if q < 0 then -value else value)

def neg : Number → Number
  | NaN => NaN
  | infinity negative => infinity !negative
  | finite value => finite (-value)

/-- A double has this value. -/
def Exact (q : Rat) : Prop := ofRat q = finite q

instance (q : Rat) : Decidable (Exact q) := inferInstanceAs (Decidable (_ = _))

/-! ## Texts -/

/-- The base that a letter after a zero stands for. -/
def radix (c : Char) : Option Nat :=
  if c ∈ ['x', 'X'] then some 16
  else if c ∈ ['o', 'O'] then some 8
  else if c ∈ ['b', 'B'] then some 2
  else none

def digitValue (base : Nat) (c : Char) : Option Nat :=
  let value :=
    if c.isDigit then c.toNat - 48
    else if 'a' ≤ c ∧ c ≤ 'f' then c.toNat - 87
    else if 'A' ≤ c ∧ c ≤ 'F' then c.toNat - 55
    else base
  if value < base then some value else none

/-- One digit or more. -/
def natOf (base : Nat) (digits : List Char) : Option Nat :=
  if digits = [] then none
  else digits.foldlM (fun n c => (digitValue base c).map (base * n + ·)) 0

def exponentOf : List Char → Option Int
  | [] => some 0
  | c :: rest =>
      if c ∈ ['e', 'E'] then
        match rest with
        | '-' :: digits => (natOf 10 digits).map fun n => -(n : Int)
        | '+' :: digits => (natOf 10 digits).map fun n => (n : Int)
        | digits => (natOf 10 digits).map fun n => (n : Int)
      else none

/-- What follows a decimal point, and what follows that. -/
def fractionOf : List Char → List Char × List Char
  | '.' :: rest => (rest.takeWhile (·.isDigit), rest.dropWhile (·.isDigit))
  | rest => ([], rest)

def decimalOf (text : List Char) : Option Rat := do
  let (fraction, rest) := fractionOf (text.dropWhile (·.isDigit))
  let digits ← natOf 10 (text.takeWhile (·.isDigit) ++ fraction)
  let exponent ← exponentOf rest
  some (digits * 10 ^ (exponent - fraction.length))

def ofUnsigned (text : List Char) : Number :=
  if text = "Infinity".toList then infinity false
  else match decimalOf text with
    | some q => ofRat q
    | none => NaN

/-- A text without blanks around it. -/
def ofTrimmed : List Char → Number
  | [] => finite 0
  | '-' :: rest => (ofUnsigned rest).neg
  | '+' :: rest => ofUnsigned rest
  | c :: rest =>
      match rest.head?.bind radix with
      | some base =>
          if c = '0' then
            match natOf base rest.tail with
            | some n => ofRat n
            | none => NaN
          else ofUnsigned (c :: rest)
      | none => ofUnsigned (c :: rest)

/-- `Number(text)` -/
def ofText (text : String) : Number := ofTrimmed (trim text).toList

example : [ofText " 12 ", ofText "-1.5e1", ofText "0x1F", ofText "", ofText "12a"] =
    [finite 12, finite (-15), finite 31, finite 0, NaN] := by decide +kernel

/-! ## Integers -/

theorem digitValue_of_isDigit {c : Char} (h : c.isDigit = true) : digitValue 10 c = some (c.toNat - 48) := by
  have hbounds : 48 ≤ c.toNat ∧ c.toNat ≤ 57 := Char.isDigit_iff_toNat.1 h
  have hvalue : c.toNat - 48 < 10 := by omega
  simp only [digitValue, if_pos h, if_pos hvalue]

theorem radix_of_isDigit {c : Char} (h : c.isDigit = true) : radix c = none := by
  have hbounds : 48 ≤ c.toNat ∧ c.toNat ≤ 57 := Char.isDigit_iff_toNat.1 h
  have hletters : ∀ d d' : Char, 57 < d.toNat → 57 < d'.toNat → c ∉ [d, d'] := by
    intro d d' hd hd' hmem
    rcases List.mem_pair.1 hmem with rfl | rfl
    · omega
    · omega
  rw [radix, if_neg (hletters _ _ (by decide) (by decide)), if_neg (hletters _ _ (by decide) (by decide)),
    if_neg (hletters _ _ (by decide) (by decide))]

theorem natOf_digits {digits : List Char} (hne : digits ≠ []) (h : ∀ c ∈ digits, c.isDigit = true) :
    natOf 10 digits = some (Nat.ofDigitChars 10 digits 0) := by
  have hfold : ∀ init, digits.foldlM (fun n c => (digitValue 10 c).map (10 * n + ·)) init =
      some (Nat.ofDigitChars 10 digits init) := by
    intro init
    clear hne
    induction digits generalizing init with
    | nil => rfl
    | cons c digits ih =>
        rw [List.foldlM_cons, digitValue_of_isDigit (h c (.head _))]
        exact ih (fun d hd => h d (.tail _ hd)) _
  rw [natOf, if_neg hne, hfold]

theorem decimalOf_digits {digits : List Char} (hne : digits ≠ []) (h : ∀ c ∈ digits, c.isDigit = true) :
    decimalOf digits = some (Nat.ofDigitChars 10 digits 0 : Rat) := by
  have htake : digits.takeWhile (·.isDigit) = digits := List.takeWhile_eq_self_iff.2 h
  have hdrop : digits.dropWhile (·.isDigit) = [] := List.dropWhile_eq_nil_iff.2 h
  simp [decimalOf, htake, hdrop, fractionOf, natOf_digits hne h, exponentOf]

theorem ofUnsigned_digits {digits : List Char} (hne : digits ≠ [])
    (h : ∀ c ∈ digits, c.isDigit = true) :
    ofUnsigned digits = ofRat (Nat.ofDigitChars 10 digits 0 : Rat) := by
  have hinfinity : digits ≠ "Infinity".toList := by
    rintro rfl
    exact absurd (h 'I' (by decide +kernel)) (by decide)
  rw [ofUnsigned, if_neg hinfinity, decimalOf_digits hne h]

theorem ofTrimmed_digits {digits : List Char} (hne : digits ≠ [])
    (h : ∀ c ∈ digits, c.isDigit = true) :
    ofTrimmed digits = ofRat (Nat.ofDigitChars 10 digits 0 : Rat) := by
  obtain ⟨c, rest, rfl⟩ := List.exists_cons_of_ne_nil hne
  have hminus : c ≠ '-' := by
    rintro rfl
    exact absurd (h '-' (.head _)) (by decide)
  have hplus : c ≠ '+' := by
    rintro rfl
    exact absurd (h '+' (.head _)) (by decide)
  have hradix : rest.head?.bind radix = none := by
    match rest with
    | [] => rfl
    | d :: _ =>
        rw [List.head?_cons, Option.bind_some]
        exact radix_of_isDigit (h d (.tail _ (.head _)))
  rw [ofTrimmed]
  · rw [hradix]
    exact ofUnsigned_digits hne h
  · exact hminus
  · exact hplus

/-- The digits of a natural number. -/
theorem ofTrimmed_toDigits (n : Nat) : ofTrimmed (Nat.toDigits 10 n) = ofRat (n : Rat) := by
  rw [ofTrimmed_digits Nat.toDigits_ne_nil fun c hc =>
    Nat.isDigit_of_mem_toDigits (by decide) (by decide) hc, Nat.ofDigitChars_ten_toDigits]

theorem ofTrimmed_minus_toDigits (n : Nat) :
    ofTrimmed ('-' :: Nat.toDigits 10 n) = (ofRat (n : Rat)).neg := by
  rw [ofTrimmed, ofUnsigned_digits Nat.toDigits_ne_nil fun c hc =>
    Nat.isDigit_of_mem_toDigits (by decide) (by decide) hc, Nat.ofDigitChars_ten_toDigits]

theorem ofRat_neg {q : Rat} (h : 0 < q) : ofRat (-q) = (ofRat q).neg := by
  have hulp : ulp (-q) = ulp q := by rw [ulp, ulp, abs_neg]
  have hneg : -q < 0 := by linarith
  have hpos : ¬q < 0 := by linarith
  simp only [ofRat, hulp, abs_neg, hneg, hpos, if_true, if_false, decide_true, decide_false]
  split <;> rfl

theorem roundEven_intCast (n : Int) : roundEven n = n := by
  rw [roundEven, Int.floor_intCast, if_pos (by norm_num)]

/-- Up to 53 bits, every integer is exact. -/
theorem exact_intCast {n : Int} (h : |n| < 2 ^ 53) : Exact n := by
  have hlog : Int.log 2 |(n : Rat)| - 52 ≤ 0 := by
    by_cases hzero : n = 0
    · simp [hzero]
    · have hpos : (0 : Rat) < |(n : Rat)| := abs_pos.2 (by exact_mod_cast hzero)
      have hlt : |(n : Rat)| < ((2 : Nat) : Rat) ^ (53 : Int) := by exact_mod_cast h
      have hlog := (Int.lt_zpow_iff_log_lt (by decide) hpos).1 hlt
      omega
  obtain ⟨k, hk⟩ : ∃ k : Nat, max (Int.log 2 |(n : Rat)| - 52) (-1074) = -(k : Int) :=
    ⟨(-max (Int.log 2 |(n : Rat)| - 52) (-1074)).toNat, by omega⟩
  have hulp : ulp (n : Rat) = (2 ^ k)⁻¹ := by
    rw [ulp, hk, zpow_neg, zpow_natCast]
  have hscaled : |(n : Rat)| / (2 ^ k)⁻¹ = ((|n| * 2 ^ k : Int) : Rat) := by
    rw [div_inv_eq_mul]
    push_cast
    rfl
  have hvalue : (roundEven (|(n : Rat)| / ulp n) : Rat) * ulp n = |(n : Rat)| := by
    rw [hulp, hscaled, roundEven_intCast]
    push_cast
    exact mul_inv_cancel_right₀ (by positivity) _
  have hsmall : ¬(2 : Rat) ^ 1024 ≤ |(n : Rat)| := by
    have hlt : |(n : Rat)| < 2 ^ 53 := by exact_mod_cast h
    have hle : (2 : Rat) ^ 53 ≤ 2 ^ 1024 := pow_le_pow_right₀ (by norm_num) (by norm_num)
    exact not_le.2 (hlt.trans_le hle)
  simp only [Exact, ofRat, hvalue, if_neg hsmall]
  by_cases hneg : (n : Rat) < 0
  · rw [if_pos hneg, abs_of_neg hneg, neg_neg]
  · rw [if_neg hneg, abs_of_nonneg (not_lt.1 hneg)]

/-! ## No number -/

/-- A text that starts with a quote is no number. -/
theorem ofTrimmed_quote (rest : List Char) : ofTrimmed ('"' :: rest) = NaN := by
  have hunsigned : ofUnsigned ('"' :: rest) = NaN := by
    have hinfinity : '"' :: rest ≠ "Infinity".toList := by
      intro h
      have hhead : some '"' = "Infinity".toList.head? := congrArg List.head? h
      exact absurd hhead (by decide +kernel)
    have hdecimal : decimalOf ('"' :: rest) = none := by
      simp [decimalOf, fractionOf, natOf]
    rw [ofUnsigned, if_neg hinfinity, hdecimal]
  rw [ofTrimmed]
  · split
    · rw [if_neg (by decide), hunsigned]
    · exact hunsigned
  · decide
  · decide

end Number
