import Mathlib.Data.List.Basic
import Mathlib.Tactic.IntervalCases

set_option autoImplicit false

/-! # Bytes as texts

Hexadecimal digits, two for each byte, and UTF-8. What is written is read back; a reader of digits
stops at the first pair that is none, and a reader of UTF-8 writes U+FFFD for what is malformed. -/

namespace GetPlatform

/-! ## Hexadecimal -/

def isHexDigit (c : Char) : Bool :=
  ('0' ≤ c ∧ c ≤ '9') ∨ ('a' ≤ c ∧ c ≤ 'f') ∨ ('A' ≤ c ∧ c ≤ 'F')

def hexValue (c : Char) : Option Nat :=
  if '0' ≤ c ∧ c ≤ '9' then some (c.toNat - '0'.toNat)
  else if 'a' ≤ c ∧ c ≤ 'f' then some (c.toNat - 'a'.toNat + 10)
  else if 'A' ≤ c ∧ c ≤ 'F' then some (c.toNat - 'A'.toNat + 10)
  else none

def toHex (bytes : List UInt8) : List Char :=
  bytes.flatMap fun b => [Nat.digitChar (b.toNat / 16), Nat.digitChar (b.toNat % 16)]

def fromHex : List Char → List UInt8
  | a :: b :: rest =>
      match hexValue a, hexValue b with
      | some x, some y => UInt8.ofNat (16 * x + y) :: fromHex rest
      | _, _ => []
  | _ => []

theorem hexValue_isSome (c : Char) : (hexValue c).isSome = isHexDigit c := by
  unfold hexValue isHexDigit
  split_ifs <;> simp_all

theorem hexValue_digitChar {n : Nat} (h : n < 16) : hexValue (Nat.digitChar n) = some n := by
  interval_cases n <;> decide

theorem isHexDigit_digitChar {n : Nat} (h : n < 16) : isHexDigit (Nat.digitChar n) = true := by
  rw [← hexValue_isSome, hexValue_digitChar h]
  rfl

@[simp] theorem toHex_nil : toHex [] = [] := rfl

theorem toHex_cons (b : UInt8) (bytes : List UInt8) :
    toHex (b :: bytes) =
      Nat.digitChar (b.toNat / 16) :: Nat.digitChar (b.toNat % 16) :: toHex bytes := rfl

theorem fromHex_toHex (bytes : List UInt8) : fromHex (toHex bytes) = bytes := by
  induction bytes with
  | nil => rfl
  | cons b bytes ih =>
    have hb : b.toNat < 256 := b.toNat_lt
    have hhigh : hexValue (Nat.digitChar (b.toNat / 16)) = some (b.toNat / 16) :=
      hexValue_digitChar (by omega)
    have hlow : hexValue (Nat.digitChar (b.toNat % 16)) = some (b.toNat % 16) :=
      hexValue_digitChar (by omega)
    rw [toHex_cons, fromHex]
    simp only [hhigh, hlow, ih, Nat.div_add_mod, UInt8.ofNat_toNat]

theorem length_toHex (bytes : List UInt8) : (toHex bytes).length = 2 * bytes.length := by
  induction bytes with
  | nil => rfl
  | cons b bytes ih =>
    rw [toHex_cons, List.length_cons, List.length_cons, ih, List.length_cons]
    omega

theorem isHexDigit_of_mem_toHex {bytes : List UInt8} {c : Char} (h : c ∈ toHex bytes) :
    isHexDigit c = true := by
  obtain ⟨b, -, hc⟩ := List.mem_flatMap.1 h
  have hb : b.toNat < 256 := b.toNat_lt
  rcases List.mem_pair.1 hc with rfl | rfl
  · exact isHexDigit_digitChar (by omega)
  · exact isHexDigit_digitChar (by omega)

/-- Digits in pairs give half as many bytes. -/
theorem length_fromHex (n : Nat) (digits : List Char) (hlen : digits.length = 2 * n)
    (hdigits : ∀ c ∈ digits, isHexDigit c = true) : (fromHex digits).length = n := by
  induction n generalizing digits with
  | zero =>
    obtain rfl : digits = [] := List.length_eq_zero_iff.1 hlen
    rfl
  | succ n ih =>
    match digits, hlen with
    | a :: b :: rest, hlen =>
      have ha : (hexValue a).isSome := by rw [hexValue_isSome, hdigits a (by simp)]
      have hb : (hexValue b).isSome := by rw [hexValue_isSome, hdigits b (by simp)]
      obtain ⟨x, hx⟩ := Option.isSome_iff_exists.1 ha
      obtain ⟨y, hy⟩ := Option.isSome_iff_exists.1 hb
      have hrest : (fromHex rest).length = n :=
        ih rest (by simp only [List.length_cons] at hlen; omega)
          fun c hc => hdigits c (by simp [hc])
      rw [fromHex]
      simp only [hx, hy, List.length_cons, hrest]

/-! ## UTF-8 -/

/-- A sequence of which bytes are still to come: what it has of its character, how many bytes it needs
    and between which bounds the next one is. -/
structure Sequence where
  codePoint : Nat
  needed : Nat
  lower : Nat
  upper : Nat

/-- The first byte of a character: a character, a sequence, or neither. -/
def startSequence (byte : Nat) : Char ⊕ Sequence ⊕ Unit :=
  if byte < 0x80 then .inl (Char.ofNat byte)
  else if 0xC2 ≤ byte ∧ byte ≤ 0xDF then .inr (.inl ⟨byte % 0x20, 1, 0x80, 0xBF⟩)
  else if 0xE0 ≤ byte ∧ byte ≤ 0xEF then
    .inr (.inl ⟨byte % 0x10, 2, if byte = 0xE0 then 0xA0 else 0x80,
      if byte = 0xED then 0x9F else 0xBF⟩)
  else if 0xF0 ≤ byte ∧ byte ≤ 0xF4 then
    .inr (.inl ⟨byte % 0x8, 3, if byte = 0xF0 then 0x90 else 0x80,
      if byte = 0xF4 then 0x8F else 0xBF⟩)
  else .inr (.inr ())

def replacementCharacter : Char := Char.ofNat 0xFFFD

/-- Read bytes, each malformed sequence as U+FFFD. -/
def decodeLossy : Option Sequence → List UInt8 → List Char
  | none, [] => []
  | some _, [] => [replacementCharacter]
  | pending, b :: rest =>
      let start (_ : Unit) : List Char :=
        match startSequence b.toNat with
        | .inl c => c :: decodeLossy none rest
        | .inr (.inl sequence) => decodeLossy (some sequence) rest
        | .inr (.inr ()) => replacementCharacter :: decodeLossy none rest
      match pending with
      | none => start ()
      | some sequence =>
          if sequence.lower ≤ b.toNat ∧ b.toNat ≤ sequence.upper then
            let codePoint := sequence.codePoint * 0x40 + b.toNat % 0x40
            if sequence.needed = 1 then Char.ofNat codePoint :: decodeLossy none rest
            else decodeLossy (some ⟨codePoint, sequence.needed - 1, 0x80, 0xBF⟩) rest
          else replacementCharacter :: start ()

def utf8 (text : String) : List UInt8 := text.toUTF8.data.toList

def fromUtf8 (bytes : List UInt8) : String :=
  match String.fromUTF8? ⟨bytes.toArray⟩ with
  | some text => text
  | none => .ofList (decodeLossy none bytes)

theorem fromUtf8_utf8 (text : String) : fromUtf8 (utf8 text) = text := by
  have hread : String.fromUTF8? ⟨(utf8 text).toArray⟩ = some text := by
    unfold String.fromUTF8? utf8
    simp only [Array.toArray_toList]
    exact dif_pos text.isValidUTF8
  rw [fromUtf8, hread]

theorem utf8_ne_nil {text : String} (h : text ≠ "") : utf8 text ≠ [] := by
  intro hnil
  have := fromUtf8_utf8 text
  rw [hnil] at this
  exact h (this.symm.trans (by decide +kernel))

end GetPlatform
