import Mathlib.Data.List.Basic

set_option autoImplicit false

/-! # Files of numbered objects

A reader of PDF finds an object by its entry in a table of offsets, and the table by the last lines of
the file. An entry has twenty bytes, so that the entry of an object is found by its number. A content
stream gives its own length, and shows texts as literal strings, where a parenthesis or a reverse
solidus may be escaped by a reverse solidus. -/

namespace Pdf

abbrev Bytes := List UInt8

/-- A text of ASCII characters. -/
def ascii (text : String) : Bytes := text.toList.map fun c => UInt8.ofNat c.toNat

theorem ascii_append (s t : String) : ascii (s ++ t) = ascii s ++ ascii t := by
  rw [ascii, String.toList_append, List.map_append]
  rfl

/-! ## Numbers -/

def isDigit (b : UInt8) : Bool := 48 ≤ b.toNat ∧ b.toNat ≤ 57

/-- The number that a run of digits writes. -/
def number (digits : Bytes) : Option Nat :=
  if digits ≠ [] ∧ digits.all isDigit then
    some (digits.foldl (fun n b => 10 * n + (b.toNat - 48)) 0)
  else none

theorem toNat_ofNat_digit {c : Char} (h : c.isDigit = true) :
    (UInt8.ofNat c.toNat).toNat = c.toNat := by
  rw [UInt8.toNat_ofNat']
  have hc : c.toNat ≤ 57 := by
    simp only [Char.isDigit, Bool.and_eq_true, decide_eq_true_eq] at h
    exact UInt32.le_iff_toNat_le.1 h.2
  omega

theorem isDigit_ofNat {c : Char} (h : c.isDigit = true) : isDigit (UInt8.ofNat c.toNat) = true := by
  have hc : 48 ≤ c.toNat ∧ c.toNat ≤ 57 := by
    simp only [Char.isDigit, Bool.and_eq_true, decide_eq_true_eq] at h
    exact ⟨UInt32.le_iff_toNat_le.1 h.1, UInt32.le_iff_toNat_le.1 h.2⟩
  rw [isDigit, toNat_ofNat_digit h]
  exact decide_eq_true hc

theorem number_digits {digits : List Char} (hne : digits ≠ [])
    (hdigits : ∀ c ∈ digits, c.isDigit = true) :
    number (ascii (.ofList digits)) = some (Nat.ofDigitChars 10 digits 0) := by
  have hall : (digits.map fun c => UInt8.ofNat c.toNat).all isDigit = true := by
    rw [List.all_map, List.all_eq_true]
    exact fun c hc => isDigit_ofNat (hdigits c hc)
  have hfold : ∀ (rest : List Char) (n : Nat), (∀ c ∈ rest, c.isDigit = true) →
      (rest.map fun c => UInt8.ofNat c.toNat).foldl (fun n b => 10 * n + (b.toNat - 48)) n =
        Nat.ofDigitChars 10 rest n := by
    intro rest
    induction rest with
    | nil =>
      intro n _
      rfl
    | cons c rest ih =>
      intro n hrest
      rw [List.map_cons, List.foldl_cons, Nat.ofDigitChars_cons, toNat_ofNat_digit (hrest c (.head _)),
        ih _ fun c hc => hrest c (.tail _ hc)]
      rfl
  rw [number, ascii, String.toList_ofList, if_pos ⟨by simpa using hne, hall⟩, hfold _ _ hdigits]

/-- Zeros before a number do not change it. -/
theorem number_padded (zeros n : Nat) :
    number (ascii (.ofList (List.replicate zeros '0') ++ toString n)) = some n := by
  have htext : String.ofList (List.replicate zeros '0') ++ toString n =
      .ofList (List.replicate zeros '0' ++ Nat.toDigits 10 n) := by
    rw [← String.toList_inj, String.toList_append, String.toList_ofList, String.toList_ofList,
      Nat.toString_eq_ofList_toDigits, String.toList_ofList]
  have hdigits : ∀ c ∈ List.replicate zeros '0' ++ Nat.toDigits 10 n, c.isDigit = true := by
    intro c hc
    rcases List.mem_append.1 hc with hc | hc
    · rw [List.eq_of_mem_replicate hc]
      decide
    · exact Nat.isDigit_of_mem_toDigits (by omega) (by omega) hc
  rw [htext, number_digits (by simp [Nat.toDigits_ne_nil]) hdigits, Nat.ofDigitChars_append,
    Nat.ofDigitChars_replicate_zero, Nat.mul_zero, Nat.ofDigitChars_ten_toDigits]

theorem number_toString (n : Nat) : number (ascii (toString n)) = some n := by
  have hpadded : number _ = some n := number_padded 0 n
  rwa [List.replicate_zero, String.ofList_nil, String.empty_append] at hpadded

/-! ## Parts of a file -/

/-- A part stands at an offset. -/
def At {α : Type} (whole : List α) (offset : Nat) (part : List α) : Prop := part <+: whole.drop offset

section
variable {α : Type} {whole part : List α} {offset : Nat}

theorem at_length (before part : List α) : At (before ++ part) before.length part :=
  ⟨[], by rw [List.append_nil, List.drop_left]⟩

/-- What is written after a part leaves it where it is. -/
theorem At.append (h : At whole offset part) (more : List α) : At (whole ++ more) offset part := by
  unfold At at *
  rw [List.drop_append]
  exact h.trans (List.prefix_append _ _)

theorem At.lt_length (h : At whole offset part) (hne : part ≠ []) : offset < whole.length := by
  by_contra hge
  rw [At, List.drop_eq_nil_of_le (by omega), List.prefix_nil] at h
  exact hne h

theorem At.map {β : Type} (f : α → β) (h : At whole offset part) :
    At (whole.map f) offset (part.map f) := by
  unfold At at *
  rw [← List.map_drop]
  exact h.map f

end

/-- `n 0 obj … endobj` -/
def indirect (n : Nat) (object : Bytes) : Bytes :=
  ascii (toString n ++ " 0 obj\n") ++ object ++ ascii "\nendobj\n"

/-- The last lines of a file give the offset of its table. -/
def Points (file : Bytes) (start : Nat) : Prop :=
  ∃ digits, number digits = some start ∧
    ascii "startxref\n" ++ digits ++ ascii "\n%%EOF\n" <:+ file

/-- A table of entries for objects 1, 2, …, after the entry that every table starts with. -/
structure Table (file : Bytes) (start : Nat) (objects entries : List Bytes) : Prop where
  placed : At file start (ascii ("xref\n0 " ++ toString (objects.length + 1) ++ "\n") ++
    entries.flatten ++
    ascii ("trailer\n<< /Size " ++ toString (objects.length + 1) ++ " /Root 1 0 R >>\n"))
  count : entries.length = objects.length + 1
  width : ∀ entry ∈ entries, entry.length = 20
  free : entries[0]? = some (ascii "0000000000 65535 f \n")
  /-- The entry of an object gives the offset of the object. -/
  entry : ∀ (k : Nat) (object : Bytes), objects[k]? = some object → ∃ digits offset,
    entries[k + 1]? = some (digits ++ ascii " 00000 n \n") ∧ number digits = some offset ∧
      At file offset (indirect (k + 1) object)

/-- A file whose objects are found. -/
structure Valid (file : Bytes) (objects : List Bytes) : Prop where
  header : ascii "%PDF-" <+: file
  table : ∃ start entries, Points file start ∧ Table file start objects entries

/-- A stream gives the length of its content. -/
def Stream (object content : Bytes) : Prop :=
  ∃ digits, number digits = some content.length ∧
    object = ascii "<< /Length " ++ digits ++ ascii " >>\nstream\n" ++ content ++ ascii "\nendstream"

/-! ## The texts of a content stream -/

/-- What the reader is in the middle of. -/
inductive Mode where
  | outside
  | comment
  /-- In a string, within so many parentheses of its own. -/
  | text (depth : Nat)
  /-- After a reverse solidus. -/
  | escaped (depth : Nat)
  /-- After one or two octal digits of a byte. -/
  | octal (depth count code : Nat)
  /-- After a carriage return: a line feed ends the same line. -/
  | returned (depth : Nat)

/-- What the reader has of the string it is in, and of those before it. -/
structure Reader where
  mode : Mode
  current : Bytes
  strings : List Bytes

def Reader.push (r : Reader) (mode : Mode) (b : UInt8) : Reader :=
  { r with mode := mode, current := r.current ++ [b] }

/-- A byte of a string: parentheses nest, and every end of line is a line feed. -/
def Reader.read (r : Reader) (depth : Nat) (b : UInt8) : Reader :=
  if b = 40 then r.push (.text (depth + 1)) b
  else if b = 41 then
    match depth with
    | 0 => ⟨.outside, [], r.strings ++ [r.current]⟩
    | depth + 1 => r.push (.text depth) b
  else if b = 92 then { r with mode := .escaped depth }
  else if b = 13 then r.push (.returned depth) 10
  else r.push (.text depth) b

def isOctal (b : UInt8) : Bool := 48 ≤ b.toNat ∧ b.toNat ≤ 55

/-- A byte after a reverse solidus: a control character, an octal digit, an end of line that is no part
of the string, or the byte itself. -/
def Reader.unescape (r : Reader) (depth : Nat) (b : UInt8) : Reader :=
  if b = 110 then r.push (.text depth) 10
  else if b = 114 then r.push (.text depth) 13
  else if b = 116 then r.push (.text depth) 9
  else if b = 98 then r.push (.text depth) 8
  else if b = 102 then r.push (.text depth) 12
  else if isOctal b then { r with mode := .octal depth 1 (b.toNat - 48) }
  else if b = 10 then { r with mode := .text depth }
  else if b = 13 then { r with mode := .returned depth }
  else r.push (.text depth) b

/-- A parenthesis that closes nothing is an error. -/
def step (r : Reader) (b : UInt8) : Option Reader :=
  match r.mode with
  | .outside =>
      if b = 40 then some { r with mode := .text 0, current := [] }
      else if b = 41 then none
      else if b = 37 then some { r with mode := .comment }
      else some r
  | .comment => some (if b = 10 ∨ b = 13 then { r with mode := .outside } else r)
  | .text depth => some (r.read depth b)
  | .escaped depth => some (r.unescape depth b)
  | .octal depth count code =>
      if isOctal b then
        let code := 8 * code + (b.toNat - 48)
        some (if count = 2 then r.push (.text depth) (UInt8.ofNat code)
          else { r with mode := .octal depth (count + 1) code })
      else some ((r.push (.text depth) (UInt8.ofNat code)).read depth b)
  | .returned depth => some (if b = 10 then { r with mode := .text depth } else r.read depth b)

/-- The literal strings of a content stream. -/
def literals (content : Bytes) : Option (List Bytes) :=
  (content.foldlM step ⟨.outside, [], []⟩).bind fun r =>
    match r.mode with
    | .outside | .comment => some r.strings
    | _ => none

example : literals (ascii "BT (a\\(b\\)\\\\ (c) \\101) Tj % (d)\n(e\\\r\nf) Tj") =
    some [ascii "a(b)\\ (c) A", ascii "ef"] := by decide +kernel

/-! ### Writing a string -/

/-- A parenthesis or a reverse solidus of a string. -/
def escape (b : UInt8) : Bytes := if b = 40 ∨ b = 41 ∨ b = 92 then [92, b] else [b]

def literal (text : Bytes) : Bytes := 40 :: (text.flatMap escape ++ [41])

/-- A part of a content stream between strings shows texts. -/
def Shows (part : Bytes) (texts : List Bytes) : Prop :=
  ∀ strings, part.foldlM step ⟨.outside, [], strings⟩ = some ⟨.outside, [], strings ++ texts⟩

theorem Shows.literals {content : Bytes} {texts : List Bytes} (h : Shows content texts) :
    literals content = some texts := by
  rw [Pdf.literals, h [], Option.bind_some, List.nil_append]

theorem shows_nil : Shows [] [] := by
  intro strings
  rw [List.append_nil]
  rfl

theorem Shows.append {p q : Bytes} {s t : List Bytes} (hp : Shows p s) (hq : Shows q t) :
    Shows (p ++ q) (s ++ t) := by
  intro strings
  rw [List.foldlM_append, hp strings, ← List.append_assoc]
  exact hq (strings ++ s)

/-- Bytes that open no string and no comment show nothing. -/
theorem shows_plain {part : Bytes} (h : ∀ b ∈ part, b ≠ 40 ∧ b ≠ 41 ∧ b ≠ 37) : Shows part [] := by
  intro strings
  induction part with
  | nil => exact shows_nil strings
  | cons b part ih =>
    obtain ⟨hopen, hclose, hcomment⟩ := h b (.head _)
    have hstep : step ⟨.outside, [], strings⟩ b = some ⟨.outside, [], strings⟩ := by
      simp [step, hopen, hclose, hcomment]
    rw [List.foldlM_cons, hstep]
    exact ih fun c hc => h c (.tail _ hc)

/-- An escaped byte is read as the byte. -/
theorem step_escape (current : Bytes) (strings : List Bytes) {b : UInt8} (h : b ≠ 13) :
    (escape b).foldlM step ⟨.text 0, current, strings⟩ = some ⟨.text 0, current ++ [b], strings⟩ := by
  unfold escape
  by_cases hb : b = 40 ∨ b = 41 ∨ b = 92
  · rw [if_pos hb]
    rcases hb with rfl | rfl | rfl <;> rfl
  · have hread : step ⟨.text 0, current, strings⟩ b = some ⟨.text 0, current ++ [b], strings⟩ := by
      simp only [not_or] at hb
      simp [step, Reader.read, Reader.push, hb, h]
    rw [if_neg hb, List.foldlM_cons, hread]
    rfl

theorem foldlM_escape (strings : List Bytes) {text : Bytes} (h : ∀ b ∈ text, b ≠ 13) (current : Bytes) :
    (text.flatMap escape).foldlM step ⟨.text 0, current, strings⟩ =
      some ⟨.text 0, current ++ text, strings⟩ := by
  induction text generalizing current with
  | nil =>
    rw [List.append_nil]
    rfl
  | cons b text ih =>
    rw [List.flatMap_cons, List.foldlM_append, step_escape _ _ (h b (.head _))]
    have hrest := ih (fun c hc => h c (.tail _ hc)) (current ++ [b])
    rwa [List.append_assoc] at hrest

/-- **A string is read as the text it was written from**, unless a carriage return is in it. -/
theorem shows_literal {text : Bytes} (h : ∀ b ∈ text, b ≠ 13) : Shows (literal text) [text] := by
  intro strings
  have hopen : step ⟨.outside, [], strings⟩ 40 = some ⟨.text 0, [], strings⟩ := rfl
  rw [literal, List.foldlM_cons, hopen, Option.bind_eq_bind, Option.bind_some, List.foldlM_append,
    foldlM_escape strings h]
  rfl

/-! ### Lines -/

/-- Lines of a content stream, with the texts they show. -/
inductive ShowAll : List Bytes → List Bytes → Prop where
  | nil : ShowAll [] []
  | cons {part : Bytes} {parts s t : List Bytes} :
      Shows part s → ShowAll parts t → ShowAll (part :: parts) (s ++ t)

theorem ShowAll.append {parts more s t : List Bytes} (h : ShowAll parts s) (hmore : ShowAll more t) :
    ShowAll (parts ++ more) (s ++ t) := by
  induction h with
  | nil => exact hmore
  | cons hpart _ ih =>
    rw [List.append_assoc]
    exact .cons hpart ih

theorem ShowAll.flatMap {α : Type} {lines texts : α → List Bytes} (xs : List α)
    (h : ∀ x ∈ xs, ShowAll (lines x) (texts x)) : ShowAll (xs.flatMap lines) (xs.flatMap texts) := by
  induction xs with
  | nil => exact .nil
  | cons x xs ih => exact (h x (.head _)).append (ih fun y hy => h y (.tail _ hy))

/-- What stands between the lines shows nothing. -/
theorem ShowAll.intercalate {sep : Bytes} (hsep : Shows sep []) {parts texts : List Bytes}
    (h : ShowAll parts texts) : Shows (sep.intercalate parts) texts := by
  induction h with
  | nil => exact shows_nil
  | @cons part parts s t hpart hparts ih =>
    cases hparts with
    | nil =>
      rw [List.append_nil]
      simpa using hpart
    | cons hnext hparts =>
      have hshown : Shows _ (s ++ [] ++ _) := (hpart.append hsep).append ih
      rwa [List.append_nil, ← List.intercalate_cons_cons] at hshown

/-! ## Files that show texts -/

/-- A page of the file has a stream for its contents, which shows the texts. -/
def Prints (file : Bytes) (texts : List Bytes) : Prop :=
  ∃ objects k object content, Valid file objects ∧ objects[k]? = some object ∧
    (∃ page ∈ objects, ascii ("/Contents " ++ toString (k + 1) ++ " 0 R") <:+: page) ∧
    Stream object content ∧ literals content = some texts

end Pdf
