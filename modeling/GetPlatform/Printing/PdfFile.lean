import GetPlatform.Format.Pdf
import GetPlatform.Text
import Mathlib.Algebra.Group.Nat.Defs

set_option autoImplicit false

/-! # PDF files

The platform writes its PDF files by hand, as one text that becomes bytes at the end: a page, the
stream of its commands and a font, with the offsets taken from the length of the text so far. Reports
and receipts are written by the same code, given twice in the source. -/

namespace GetPlatform.Printing

/-! ## Texts -/

/-- The code units of a text: two of them for a character above U+FFFF. -/
def utf16 (text : String) : CodeUnits :=
  text.toList.flatMap fun c =>
    if c.toNat < 0x10000 then [Fin.ofNat 65536 c.toNat]
    else [Fin.ofNat 65536 (0xD800 + (c.toNat - 0x10000) / 0x400),
      Fin.ofNat 65536 (0xDC00 + (c.toNat - 0x10000) % 0x400)]

/-- `Buffer.from(text, 'latin1')`: the low byte of every code unit. -/
def latin1 (text : CodeUnits) : List UInt8 := text.map fun u => UInt8.ofNat u.val

/-- `text.replaceAll(unit, replacement)` -/
def replaceUnit (text : CodeUnits) (unit : Fin 65536) (replacement : String) : CodeUnits :=
  text.flatMap fun u => if u = unit then utf16 replacement else [u]

/-- `.replace(/[\u0300-\u036f]/g, '')`: the marks that NFD leaves. -/
def withoutMarks (text : CodeUnits) : CodeUnits :=
  text.filter fun u => ¬ (0x300 ≤ u.val ∧ u.val ≤ 0x36F)

/-- `.replace(/[^\x20-\x7E]/g, ' ')` -/
def onlyPrintable (text : CodeUnits) : CodeUnits :=
  text.map fun u => if 0x20 ≤ u.val ∧ u.val ≤ 0x7E then u else 0x20

/-- `.replaceAll('\\', '\\\\').replaceAll('(', '\\(').replaceAll(')', '\\)')` -/
def escapeText (text : CodeUnits) : CodeUnits :=
  replaceUnit (replaceUnit (replaceUnit text 92 "\\\\") 40 "\\(") 41 "\\)"

/-- `String(n).padStart(width, '0')` -/
def padStart (n width : Nat) : String :=
  .ofList (List.replicate (width - (toString n).length) '0') ++ toString n

/-! ## The file -/

/-- What may stand between strings: it opens no string and no comment. -/
def Plain (text : String) : Prop := ∀ c ∈ text.toList, c.toNat < 0x80 ∧ c ∉ ['(', ')', '%']

instance (text : String) : Decidable (Plain text) :=
  List.decidableBAll (fun c : Char => c.toNat < 0x80 ∧ c ∉ ['(', ')', '%']) text.toList

/-- How a document sets its lines. -/
structure Page where
  font : String
  start : String
  leading : String
  plain : ∀ text ∈ [font, start, leading], Plain text

/-- The commands that show the lines, each line escaped. -/
def commands (page : Page) (escape : CodeUnits → CodeUnits) (lines : List CodeUnits) : CodeUnits :=
  (utf16 "\n").intercalate <|
    [utf16 "BT", utf16 page.font, utf16 page.start] ++
    (lines.zipIdx.flatMap fun (line, index) =>
      (utf16 "(" ++ escape line ++ utf16 ") Tj") ::
        if index < lines.length - 1 then [utf16 page.leading] else []) ++
    [utf16 "ET"]

def objects (commands : CodeUnits) : List CodeUnits :=
  [utf16 "<< /Type /Catalog /Pages 2 0 R >>",
    utf16 "<< /Type /Pages /Kids [3 0 R] /Count 1 >>",
    utf16 ("<< /Type /Page /Parent 2 0 R /MediaBox [0 0 595 842] " ++
      "/Resources << /Font << /F1 5 0 R >> >> /Contents 4 0 R >>"),
    utf16 ("<< /Length " ++ toString commands.length ++ " >>\nstream\n") ++ commands ++
      utf16 "\nendstream",
    utf16 "<< /Type /Font /Subtype /Type1 /BaseFont /Helvetica >>"]

/-- The text so far, and the offsets of the objects in it. -/
structure Output where
  text : CodeUnits
  offsets : List Nat

def Output.start : Output := ⟨utf16 "%PDF-1.4\n%\xE2\xE3\xCF\xD3\n", [0]⟩

def indirect (n : Nat) (object : CodeUnits) : CodeUnits :=
  utf16 (toString n ++ " 0 obj\n") ++ object ++ utf16 "\nendobj\n"

def Output.add (output : Output) (object : CodeUnits) (index : Nat) : Output :=
  ⟨output.text ++ indirect (index + 1) object, output.offsets ++ [output.text.length]⟩

/-- `objects.forEach((object, index) => …)` -/
def Output.addAll (output : Output) (objects : List (CodeUnits × Nat)) : Output :=
  objects.foldl (fun output (object, index) => output.add object index) output

/-- The table of offsets, the trailer and the offset of the table. -/
def Output.finish (output : Output) (count : Nat) : CodeUnits :=
  output.text ++ utf16 ("xref\n0 " ++ toString (count + 1) ++ "\n0000000000 65535 f \n") ++
    (output.offsets.drop 1).flatMap (fun offset => utf16 (padStart offset 10 ++ " 00000 n \n")) ++
    utf16 ("trailer\n<< /Size " ++ toString (count + 1) ++ " /Root 1 0 R >>\nstartxref\n" ++
      toString output.text.length ++ "\n%%EOF\n")

def fileText (objects : List CodeUnits) : CodeUnits :=
  (Output.start.addAll objects.zipIdx).finish objects.length

/-- `RangeError: Invalid string length` -/
inductive RangeError where
  | invalidStringLength

/-- The length of the longest text that the engine builds. -/
def maxStringLength : Nat := 2 ^ 29 - 24

/-- The bytes of a document, whose text is the longest that the code builds for it. -/
def writePdf (page : Page) (escape : CodeUnits → CodeUnits) (lines : List CodeUnits) :
    Except RangeError (List UInt8) :=
  let text := fileText (objects (commands page escape lines))
  if text.length ≤ maxStringLength then .ok (latin1 text) else .error .invalidStringLength

/-! ## Texts as bytes -/

@[simp] theorem utf16_append (s t : String) : utf16 (s ++ t) = utf16 s ++ utf16 t := by
  rw [utf16, String.toList_append, List.flatMap_append]
  rfl

@[simp] theorem latin1_append (s t : CodeUnits) : latin1 (s ++ t) = latin1 s ++ latin1 t :=
  List.map_append

@[simp] theorem length_latin1 (text : CodeUnits) : (latin1 text).length = text.length :=
  List.length_map ..

theorem latin1_flatMap {α : Type} (f : α → CodeUnits) (xs : List α) :
    latin1 (xs.flatMap f) = xs.flatMap fun x => latin1 (f x) := List.map_flatMap

theorem latin1_intercalate (sep : CodeUnits) (parts : List CodeUnits) :
    latin1 (sep.intercalate parts) = (latin1 sep).intercalate (parts.map latin1) := by
  induction parts with
  | nil => rfl
  | cons part parts ih =>
    cases parts with
    | nil => simp
    | cons next parts =>
      rw [List.intercalate_cons_cons, latin1_append, latin1_append, ih]
      simp only [List.map_cons, List.intercalate_cons_cons]

/-- Every character is one code unit. -/
def Narrow (text : String) : Prop := ∀ c ∈ text.toList, c.toNat < 0x10000

instance (text : String) : Decidable (Narrow text) :=
  List.decidableBAll (fun c : Char => c.toNat < 0x10000) text.toList

theorem Narrow.append {s t : String} (hs : Narrow s) (ht : Narrow t) : Narrow (s ++ t) := by
  intro c hc
  rw [String.toList_append, List.mem_append] at hc
  exact hc.elim (hs c) (ht c)

theorem narrow_digits {digits : List Char} (h : ∀ c ∈ digits, c.isDigit = true) :
    Narrow (.ofList digits) := by
  intro c hc
  have hdigit : c.isDigit = true := h c (by rwa [String.toList_ofList] at hc)
  simp only [Char.isDigit, Bool.and_eq_true, decide_eq_true_eq] at hdigit
  have hle : c.toNat ≤ 57 := UInt32.le_iff_toNat_le.1 hdigit.2
  omega

theorem narrow_toString (n : Nat) : Narrow (toString n) := by
  rw [Nat.toString_eq_ofList_toDigits]
  exact narrow_digits fun c hc => Nat.isDigit_of_mem_toDigits (by omega) (by omega) hc

theorem narrow_padStart (n width : Nat) : Narrow (padStart n width) := by
  refine .append (narrow_digits ?_) (narrow_toString n)
  intro c hc
  rw [List.eq_of_mem_replicate hc]
  decide

/-- One code unit for each character, and one byte for each code unit. -/
theorem utf16_eq_map {text : String} (h : Narrow text) :
    utf16 text = text.toList.map fun c => Fin.ofNat 65536 c.toNat := by
  rw [List.map_eq_flatMap, utf16]
  exact List.flatMap_congr fun c hc => if_pos (h c hc)

theorem latin1_utf16 {text : String} (h : Narrow text) : latin1 (utf16 text) = Pdf.ascii text := by
  rw [utf16_eq_map h, latin1, List.map_map, Pdf.ascii]
  refine List.map_congr_left fun c hc => ?_
  have hc : c.toNat % 65536 = c.toNat := Nat.mod_eq_of_lt (h c hc)
  simp only [Function.comp_apply, Fin.ofNat, hc]

/-! ## The objects are where the table says -/

/-- Objects added to a text: each stands at its offset, and the text before them stays. -/
structure Added (before after : Output) (objects : List CodeUnits) (first : Nat)
    (offsets : List Nat) : Prop where
  text : before.text <+: after.text
  offsets_eq : after.offsets = before.offsets ++ offsets
  count : offsets.length = objects.length
  placed : ∀ (k : Nat) (object : CodeUnits), objects[k]? = some object →
    ∃ offset, offsets[k]? = some offset ∧ Pdf.At after.text offset (indirect (first + k + 1) object)

theorem indirect_ne_nil (n : Nat) (object : CodeUnits) : indirect n object ≠ [] := by
  have hlast : utf16 "\nendobj\n" ≠ [] := by decide +kernel
  exact List.append_ne_nil_of_right_ne_nil _ hlast

theorem added_addAll (objects : List CodeUnits) (output : Output) (first : Nat) :
    ∃ offsets, Added output (output.addAll (objects.zipIdx first)) objects first offsets := by
  induction objects generalizing output first with
  | nil =>
    refine ⟨[], List.prefix_rfl, (List.append_nil _).symm, rfl, ?_⟩
    intro k object hobject
    simp at hobject
  | cons object objects ih =>
    obtain ⟨offsets, hrest⟩ := ih (output.add object first) (first + 1)
    have hstep : output.addAll ((object :: objects).zipIdx first) =
        (output.add object first).addAll (objects.zipIdx (first + 1)) := rfl
    have htext : output.text <+: (output.add object first).text := List.prefix_append _ _
    rw [hstep]
    refine ⟨output.text.length :: offsets, htext.trans hrest.text, ?_, by simp [hrest.count], ?_⟩
    · rw [hrest.offsets_eq, Output.add, List.append_assoc, List.singleton_append]
    · intro k other hother
      cases k with
      | zero =>
        obtain rfl : object = other := by simpa using hother
        obtain ⟨more, hmore⟩ := hrest.text
        refine ⟨output.text.length, rfl, ?_⟩
        rw [← hmore]
        exact (Pdf.at_length output.text (indirect (first + 1) object)).append more
      | succ k =>
        obtain ⟨offset, hoffset, hat⟩ := hrest.placed k other (by simpa using hother)
        have hnumber : first + 1 + k + 1 = first + (k + 1) + 1 := by omega
        exact ⟨offset, by simpa using hoffset, hnumber ▸ hat⟩

theorem latin1_indirect (n : Nat) (object : CodeUnits) :
    latin1 (indirect n object) = Pdf.indirect n (latin1 object) := by
  rw [indirect, latin1_append, latin1_append, latin1_utf16 ((narrow_toString n).append (by decide +kernel)),
    latin1_utf16 (by decide +kernel), Pdf.indirect]

/-- The entry of an object. -/
def entry (offset : Nat) : List UInt8 := Pdf.ascii (padStart offset 10) ++ Pdf.ascii " 00000 n \n"

theorem latin1_entry (offset : Nat) :
    latin1 (utf16 (padStart offset 10 ++ " 00000 n \n")) = entry offset := by
  rw [latin1_utf16 ((narrow_padStart offset 10).append (by decide +kernel)), Pdf.ascii_append]
  rfl

theorem length_padStart {n width : Nat} (hwidth : 0 < width) (h : n < 10 ^ width) :
    (Pdf.ascii (padStart n width)).length = width := by
  have hlength : (toString n).length ≤ width := (Nat.length_repr_le_iff hwidth).2 h
  rw [Pdf.ascii, List.length_map, padStart, String.toList_append, String.toList_ofList,
    List.length_append, List.length_replicate, String.length_toList]
  omega

/-- Ten digits are enough for an offset that the engine can reach. -/
theorem length_entry {offset : Nat} (h : offset < 10 ^ 10) : (entry offset).length = 20 := by
  have htail : (Pdf.ascii " 00000 n \n").length = 10 := by decide +kernel
  rw [entry, List.length_append, length_padStart (by omega) h, htail]

theorem latin1_entries (offsets : List Nat) :
    latin1 (offsets.flatMap fun offset => utf16 (padStart offset 10 ++ " 00000 n \n")) =
      (offsets.map entry).flatten := by
  rw [latin1_flatMap, List.flatMap_congr fun offset _ => latin1_entry offset, List.flatMap_def]

/-- The file as it is read: the text before the table, the entries, and what follows. -/
theorem latin1_finish (output : Output) (count : Nat) :
    latin1 (output.finish count) =
      latin1 output.text ++
        (Pdf.ascii ("xref\n0 " ++ toString (count + 1) ++ "\n") ++
          (Pdf.ascii "0000000000 65535 f \n" :: (output.offsets.drop 1).map entry).flatten ++
          Pdf.ascii ("trailer\n<< /Size " ++ toString (count + 1) ++ " /Root 1 0 R >>\n")) ++
        (Pdf.ascii "startxref\n" ++ Pdf.ascii (toString output.text.length) ++ Pdf.ascii "\n%%EOF\n") := by
  have hhead : Narrow ("xref\n0 " ++ toString (count + 1) ++ "\n0000000000 65535 f \n") :=
    (Narrow.append (by decide +kernel) (narrow_toString _)).append (by decide +kernel)
  have htail : Narrow ("trailer\n<< /Size " ++ toString (count + 1) ++ " /Root 1 0 R >>\nstartxref\n" ++
      toString output.text.length ++ "\n%%EOF\n") :=
    ((Narrow.append (.append (by decide +kernel) (narrow_toString _)) (by decide +kernel)).append
      (narrow_toString _)).append (by decide +kernel)
  have hfree : "\n0000000000 65535 f \n" = "\n" ++ "0000000000 65535 f \n" := by decide +kernel
  have hroot : " /Root 1 0 R >>\nstartxref\n" = " /Root 1 0 R >>\n" ++ "startxref\n" := by
    decide +kernel
  rw [Output.finish, latin1_append, latin1_append, latin1_append, latin1_utf16 hhead,
    latin1_utf16 htail, latin1_entries, hfree, hroot]
  simp only [Pdf.ascii_append, List.flatten_cons, List.append_assoc]

theorem length_text_le_finish (output : Output) (count : Nat) :
    output.text.length ≤ (output.finish count).length := by
  simp only [Output.finish, List.length_append]
  omega

/-- An object is where its entry says, also in the bytes of the whole file. -/
theorem at_finish {output : Output} {object : CodeUnits} {n offset : Nat} (count : Nat)
    (h : Pdf.At output.text offset (indirect n object)) :
    Pdf.At (latin1 (output.finish count)) offset (Pdf.indirect n (latin1 object)) := by
  have hmap : Pdf.At (latin1 output.text) offset (latin1 (indirect n object)) := h.map _
  rw [latin1_finish, List.append_assoc, ← latin1_indirect]
  exact hmap.append _

theorem table_finish {output : Output} {objects : List CodeUnits} {offsets : List Nat}
    (h : Added .start output objects 0 offsets)
    (hlen : (output.finish objects.length).length ≤ maxStringLength) :
    Pdf.Table (latin1 (output.finish objects.length)) output.text.length (objects.map latin1)
      (Pdf.ascii "0000000000 65535 f \n" :: offsets.map entry) := by
  have hoffsets : output.offsets.drop 1 = offsets := by rw [h.offsets_eq]; rfl
  have hsmall : ∀ k offset : Nat, offsets[k]? = some offset → offset < 10 ^ 10 := by
    intro k offset hoffset
    obtain ⟨hk, -⟩ := List.getElem?_eq_some_iff.1 hoffset
    rw [h.count] at hk
    obtain ⟨found, hfound, hat⟩ := h.placed k _ (List.getElem?_eq_getElem hk)
    obtain rfl : found = offset := Option.some.inj (hfound.symm.trans hoffset)
    have hlt : found < output.text.length := hat.lt_length (indirect_ne_nil _ _)
    have hle := length_text_le_finish output objects.length
    unfold maxStringLength at hlen
    omega
  constructor
  · rw [latin1_finish, hoffsets, List.length_map, ← length_latin1]
    exact (Pdf.at_length _ _).append _
  · rw [List.length_cons, List.length_map, List.length_map, h.count]
  · intro bytes hbytes
    rcases List.mem_cons.1 hbytes with rfl | hbytes
    · decide +kernel
    · obtain ⟨offset, hoffset, rfl⟩ := List.mem_map.1 hbytes
      obtain ⟨k, hk⟩ := List.getElem?_of_mem hoffset
      exact length_entry (hsmall k offset hk)
  · rfl
  · intro k bytes hbytes
    rw [List.getElem?_map, Option.map_eq_some_iff] at hbytes
    obtain ⟨object, hobject, rfl⟩ := hbytes
    obtain ⟨offset, hoffset, hat⟩ := h.placed k object hobject
    have hentry : (Pdf.ascii "0000000000 65535 f \n" :: offsets.map entry)[k + 1]? =
        some (entry offset) := by
      rw [List.getElem?_cons_succ, List.getElem?_map, hoffset]
      rfl
    rw [Nat.zero_add] at hat
    exact ⟨_, offset, hentry, Pdf.number_padded _ offset, at_finish _ hat⟩

/-- **Every object is found**, in a file that the engine can build. -/
theorem valid_fileText {objects : List CodeUnits} (h : (fileText objects).length ≤ maxStringLength) :
    Pdf.Valid (latin1 (fileText objects)) (objects.map latin1) := by
  obtain ⟨offsets, hadded⟩ := added_addAll objects .start 0
  have hheader : Pdf.ascii "%PDF-" <+: latin1 Output.start.text := by decide +kernel
  constructor
  · obtain ⟨more, hmore⟩ := hadded.text
    rw [fileText, latin1_finish, ← hmore, latin1_append]
    simp only [List.append_assoc]
    exact hheader.trans (List.prefix_append _ _)
  · refine ⟨_, _, ⟨_, Pdf.number_toString _, ?_⟩, table_finish hadded h⟩
    rw [fileText, latin1_finish]
    exact List.suffix_append _ _

/-! ## The page shows the lines -/

/-- Every code unit is a printable ASCII character. -/
def Printable (text : CodeUnits) : Prop := ∀ u ∈ text, 0x20 ≤ u.val ∧ u.val ≤ 0x7E

theorem printable_onlyPrintable (text : CodeUnits) : Printable (onlyPrintable text) := by
  intro u hu
  obtain ⟨v, -, rfl⟩ := List.mem_map.1 hu
  by_cases h : 0x20 ≤ v.val ∧ v.val ≤ 0x7E
  · rwa [if_pos h]
  · rw [if_neg h]
    decide

/-- The three replacements leave one another's characters alone. -/
theorem escapeText_eq (text : CodeUnits) :
    escapeText text = text.flatMap fun u => if u = 40 ∨ u = 41 ∨ u = 92 then [92, u] else [u] := by
  have hsolidus : utf16 "\\\\" = [92, 92] := by decide +kernel
  have hopen : utf16 "\\(" = [92, 40] := by decide +kernel
  have hclose : utf16 "\\)" = [92, 41] := by decide +kernel
  simp only [escapeText, replaceUnit, hsolidus, hopen, hclose, List.flatMap_assoc]
  refine List.flatMap_congr fun u _ => ?_
  by_cases h : u = 40 ∨ u = 41 ∨ u = 92
  · rcases h with rfl | rfl | rfl <;> decide
  · rw [if_neg h]
    simp only [not_or] at h
    simp [h]

theorem latin1_escapeText {text : CodeUnits} (h : Printable text) :
    latin1 (escapeText text) = (latin1 text).flatMap Pdf.escape := by
  have hbyte : ∀ u : Fin 65536, 0x20 ≤ u.val ∧ u.val ≤ 0x7E → ∀ n : Nat, n < 128 →
      (UInt8.ofNat u.val = UInt8.ofNat n ↔ u = Fin.ofNat 65536 n) := by
    intro u hu n hn
    rw [← UInt8.toNat_inj, UInt8.toNat_ofNat', UInt8.toNat_ofNat', Fin.ext_iff, Fin.val_ofNat]
    omega
  rw [escapeText_eq, latin1_flatMap, latin1, List.flatMap_map]
  refine List.flatMap_congr fun u hu => ?_
  have hiff := hbyte u (h u hu)
  have hescaped : (UInt8.ofNat u.val = 40 ∨ UInt8.ofNat u.val = 41 ∨ UInt8.ofNat u.val = 92) ↔
      (u = 40 ∨ u = 41 ∨ u = 92) :=
    or_congr (hiff 40 (by omega)) (or_congr (hiff 41 (by omega)) (hiff 92 (by omega)))
  rw [Pdf.escape]
  by_cases hu : u = 40 ∨ u = 41 ∨ u = 92
  · rw [if_pos hu, if_pos (hescaped.2 hu)]
    rfl
  · rw [if_neg hu, if_neg (mt hescaped.1 hu)]
    rfl

theorem latin1_ne_return {text : CodeUnits} (h : Printable text) : ∀ b ∈ latin1 text, b ≠ 13 := by
  intro b hb
  obtain ⟨u, hu, rfl⟩ := List.mem_map.1 hb
  have hu := h u hu
  rw [Ne, ← UInt8.toNat_inj, UInt8.toNat_ofNat']
  change ¬ u.val % 2 ^ 8 = 13
  omega

theorem shows_utf16 {text : String} (h : Plain text) : Pdf.Shows (latin1 (utf16 text)) [] := by
  rw [latin1_utf16 fun c hc => Nat.lt_trans (h c hc).1 (by omega)]
  refine Pdf.shows_plain fun b hb => ?_
  obtain ⟨c, hc, rfl⟩ := List.mem_map.1 hb
  obtain ⟨hsmall, hplain⟩ := h c hc
  have hbyte : ∀ d : Char, d.toNat < 0x80 → c ≠ d → UInt8.ofNat c.toNat ≠ UInt8.ofNat d.toNat := by
    intro d hd hne heq
    rw [← UInt8.toNat_inj, UInt8.toNat_ofNat', UInt8.toNat_ofNat', Nat.mod_eq_of_lt (by omega),
      Nat.mod_eq_of_lt (by omega), Char.toNat_inj] at heq
    exact hne heq
  simp only [List.mem_cons, List.not_mem_nil, or_false, not_or] at hplain
  exact ⟨hbyte '(' (by decide) hplain.1, hbyte ')' (by decide) hplain.2.1,
    hbyte '%' (by decide) hplain.2.2⟩

/-- A way to escape a line shows what the line is transliterated to. -/
structure Escapes (escape transliterate : CodeUnits → CodeUnits) : Prop where
  printable : ∀ line, Printable (transliterate line)
  escape_eq : ∀ line, escape line = escapeText (transliterate line)

section
variable {page : Page} {escape transliterate : CodeUnits → CodeUnits}

theorem Escapes.shows_line (h : Escapes escape transliterate) (line : CodeUnits) :
    Pdf.Shows (latin1 (utf16 "(" ++ escape line ++ utf16 ") Tj")) [latin1 (transliterate line)] := by
  have hliteral : latin1 (utf16 "(" ++ escape line ++ utf16 ") Tj") =
      Pdf.literal (latin1 (transliterate line)) ++ latin1 (utf16 " Tj") := by
    have hopen : latin1 (utf16 "(") = [40] := by decide +kernel
    have hclose : latin1 (utf16 ") Tj") = 41 :: latin1 (utf16 " Tj") := by decide +kernel
    rw [latin1_append, latin1_append, hopen, hclose, h.escape_eq, latin1_escapeText (h.printable line),
      Pdf.literal]
    simp
  have hstring := Pdf.shows_literal (latin1_ne_return (h.printable line))
  have hoperator : Pdf.Shows (latin1 (utf16 " Tj")) [] := shows_utf16 (by decide +kernel)
  rw [hliteral]
  exact hstring.append hoperator

theorem Page.shows (page : Page) (text : String) (h : text ∈ [page.font, page.start, page.leading]) :
    Pdf.Shows (latin1 (utf16 text)) [] := shows_utf16 (page.plain text h)

/-- **The commands show the lines**, in their order. -/
theorem Escapes.shows_commands (h : Escapes escape transliterate) (page : Page)
    (lines : List CodeUnits) :
    Pdf.Shows (latin1 (commands page escape lines))
      (lines.map fun line => latin1 (transliterate line)) := by
  have hbegin : Pdf.Shows (latin1 (utf16 "BT")) [] := shows_utf16 (by decide +kernel)
  have hend : Pdf.Shows (latin1 (utf16 "ET")) [] := shows_utf16 (by decide +kernel)
  have hnewline : Pdf.Shows (latin1 (utf16 "\n")) [] := shows_utf16 (by decide +kernel)
  have hline : ∀ entry ∈ lines.zipIdx, Pdf.ShowAll
      (((utf16 "(" ++ escape entry.1 ++ utf16 ") Tj") ::
        if entry.2 < lines.length - 1 then [utf16 page.leading] else []).map latin1)
      [latin1 (transliterate entry.1)] := by
    intro entry _
    refine .cons (h.shows_line entry.1) (t := []) ?_
    split
    · exact .cons (page.shows _ (by simp)) .nil
    · exact .nil
  have htexts : (lines.zipIdx.flatMap fun entry => [latin1 (transliterate entry.1)]) =
      lines.map fun line => latin1 (transliterate line) := by
    rw [← List.map_eq_flatMap]
    exact (List.map_map (f := Prod.fst)
      (g := fun line => latin1 (transliterate line))).symm.trans (by rw [List.zipIdx_map_fst])
  have hlines := Pdf.ShowAll.flatMap lines.zipIdx hline
  rw [htexts] at hlines
  have hall := (Pdf.ShowAll.cons hbegin (.cons (page.shows page.font (by simp))
    (.cons (page.shows page.start (by simp)) .nil))).append (hlines.append (.cons hend .nil))
  rw [commands, latin1_intercalate]
  simp only [List.map_append, List.map_cons, List.map_nil, List.map_flatMap, List.append_assoc]
  simpa using hall.intercalate hnewline

/-- The fourth object gives the length of the commands. -/
theorem stream_commands (commands : CodeUnits) :
    ∃ object, (objects commands)[3]? = some object ∧ Pdf.Stream (latin1 object) (latin1 commands) := by
  refine ⟨_, rfl, Pdf.ascii (toString commands.length), ?_, ?_⟩
  · rw [Pdf.number_toString, length_latin1]
  · have hhead : Narrow ("<< /Length " ++ toString commands.length ++ " >>\nstream\n") :=
      (Narrow.append (by decide +kernel) (narrow_toString _)).append (by decide +kernel)
    rw [latin1_append, latin1_append, latin1_utf16 hhead, latin1_utf16 (by decide +kernel),
      Pdf.ascii_append, Pdf.ascii_append]

theorem writePdf_eq_ok {lines : List CodeUnits} {file : List UInt8} :
    writePdf page escape lines = .ok file ↔
      (fileText (objects (commands page escape lines))).length ≤ maxStringLength ∧
        latin1 (fileText (objects (commands page escape lines))) = file := by
  unfold writePdf
  by_cases hlen : (fileText (objects (commands page escape lines))).length ≤ maxStringLength
  · simp only [hlen, if_true, Except.ok.injEq, true_and]
  · simp only [hlen, if_false, reduceCtorEq, false_and]

/-- **A file that is written is valid and shows the lines.** -/
theorem Escapes.prints (h : Escapes escape transliterate) {lines : List CodeUnits}
    {file : List UInt8} (hfile : writePdf page escape lines = .ok file) :
    Pdf.Prints file (lines.map fun line => latin1 (transliterate line)) := by
  obtain ⟨hlen, rfl⟩ := writePdf_eq_ok.1 hfile
  obtain ⟨object, hobject, hstream⟩ := stream_commands (commands page escape lines)
  have hmapped : ((objects (commands page escape lines)).map latin1)[3]? = some (latin1 object) := by
    rw [List.getElem?_map, hobject]
    rfl
  have hpage : ∃ object ∈ (objects (commands page escape lines)).map latin1,
      Pdf.ascii ("/Contents " ++ toString 4 ++ " 0 R") <:+: object := by
    refine ⟨_, List.mem_map_of_mem (.tail _ (.tail _ (.head _))), ?_⟩
    decide +kernel
  exact ⟨_, 3, _, _, valid_fileText hlen, hmapped, hpage, hstream,
    (h.shows_commands page lines).literals⟩

end

end GetPlatform.Printing
