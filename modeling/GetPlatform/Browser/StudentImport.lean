import GetPlatform.Format.CsvFile
import GetPlatform.Format.Numeral
import GetPlatform.Format.Strip
import Mathlib.Tactic.IntervalCases

set_option autoImplicit false

/-! # Importing students from a file

The file is cut at line ends and commas, and quotes mean nothing: rows are read as they were written exactly
when no cell of theirs is written between quotes. -/

namespace GetPlatform.Browser

open Csv

/-! ## The import -/

/-- A row as it is sent; a field that is `undefined` is left out. -/
structure SentRow where
  email : Option Text
  programName : Option Text
  level : Number
  academicYearLabel : Option Text
  deriving DecidableEq

/-- `text.split(/\r?\n/)`, with the line in progress. -/
def splitLinesFrom (line : Text) : Text → List Text
  | [] => [line]
  | '\r' :: '\n' :: rest => line :: splitLinesFrom [] rest
  | '\n' :: rest => line :: splitLinesFrom [] rest
  | c :: rest => splitLinesFrom (line ++ [c]) rest

def splitLines (text : Text) : List Text := splitLinesFrom [] text

def trimText (text : Text) : Text := (trim (.ofList text)).toList

/-- `line.split(',').map((cell) => cell.trim())` -/
def cellsOf (line : Text) : List Text := (line.splitOnP (· = ',')).map trimText

/-- The columns have an order, and the cells after the fourth are not read. -/
def sentRow (cells : List Text) : SentRow where
  email := cells[0]?
  programName := cells[1]?
  level := match cells[2]? with
    | some level => .ofText (.ofList level)
    | none => .NaN
  academicYearLabel := cells[3]?

def readLine (line : Text) : SentRow := sentRow (cellsOf line)

/-- The rows that are sent, if a file was chosen. -/
def importCsv (file : Option Text) : Option (List SentRow) :=
  file.map fun text => ((splitLines (trimText text)).drop 1).map readLine

/-! ## Files -/

def OneLine (text : Text) : Prop := ∀ c ∈ text, c ≠ '\n' ∧ c ≠ '\r'

instance (text : Text) : Decidable (OneLine text) :=
  List.decidableBAll (fun c : Char => c ≠ '\n' ∧ c ≠ '\r') text

/-- A text on one line, without blanks around it. -/
structure Cell where
  text : Text
  line : OneLine text
  stripped : Stripped isSpace text

/-- A line that is not blank. -/
structure Header where
  text : Text
  line : OneLine text
  notBlank : ∃ c ∈ text, isSpace c = false

structure StudentRow where
  email : Cell
  programName : Cell
  level : Int
  academicYearLabel : Cell

def StudentRow.sent (row : StudentRow) : SentRow :=
  ⟨some row.email.text, some row.programName.text, .finite row.level, some row.academicYearLabel.text⟩

/-- A row, and the fields that the writer puts between quotes though it may not have to. -/
structure WrittenRow extends StudentRow where
  quoteEmail : Bool
  quoteProgramName : Bool
  quoteLevel : Bool
  quoteAcademicYearLabel : Bool

def levelText (level : Int) : Text := (toString level).toList

def WrittenRow.fields (row : WrittenRow) : List Field :=
  [⟨row.email.text, row.quoteEmail⟩, ⟨row.programName.text, row.quoteProgramName⟩,
    ⟨levelText row.level, row.quoteLevel⟩, ⟨row.academicYearLabel.text, row.quoteAcademicYearLabel⟩]

def studentFile (layout : Layout) (header : Header) (rows : List WrittenRow) : Text :=
  file ',' layout header.text (rows.map (·.fields))

/-! ## Lines -/

theorem splitLinesFrom_text {text : Text} (h : OneLine text) (line rest : Text) :
    splitLinesFrom line (text ++ rest) = splitLinesFrom (line ++ text) rest := by
  induction text generalizing line with
  | nil => rw [List.nil_append, List.append_nil]
  | cons c text ih =>
      obtain ⟨hnewline, hreturn⟩ := h c (.head _)
      rw [List.cons_append, splitLinesFrom, ih fun d hd => h d (.tail _ hd), List.append_assoc,
        List.singleton_append]
      · exact fun _ hc => absurd hc hreturn
      · exact hnewline

theorem splitLinesFrom_eol (layout : Layout) (line rest : Text) :
    splitLinesFrom line (layout.eol ++ rest) = line :: splitLinesFrom [] rest := by
  rw [Layout.eol]
  split <;> rfl

theorem splitLines_file (layout : Layout) {header : Text} (hheader : OneLine header) {lines : List Text}
    (hlines : ∀ line ∈ lines, OneLine line) :
    splitLines (header ++ lines.flatMap fun line => layout.eol ++ line) = header :: lines := by
  induction lines generalizing header with
  | nil =>
      rw [splitLines, List.flatMap_nil, splitLinesFrom_text hheader]
      rfl
  | cons line lines ih =>
      rw [splitLines, splitLinesFrom_text hheader, List.nil_append, List.flatMap_cons, List.append_assoc,
        splitLinesFrom_eol]
      exact congrArg _ (ih (hlines line (.head _)) fun other hother => hlines other (.tail _ hother))

theorem trimText_eq (text : Text) : trimText text = strip isSpace text := by
  rw [trimText, toList_trim, String.toList_ofList]

theorem blank_eol (layout : Layout) : ∀ c ∈ layout.eol, isSpace c = true := by
  intro c hc
  rw [Layout.eol] at hc
  split at hc
  · rcases List.mem_pair.1 hc with rfl | rfl <;> decide
  · rw [List.mem_singleton.1 hc]
    decide

theorem blank_tail (layout : Layout) : ∀ c ∈ layout.tail, isSpace c = true := by
  intro c hc
  rw [Layout.tail] at hc
  split at hc
  · exact blank_eol layout c hc
  · exact absurd hc List.not_mem_nil

/-- Trimming leaves a line of the header, and the other lines as they are. -/
theorem exists_trimText_file (layout : Layout) (header : Header) {lines : List Text}
    (hlines : ∀ line ∈ lines, line ≠ [] ∧ ∀ c ∈ line.getLast?, isSpace c = false) :
    ∃ first, OneLine first ∧
      trimText (header.text ++ (lines.flatMap fun line => layout.eol ++ line) ++ layout.tail) =
        first ++ lines.flatMap fun line => layout.eol ++ line := by
  have hdrop : ∀ rest, (header.text ++ rest).dropWhile isSpace = header.text.dropWhile isSpace ++ rest := by
    intro rest
    obtain ⟨c, hc, hspace⟩ := header.notBlank
    rw [List.dropWhile_append, if_neg]
    intro hempty
    have hall := List.dropWhile_eq_nil_iff.1 (List.isEmpty_iff.1 hempty) c hc
    rw [hspace] at hall
    exact absurd hall (by decide)
  have hfirst : OneLine (header.text.dropWhile isSpace) := fun c hc =>
    header.line c ((List.dropWhile_suffix _).subset hc)
  rw [trimText_eq, strip, List.append_assoc, hdrop, ← List.append_assoc,
    rdropWhile_append_of_pos (blank_tail layout)]
  rcases List.eq_nil_or_concat lines with rfl | ⟨others, last, rfl⟩
  · refine ⟨(header.text.dropWhile isSpace).rdropWhile isSpace, fun c hc => ?_, ?_⟩
    · exact hfirst c ((List.rdropWhile_prefix _ _).subset hc)
    · rw [List.flatMap_nil, List.append_nil, List.append_nil]
  · obtain ⟨hne, hlast⟩ := hlines last (by simp)
    refine ⟨header.text.dropWhile isSpace, hfirst, ?_⟩
    rw [List.concat_eq_append, List.flatMap_append, List.flatMap_singleton, ← List.append_assoc,
      ← List.append_assoc, rdropWhile_append_of_last hlast hne]

/-! ## Fields -/

theorem mem_writeCell {cell : Text} {c : Char} (h : c ∈ writeCell cell) : c = '"' ∨ c ∈ cell := by
  rw [writeCell] at h
  rcases List.mem_cons.1 h with rfl | h
  · exact .inl rfl
  rcases List.mem_append.1 h with h | h
  · obtain ⟨d, hd, hdouble⟩ := List.mem_flatMap.1 h
    rw [double] at hdouble
    split at hdouble
    · rcases List.mem_pair.1 hdouble with rfl | rfl
      · exact .inl rfl
      · exact .inl rfl
    · rw [List.mem_singleton.1 hdouble]
      exact .inr hd
  · exact .inl (List.mem_singleton.1 h)

theorem oneLine_text {f : Field} (h : OneLine f.cell) : OneLine (f.text ',') := by
  intro c hc
  rw [Field.text] at hc
  split at hc
  · exact h c hc
  · rcases mem_writeCell hc with rfl | hc
    · decide
    · exact h c hc

theorem oneLine_recordText {fields : List Field} (h : ∀ f ∈ fields, OneLine f.cell) :
    OneLine (recordText ',' fields) := by
  match fields with
  | [] => exact fun c hc => absurd hc List.not_mem_nil
  | f :: fields =>
      intro c hc
      rcases List.mem_append.1 hc with hc | hc
      · exact oneLine_text (h f (.head _)) c hc
      obtain ⟨g, hg, hc⟩ := List.mem_flatMap.1 hc
      rcases List.mem_cons.1 hc with rfl | hc
      · decide
      · exact oneLine_text (h g (.tail _ hg)) c hc

theorem stripped_text {f : Field} (h : Stripped isSpace f.cell) : Stripped isSpace (f.text ',') := by
  rw [Field.text]
  split
  · exact h
  · rw [writeCell]
    constructor
    · intro c hc
      rw [← Option.mem_some_iff.1 hc]
      decide
    · intro c hc
      rw [← List.cons_append, List.getLast?_concat, Option.mem_some_iff] at hc
      rw [← hc]
      decide

/-- What the cell before the first comma is, or before the end. -/
theorem exists_splitOnP (p : Char → Bool) (text : Text) :
    ∃ rest, text.splitOnP p = text.takeWhile (fun c => !p c) :: rest := by
  induction text with
  | nil => exact ⟨[], List.splitOnP_nil⟩
  | cons c text ih =>
      obtain ⟨rest, hrest⟩ := ih
      rw [List.splitOnP_cons_eq_if_modifyHead]
      by_cases hc : p c = true
      · rw [if_pos hc, List.takeWhile_cons_of_neg (by simp [hc])]
        exact ⟨_, rfl⟩
      · rw [if_neg hc, hrest, List.takeWhile_cons_of_pos (by simp [hc])]
        exact ⟨rest, rfl⟩

/-- A cell that is written as it is ends at the comma. -/
theorem cellsOf_bare {f : Field} (hbare : f.Bare ',') (hstripped : Stripped isSpace f.cell) (rest : Text) :
    cellsOf (f.text ',' ++ ',' :: rest) = f.cell :: cellsOf rest := by
  have hnone : ∀ c ∈ f.cell, decide (c = ',') = false := fun c hc => decide_eq_false (hbare.2 c hc).1
  rw [cellsOf, cellsOf, List.splitOnP_append_cons _ _ (by decide), Field.text, if_pos hbare,
    List.splitOnP_eq_singleton hnone, List.map_append, List.map_singleton, trimText_eq,
    hstripped.strip_eq]
  rfl

theorem cellsOf_bare_last {f : Field} (hbare : f.Bare ',') (hstripped : Stripped isSpace f.cell) :
    cellsOf (f.text ',') = [f.cell] := by
  have hnone : ∀ c ∈ f.cell, decide (c = ',') = false := fun c hc => decide_eq_false (hbare.2 c hc).1
  rw [cellsOf, Field.text, if_pos hbare, List.splitOnP_eq_singleton hnone, List.map_singleton,
    trimText_eq, hstripped.strip_eq]

theorem exists_trimText_cons {c : Char} (hc : isSpace c = false) (text : Text) :
    ∃ rest, trimText (c :: text) = c :: rest := by
  have hprefix : trimText (c :: text) <+: c :: text := by
    rw [trimText_eq, strip, List.dropWhile_cons_of_neg (by simp [hc])]
    exact List.rdropWhile_prefix _ _
  have hne : trimText (c :: text) ≠ [] := by
    rw [trimText_eq, strip, List.dropWhile_cons_of_neg (by simp [hc]), Ne, List.rdropWhile_eq_nil_iff]
    intro hall
    rw [hall c (.head _)] at hc
    exact absurd hc (by decide)
  obtain ⟨d, rest, hcons⟩ := List.exists_cons_of_ne_nil hne
  rw [hcons, List.cons_prefix_cons] at hprefix
  exact ⟨rest, by rw [hcons, hprefix.1]⟩

theorem length_lt_writeCell (cell : Text) : cell.length < (writeCell cell).length := by
  have hdouble : cell.length ≤ (cell.flatMap double).length := by
    induction cell with
    | nil => exact le_rfl
    | cons c cell ih =>
        have hpos : 1 ≤ (double c).length := by
          rw [double]
          split
          · exact Nat.le_succ 1
          · exact le_rfl
        rw [List.flatMap_cons, List.length_append, List.length_cons]
        omega
  rw [writeCell, List.length_cons, List.length_append]
  omega

/-- A cell between quotes is read with a quote before it, and never as it was. -/
theorem cellsOf_quoted {f : Field} (hquoted : ¬f.Bare ',') {rest : Text}
    (hrest : rest = [] ∨ ∃ more, rest = ',' :: more) :
    ∃ text others, cellsOf (f.text ',' ++ rest) = ('"' :: text) :: others ∧ '"' :: text ≠ f.cell := by
  obtain ⟨others, hothers⟩ := exists_splitOnP (· = ',') (f.text ',' ++ rest)
  have hwritten : f.text ',' = '"' :: (f.cell.flatMap double ++ ['"']) := by
    rw [Field.text, if_neg hquoted, writeCell]
  set piece := (f.text ',' ++ rest).takeWhile fun c => !decide (c = ',') with hpiece
  obtain ⟨more, hmore⟩ : ∃ more, piece = '"' :: more := by
    rw [hpiece, hwritten, List.cons_append, List.takeWhile_cons_of_pos (by decide)]
    exact ⟨_, rfl⟩
  obtain ⟨text, htext⟩ := exists_trimText_cons (c := '"') (by decide) more
  rw [← hmore] at htext
  refine ⟨text, others.map trimText, ?_, ?_⟩
  · rw [cellsOf, hothers, List.map_cons, htext]
  · rw [← htext]
    intro heq
    by_cases hcomma : ',' ∈ f.cell
    · -- there is no comma in what is read
      have hpiece : ',' ∈ piece := by
        rw [← heq, trimText_eq] at hcomma
        exact mem_of_mem_strip hcomma
      exact absurd (List.mem_takeWhile_imp hpiece) (by decide)
    · -- all that is written is read
      have hnone : ∀ c ∈ f.text ',', (!decide (c = ',')) = true := by
        intro c hc
        rw [Field.text, if_neg hquoted] at hc
        rcases mem_writeCell hc with rfl | hc
        · decide
        · have hne : c ≠ ',' := fun hc' => hcomma (hc' ▸ hc)
          simpa using hne
      have hread : piece = f.text ',' := by
        rw [hpiece, List.takeWhile_append_of_pos hnone]
        rcases hrest with rfl | ⟨more, rfl⟩
        · rw [List.takeWhile_nil, List.append_nil]
        · rw [List.takeWhile_cons_of_neg (by decide), List.append_nil]
      have hlength := length_lt_writeCell f.cell
      have hstripped : trimText piece = piece := by
        rw [trimText_eq]
        refine Stripped.strip_eq ⟨fun c hc => ?_, fun c hc => ?_⟩
        · rw [hread, hwritten] at hc
          rw [← Option.mem_some_iff.1 hc]
          decide
        · rw [hread, hwritten, ← List.cons_append, List.getLast?_concat, Option.mem_some_iff] at hc
          rw [← hc]
          decide
      rw [hstripped, hread, Field.text, if_neg hquoted] at heq
      rw [heq] at hlength
      exact lt_irrefl _ hlength

/-! ## Rows -/

theorem levelText_natCast (n : Nat) : levelText n = Nat.toDigits 10 n := by
  rw [levelText, Int.toString_eq_repr, Int.repr_eq_if, if_pos (Int.natCast_nonneg n), Int.toNat_natCast,
    Nat.repr_eq_ofList_toDigits, String.toList_ofList]

theorem levelText_neg {n : Nat} (h : 0 < n) : levelText (-n) = '-' :: Nat.toDigits 10 n := by
  have hminus : "-".toList = ['-'] := by decide
  rw [levelText, Int.toString_eq_repr, Int.repr_eq_if, if_neg (by omega), neg_neg, Int.toNat_natCast,
    String.toList_append, hminus, Nat.repr_eq_ofList_toDigits, String.toList_ofList]
  rfl

theorem eq_natCast_or_neg (level : Int) : ∃ n : Nat, level = n ∨ 0 < n ∧ level = -n := by
  obtain ⟨n, rfl | rfl⟩ := level.eq_nat_or_neg
  · exact ⟨n, .inl rfl⟩
  · rcases Nat.eq_zero_or_pos n with rfl | hn
    · exact ⟨0, .inl rfl⟩
    · exact ⟨n, .inr ⟨hn, rfl⟩⟩

theorem mem_levelText {level : Int} {c : Char} (h : c ∈ levelText level) :
    c.isDigit = true ∨ c = '-' := by
  have hdigits : ∀ n : Nat, ∀ c ∈ Nat.toDigits 10 n, c.isDigit = true := fun n c hc =>
    Nat.isDigit_of_mem_toDigits (by decide) (by decide) hc
  obtain ⟨n, rfl | ⟨hn, rfl⟩⟩ := eq_natCast_or_neg level
  · rw [levelText_natCast] at h
    exact .inl (hdigits n c h)
  · rw [levelText_neg hn] at h
    rcases List.mem_cons.1 h with rfl | h
    · exact .inr rfl
    · exact .inl (hdigits n c h)

/-- No digit, and no sign, is a blank or has a meaning in a file. -/
theorem notSpecial_levelText {level : Int} {c : Char} (h : c ∈ levelText level) :
    isSpace c = false ∧ c ≠ ',' ∧ c ≠ '"' ∧ c ≠ '\n' ∧ c ≠ '\r' := by
  rcases mem_levelText h with hdigit | rfl
  · have hbounds : 48 ≤ c.toNat ∧ c.toNat ≤ 57 := Char.isDigit_iff_toNat.1 hdigit
    rw [← Char.ofNat_toNat c]
    obtain ⟨hlow, hhigh⟩ := hbounds
    generalize c.toNat = n at hlow hhigh
    interval_cases n <;> decide
  · decide

theorem stripped_levelText (level : Int) : Stripped isSpace (levelText level) :=
  ⟨fun _ hc => (notSpecial_levelText (List.mem_of_mem_head? hc)).1,
    fun _ hc => (notSpecial_levelText (List.mem_of_mem_getLast? hc)).1⟩

/-- A level that is written as it is reads as the number it is, if a double has it. -/
theorem ofText_levelText (level : Int) :
    Number.ofText (.ofList (levelText level)) = .finite level ↔ Number.Exact level := by
  rw [Number.ofText, toList_trim, String.toList_ofList, (stripped_levelText level).strip_eq]
  obtain ⟨n, rfl | ⟨hn, rfl⟩⟩ := eq_natCast_or_neg level
  · rw [levelText_natCast, Number.ofTrimmed_toDigits, Number.Exact, Int.cast_natCast]
  · have hpos : (0 : Rat) < n := by exact_mod_cast hn
    rw [levelText_neg hn, Number.ofTrimmed_minus_toDigits, Number.Exact, Int.cast_neg, Int.cast_natCast,
      Number.ofRat_neg hpos]

theorem ofText_quote (text : Text) : Number.ofText (.ofList ('"' :: text)) = .NaN := by
  obtain ⟨rest, hrest⟩ := exists_trimText_cons (c := '"') (by decide) text
  rw [Number.ofText, ← trimText, hrest, Number.ofTrimmed_quote]

theorem sentRow_email (a : Text) (cells : List Text) : (sentRow (a :: cells)).email = some a := rfl

theorem sentRow_programName (a b : Text) (cells : List Text) :
    (sentRow (a :: b :: cells)).programName = some b := rfl

theorem sentRow_level (a b c : Text) (cells : List Text) :
    (sentRow (a :: b :: c :: cells)).level = .ofText (.ofList c) := by
  simp only [sentRow, List.getElem?_cons_succ, List.getElem?_cons_zero]

theorem sentRow_academicYearLabel (a b c d : Text) (cells : List Text) :
    (sentRow (a :: b :: c :: d :: cells)).academicYearLabel = some d := rfl

theorem recordText_fields (a b c d : Field) : recordText ',' [a, b, c, d] =
    a.text ',' ++ ',' :: (b.text ',' ++ ',' :: (c.text ',' ++ ',' :: d.text ',')) := by
  simp [recordText, textRest]

/-- The columns of a line tell the cells it was written from, unless one is between quotes. -/
theorem readLine_eq_iff (row : WrittenRow) : readLine (recordText ',' row.fields) = row.sent ↔
    (∀ f ∈ row.fields, f.Bare ',') ∧ Number.Exact row.level := by
  obtain ⟨⟨email, programName, level, label⟩, quoteEmail, quoteProgramName, quoteLevel, quoteLabel⟩ := row
  simp only [WrittenRow.fields, StudentRow.sent, recordText_fields, List.forall_mem_cons,
    List.not_mem_nil, false_implies, implies_true, and_true]
  by_cases hemail : Field.Bare ',' ⟨email.text, quoteEmail⟩
  swap
  · obtain ⟨text, others, hcells, hne⟩ := cellsOf_quoted hemail (.inr ⟨_, rfl⟩)
    refine iff_of_false (fun heq => hne ?_) fun h => hemail h.1.1
    have hfield := congrArg SentRow.email heq
    rw [readLine, hcells, sentRow_email] at hfield
    exact Option.some.inj hfield
  by_cases hprogram : Field.Bare ',' ⟨programName.text, quoteProgramName⟩
  swap
  · obtain ⟨text, others, hcells, hne⟩ := cellsOf_quoted hprogram (.inr ⟨_, rfl⟩)
    refine iff_of_false (fun heq => hne ?_) fun h => hprogram h.1.2.1
    have hfield := congrArg SentRow.programName heq
    rw [readLine, cellsOf_bare hemail email.stripped, hcells, sentRow_programName] at hfield
    exact Option.some.inj hfield
  by_cases hlevel : Field.Bare ',' ⟨levelText level, quoteLevel⟩
  swap
  · obtain ⟨text, others, hcells, -⟩ := cellsOf_quoted hlevel (.inr ⟨_, rfl⟩)
    refine iff_of_false (fun heq => ?_) fun h => hlevel h.1.2.2.1
    have hfield := congrArg SentRow.level heq
    rw [readLine, cellsOf_bare hemail email.stripped, cellsOf_bare hprogram programName.stripped, hcells,
      sentRow_level, ofText_quote] at hfield
    exact nomatch hfield
  by_cases hlabel : Field.Bare ',' ⟨label.text, quoteLabel⟩
  swap
  · obtain ⟨text, others, hcells, hne⟩ := cellsOf_quoted hlabel (.inl rfl)
    refine iff_of_false (fun heq => hne ?_) fun h => hlabel h.1.2.2.2
    rw [List.append_nil] at hcells
    have hfield := congrArg SentRow.academicYearLabel heq
    rw [readLine, cellsOf_bare hemail email.stripped, cellsOf_bare hprogram programName.stripped,
      cellsOf_bare hlevel (stripped_levelText level), hcells, sentRow_academicYearLabel] at hfield
    exact Option.some.inj hfield
  rw [readLine, cellsOf_bare hemail email.stripped, cellsOf_bare hprogram programName.stripped,
    cellsOf_bare hlevel (stripped_levelText level), cellsOf_bare_last hlabel label.stripped,
    and_iff_right ⟨hemail, hprogram, hlevel, hlabel⟩, ← ofText_levelText]
  constructor
  · intro heq
    have hfield := congrArg SentRow.level heq
    rwa [sentRow_level] at hfield
  · intro hnumber
    rw [← hnumber]
    rfl

/-! ## Files -/

theorem oneLine_fields (row : WrittenRow) : OneLine (recordText ',' row.fields) := by
  have hlevel : OneLine (levelText row.level) := fun c hc =>
    ⟨(notSpecial_levelText hc).2.2.2.1, (notSpecial_levelText hc).2.2.2.2⟩
  refine oneLine_recordText fun f hf => ?_
  simp only [WrittenRow.fields, List.mem_cons, List.not_mem_nil, or_false] at hf
  rcases hf with rfl | rfl | rfl | rfl
  · exact row.email.line
  · exact row.programName.line
  · exact hlevel
  · exact row.academicYearLabel.line

theorem last_fields (row : WrittenRow) : recordText ',' row.fields ≠ [] ∧
    ∀ c ∈ (recordText ',' row.fields).getLast?, isSpace c = false := by
  rw [WrittenRow.fields, recordText_fields]
  refine ⟨by simp, fun c hc => ?_⟩
  have hlabel : Stripped isSpace
      (Field.text ',' ⟨row.academicYearLabel.text, row.quoteAcademicYearLabel⟩) :=
    stripped_text row.academicYearLabel.stripped
  generalize Field.text ',' ⟨row.academicYearLabel.text, row.quoteAcademicYearLabel⟩ = last at hc hlabel
  simp only [← List.append_assoc, ← List.cons_append, List.append_cons _ ',' last] at hc
  rcases List.eq_nil_or_concat last with rfl | ⟨others, d, rfl⟩
  · rw [List.append_nil, List.getLast?_concat, Option.mem_some_iff] at hc
    rw [← hc]
    decide
  · rw [List.concat_eq_append, ← List.append_assoc, List.getLast?_concat, Option.mem_some_iff] at hc
    refine hlabel.last c ?_
    rw [List.concat_eq_append, List.getLast?_concat, hc]
    rfl

/-- **When the rows that are sent are those that were written**: no cell is written between quotes, because it
has to be or because the writer does so, and doubles have the levels. -/
theorem importCsv_eq_iff (layout : Layout) (header : Header) (rows : List WrittenRow) :
    importCsv (some (studentFile layout header rows)) = some (rows.map (·.sent)) ↔
      ∀ row ∈ rows, (∀ f ∈ row.fields, f.Bare ',') ∧ Number.Exact row.level := by
  have hlines : ∀ line ∈ rows.map (fun row => recordText ',' row.fields),
      line ≠ [] ∧ ∀ c ∈ line.getLast?, isSpace c = false := by
    intro line hline
    obtain ⟨row, -, rfl⟩ := List.mem_map.1 hline
    exact last_fields row
  have honeLine : ∀ line ∈ rows.map (fun row => recordText ',' row.fields), OneLine line := by
    intro line hline
    obtain ⟨row, -, rfl⟩ := List.mem_map.1 hline
    exact oneLine_fields row
  obtain ⟨first, hfirst, htrim⟩ := exists_trimText_file layout header hlines
  have hfile : studentFile layout header rows = header.text ++
      ((rows.map fun row => recordText ',' row.fields).flatMap fun line => layout.eol ++ line) ++
        layout.tail := by
    rw [studentFile, file, List.flatMap_map, List.flatMap_map]
  rw [importCsv, Option.map_some, hfile, htrim, splitLines_file layout hfirst honeLine,
    List.drop_succ_cons, List.drop_zero, List.map_map, Option.some.injEq, List.map_inj_left]
  exact forall₂_congr fun row _ => readLine_eq_iff row

def exampleHeader : Header :=
  ⟨"email,filière,niveau,année".toList, by decide +kernel, 'e', by decide +kernel, by decide⟩

/-- A student of a programme with a comma in its name. -/
def exampleRow : WrittenRow where
  email := ⟨"ada@get.mg".toList, by decide +kernel, by decide +kernel⟩
  programName := ⟨"Droit, économie".toList, by decide +kernel, by decide +kernel⟩
  level := 1
  academicYearLabel := ⟨"2025-2026".toList, by decide +kernel, by decide +kernel⟩
  quoteEmail := false
  quoteProgramName := false
  quoteLevel := false
  quoteAcademicYearLabel := false

/-- The name is cut at its comma, and the columns after it are shifted. -/
theorem importCsv_comma :
    importCsv (some (studentFile ⟨false, true⟩ exampleHeader [exampleRow])) =
      some [⟨some "ada@get.mg".toList, some "\"Droit".toList, .NaN, some "1".toList⟩] ∧
    importCsv (some (studentFile ⟨false, true⟩ exampleHeader [exampleRow])) ≠
      some ([exampleRow].map (·.sent)) := by
  decide +kernel

end GetPlatform.Browser
