import GetPlatform.Ministry.ReportExporter
import GetPlatform.Printing.PdfFile

set_option autoImplicit false

/-! # Reports and receipts

A report is printed in lines that no word is cut by, a receipt in the lines it is given. Either text is
transliterated to ASCII by what Unicode's NFD makes of it. -/

namespace GetPlatform.Printing

open Ministry

-- NFD, which the engine has.
variable (nfd : CodeUnits → CodeUnits)

def toAscii (value : CodeUnits) : CodeUnits := onlyPrintable (withoutMarks (nfd value))

/-! ## Reports -/

def escapePdfText (value : CodeUnits) : CodeUnits := escapeText (toAscii nfd value)

/-- `/\s/` -/
def isSpaceUnit (u : Fin 65536) : Bool := isSpace (Char.ofNat u.val)

/-- `text.split(/\s+/).filter(Boolean)` -/
def words (text : CodeUnits) : List CodeUnits := (text.splitOnP isSpaceUnit).filter (· ≠ [])

/-- The lines so far and the current one, with a word more. -/
def addWord (width : Nat) (state : List CodeUnits × CodeUnits) (word : CodeUnits) :
    List CodeUnits × CodeUnits :=
  let (lines, current) := state
  let next := if current ≠ [] then current ++ utf16 " " ++ word else word
  if width < next.length ∧ current ≠ [] then (lines ++ [current], word) else (lines, next)

def wrapPdfLine (line : CodeUnits) (width : Nat) : List CodeUnits :=
  let words := words (toAscii nfd line)
  if words.length = 0 then [[]]
  else
    let (lines, current) := words.foldl (addWord width) ([], [])
    if current ≠ [] then lines ++ [current] else lines

variable {ν : Type} (locale : Locale ν)

/-- What a report is printed as, before it is cut into lines. -/
def contents (report : ReportForExport ν) (rows : List ReportRow) : List String :=
  [report.name,
    report.type ++ " · " ++ locale.formatDate report.periodStart ++ " — " ++
      locale.formatDate report.periodEnd,
    ""] ++
  ((rows.drop 4).take 31).map fun row =>
    let context := if row.dimension ≠ "" then " (" ++ row.dimension ++ ")" else ""
    row.«section» ++ " — " ++ row.indicator ++ context ++ ": " ++ row.value

def pdfLines (report : ReportForExport ν) (rows : List ReportRow) : List CodeUnits :=
  (contents locale report rows).flatMap fun line => wrapPdfLine nfd (utf16 line) 92

def createPdf (report : ReportForExport ν) (rows : List ReportRow) : Except RangeError (List UInt8) :=
  writePdf ⟨"/F1 10 Tf", "42 800 Td", "0 -15 Td", by decide +kernel⟩ (escapePdfText nfd)
    (pdfLines nfd locale report rows)

/-! ## Receipts -/

def escapeReceiptPdfText (value : CodeUnits) : CodeUnits :=
  escapeText (onlyPrintable (withoutMarks (nfd value)))

def buildReceiptPdf (lines : List CodeUnits) : Except RangeError (List UInt8) :=
  writePdf ⟨"/F1 12 Tf", "50 780 Td", "0 -20 Td", by decide +kernel⟩ (escapeReceiptPdfText nfd) lines

/-! ## How lines are escaped -/

theorem escapes_escapePdfText : Escapes (escapePdfText nfd) (toAscii nfd) :=
  ⟨fun _ => printable_onlyPrintable _, fun _ => rfl⟩

theorem escapes_escapeReceiptPdfText : Escapes (escapeReceiptPdfText nfd) (toAscii nfd) :=
  ⟨fun _ => printable_onlyPrintable _, fun _ => rfl⟩

/-! ## No word is lost -/

structure IsWord (word : CodeUnits) : Prop where
  ne_nil : word ≠ []
  noSpace : ∀ u ∈ word, isSpaceUnit u = false

theorem words_nil : words [] = [] := by
  rw [words, List.splitOnP_nil]
  rfl

theorem words_append_space (s t : CodeUnits) : words (s ++ utf16 " " ++ t) = words s ++ words t := by
  have hspace : utf16 " " = [32] := by decide +kernel
  have hsep : isSpaceUnit 32 = true := by decide +kernel
  rw [words, hspace, List.append_assoc, List.singleton_append, List.splitOnP_append_cons s t hsep,
    List.filter_append]
  rfl

theorem IsWord.words_eq {word : CodeUnits} (h : IsWord word) : words word = [word] := by
  have hkept : (decide (word ≠ [])) = true := decide_eq_true h.ne_nil
  rw [words, List.splitOnP_eq_singleton h.noSpace, List.filter_cons, hkept]
  rfl

theorem mem_of_mem_splitOnP {α : Type} {p : α → Bool} {xs part : List α} (h : part ∈ xs.splitOnP p) :
    ∀ x ∈ part, x ∈ xs ∧ p x = false := by
  induction xs generalizing part with
  | nil =>
    rw [List.splitOnP_nil, List.mem_singleton] at h
    rw [h]
    exact fun x hx => absurd hx (List.not_mem_nil)
  | cons y xs ih =>
    have hrest : ∀ part ∈ xs.splitOnP p, ∀ x ∈ part, x ∈ y :: xs ∧ p x = false :=
      fun part hpart x hx => ⟨.tail _ (ih hpart x hx).1, (ih hpart x hx).2⟩
    rw [List.splitOnP_cons_eq_if_modifyHead] at h
    split at h
    · rcases List.mem_cons.1 h with rfl | h
      · exact fun x hx => absurd hx (List.not_mem_nil)
      · exact hrest part h
    · rename_i hy
      obtain ⟨first, others, hsplit⟩ := List.exists_cons_of_ne_nil (List.splitOnP_ne_nil p xs)
      rw [hsplit] at h hrest
      rcases List.mem_cons.1 h with rfl | h
      · intro x hx
        rcases List.mem_cons.1 hx with rfl | hx
        · exact ⟨.head _, by simpa using hy⟩
        · exact hrest first (.head _) x hx
      · exact hrest part (.tail _ h)

theorem isWord_of_mem_words {text word : CodeUnits} (h : word ∈ words text) : IsWord word := by
  obtain ⟨hmem, hne⟩ := List.mem_filter.1 h
  exact ⟨of_decide_eq_true hne, fun u hu => (mem_of_mem_splitOnP hmem u hu).2⟩

/-- The words that are set so far. -/
def setWords (state : List CodeUnits × CodeUnits) : List CodeUnits :=
  state.1.flatMap words ++ words state.2

theorem setWords_addWord (width : Nat) (state : List CodeUnits × CodeUnits) {word : CodeUnits}
    (h : IsWord word) : setWords (addWord width state word) = setWords state ++ [word] := by
  obtain ⟨lines, current⟩ := state
  by_cases hcurrent : current = []
  · simp [addWord, setWords, hcurrent, h.words_eq, words_nil]
  · simp only [addWord, if_pos hcurrent]
    split
    · simp [setWords, h.words_eq]
    · simp only [setWords]
      rw [words_append_space, h.words_eq, List.append_assoc]

theorem setWords_foldl (width : Nat) {added : List CodeUnits} (h : ∀ word ∈ added, IsWord word)
    (state : List CodeUnits × CodeUnits) :
    setWords (added.foldl (addWord width) state) = setWords state ++ added := by
  induction added generalizing state with
  | nil => rw [List.foldl_nil, List.append_nil]
  | cons word added ih =>
    rw [List.foldl_cons, ih (fun next hnext => h next (.tail _ hnext)),
      setWords_addWord width state (h word (.head _)), List.append_assoc, List.singleton_append]

/-- **The lines have the words of the text**, in their order. -/
theorem words_wrapPdfLine (line : CodeUnits) (width : Nat) :
    (wrapPdfLine nfd line width).flatMap words = words (toAscii nfd line) := by
  have hwords : ∀ word ∈ words (toAscii nfd line), IsWord word := fun word hword =>
    isWord_of_mem_words hword
  have hset := setWords_foldl width hwords ([], [])
  generalize hfinal : (words (toAscii nfd line)).foldl (addWord width) ([], []) = final at hset
  unfold wrapPdfLine
  simp only [hfinal]
  split
  · rename_i hnone
    rw [List.length_eq_zero_iff.1 hnone]
    simp [words_nil]
  · obtain ⟨lines, current⟩ := final
    by_cases hcurrent : current = []
    · simpa [setWords, hcurrent, words_nil] using hset
    · simpa [setWords, hcurrent, words_nil] using hset

/-! ## What is set is printed as it is -/

structure SetPrintable (state : List CodeUnits × CodeUnits) : Prop where
  lines : ∀ text ∈ state.1, Printable text
  current : Printable state.2

theorem SetPrintable.addWord (width : Nat) {state : List CodeUnits × CodeUnits} {word : CodeUnits}
    (h : SetPrintable state) (hword : Printable word) : SetPrintable (addWord width state word) := by
  obtain ⟨lines, current⟩ := state
  have hspace : Printable (utf16 " ") := by
    have hunits : utf16 " " = [32] := by decide +kernel
    intro u hu
    rw [hunits, List.mem_singleton] at hu
    rw [hu]
    decide
  have hnext : Printable (if current ≠ [] then current ++ utf16 " " ++ word else word) := by
    split
    · intro u hu
      rcases List.mem_append.1 hu with hu | hu
      · exact (List.mem_append.1 hu).elim (h.current u) (hspace u)
      · exact hword u hu
    · exact hword
  simp only [Printing.addWord]
  generalize (if current ≠ [] then current ++ utf16 " " ++ word else word) = next at hnext
  split
  · refine ⟨fun text htext => ?_, hword⟩
    rcases List.mem_append.1 htext with htext | htext
    · exact h.lines text htext
    · rw [List.mem_singleton.1 htext]
      exact h.current
  · exact ⟨h.lines, hnext⟩

theorem SetPrintable.foldl (width : Nat) {added : List CodeUnits} (h : ∀ word ∈ added, Printable word)
    {state : List CodeUnits × CodeUnits} (hstate : SetPrintable state) :
    SetPrintable (added.foldl (Printing.addWord width) state) := by
  induction added generalizing state with
  | nil => exact hstate
  | cons word added ih =>
    exact ih (fun next hnext => h next (.tail _ hnext)) (hstate.addWord width (h word (.head _)))

theorem printable_wrapPdfLine (line : CodeUnits) (width : Nat) :
    ∀ text ∈ wrapPdfLine nfd line width, Printable text := by
  have hwords : ∀ word ∈ words (toAscii nfd line), Printable word := by
    intro word hword u hu
    have hmem : u ∈ toAscii nfd line := (mem_of_mem_splitOnP (List.mem_filter.1 hword).1 u hu).1
    exact printable_onlyPrintable _ u hmem
  have hnil : Printable [] := fun u hu => absurd hu List.not_mem_nil
  have hstart : SetPrintable ([], []) := ⟨fun text htext => absurd htext List.not_mem_nil, hnil⟩
  have hset := SetPrintable.foldl width hwords hstart
  intro text htext
  unfold wrapPdfLine at htext
  simp only [] at htext
  split at htext
  · rw [List.mem_singleton.1 htext]
    exact hnil
  · split at htext
    · rcases List.mem_append.1 htext with htext | htext
      · exact hset.lines text htext
      · rw [List.mem_singleton.1 htext]
        exact hset.current
    · exact hset.lines text htext

variable {nfd}

/-- NFD leaves ASCII characters as they are, and so does what is done with its result. -/
theorem toAscii_of_printable (hnfd : ∀ text, Printable text → nfd text = text) {text : CodeUnits}
    (h : Printable text) : toAscii nfd text = text := by
  have hmarks : withoutMarks text = text := by
    refine List.filter_eq_self.2 fun u hu => decide_eq_true ?_
    have hu := h u hu
    omega
  have honly : onlyPrintable text = text := by
    rw [onlyPrintable, List.map_congr_left fun u hu => if_pos (h u hu), List.map_id']
  rw [toAscii, hnfd text h, hmarks, honly]

/-- **A printed report has every word of its contents**, transliterated and in their order. -/
theorem createPdf_words (hnfd : ∀ text, Printable text → nfd text = text)
    {report : ReportForExport ν} {rows : List ReportRow} {file : List UInt8}
    (hfile : createPdf nfd locale report rows = .ok file) :
    ∃ texts : List CodeUnits, Pdf.Prints file (texts.map latin1) ∧
      texts.flatMap words =
        (contents locale report rows).flatMap fun line => words (toAscii nfd (utf16 line)) := by
  have hlines : ∀ line ∈ pdfLines nfd locale report rows, toAscii nfd line = line := by
    intro line hline
    obtain ⟨content, -, hwrapped⟩ := List.mem_flatMap.1 hline
    exact toAscii_of_printable hnfd (printable_wrapPdfLine nfd _ _ line hwrapped)
  have hprints := (escapes_escapePdfText nfd).prints hfile
  rw [List.map_congr_left fun line hline => congrArg latin1 (hlines line hline)] at hprints
  refine ⟨_, hprints, ?_⟩
  rw [pdfLines, List.flatMap_assoc]
  exact List.flatMap_congr fun line _ => words_wrapPdfLine nfd (utf16 line) 92

/-! ## The files -/

variable (nfd)

/-- **Reports and receipts are valid files that show their lines**, transliterated. -/
theorem documents_print :
    (∀ (report : ReportForExport ν) (rows : List ReportRow) (file : List UInt8),
      createPdf nfd locale report rows = .ok file →
        Pdf.Prints file
          ((pdfLines nfd locale report rows).map fun line => latin1 (toAscii nfd line))) ∧
    ∀ (lines : List CodeUnits) (file : List UInt8), buildReceiptPdf nfd lines = .ok file →
      Pdf.Prints file (lines.map fun line => latin1 (toAscii nfd line)) := by
  constructor
  · intro report rows file hfile
    exact (escapes_escapePdfText nfd).prints hfile
  · intro lines file hfile
    exact (escapes_escapeReceiptPdfText nfd).prints hfile

def exampleLocale : Locale Nat := ⟨toString, fun _ => "01/09/2025", Char.toString⟩

def exampleReport : ReportForExport Nat := ⟨"Synthèse (été)", none, "ENROLLMENT", ⟨0⟩, ⟨0⟩, ⟨0⟩, .null⟩

theorem documents_print_example :
    (∃ file, createPdf id exampleLocale exampleReport [] = .ok file ∧
      Pdf.Prints file [Pdf.ascii "Synth se ( t )", Pdf.ascii "ENROLLMENT 01/09/2025 01/09/2025", []]) ∧
    ∃ file, buildReceiptPdf id [utf16 "Référence : (A\\)"] = .ok file ∧
      Pdf.Prints file [Pdf.ascii "R f rence : (A\\)"] := by
  have hprint := documents_print id exampleLocale
  have hlines : (pdfLines id exampleLocale exampleReport []).map (fun line => latin1 (toAscii id line)) =
      [Pdf.ascii "Synth se ( t )", Pdf.ascii "ENROLLMENT 01/09/2025 01/09/2025", []] := by
    decide +kernel
  have hline : [utf16 "Référence : (A\\)"].map (fun line => latin1 (toAscii id line)) =
      [Pdf.ascii "R f rence : (A\\)"] := by
    decide +kernel
  have hreport : createPdf id exampleLocale exampleReport [] = .ok _ :=
    writePdf_eq_ok.2 ⟨by decide +kernel, rfl⟩
  have hreceipt : buildReceiptPdf id [utf16 "Référence : (A\\)"] = .ok _ :=
    writePdf_eq_ok.2 ⟨by decide +kernel, rfl⟩
  exact ⟨⟨_, hreport, hlines ▸ hprint.1 exampleReport [] _ hreport⟩,
    ⟨_, hreceipt, hline ▸ hprint.2 _ _ hreceipt⟩⟩

end GetPlatform.Printing
