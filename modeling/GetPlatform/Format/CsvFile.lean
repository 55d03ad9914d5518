import GetPlatform.Format.Csv

set_option autoImplicit false

/-! # Files with and without quotes

A writer of RFC 4180: a cell stands between quotes when it has to, and may whenever the writer likes. Lines end
with a line feed, with or without a carriage return, and the last one need not end. What is written is read back
(`read_file`). -/

namespace Csv

/-- What a cell without quotes is made of. -/
def Plain (sep : Char) (cell : Text) : Prop :=
  ∀ c ∈ cell, c ≠ sep ∧ c ≠ '"' ∧ c ≠ '\n' ∧ c ≠ '\r'

instance (sep : Char) (cell : Text) : Decidable (Plain sep cell) :=
  List.decidableBAll (fun c : Char => c ≠ sep ∧ c ≠ '"' ∧ c ≠ '\n' ∧ c ≠ '\r') cell

/-- A cell, and whether the writer puts it between quotes though it may not have to. -/
structure Field where
  cell : Text
  quoted : Bool

/-- The field is written as its cell is. -/
def Field.Bare (sep : Char) (f : Field) : Prop := f.quoted = false ∧ Plain sep f.cell

instance (sep : Char) (f : Field) : Decidable (f.Bare sep) := inferInstanceAs (Decidable (_ ∧ _))

def Field.text (sep : Char) (f : Field) : Text := if f.Bare sep then f.cell else writeCell f.cell

/-- The fields after the first. -/
def textRest (sep : Char) (fields : List Field) : Text := fields.flatMap fun f => sep :: f.text sep

def recordText (sep : Char) : List Field → Text
  | [] => []
  | f :: fields => f.text sep ++ textRest sep fields

/-- How a writer ends lines. -/
structure Layout where
  crlf : Bool
  finalNewline : Bool

def Layout.eol (layout : Layout) : Text := if layout.crlf then ['\r', '\n'] else ['\n']

def Layout.tail (layout : Layout) : Text := if layout.finalNewline then layout.eol else []

def file (sep : Char) (layout : Layout) (header : Text) (records : List (List Field)) : Text :=
  header ++ (records.flatMap fun fields => layout.eol ++ recordText sep fields) ++ layout.tail

/-! ## What is written is read back -/

variable {sep : Char}

/-- What the reader is in after a field. -/
def Field.after (sep : Char) (f : Field) : State :=
  if f.Bare sep then (if f.cell = [] then .start else .plain f.cell) else .closed f.cell

/-- The cell may end here. -/
def Over (state : State) (cell : Text) : Prop :=
  state.cell = some cell ∧ state.inQuotes = false

theorem Field.over_after (f : Field) : Over (f.after sep) f.cell := by
  rw [Field.after]
  split
  · split
    · rename_i hnil
      rw [hnil]
      exact ⟨rfl, rfl⟩
    · exact ⟨rfl, rfl⟩
  · exact ⟨rfl, rfl⟩

theorem readFrom_plain {cell : Text} (h : Plain sep cell) (acc : Text) (row : List Text) (rest : Text) :
    readFrom sep (.plain acc) row (cell ++ rest) = readFrom sep (.plain (acc ++ cell)) row rest := by
  induction cell generalizing acc with
  | nil => rw [List.nil_append, List.append_nil]
  | cons c cell ih =>
      obtain ⟨hsep, hquote, hnewline, hreturn⟩ := h c (.head _)
      have hstep : step sep (.plain acc) c = some (.goOn (.plain (acc ++ [c]))) := by
        simp [step, hsep, hquote, hnewline, hreturn, State.inQuotes, State.push]
      rw [List.cons_append, readFrom, hstep]
      exact (ih (fun d hd => h d (.tail _ hd)) (acc ++ [c])).trans
        (by rw [List.append_assoc, List.singleton_append])

theorem readFrom_field (f : Field) (row : List Text) (rest : Text) :
    readFrom sep .start row (f.text sep ++ rest) = readFrom sep (f.after sep) row rest := by
  rw [Field.text, Field.after]
  by_cases hbare : f.Bare sep
  · rw [if_pos hbare, if_pos hbare]
    have hplain := hbare.2
    match hcell : f.cell with
    | [] => rfl
    | c :: cell =>
        rw [hcell] at hplain
        obtain ⟨hsep, hquote, hnewline, hreturn⟩ := hplain c (.head _)
        have hstep : step sep .start c = some (.goOn (.plain [c])) := by
          simp [step, hsep, hquote, hnewline, hreturn, State.inQuotes, State.push]
        rw [if_neg (List.cons_ne_nil c cell), List.cons_append, readFrom, hstep]
        exact readFrom_plain (fun d hd => hplain d (.tail _ hd)) [c] row rest
  · rw [if_neg hbare, if_neg hbare]
    exact readFrom_cell f.cell row rest

theorem Over.readFrom_sep (hsep : Separates sep) {state : State} {cell : Text} (h : Over state cell)
    (row : List Text) (rest : Text) :
    readFrom sep state row (sep :: rest) = readFrom sep .start (row ++ [cell]) rest := by
  obtain ⟨hcell, hquotes⟩ := h
  have hstep : step sep state sep = some (.endCell cell) := by
    cases state <;> simp_all [step, State.cell, State.inQuotes, hsep.quote]
  rw [readFrom, hstep]

theorem Over.readFrom_eol (hsep : Separates sep) (hreturn : sep ≠ '\r') (layout : Layout) {state : State}
    {cell : Text} (h : Over state cell) (row : List Text) (rest : Text) :
    readFrom sep state row (layout.eol ++ rest) =
      (readFrom sep .start [] rest).map ((row ++ [cell]) :: ·) := by
  obtain ⟨hcell, hquotes⟩ := h
  have hnewline : step sep state '\n' = some (.endRecord cell) := by
    cases state <;> simp_all [step, State.cell, State.inQuotes, hsep.newline.symm]
  have hcarriage : step sep state '\r' = some (.goOn (.returned cell)) := by
    cases state <;> simp_all [step, State.cell, State.inQuotes, hreturn.symm]
  have hreturned : step sep (.returned cell) '\n' = some (.endRecord cell) := rfl
  rw [Layout.eol]
  split
  · rw [List.cons_append, readFrom, hcarriage]
    show readFrom sep (.returned cell) row ('\n' :: ([] ++ rest)) = _
    rw [readFrom, hreturned]
    rfl
  · rw [List.cons_append, readFrom, hnewline]
    rfl

theorem readFrom_textRest (hsep : Separates sep) (fields : List Field) {state : State} {cell : Text}
    (h : Over state cell) (row : List Text) (rest : Text) :
    ∃ state' row' cell', Over state' cell' ∧ row' ++ [cell'] = row ++ cell :: fields.map (·.cell) ∧
      readFrom sep state row (textRest sep fields ++ rest) = readFrom sep state' row' rest := by
  induction fields generalizing state cell row with
  | nil => exact ⟨state, row, cell, h, rfl, rfl⟩
  | cons f fields ih =>
      obtain ⟨state', row', cell', hover, hrow, hread⟩ := ih f.over_after (row ++ [cell])
      refine ⟨state', row', cell', hover, by rw [hrow]; simp, ?_⟩
      rw [textRest, List.flatMap_cons, List.cons_append, List.cons_append, List.append_assoc,
        h.readFrom_sep hsep, readFrom_field]
      exact hread

/-- A record is read, up to the end of its last cell. -/
theorem readFrom_record (hsep : Separates sep) {fields : List Field} (hne : fields ≠ []) (rest : Text) :
    ∃ state row cell, Over state cell ∧ row ++ [cell] = fields.map (·.cell) ∧
      readFrom sep .start [] (recordText sep fields ++ rest) = readFrom sep state row rest := by
  match fields with
  | f :: fields =>
      obtain ⟨state, row, cell, hover, hrow, hread⟩ :=
        readFrom_textRest hsep fields f.over_after [] rest
      refine ⟨state, row, cell, hover, hrow, ?_⟩
      rw [recordText, List.append_assoc, readFrom_field]
      exact hread

/-- At the end of the file, a record that has two cells at least. -/
theorem Over.readFrom_nil {state : State} {cell : Text} (h : Over state cell) {row : List Text}
    (hrow : row ≠ []) : readFrom sep state row [] = some [row ++ [cell]] := by
  obtain ⟨hcell, -⟩ := h
  rw [readFrom, finish, hcell]
  · rfl
  · exact fun _ hnil => hrow hnil

/-- **What is written is read back**, if the header and the records have two cells at least. -/
theorem read_file (hsep : Separates sep) (hreturn : sep ≠ '\r') (layout : Layout) {header : List Field}
    {records : List (List Field)} (h : ∀ fields ∈ header :: records, 2 ≤ fields.length) :
    read sep (file sep layout (recordText sep header) records) =
      some ((header :: records).map (·.map (·.cell))) := by
  induction records generalizing header with
  | nil =>
      have hlength := h header (.head _)
      have hne : header ≠ [] := List.ne_nil_of_length_pos (by omega)
      obtain ⟨state, row, cell, hover, hrow, hread⟩ := readFrom_record hsep hne layout.tail
      have hrow' : row ≠ [] := by
        rintro rfl
        have hlengths := congrArg List.length hrow
        rw [List.length_map, List.nil_append, List.length_singleton] at hlengths
        omega
      rw [read, file, List.flatMap_nil, List.append_nil, hread, Layout.tail, List.map_singleton, ← hrow]
      split
      · rw [← List.append_nil layout.eol, hover.readFrom_eol hsep hreturn]
        rfl
      · exact hover.readFrom_nil hrow'
  | cons fields records ih =>
      have hlength := h header (.head _)
      have hne : header ≠ [] := List.ne_nil_of_length_pos (by omega)
      have hrest := ih fun others hothers => h others (.tail _ hothers)
      obtain ⟨state, row, cell, hover, hrow, hread⟩ := readFrom_record hsep hne
        (layout.eol ++ file sep layout (recordText sep fields) records)
      have htext : file sep layout (recordText sep header) (fields :: records) =
          recordText sep header ++ (layout.eol ++ file sep layout (recordText sep fields) records) := by
        simp [file]
      rw [read, htext, hread, hover.readFrom_eol hsep hreturn, ← read, hrest, Option.map_some, hrow]
      rfl

end Csv
