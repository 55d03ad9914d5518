import Mathlib.Data.List.Basic

set_option autoImplicit false

/-! # Separated values

A reader of RFC 4180, with the separator as a parameter: a file is a list of records of one or more
cells, and a cell may stand between quotes, where a quote is written twice and separators and line
breaks are text. A record ends with a line feed, with or without a carriage return before it. What is
written with every cell between quotes is read back as it was (`read_write`). -/

namespace Csv

abbrev Text := List Char

/-- What the reader is in the middle of, with what it has of the cell. -/
inductive State where
  | start
  | plain (cell : Text)
  | quoted (cell : Text)
  /-- After a quote inside quotes: the end of the cell, or the first half of a quote. -/
  | closed (cell : Text)
  /-- After the carriage return that ends a record. -/
  | returned (cell : Text)

/-- The cell that may end here. -/
def State.cell : State → Option Text
  | start => some []
  | plain cell => some cell
  | closed cell => some cell
  | quoted _ => none
  | returned _ => none

/-- A quote opens a cell, closes one, or is the second half of a quote. -/
def State.quote : State → Option State
  | start => some (quoted [])
  | quoted cell => some (closed cell)
  | closed cell => some (quoted (cell ++ ['"']))
  | plain _ => none
  | returned _ => none

/-- A character of the cell. -/
def State.push (c : Char) : State → Option State
  | start => some (plain [c])
  | plain cell => some (plain (cell ++ [c]))
  | quoted cell => some (quoted (cell ++ [c]))
  | closed _ => none
  | returned _ => none

def State.inQuotes : State → Bool
  | quoted _ => true
  | _ => false

/-- What a character leads to: the same cell goes on, or it ends, or the record ends with it. -/
inductive Move where
  | goOn (state : State)
  | endCell (cell : Text)
  | endRecord (cell : Text)

def step (sep : Char) (state : State) (c : Char) : Option Move :=
  match state with
  | .returned cell => if c = '\n' then some (.endRecord cell) else none
  | state =>
      if c = '"' then state.quote.map .goOn
      else if state.inQuotes then (state.push c).map .goOn
      else if c = sep then state.cell.map .endCell
      else if c = '\n' then state.cell.map .endRecord
      else if c = '\r' then state.cell.map fun cell => .goOn (.returned cell)
      else (state.push c).map .goOn

/-- At the end of the file the last record ends, unless it has not begun. -/
def finish : State → List Text → Option (List (List Text))
  | .start, [] => some []
  | state, row => state.cell.map fun cell => [row ++ [cell]]

/-- Read the rest of a file, with the cells of the record so far. -/
def readFrom (sep : Char) : State → List Text → Text → Option (List (List Text))
  | state, row, [] => finish state row
  | state, row, c :: rest =>
      match step sep state c with
      | none => none
      | some (.goOn state) => readFrom sep state row rest
      | some (.endCell cell) => readFrom sep .start (row ++ [cell]) rest
      | some (.endRecord cell) => (readFrom sep .start [] rest).map ((row ++ [cell]) :: ·)

def read (sep : Char) (text : Text) : Option (List (List Text)) := readFrom sep .start [] text

/-! ## Writing -/

/-- A quote inside quotes is written twice. -/
def double (c : Char) : Text := if c = '"' then ['"', '"'] else [c]

def writeCell (cell : Text) : Text := '"' :: (cell.flatMap double ++ ['"'])

/-- The cells of a record after the first. -/
def writeRest (sep : Char) (cells : List Text) : Text := cells.flatMap fun cell => sep :: writeCell cell

def writeRow (sep : Char) : List Text → Text
  | [] => []
  | cell :: cells => writeCell cell ++ writeRest sep cells

def write (sep : Char) (rows : List (List Text)) : Text :=
  rows.flatMap fun row => writeRow sep row ++ ['\n']

/-- Cells are written with the separator between them. -/
theorem writeRow_eq_intercalate (sep : Char) (cells : List Text) :
    writeRow sep cells = [sep].intercalate (cells.map writeCell) := by
  induction cells with
  | nil => rfl
  | cons cell cells ih =>
      match cells with
      | [] => simp [writeRow, writeRest]
      | next :: cells =>
          rw [List.map_cons, List.map_cons, List.intercalate_cons_cons, ← List.map_cons, ← ih]
          simp [writeRow, writeRest]

/-- Records are written with a line feed between them, and one at the end. -/
theorem write_eq_intercalate (sep : Char) {rows : List (List Text)} (h : rows ≠ []) :
    write sep rows = ['\n'].intercalate (rows.map (writeRow sep)) ++ ['\n'] := by
  induction rows with
  | nil => exact absurd rfl h
  | cons row rows ih =>
      match rows with
      | [] => simp [write]
      | next :: rows =>
          rw [List.map_cons, List.map_cons, List.intercalate_cons_cons, ← List.map_cons,
            List.append_assoc, ← ih (by simp)]
          simp [write]

/-! ## What is written is read back -/

variable {sep : Char}

/-- Every character between quotes but a quote is text. -/
theorem readFrom_push {c : Char} (hc : c ≠ '"') (cell : Text) (row : List Text) (rest : Text) :
    readFrom sep (.quoted cell) row (c :: rest) = readFrom sep (.quoted (cell ++ [c])) row rest := by
  simp [readFrom, step, hc, State.inQuotes, State.push]

theorem readFrom_close (cell : Text) (row : List Text) (rest : Text) :
    readFrom sep (.quoted cell) row ('"' :: rest) = readFrom sep (.closed cell) row rest := rfl

theorem readFrom_double (cell : Text) (row : List Text) (rest : Text) :
    readFrom sep (.closed cell) row ('"' :: rest) = readFrom sep (.quoted (cell ++ ['"'])) row rest :=
  rfl

theorem readFrom_body (acc cell : Text) (row : List Text) (rest : Text) :
    readFrom sep (.quoted acc) row (cell.flatMap double ++ '"' :: rest) =
      readFrom sep (.closed (acc ++ cell)) row rest := by
  induction cell generalizing acc with
  | nil => rw [List.flatMap_nil, List.nil_append, readFrom_close, List.append_nil]
  | cons c cell ih =>
      rw [List.flatMap_cons, List.append_assoc, double]
      by_cases hc : c = '"'
      · subst hc
        rw [if_pos rfl, List.cons_append, List.cons_append, List.nil_append, readFrom_close,
          readFrom_double, ih, List.append_assoc]
        rfl
      · rw [if_neg hc, List.cons_append, List.nil_append, readFrom_push hc, ih, List.append_assoc]
        rfl

theorem readFrom_cell (cell : Text) (row : List Text) (rest : Text) :
    readFrom sep .start row (writeCell cell ++ rest) = readFrom sep (.closed cell) row rest := by
  have hbody : readFrom sep _ _ _ = _ := readFrom_body [] cell row rest
  rw [writeCell, List.cons_append, List.append_assoc, List.singleton_append]
  exact hbody

/-- The separator is not one of the characters with a meaning. -/
structure Separates (sep : Char) : Prop where
  quote : sep ≠ '"'
  newline : sep ≠ '\n'

theorem readFrom_sep (h : Separates sep) (cell : Text) (row : List Text) (rest : Text) :
    readFrom sep (.closed cell) row (sep :: rest) = readFrom sep .start (row ++ [cell]) rest := by
  simp [readFrom, step, h.quote, State.inQuotes, State.cell]

theorem readFrom_newline (h : Separates sep) (cell : Text) (row : List Text) (rest : Text) :
    readFrom sep (.closed cell) row ('\n' :: rest) =
      (readFrom sep .start [] rest).map ((row ++ [cell]) :: ·) := by
  simp [readFrom, step, h.newline.symm, State.inQuotes, State.cell]

theorem readFrom_rest (h : Separates sep) (cell : Text) (cells row : List Text) (rest : Text) :
    readFrom sep (.closed cell) row (writeRest sep cells ++ '\n' :: rest) =
      (readFrom sep .start [] rest).map ((row ++ cell :: cells) :: ·) := by
  induction cells generalizing cell row with
  | nil => exact readFrom_newline h cell row rest
  | cons next cells ih =>
      rw [writeRest, List.flatMap_cons, List.cons_append, List.cons_append, List.append_assoc,
        readFrom_sep h, readFrom_cell]
      exact (ih next (row ++ [cell])).trans (by simp)

/-- **A file is read back as it was written**, when no record is empty. -/
theorem read_write (h : Separates sep) {rows : List (List Text)} (hrows : ∀ row ∈ rows, row ≠ []) :
    read sep (write sep rows) = some rows := by
  induction rows with
  | nil => rfl
  | cons row rows ih =>
      match row, hrows row (.head _) with
      | cell :: cells, _ =>
          have hrest : readFrom sep .start [] (write sep rows) = some rows :=
            ih fun row hrow => hrows row (.tail _ hrow)
          have htext : write sep ((cell :: cells) :: rows) =
              writeCell cell ++ (writeRest sep cells ++ '\n' :: write sep rows) := by
            simp [write, writeRow]
          rw [read, htext, readFrom_cell, readFrom_rest h, hrest]
          rfl

example : read ';' "a;\"b;\"\"c\"\n;d\r\n".toList =
    some [["a".toList, "b;\"c".toList], [[], "d".toList]] := by decide

end Csv
