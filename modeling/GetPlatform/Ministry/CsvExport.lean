import GetPlatform.Format.Csv
import GetPlatform.Ministry.ReportExporter

set_option autoImplicit false

/-! # What a spreadsheet program reads in the CSV file

Every cell is written between quotes, and a formula gets an apostrophe before that. The two do not
disturb each other: the apostrophe is no quote, and doubling quotes leaves the first character of a
value that starts a formula where it is. -/

namespace GetPlatform.Ministry

/-- The characters a spreadsheet program takes for the start of a formula. -/
def FormulaStart (cell : Csv.Text) : Prop := ∃ c ∈ cell.head?, c ∈ ['=', '+', '-', '@']

/-- A cell reads as the value, or as the value after an apostrophe when it starts a formula. -/
def Reads (value : String) (cell : Csv.Text) : Prop :=
  FormulaStart value.toList ∧ cell = '\'' :: value.toList ∨
    ¬ FormulaStart value.toList ∧ cell = value.toList

theorem startsFormula_iff (value : String) :
    startsFormula value = true ↔ FormulaStart value.toList := by
  rw [startsFormula, Option.any_eq_true, FormulaStart]
  simp only [decide_eq_true_eq, Option.mem_def]

/-- The value that is put between quotes. -/
def safe (value : String) : Csv.Text :=
  if startsFormula value then '\'' :: value.toList else value.toList

theorem reads_safe (value : String) : Reads value (safe value) := by
  unfold safe
  by_cases h : startsFormula value = true
  · rw [if_pos h]
    exact .inl ⟨(startsFormula_iff value).1 h, rfl⟩
  · rw [if_neg h]
    exact .inr ⟨fun hstart => h ((startsFormula_iff value).2 hstart), rfl⟩

theorem Reads.not_formulaStart {value : String} {cell : Csv.Text} (h : Reads value cell) :
    ¬ FormulaStart cell := by
  rcases h with ⟨_, rfl⟩ | ⟨hplain, rfl⟩
  · rintro ⟨c, hc, hmem⟩
    obtain rfl : '\'' = c := Option.some.inj hc
    exact absurd hmem (by decide)
  · exact hplain

theorem replaceAll_quote (value : String) :
    (replaceAll value '"' "\"\"").toList = value.toList.flatMap Csv.double := by
  rw [replaceAll, String.toList_ofList]
  rfl

theorem escapeCsv_toList (value : String) : (escapeCsv value).toList = Csv.writeCell (safe value) := by
  have hsafe : (if startsFormula value then "'" ++ value else value).toList = safe value := by
    rw [safe, apply_ite String.toList, String.toList_append]
    rfl
  have hquote : "\"".toList = ['"'] := by decide
  rw [escapeCsv, String.toList_append, String.toList_append, replaceAll_quote, hsafe, hquote,
    Csv.writeCell, List.singleton_append, List.cons_append]

theorem csvRow_toList (row : List String) :
    (";".intercalate (row.map escapeCsv)).toList = Csv.writeRow ';' (row.map safe) := by
  have hsep : ";".toList = [';'] := by decide
  have hcells : row.map (String.toList ∘ escapeCsv) = row.map (Csv.writeCell ∘ safe) :=
    List.map_congr_left fun value _ => escapeCsv_toList value
  rw [String.toList_intercalate, Csv.writeRow_eq_intercalate, List.map_map, List.map_map, hcells, hsep]

theorem toCsv_toList (rows : List ReportRow) :
    (toCsv rows).toList =
      '\uFEFF' :: Csv.write ';' ((header :: rows.map (·.cells)).map (·.map safe)) := by
  have hrows : (header :: rows.map (·.cells)).map (String.toList ∘ fun row =>
      ";".intercalate (row.map escapeCsv)) =
        ((header :: rows.map (·.cells)).map (·.map safe)).map (Csv.writeRow ';') := by
    rw [List.map_map]
    exact List.map_congr_left fun row _ => csvRow_toList row
  have hbom : "\uFEFF".toList = ['\uFEFF'] := by decide
  have hnewline : "\n".toList = ['\n'] := by decide
  rw [toCsv, String.toList_append, String.toList_append, String.toList_intercalate, List.map_map,
    hrows, hbom, hnewline, Csv.write_eq_intercalate ';' (by simp), List.append_assoc,
    List.singleton_append]

theorem header_safe : header.map safe = header.map String.toList := by decide

/-- **The CSV file is read back as the header and the rows**, and no cell of it starts a formula. -/
theorem csv_faithful (rows : List ReportRow) :
    ∃ body records, (toCsv rows).toList = '\uFEFF' :: body ∧
      Csv.read ';' body = some (header.map String.toList :: records) ∧
      List.Forall₂ (fun row record => List.Forall₂ Reads row.cells record) rows records ∧
      ∀ record ∈ header.map String.toList :: records, ∀ cell ∈ record, ¬ FormulaStart cell := by
  have hreads : List.Forall₂ (fun row record => List.Forall₂ Reads row.cells record) rows
      (rows.map fun row => row.cells.map safe) := by
    rw [List.forall₂_map_right_iff, List.forall₂_same]
    intro row _
    rw [List.forall₂_map_right_iff, List.forall₂_same]
    exact fun value _ => reads_safe value
  have hread : Csv.read ';' (Csv.write ';' ((header :: rows.map (·.cells)).map (·.map safe))) =
      some (header.map String.toList :: rows.map fun row => row.cells.map safe) := by
    have hsep : Csv.Separates ';' := ⟨by decide, by decide⟩
    rw [Csv.read_write hsep, List.map_cons, List.map_map, header_safe]
    · rfl
    · intro row hrow
      obtain ⟨cells, hcells, rfl⟩ := List.mem_map.1 hrow
      rcases List.mem_cons.1 hcells with rfl | hcells
      · exact List.cons_ne_nil _ _
      · obtain ⟨row, _, rfl⟩ := List.mem_map.1 hcells
        exact List.cons_ne_nil _ _
  refine ⟨_, _, toCsv_toList rows, hread, hreads, ?_⟩
  intro record hrecord cell hcell
  have hvalue : ∃ value, Reads value cell := by
    rcases List.mem_cons.1 hrecord with rfl | hrecord
    · rw [← header_safe] at hcell
      obtain ⟨value, _, rfl⟩ := List.mem_map.1 hcell
      exact ⟨value, reads_safe value⟩
    · obtain ⟨row, _, rfl⟩ := List.mem_map.1 hrecord
      obtain ⟨value, _, rfl⟩ := List.mem_map.1 hcell
      exact ⟨value, reads_safe value⟩
  obtain ⟨value, hreads⟩ := hvalue
  exact hreads.not_formulaStart

end GetPlatform.Ministry
