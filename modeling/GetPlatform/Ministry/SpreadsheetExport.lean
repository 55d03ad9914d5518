import GetPlatform.Format.Xml
import GetPlatform.Ministry.ReportExporter

set_option autoImplicit false

/-! # What a spreadsheet program reads in the XML file

Markup is escaped in every cell, so the file is cut into the tags that were meant. What a document may
not hold stays in it: a control character makes it no XML, escaped or not, and a carriage return that
is not written as a reference is read as a line feed. -/

namespace GetPlatform.Ministry

open Xml (Text Node Lexes Normalizes IsTag)

/-! ## The document that is meant -/

def cellNode (value : Text) : Node :=
  .element "Cell".toList []
    [.element "Data".toList [("ss:Type".toList, "String".toList)] (Xml.textNodes value)]

def rowNode (row : List Text) : Node := .element "Row".toList [] (row.map cellNode)

def workbookAttributes : List (Text × Text) :=
  [("xmlns".toList, "urn:schemas-microsoft-com:office:spreadsheet".toList),
    ("xmlns:o".toList, "urn:schemas-microsoft-com:office:office".toList),
    ("xmlns:x".toList, "urn:schemas-microsoft-com:office:excel".toList),
    ("xmlns:ss".toList, "urn:schemas-microsoft-com:office:spreadsheet".toList)]

def workbook (rows : List (List Text)) : Node :=
  .element "Workbook".toList workbookAttributes
    [.text "\n ".toList,
      .element "Worksheet".toList [("ss:Name".toList, "Rapport".toList)]
        [.element "Table".toList [] (rows.map rowNode)],
      .text "\n".toList]

/-! ## Decoding -/

def decodeCell (cell : Node) : Text := (cell.elements "Data".toList).flatMap (·.textContent)

def decodeRow (row : Node) : List Text := (row.elements "Cell".toList).map decodeCell

def decodeWorkbook (workbook : Node) : List (List Text) :=
  (((workbook.elements "Worksheet".toList).flatMap (·.elements "Table".toList)).flatMap
    (·.elements "Row".toList)).map decodeRow

theorem decodeCell_cellNode (value : Text) : decodeCell (cellNode value) = value := by
  have hdata : (cellNode value).elements "Data".toList =
      [.element "Data".toList [("ss:Type".toList, "String".toList)] (Xml.textNodes value)] := rfl
  rw [decodeCell, hdata, List.flatMap_cons, Xml.textContent_textNodes]
  exact List.append_nil value

theorem decodeRow_rowNode (row : List Text) : decodeRow (rowNode row) = row := by
  rw [decodeRow, rowNode, Xml.elements_map fun _ => rfl, List.map_map]
  exact (List.map_congr_left fun value _ => decodeCell_cellNode value).trans (List.map_id row)

theorem decodeWorkbook_workbook (rows : List (List Text)) : decodeWorkbook (workbook rows) = rows := by
  have htable : ((workbook rows).elements "Worksheet".toList).flatMap (·.elements "Table".toList) =
      [.element "Table".toList [] (rows.map rowNode)] := rfl
  rw [decodeWorkbook, htable, List.flatMap_cons, List.flatMap_nil, List.append_nil,
    Xml.elements_map fun _ => rfl, List.map_map]
  exact (List.map_congr_left fun row _ => decodeRow_rowNode row).trans (List.map_id rows)

/-! ## The text -/

def markup (body : String) : Text := '<' :: (body.toList ++ ['>'])

def cellText (value : Text) : Text :=
  markup "Cell" ++ (markup "Data ss:Type=\"String\"" ++
    ((Xml.escape value ++ markup "/Data") ++ markup "/Cell"))

def rowText (row : List Text) : Text := markup "Row" ++ (row.flatMap cellText ++ markup "/Row")

def workbookTag : String :=
  "Workbook xmlns=\"urn:schemas-microsoft-com:office:spreadsheet\"\n" ++
  " xmlns:o=\"urn:schemas-microsoft-com:office:office\"\n" ++
  " xmlns:x=\"urn:schemas-microsoft-com:office:excel\"\n" ++
  " xmlns:ss=\"urn:schemas-microsoft-com:office:spreadsheet\""

def sheetText (rows : List (List Text)) : Text :=
  markup "?xml version=\"1.0\" encoding=\"UTF-8\"?" ++
    ((Xml.escape ['\n'] ++ markup workbookTag) ++
      ((Xml.escape ['\n', ' '] ++ markup "Worksheet ss:Name=\"Rapport\"") ++
        (markup "Table" ++ (rows.flatMap rowText ++
          (markup "/Table" ++ (markup "/Worksheet" ++ (Xml.escape ['\n'] ++ markup "/Workbook")))))))

/-- Five replacements, one after the other, escape every character once: none of them writes a character
that a later one replaces. -/
theorem escapeXml_toList (value : String) : (escapeXml value).toList = Xml.escape value.toList := by
  have hamp : "&amp;".toList = ['&', 'a', 'm', 'p', ';'] := by decide
  have hlt : "&lt;".toList = ['&', 'l', 't', ';'] := by decide
  have hgt : "&gt;".toList = ['&', 'g', 't', ';'] := by decide
  have hquot : "&quot;".toList = ['&', 'q', 'u', 'o', 't', ';'] := by decide
  have hapos : "&apos;".toList = ['&', 'a', 'p', 'o', 's', ';'] := by decide
  simp only [escapeXml, replaceAll, String.toList_ofList, List.flatMap_assoc, hamp, hlt, hgt, hquot,
    hapos]
  refine List.flatMap_congr fun c _ => ?_
  unfold Xml.escapeChar
  split_ifs with h h h h h
  · rfl
  · rw [h]
    rfl
  · rw [h]
    rfl
  · rw [h]
    rfl
  · rw [h]
    rfl
  · simp [*]

theorem toList_join_map {α : Type} (f : α → String) (l : List α) :
    (String.join (l.map f)).toList = l.flatMap fun a => (f a).toList := by
  rw [String.toList_join, List.flatMap_map]

theorem cell_toList (value : String) :
    ("<Cell><Data ss:Type=\"String\">" ++ escapeXml value ++ "</Data></Cell>").toList =
      cellText value.toList := by
  have hopen : "<Cell><Data ss:Type=\"String\">".toList =
      markup "Cell" ++ markup "Data ss:Type=\"String\"" := by decide
  have hclose : "</Data></Cell>".toList = markup "/Data" ++ markup "/Cell" := by decide
  rw [String.toList_append, String.toList_append, escapeXml_toList, hopen, hclose, cellText]
  simp only [List.append_assoc]

theorem spreadsheetRow_toList (row : List String) :
    (spreadsheetRow row).toList = rowText (row.map String.toList) := by
  have hopen : "<Row>".toList = markup "Row" := by decide
  have hclose : "</Row>".toList = markup "/Row" := by decide
  have hcells : (row.flatMap fun value =>
      ("<Cell><Data ss:Type=\"String\">" ++ escapeXml value ++ "</Data></Cell>").toList) =
        row.flatMap fun value => cellText value.toList :=
    List.flatMap_congr fun value _ => cell_toList value
  rw [spreadsheetRow, String.toList_append, String.toList_append, toList_join_map, hopen, hclose,
    hcells, rowText, List.flatMap_map, List.append_assoc]

theorem spreadsheetHead_toList : spreadsheetHead.toList =
    markup "?xml version=\"1.0\" encoding=\"UTF-8\"?" ++ ((Xml.escape ['\n'] ++ markup workbookTag) ++
      ((Xml.escape ['\n', ' '] ++ markup "Worksheet ss:Name=\"Rapport\"") ++ markup "Table")) := by
  unfold spreadsheetHead workbookTag markup
  repeat rw [String.toList_append]
  repeat rw [String.toList_ofList]
  decide +kernel

theorem spreadsheetTail_toList : spreadsheetTail.toList =
    markup "/Table" ++ (markup "/Worksheet" ++ (Xml.escape ['\n'] ++ markup "/Workbook")) := by
  unfold spreadsheetTail markup
  repeat rw [String.toList_ofList]
  decide

theorem sheetText_eq (rows : List (List Text)) :
    sheetText rows = spreadsheetHead.toList ++ (rows.flatMap rowText ++ spreadsheetTail.toList) := by
  rw [sheetText, spreadsheetHead_toList, spreadsheetTail_toList]
  simp only [List.append_assoc]

theorem toSpreadsheetMl_toList (rows : List ReportRow) :
    (toSpreadsheetMl rows).toList =
      sheetText ((header :: rows.map (·.cells)).map (·.map String.toList)) := by
  have hrows : ∀ table : List (List String), (table.flatMap fun row => (spreadsheetRow row).toList) =
      table.flatMap fun row => rowText (row.map String.toList) :=
    fun table => List.flatMap_congr fun row _ => spreadsheetRow_toList row
  rw [toSpreadsheetMl, String.toList_append, String.toList_append, toList_join_map, hrows,
    sheetText_eq, List.flatMap_map, List.append_assoc]

/-! ## The tags -/

theorem lexes_markup {body : String} {token : Xml.Token} (h : IsTag body.toList token) :
    Lexes (markup body) [token] := Lexes.tag h

theorem lexes_content {body : String} {token : Xml.Token} (h : IsTag body.toList token) (text : Text) :
    Lexes (Xml.escape text ++ markup body) (Xml.content text ++ [token]) := Lexes.content h text

theorem lexes_cell (value : Text) : Lexes (cellText value) (cellNode value).tokens := by
  have hcell : IsTag "Cell".toList (.open "Cell".toList []) := by decide
  have hdata : IsTag "Data ss:Type=\"String\"".toList
      (.open "Data".toList [("ss:Type".toList, "String".toList)]) := by decide
  have hdata' : IsTag "/Data".toList (.close "Data".toList) := by decide
  have hcell' : IsTag "/Cell".toList (.close "Cell".toList) := by decide
  have htokens : (cellNode value).tokens = [.open "Cell".toList []] ++
      ([.open "Data".toList [("ss:Type".toList, "String".toList)]] ++
        ((Xml.content value ++ [.close "Data".toList]) ++ [.close "Cell".toList])) := by
    simp [cellNode, Node.tokens, Xml.tokensOf, Xml.tokensOf_textNodes]
  rw [htokens]
  exact (lexes_markup hcell).append ((lexes_markup hdata).append
    ((lexes_content hdata' value).append (lexes_markup hcell')))

theorem lexes_row (row : List Text) : Lexes (rowText row) (rowNode row).tokens := by
  have hrow : IsTag "Row".toList (.open "Row".toList []) := by decide
  have hrow' : IsTag "/Row".toList (.close "Row".toList) := by decide
  have htokens : (rowNode row).tokens = [.open "Row".toList []] ++
      ((row.flatMap fun value => (cellNode value).tokens) ++ [.close "Row".toList]) := by
    rw [rowNode, Node.tokens, Xml.tokensOf_map]
    rfl
  rw [htokens]
  exact (lexes_markup hrow).append ((Lexes.flatMap lexes_cell row).append (lexes_markup hrow'))

def declarationAttributes : List (Text × Text) :=
  [("version".toList, "1.0".toList), ("encoding".toList, "UTF-8".toList)]

theorem isTag_declaration : IsTag "?xml version=\"1.0\" encoding=\"UTF-8\"?".toList
    (.declaration declarationAttributes) := by
  rw [String.toList_ofList]
  decide

theorem isTag_workbook : IsTag workbookTag.toList (.open "Workbook".toList workbookAttributes) := by
  unfold workbookTag workbookAttributes
  repeat rw [String.toList_append]
  repeat rw [String.toList_ofList]
  decide +kernel

theorem isTag_worksheet : IsTag "Worksheet ss:Name=\"Rapport\"".toList
    (.open "Worksheet".toList [("ss:Name".toList, "Rapport".toList)]) := by
  repeat rw [String.toList_ofList]
  decide

theorem lexes_sheet (rows : List (List Text)) :
    Lexes (sheetText rows)
      (.declaration declarationAttributes :: .text ['\n'] :: (workbook rows).tokens) := by
  have htable : IsTag "Table".toList (.open "Table".toList []) := by decide
  have htable' : IsTag "/Table".toList (.close "Table".toList) := by decide
  have hworksheet' : IsTag "/Worksheet".toList (.close "Worksheet".toList) := by decide
  have hworkbook' : IsTag "/Workbook".toList (.close "Workbook".toList) := by decide
  have htokens : .declaration declarationAttributes :: .text ['\n'] :: (workbook rows).tokens =
      [.declaration declarationAttributes] ++
        ((Xml.content ['\n'] ++ [.open "Workbook".toList workbookAttributes]) ++
          ((Xml.content ['\n', ' '] ++
            [.open "Worksheet".toList [("ss:Name".toList, "Rapport".toList)]]) ++
              ([.open "Table".toList []] ++ ((rows.flatMap fun row => (rowNode row).tokens) ++
                ([.close "Table".toList] ++ ([.close "Worksheet".toList] ++
                  (Xml.content ['\n'] ++ [.close "Workbook".toList]))))))) := by
    simp [workbook, Node.tokens, Xml.tokensOf, Xml.tokensOf_map, Xml.content]
  rw [htokens]
  exact (lexes_markup isTag_declaration).append ((lexes_content isTag_workbook _).append
    ((lexes_content isTag_worksheet _).append ((lexes_markup htable).append
      ((Lexes.flatMap lexes_row rows).append ((lexes_markup htable').append
        ((lexes_markup hworksheet').append (lexes_content hworkbook' _)))))))

theorem readNormalized_sheet (rows : List (List Text)) :
    Xml.readNormalized (sheetText rows) = some (workbook rows) := by
  have hversion : ("version".toList, "1.0".toList) ∈ declarationAttributes := .head _
  have hblank : (Xml.Token.text ['\n'] :: (workbook rows).tokens).dropWhile Xml.Token.isBlank =
      (workbook rows).tokens := by
    rw [List.dropWhile_cons_of_pos (by decide), workbook, Node.tokens,
      List.dropWhile_cons_of_neg (by decide)]
  rw [Xml.readNormalized, (lexes_sheet rows).lex_eq, Option.bind_some, Xml.document, if_pos hversion,
    hblank]
  exact Xml.build_root _ _ _

/-! ## The characters -/

/-- What a document may hold, on one line or several. -/
def isPlain (c : Char) : Bool := Xml.isChar c && c != '\r'

theorem spreadsheetHead_plain : spreadsheetHead.toList.all isPlain = true := by
  unfold spreadsheetHead
  repeat rw [String.toList_append]
  repeat rw [String.toList_ofList]
  decide +kernel

theorem spreadsheetTail_plain : spreadsheetTail.toList.all isPlain = true := by
  unfold spreadsheetTail
  rw [String.toList_ofList]
  decide

theorem normalizes_plain {text : Text} (h : text.all isPlain = true) : Normalizes text text := by
  refine .of_not_mem fun hmem => ?_
  have hplain := List.all_eq_true.1 h _ hmem
  exact absurd hplain (by decide)

theorem all_isChar_plain {text : Text} (h : text.all isPlain = true) : text.all Xml.isChar = true := by
  rw [List.all_eq_true] at h ⊢
  exact fun c hc => (Bool.and_eq_true_iff.1 (h c hc)).1

theorem normalizes_cell (value : Text) :
    Normalizes (cellText value) (cellText (Xml.normalizeLineEnds value)) := by
  have hopen : Normalizes (markup "Cell" ++ markup "Data ss:Type=\"String\"") _ :=
    normalizes_plain (by decide)
  have hvalue : Normalizes (Xml.escape value ++ (markup "/Data" ++ markup "/Cell")) _ :=
    .content (by decide) rfl value
  have hcell := hopen.append hvalue
  simpa only [cellText, List.append_assoc] using hcell

theorem normalizes_row (row : List Text) :
    Normalizes (rowText row) (rowText (row.map Xml.normalizeLineEnds)) := by
  have hopen : Normalizes (markup "Row") _ := normalizes_plain (by decide)
  have hclose : Normalizes (markup "/Row") _ := normalizes_plain (by decide)
  rw [rowText, rowText, List.flatMap_map]
  exact hopen.append ((Normalizes.flatMap normalizes_cell row).append hclose)

/-- The line ends of a sheet are those of its cells. -/
theorem normalizeLineEnds_sheet (rows : List (List Text)) :
    Xml.normalizeLineEnds (sheetText rows) = sheetText (rows.map (·.map Xml.normalizeLineEnds)) := by
  have hsheet := (normalizes_plain spreadsheetHead_plain).append
    ((Normalizes.flatMap normalizes_row rows).append (normalizes_plain spreadsheetTail_plain))
  rw [sheetText_eq, sheetText_eq, List.flatMap_map]
  exact hsheet.eq

theorem all_isChar_cell (value : Text) : (cellText value).all Xml.isChar = value.all Xml.isChar := by
  have hopen : (markup "Cell" ++ markup "Data ss:Type=\"String\"").all Xml.isChar = true := by
    decide
  have hclose : (markup "/Data" ++ markup "/Cell").all Xml.isChar = true := by decide
  rw [List.all_append] at hopen hclose
  rw [cellText, List.all_append, List.all_append, List.all_append, List.all_append, Bool.and_assoc,
    Xml.all_isChar_escape, hclose, Bool.and_true, ← Bool.and_assoc, hopen, Bool.true_and]

theorem all_isChar_row (row : List Text) :
    (rowText row).all Xml.isChar = row.all (·.all Xml.isChar) := by
  have hopen : (markup "Row").all Xml.isChar = true := by decide
  have hclose : (markup "/Row").all Xml.isChar = true := by decide
  rw [rowText, List.all_append, List.all_append, hopen, hclose, List.all_flatMap, Bool.and_true,
    Bool.true_and]
  exact congrArg row.all (funext all_isChar_cell)

/-- The characters of a sheet are markup and those of its cells. -/
theorem all_isChar_sheet (rows : List (List Text)) :
    (sheetText rows).all Xml.isChar = rows.all (·.all (·.all Xml.isChar)) := by
  rw [sheetText_eq, List.all_append, List.all_append, all_isChar_plain spreadsheetHead_plain,
    all_isChar_plain spreadsheetTail_plain, List.all_flatMap, Bool.and_true, Bool.true_and]
  exact congrArg rows.all (funext all_isChar_row)

/-- A sheet is read when its cells hold what a document may hold, with their line ends in one spelling. -/
theorem read_sheet (rows : List (List Text)) :
    Xml.read (sheetText rows) =
      if rows.all (·.all (·.all Xml.isChar)) then
        some (workbook (rows.map (·.map Xml.normalizeLineEnds)))
      else none := by
  rw [Xml.read, all_isChar_sheet, normalizeLineEnds_sheet, readNormalized_sheet]

/-! ## The file -/

def texts (rows : List ReportRow) : List (List Text) :=
  (header :: rows.map (·.cells)).map (·.map String.toList)

/-- The file is well formed, and its cells are those that were written. -/
def SpreadsheetFaithful (rows : List ReportRow) : Prop :=
  Xml.WellFormed (toSpreadsheetMl rows).toList ∧
    (Xml.read (toSpreadsheetMl rows).toList).map decodeWorkbook = some (texts rows)

theorem map_eq_self {α : Type} {f : α → α} {l : List α} : l.map f = l ↔ ∀ a ∈ l, f a = a := by
  have hid : l.map f = l.map id ↔ ∀ a ∈ l, f a = id a := List.map_inj_left
  rwa [List.map_id] at hid

/-- The cells are read as they are when no carriage return stands in them. -/
theorem normalized_iff (table : List (List Text)) :
    table.map (·.map Xml.normalizeLineEnds) = table ↔ ∀ row ∈ table, ∀ value ∈ row, '\r' ∉ value := by
  simp only [map_eq_self, Xml.normalizeLineEnds_eq_iff]

theorem forall_texts (rows : List ReportRow) {P : Text → Prop} (hheader : ∀ value ∈ header, P value.toList) :
    (∀ row ∈ texts rows, ∀ value ∈ row, P value) ↔
      ∀ row ∈ rows, ∀ value ∈ row.cells, P value.toList := by
  constructor
  · intro h row hrow value hvalue
    exact h (row.cells.map String.toList)
      (List.mem_map_of_mem (.tail _ (List.mem_map_of_mem hrow))) _ (List.mem_map_of_mem hvalue)
  · intro h row hrow value hvalue
    obtain ⟨cells, hcells, rfl⟩ := List.mem_map.1 hrow
    obtain ⟨cell, hcell, rfl⟩ := List.mem_map.1 hvalue
    rcases List.mem_cons.1 hcells with rfl | hcells
    · exact hheader cell hcell
    · obtain ⟨source, hsource, rfl⟩ := List.mem_map.1 hcells
      exact h source hsource cell hcell

/-- **The file is well formed and its cells are those of the rows exactly when these hold characters of
XML** and no carriage return. -/
theorem spreadsheet_faithful_iff (rows : List ReportRow) :
    SpreadsheetFaithful rows ↔
      ∀ row ∈ rows, ∀ value ∈ row.cells, ∀ c ∈ value.toList, Xml.isChar c = true ∧ c ≠ '\r' := by
  have hread : SpreadsheetFaithful rows ↔
      (∀ row ∈ texts rows, ∀ value ∈ row, value.all Xml.isChar = true) ∧
        ∀ row ∈ texts rows, ∀ value ∈ row, '\r' ∉ value := by
    rw [SpreadsheetFaithful, Xml.WellFormed, toSpreadsheetMl_toList, ← texts, read_sheet,
      ← normalized_iff]
    by_cases hchars : (texts rows).all (·.all (·.all Xml.isChar)) = true
    · rw [if_pos hchars, Option.map_some, decodeWorkbook_workbook, Option.some_inj]
      simp only [List.all_eq_true] at hchars ⊢
      exact ⟨fun h => ⟨hchars, h.2⟩, fun h => ⟨rfl, h.2⟩⟩
    · rw [if_neg hchars]
      simp only [List.all_eq_true] at hchars ⊢
      exact ⟨fun h => absurd h.1 (by decide), fun h => absurd h.1 hchars⟩
  have hchars := forall_texts rows (P := fun value => value.all Xml.isChar = true) (by decide)
  have hreturn := forall_texts rows (P := fun value => '\r' ∉ value) (by decide)
  rw [hread, hchars, hreturn]
  constructor
  · rintro ⟨hall, hnone⟩ row hrow value hvalue c hc
    exact ⟨List.all_eq_true.1 (hall row hrow value hvalue) c hc,
      fun hcr => hnone row hrow value hvalue (hcr ▸ hc)⟩
  · intro h
    exact ⟨fun row hrow value hvalue => List.all_eq_true.2 fun c hc => (h row hrow value hvalue c hc).1,
      fun row hrow value hvalue hc => (h row hrow value hvalue _ hc).2 rfl⟩

/-- A name with a control character in it. -/
theorem not_spreadsheet_faithful : ¬ ∀ rows, SpreadsheetFaithful rows := by
  intro h
  have hplain := (spreadsheet_faithful_iff [⟨"Rapport", "Nom", "", "\x01"⟩]).1 (h _)
  exact absurd (hplain _ (.head _) "\x01" (by decide) '\x01' (by decide)).1 (by decide)

end GetPlatform.Ministry
