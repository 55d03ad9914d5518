import GetPlatform.Ministry.Types
import GetPlatform.Text

set_option autoImplicit false

/-! # Exports of a report

A report is a snapshot and what it is called. It is written as rows of four cells, which become a CSV
file or a spreadsheet. -/

namespace GetPlatform.Ministry

structure ReportForExport (ν : Type) where
  name : String
  description : Option String
  type : String
  periodStart : Date
  periodEnd : Date
  generatedAt : Date
  data : Json ν

structure ReportRow where
  «section» : String
  indicator : String
  dimension : String
  value : String
  deriving DecidableEq

def ReportRow.cells (row : ReportRow) : List String :=
  [row.«section», row.indicator, row.dimension, row.value]

/-! ## Texts -/

/-- How the platform writes what depends on a language: `fr-FR` for numbers and dates, and Unicode's
table of capitals. -/
structure Locale (ν : Type) where
  formatNumber : ν → String
  formatDate : Date → String
  toUpperCase : Char → String

variable {ν : Type} (locale : Locale ν)

/-- `typeof` a field that is written. -/
inductive Scalar (ν : Type) where
  | string (s : String)
  | number (n : ν)
  | boolean (b : Bool)
  deriving DecidableEq

def formatScalar : Scalar ν → String
  | .number n => locale.formatNumber n
  | .string s => s
  | .boolean b => toString b

/-- A space where a capital follows a small letter. -/
def splitWords : List Char → List Char
  | c :: d :: rest =>
      if c.isLower ∧ d.isUpper then c :: ' ' :: splitWords (d :: rest) else c :: splitWords (d :: rest)
  | rest => rest

/-- A dot of a pattern does not match the end of a line. -/
def isLineTerminator (c : Char) : Bool := c.val ∈ [0xA, 0xD, 0x2028, 0x2029]

/-- `.replace(/^./, (character) => character.toUpperCase())`: the pattern matches one code unit, and
half of a character has no capital. -/
def capitalize : List Char → String
  | [] => ""
  | c :: rest =>
      (if isLineTerminator c ∨ 0x10000 ≤ c.val then c.toString else locale.toUpperCase c) ++ .ofList rest

def humanize (value : String) : String :=
  capitalize locale (replaceAll (.ofList (splitWords value.toList)) '_' " ").toList

/-! ## Rows -/

def metadataRows (report : ReportForExport ν) : List ReportRow :=
  let rows : List ReportRow :=
    [⟨"Rapport", "Nom", "", report.name⟩,
      ⟨"Rapport", "Type", "", report.type⟩,
      ⟨"Rapport", "Période", "",
        locale.formatDate report.periodStart ++ " — " ++ locale.formatDate report.periodEnd⟩,
      ⟨"Rapport", "Généré le", "", locale.formatDate report.generatedAt⟩]
  match report.description with
  | none => rows
  | some description =>
      if description = "" then rows else rows ++ [⟨"Rapport", "Description", "", description⟩]

/-- `const [section = 'Synthèse', ...indicatorPath] = path` -/
def sectionOf (path : List String) : String := path.headD "Synthèse"

/-- `indicatorPath.join(' › ') || section` -/
def indicator (path : List String) : String :=
  let joined := " › ".intercalate path.tail
  if joined = "" then sectionOf path else joined

def dimensions (row : List (String × Json ν)) : List String :=
  row.filterMap fun (key, value) =>
    match value with
    | .str s => some (humanize locale key ++ ": " ++ formatScalar locale (.string s))
    | .bool b => some (humanize locale key ++ ": " ++ formatScalar locale (.boolean b))
    | _ => none

def measurements (row : List (String × Json ν)) : List (String × String) :=
  row.filterMap fun (key, value) =>
    match value with
    | .num n => some (humanize locale key, formatScalar locale (.number n))
    | _ => none

/-- The rows that the code appends. -/
def appendAggregateRow (row : List (String × Json ν)) (path : List String) : List ReportRow :=
  let dimension := " · ".intercalate (dimensions locale row)
  if (measurements locale row).length = 0 then [⟨sectionOf path, indicator path, dimension, ""⟩]
  else (measurements locale row).map fun (name, value) =>
    ⟨sectionOf path, indicator path ++ " › " ++ name, dimension, value⟩

def scalarRow (value : Scalar ν) (path : List String) : ReportRow :=
  ⟨sectionOf path, indicator path, "", formatScalar locale value⟩

mutual

/-- The rows that the code appends. -/
def flatten : Json ν → List String → List ReportRow
  | .null, _ => []
  | .arr items, path => flattenItems items path
  | .obj fields, path => flattenFields fields path
  | .str s, path => [scalarRow locale (.string s) path]
  | .num n, path => [scalarRow locale (.number n) path]
  | .bool b, path => [scalarRow locale (.boolean b) path]

/-- `for (const item of value)` -/
def flattenItems : List (Json ν) → List String → List ReportRow
  | [], _ => []
  | .obj fields :: items, path => appendAggregateRow locale fields path ++ flattenItems items path
  | item :: items, path => flatten item path ++ flattenItems items path

/-- `for (const [key, child] of Object.entries(value))` -/
def flattenFields : List (String × Json ν) → List String → List ReportRow
  | [], _ => []
  | (key, child) :: fields, path =>
      flatten child (path ++ [humanize locale key]) ++ flattenFields fields path

end

def toReportRows (report : ReportForExport ν) : List ReportRow :=
  metadataRows locale report ++ flatten locale report.data []

/-! ## Files -/

def header : List String := ["Section", "Indicateur", "Dimension", "Valeur"]

/-- `/^[=+\-@]/` -/
def startsFormula (value : String) : Bool := value.toList.head?.any (· ∈ ['=', '+', '-', '@'])

def escapeCsv (value : String) : String :=
  let safe := if startsFormula value then "'" ++ value else value
  "\"" ++ replaceAll safe '"' "\"\"" ++ "\""

def toCsv (rows : List ReportRow) : String :=
  "\uFEFF" ++ "\n".intercalate ((header :: rows.map (·.cells)).map fun row =>
    ";".intercalate (row.map escapeCsv)) ++ "\n"

def escapeXml (value : String) : String :=
  replaceAll (replaceAll (replaceAll (replaceAll (replaceAll value
    '&' "&amp;") '<' "&lt;") '>' "&gt;") '"' "&quot;") '\'' "&apos;"

def spreadsheetRow (row : List String) : String :=
  "<Row>" ++ String.join (row.map fun value =>
    "<Cell><Data ss:Type=\"String\">" ++ escapeXml value ++ "</Data></Cell>") ++ "</Row>"

/-- What stands before the rows. -/
def spreadsheetHead : String :=
  "<?xml version=\"1.0\" encoding=\"UTF-8\"?>\n" ++
  "<Workbook xmlns=\"urn:schemas-microsoft-com:office:spreadsheet\"\n" ++
  " xmlns:o=\"urn:schemas-microsoft-com:office:office\"\n" ++
  " xmlns:x=\"urn:schemas-microsoft-com:office:excel\"\n" ++
  " xmlns:ss=\"urn:schemas-microsoft-com:office:spreadsheet\">\n" ++
  " <Worksheet ss:Name=\"Rapport\"><Table>"

/-- What stands after them. -/
def spreadsheetTail : String := "</Table></Worksheet>\n</Workbook>"

def toSpreadsheetMl (rows : List ReportRow) : String :=
  spreadsheetHead ++ String.join ((header :: rows.map (·.cells)).map spreadsheetRow) ++ spreadsheetTail

end GetPlatform.Ministry
