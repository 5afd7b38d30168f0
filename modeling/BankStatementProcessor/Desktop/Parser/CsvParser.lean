import BankStatementProcessor.Desktop.Parser.ExcelParser

/-!
# Statements as comma-separated values

A file is read into the same grid as a sheet, and `extract_sheet_from_grid` goes on from there.
-/

namespace Desktop.Parser

/-- A blank field is an empty cell. -/
def cellFromField (raw : List Char) : GridCell :=
  let trimmed := trim raw
  if trimmed.isEmpty then .empty else .text (String.ofList trimmed)

/-- `grid_from_csv`, given the records of the file. -/
def gridFromCsv (records : List (List (List Char))) : List (List GridCell) :=
  records.map (·.map cellFromField)

end Desktop.Parser
