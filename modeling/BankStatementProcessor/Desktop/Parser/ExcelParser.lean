import BankStatementProcessor.Desktop.Parser.AmountParser
import BankStatementProcessor.Desktop.Parser.DateParser
import BankStatementProcessor.Desktop.Parser.NoiseFilter
import BankStatementProcessor.Desktop.Parser.Rows
import BankStatementProcessor.Infra.StateMachine

/-!
# Rows of a sheet

The loop of `extract_sheet_from_grid` that turns the rows after the header into transactions.
Which columns were recognised, and in which row, is given.
-/

namespace Desktop.Parser

open Infra

/-! ## Cells -/

inductive GridCell where
  | empty
  /-- An Excel date. -/
  | serial (f : F64)
  | number (f : F64)
  | text (s : String)
deriving DecidableEq, Repr

/-- The columns of a table, `-1` for one that was not recognised. -/
structure ColumnMap where
  date : ℤ
  narration : ℤ
  reference : ℤ
  debit : ℤ
  credit : ℤ
  balance : ℤ
  debitCredit : ℤ
deriving DecidableEq, Repr

/-- What the loop takes from the standard library: the tables of Unicode, and how a number is
written. -/
structure TextParts where
  unicode : Unicode
  displayF64 : F64 → String
  displayF64_ne_empty : ∀ f, displayF64 f ≠ ""

section

variable (parts : TextParts)

def GridCell.rawStr : GridCell → List Char
  | empty => []
  | serial f => (parts.displayF64 f).toList
  | number f => (parts.displayF64 f).toList
  | text s => s.toList

def GridCell.asDate : GridCell → ParsedDate
  | empty => .fail []
  | serial f =>
    (normalizeExcelDate f).getD (normalizeTransactionDate parts.unicode (parts.displayF64 f).toList)
  | number f =>
    match if F64.lt (.finite 36526) f && F64.lt f (.finite 54789) then normalizeExcelDate f
      else none with
    | some nd => nd
    | none => normalizeTransactionDate parts.unicode (parts.displayF64 f).toList
  | text s => normalizeTransactionDate parts.unicode s.toList

def GridCell.asAmount : GridCell → Option F64
  | empty => none
  | serial _ => none
  | number f => parseFloat f
  | text s => parseAmountStr parts.unicode s.toList

/-! ## One row -/

def getCell (row : List GridCell) (col : ℤ) : GridCell :=
  if 0 ≤ col then row.getD col.toNat .empty else .empty

/-- A row as it is read. -/
structure SheetRow where
  nd : ParsedDate
  narration : List Char
  reference : List Char
  debit : Option F64
  credit : Option F64
  balance : Option F64
  rawDr : List Char
  rawCr : List Char
deriving DecidableEq, Repr

/-- Without `₹`, white space and commas. -/
def bareAmount (s : List Char) : List Char :=
  s.filter fun c => c != '₹' && !isWhitespace c && c != ','

/-- The amounts of a row. In a combined column the sign gives the direction. -/
def readAmounts (colMap : ColumnMap) (row : List GridCell) : Sides :=
  let rawDrCr := getCell row colMap.debitCredit
  let rawDrCrStr := rawDrCr.rawStr parts
  if !rawDrCrStr.isEmpty then
    signedSides ((bareAmount rawDrCrStr).head? == some '-') (rawDrCr.asAmount parts)
  else
    ((getCell row colMap.debit).asAmount parts, (getCell row colMap.credit).asAmount parts)

def readRow (colMap : ColumnMap) (row : List GridCell) : SheetRow where
  nd := (getCell row colMap.date).asDate parts
  narration := trim ((getCell row colMap.narration).rawStr parts)
  reference := trim ((getCell row colMap.reference).rawStr parts)
  debit := (readAmounts parts colMap row).1
  credit := (readAmounts parts colMap row).2
  balance := (getCell row colMap.balance).asAmount parts
  rawDr := (getCell row colMap.debit).rawStr parts
  rawCr := (getCell row colMap.credit).rawStr parts

def SheetRow.hasAmount (r : SheetRow) : Bool := r.debit.isSome || r.credit.isSome

/-- `(?i)\bCr\.?\s*$` and `(?i)\bDr\.?\s*$` -/
def reSideSuffix (side : String) : Regex :=
  .seqs [.boundary, .litIgnoreCase side, .opt (.char '.'), .spaces, .stop]

/-- The sides of a row: negative amounts, a plus in a sheet without a credit column, and the
suffixes `Cr` and `Dr`. -/
def finalSides (colMap : ColumnMap) (r : SheetRow) : Sides :=
  let sides := absAlone (r.debit, r.credit)
  let sides := toCredit (colMap.credit < 0 && (bareAmount r.rawDr).head? == some '+') sides
  let sides := toCredit ((reSideSuffix "Cr").isMatch parts.unicode r.rawDr) sides
  toDebit ((reSideSuffix "Dr").isMatch parts.unicode r.rawCr) sides

/-! ## The loop -/

structure SheetState where
  txns : List Transaction
  opBalance : Option F64
  closingBalance : Option F64
deriving DecidableEq, Repr

def SheetState.init : SheetState where
  txns := []
  opBalance := none
  closingBalance := none

def SheetRow.isBlank (r : SheetRow) : Bool :=
  !r.nd.valid && r.narration.isEmpty && !r.hasAmount && r.balance.isNone

/-- A row with nothing but a balance may state the closing or the opening one. -/
def SheetState.takeBalance (s : SheetState) (r : SheetRow) : Option SheetState :=
  let nl := parts.unicode.toLowercase r.narration
  if r.balance.isSome && !r.hasAmount then
    if s.closingBalance.isNone &&
        (contains nl "closing" || contains nl "c/f" || contains nl "carried forward") then
      some { s with closingBalance := r.balance }
    else if s.opBalance.isNone &&
        (r.narration.isEmpty || contains nl "opening" || contains nl "brought forward" ||
          contains nl "b/f" || contains nl "b/d") then
      some { s with opBalance := r.balance }
    else none
  else none

/-- The transaction of row `i`. -/
def SheetState.push (s : SheetState) (colMap : ColumnMap) (r : SheetRow) (i : ℕ) : SheetState :=
  let (debit, credit) := finalSides parts colMap r
  { s with
    txns := s.txns ++ [{ Transaction.new s!"t_{i}_{s.txns.length}" with
      date := r.nd.display
      dateTs := r.nd.ts
      narration := String.ofList r.narration
      reference := String.ofList r.reference
      debit := debit
      credit := credit
      balance := r.balance }] }

def stepRow (colMap : ColumnMap) (s : SheetState) (p : List GridCell × ℕ) : SheetState :=
  let r := readRow parts colMap p.1
  if r.isBlank then s
  else
    match s.takeBalance parts r with
    | some s' => s'
    | none =>
      if isNoiseRow parts.unicode r.narration then s
      else if !r.nd.valid && !r.narration.isEmpty && !r.hasAmount then
        { s with txns := continueLast r.narration s.txns }
      else if !r.nd.valid then s
      else if !r.hasAmount then s
      else s.push parts colMap r p.2

/-- The rows after the header, with their numbers. -/
def dataRows (grid : List (List GridCell)) (hdrIdx : ℕ) : List (List GridCell × ℕ) :=
  grid.zipIdx.drop (hdrIdx + 1)

def extractRows (colMap : ColumnMap) (grid : List (List GridCell)) (hdrIdx : ℕ) : SheetState :=
  run (stepRow parts colMap) .init (dataRows grid hdrIdx)

end

end Desktop.Parser
