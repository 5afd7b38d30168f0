import BankStatementProcessor.Desktop.Parser.AmountParser
import BankStatementProcessor.Desktop.Parser.DateParser
import BankStatementProcessor.Desktop.Parser.NoiseFilter
import BankStatementProcessor.Desktop.Parser.Rows
import BankStatementProcessor.Infra.StateMachine

/-!
# Rows of a page

The loop of `parse_pdf_rows` that turns the rows after the header into transactions. The
boundaries of the columns are given; a column was detected just in case it has one.
-/

namespace Desktop.Parser

open Infra

/-! ## Cells -/

structure PdfItem where
  x : F64
  text : String
deriving DecidableEq, Repr

inductive ColField where
  | date
  | narration
  | reference
  | debit
  | credit
  | balance
  | debitCredit
deriving DecidableEq, Repr

/-- The range `[xMin, xMax)` of a column. -/
structure ColBoundary where
  field : ColField
  xMin : F64
  xMax : F64
deriving DecidableEq, Repr

def ColField.isMonetary : ColField → Bool
  | debit | credit | balance | debitCredit => true
  | date | narration | reference => false

def joinTexts (texts : List (List Char)) : List Char := [' '].intercalate texts

/-- The texts of the items whose first boundary is one of that column. -/
def bucket (boundaries : List ColBoundary) (row : List PdfItem) (field : ColField) :
    List (List Char) :=
  let fieldOf := fun item : PdfItem =>
    (boundaries.find? fun b => b.xMin.le item.x && item.x.lt b.xMax).map (·.field)
  (row.filter fun item => fieldOf item == some field).map (·.text.toList)

section

variable (u : Unicode) (boundaries : List ColBoundary)

/-- One text for the items of a column. -/
def resolve (field : ColField) (texts : List (List Char)) : List Char :=
  if field.isMonetary && 1 < texts.length then
    if (parseAmountStr u (joinTexts texts)).isSome then joinTexts texts
    else
      -- the last one that is an amount
      texts.foldl (fun best t => if (parseAmountStr u t).isSome then t else best) (joinTexts texts)
  else if field == .date && 1 < texts.length then
    trim ((texts.find? isValidDateStr).getD (texts.headD []))
  else trim (joinTexts texts)

/-- `assign_cells` and `cell_str`: the cell of a column that was not detected is blank. -/
def assignCells (row : List PdfItem) (field : ColField) : List Char :=
  resolve u field (bucket boundaries row field)

/-! ## One row -/

/-- A row of a page with the one after it. -/
structure PageRow where
  row : List PdfItem
  next : Option (List PdfItem)
  index : ℕ
deriving DecidableEq, Repr

/-- A row ends the list of transactions: a section on deposits or tax follows. -/
def isSectionEnd (row : List PdfItem) : Bool :=
  let joined := u.toLowercase (joinTexts (row.map (·.text.toList)))
  contains joined "statement of fixed deposit" || contains joined "fixed deposit a/c" ||
    contains joined "summary of tds" ||
    (contains joined "additions" && contains joined "deductions")

/-- Without `₹`, blanks and commas. -/
def unspaced (s : List Char) : List Char := s.filter fun c => c != '₹' && c != ' ' && c != ','

def readSides (cells : ColField → List Char) : Sides :=
  if !(cells .debitCredit).isEmpty then
    signedSides ((unspaced (cells .debitCredit)).head? == some '-')
      (parseAmountStr u (cells .debitCredit))
  else (parseAmountStr u (cells .debit), parseAmountStr u (cells .credit))

/-- A day and a month, as in `25 May`. -/
def isPartialNoYear (rawDate : List Char) : Bool :=
  match (rawDate.splitOnP isWhitespace).filter (!·.isEmpty) with
  | [day, month] => day.all Char.isDigit && month.all u.isAlphabetic
  | _ => false

/-- What stands before and after the first separator. -/
def splitSep (s : List Char) : Option (List Char × List Char) :=
  match s.span fun c => !(c == '/' || c == '-' || c == '.') with
  | (part, _ :: rest) => some (part, rest)
  | (_, []) => none

/-- A date with a year of less than four digits, as in `03/Apr/20`. -/
def isTruncYear (rawDate : List Char) : Bool :=
  ((splitSep (trim rawDate)).bind fun (day, rest) => (splitSep rest).map fun (month, year) =>
    day.all Char.isDigit && month.all u.isAlphabetic && year.all Char.isDigit && len year < 4)
    |>.getD false

/-- A row that completes the year of the one before it. -/
def isYearRow (cells : ColField → List Char) : Bool :=
  let date := trim (cells .date)
  2 ≤ len date && len date ≤ 4 && date.all Char.isDigit &&
    (parseAmountStr u (cells .debit)).isNone && (parseAmountStr u (cells .credit)).isNone &&
    (parseAmountStr u (cells .balance)).isNone

/-- The date of a row, with the year that the next one completes. -/
def stitchedDate (cells nextCells : ColField → List Char) : Option ParsedDate :=
  let nd := normalizeTransactionDate u (cells .date)
  let partialNoYear := !nd.valid && isPartialNoYear u (cells .date)
  if (partialNoYear || isTruncYear u (cells .date)) && isYearRow u nextCells then
    let sep := if partialNoYear then [' '] else []
    let pnd := normalizeTransactionDate u (trim (cells .date) ++ sep ++ trim (nextCells .date))
    if pnd.valid && (!nd.valid || pnd.display != nd.display) then some pnd else none
  else none

/-- Two texts with a blank between them, or the one that is not empty. -/
def joinParts (a b : List Char) : List Char :=
  if a.isEmpty then b else if b.isEmpty then a else a ++ ' ' :: b

/-- A row as it is read. -/
structure PdfRow where
  rawDate : List Char
  nd : ParsedDate
  narration : List Char
  reference : List Char
  debit : Option F64
  credit : Option F64
  balance : Option F64
  rawDr : List Char
  rawCr : List Char
  rawDrCr : List Char
  /-- The next row was read with it. -/
  consumed : Bool
deriving DecidableEq, Repr

def readPdfRow (r : PageRow) : PdfRow :=
  let cells := assignCells u boundaries r.row
  let nextCells := r.next.map (assignCells u boundaries)
  let stitched := nextCells.bind (stitchedDate u cells)
  let continued :=
    if stitched.isSome then (nextCells.map fun next => trim (next .narration)).getD [] else []
  { rawDate := cells .date
    nd := stitched.getD (normalizeTransactionDate u (cells .date))
    narration := joinParts (trim (cells .narration)) continued
    reference := trim (cells .reference)
    debit := (readSides u cells).1
    credit := (readSides u cells).2
    balance := parseAmountStr u (cells .balance)
    rawDr := cells .debit
    rawCr := cells .credit
    rawDrCr := cells .debitCredit
    consumed := stitched.isSome }

def PdfRow.hasAmount (r : PdfRow) : Bool := r.debit.isSome || r.credit.isSome

/-- In a row without amounts, `dr` or `cr` in the text of both columns gives the side. -/
def sidesInText (r : PdfRow) : Sides :=
  let combined := trim (r.rawDr ++ r.rawCr)
  let lower := u.toLowercase combined
  let isMark := fun c => ['d', 'r', 'c', ' '].contains c
  let amount := parseAmountStr u (((lower.dropWhile isMark).reverse.dropWhile isMark).reverse)
  if combined.isEmpty then (none, none)
  else if contains lower "dr" then (amount, none)
  else if contains lower "cr" then (none, amount)
  else (none, none)

/-- The text ends with the mark of a side, with or without a point. -/
def endsWithSide (raw : List Char) (side : String) : Bool :=
  let lower := u.toLowercase (raw.reverse.dropWhile isWhitespace).reverse
  decide (side.toList <:+ lower) || decide ((side ++ ".").toList <:+ lower)

/-- The sides of a row: marks in the text, negative amounts, a plus on a page without a credit
column, and the suffixes `cr` and `dr`. -/
def finalPdfSides (r : PdfRow) : Sides :=
  let sides := if r.hasAmount then (r.debit, r.credit) else sidesInText u r
  let noCredit := !boundaries.any (·.field == .credit)
  let sides :=
    if r.rawDrCr.isEmpty then
      toCredit (noCredit && (unspaced r.rawDr).head? == some '+') (absAlone sides)
    else sides
  toDebit (endsWithSide u r.rawCr "dr") (toCredit (endsWithSide u r.rawDr "cr") sides)

/-! ## Type codes -/

def typeCodes : List String :=
  ["UPI", "NEFT", "IMPS", "RTGS", "CHQ", "CASH", "ATM", "POS", "ECS", "EMI", "SWP", "RFD", "REV",
    "CLG", "NACH", "TRF", "FT", "DD", "SI"]

/-- Those that may end with `-` or `/`. -/
def openTypeCodes : List String :=
  ["UPI", "NEFT", "IMPS", "RTGS", "CHQ", "CASH", "ATM", "POS", "ECS", "EMI", "TRF", "NACH", "DD"]

def isTypeCode (s : List Char) : Bool :=
  let up := u.toUppercase (trim s)
  let isEnd := fun c => c == '-' || c == '/'
  typeCodes.contains (String.ofList up) ||
    (up.getLast?.any isEnd &&
      openTypeCodes.contains (String.ofList (up.reverse.dropWhile isEnd).reverse))

/-! ## The loop -/

structure PdfState where
  txns : List Transaction
  opBalance : Option F64
  closingBalance : Option F64
  /-- A transaction whose amount comes with a later row. -/
  pending : Option Transaction
  typeBuffer : List Char
  narrBuffer : List Char
  txnCounter : ℕ
  noiseRows : ℕ
  /-- The row was read with the one before it. -/
  skip : Bool
  /-- The loop was left. -/
  stopped : Bool
deriving DecidableEq, Repr

def PdfState.init : PdfState where
  txns := []
  opBalance := none
  closingBalance := none
  pending := none
  typeBuffer := []
  narrBuffer := []
  txnCounter := 0
  noiseRows := 0
  skip := false
  stopped := false

def PdfRow.isBlank (r : PdfRow) : Bool :=
  r.rawDate.isEmpty && r.narration.isEmpty && !r.hasAmount && r.balance.isNone

def fillBalance (balance : Option F64) (t : Transaction) : Transaction :=
  { t with balance := t.balance.or balance }

/-- A row with nothing but a balance may state the closing one, that of the transaction before
it, that of the one that is held back, or the opening one. -/
def PdfState.takeBalance (s : PdfState) (r : PdfRow) : Option PdfState :=
  let nl := u.toLowercase r.narration
  if r.balance.isSome && !r.hasAmount then
    if s.closingBalance.isNone &&
        (contains nl "closing" || contains nl "c/f" || contains nl "carried forward") then
      some { s with closingBalance := r.balance }
    else if r.narration.isEmpty && s.txns.getLast?.any (·.balance.isNone) then
      some { s with txns := s.txns.modifyLast (fillBalance r.balance) }
    else if r.narration.isEmpty && s.pending.any (·.balance.isNone) then
      some { s with pending := s.pending.map (fillBalance r.balance) }
    else if s.opBalance.isNone &&
        (r.narration.isEmpty || contains nl "opening" || contains nl "brought forward" ||
          contains nl "b/f" || contains nl "b/d") then
      some { s with opBalance := r.balance }
    else none
  else none

/-- A row without a date: its narration waits for the first transaction, its type code for the
next one, or it continues the last one. -/
def PdfState.takeUndated (s : PdfState) (r : PdfRow) : PdfState :=
  if !r.narration.isEmpty && !r.hasAmount && r.balance.isNone && s.txns.isEmpty then
    { s with narrBuffer := joinParts s.narrBuffer r.narration }
  else if !r.narration.isEmpty && !r.hasAmount && r.balance.isNone && isTypeCode u r.narration then
    { s with typeBuffer := trim r.narration }
  else if (!r.narration.isEmpty || r.balance.isSome) && !r.hasAmount && !s.txns.isEmpty then
    let txns := if r.narration.isEmpty then s.txns else continueLast r.narration s.txns
    { s with txns := txns.modifyLast (fillBalance r.balance) }
  else s

/-- The narration of a row with what was buffered before it. -/
def PdfState.fullNarration (s : PdfState) (r : PdfRow) : List Char :=
  joinParts s.narrBuffer (joinParts s.typeBuffer r.narration)

/-- The transaction of row `i`. -/
def PdfState.newTxn (s : PdfState) (r : PdfRow) (sides : Sides) (i : ℕ) : Transaction :=
  { Transaction.new s!"t_{i}_pdf_{s.txnCounter + 1}" with
    date := r.nd.display
    dateTs := r.nd.ts
    narration := String.ofList (s.fullNarration r)
    reference := String.ofList r.reference
    debit := sides.1
    credit := sides.2
    balance := r.balance }

/-- A row with a date has a transaction of its own, or one to hold back. -/
def PdfState.takeOwn (s : PdfState) (r : PdfRow) (sides : Sides) (i : ℕ) : PdfState :=
  let narration := s.fullNarration r
  let flushed := { s with
    pending := if narration.isEmpty then s.pending else none
    typeBuffer := []
    narrBuffer := [] }
  if sides.1.isSome || sides.2.isSome then
    { flushed with
      txns := s.txns ++ [s.newTxn r sides i]
      txnCounter := s.txnCounter + 1 }
  else if !narration.isEmpty && r.balance.isSome then
    { flushed with
      pending := some (s.newTxn r (none, none) i)
      txnCounter := s.txnCounter + 1 }
  else flushed

/-- A row with a date and no narration states the amount of the transaction that is held
back. -/
def PdfState.takeDated (s : PdfState) (r : PdfRow) (i : ℕ) : PdfState :=
  let sides := finalPdfSides u boundaries r
  match s.pending with
  | some p =>
    if (s.fullNarration r).isEmpty && (sides.1.isSome || sides.2.isSome) then
      { s with
        txns := s.txns ++ [fillBalance r.balance { p with debit := sides.1, credit := sides.2 }]
        pending := none }
    else s.takeOwn r sides i
  | none => s.takeOwn r sides i

def PdfState.takeRow (s : PdfState) (r : PdfRow) (i : ℕ) : PdfState :=
  if r.isBlank then s
  else
    match s.takeBalance u r with
    | some s' => s'
    | none =>
      if isNoiseRow u r.narration then { s with noiseRows := s.noiseRows + 1 }
      else if !r.nd.valid then s.takeUndated u r
      else s.takeDated u boundaries r i

def stepPdfRow (s : PdfState) (r : PageRow) : PdfState :=
  if s.stopped then s
  else if s.skip then { s with skip := false }
  else if isSectionEnd u r.row then { s with stopped := true }
  else
    let row := readPdfRow u boundaries r
    { s with skip := row.consumed }.takeRow u boundaries row
      (if row.consumed then r.index + 1 else r.index)

/-- Each row with the one after it and its number. -/
def withNext : ℕ → List (List PdfItem) → List PageRow
  | _, [] => []
  | i, row :: rest => { row, next := rest.head?, index := i } :: withNext (i + 1) rest

/-- The rows from `start` on, the first one after the header. -/
def pageRows (rows : List (List PdfItem)) (start : ℕ) : List PageRow :=
  withNext start (rows.drop start)

def parsePdfRows (rows : List (List PdfItem)) (start : ℕ) : PdfState :=
  run (stepPdfRow u boundaries) .init (pageRows rows start)

end

end Desktop.Parser
