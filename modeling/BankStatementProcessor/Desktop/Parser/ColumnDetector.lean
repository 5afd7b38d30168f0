import BankStatementProcessor.Desktop.Parser.ColumnBoundaries
import BankStatementProcessor.Desktop.Parser.ExcelParser

/-!
# Column detection

Which column of a table is which: `detect_excel_cols` scores the cells of a header row against
lists of keywords, `detect_cols_from_content` looks at the rows below for what is missing, and
`extract_sheet_from_grid` looks for the header row.
-/

namespace Desktop.Parser

open Infra

/-! ## Keywords -/

def colDate : List String :=
  ["date", "dt", "transaction date", "txn date", "tran date", "trans date", "value date",
    "value dt", "posting date", "booking date", "entry date", "transaction dt", "trans dt",
    "effective date", "process date"]

def colNarration : List String :=
  ["narration", "description", "particulars", "details", "remarks", "transaction description",
    "transaction remarks", "transaction narration", "transaction details", "tran description",
    "tran remarks", "transaction particulars", "transaction details/remarks", "tran particulars",
    "trans particulars", "chq/trn details", "trn description", "particulars of transaction",
    "payment details", "beneficiary details", "sender details"]

def colReference : List String :=
  ["reference", "ref no", "ref number", "ref.no.", "chq/ref no", "chq/ref. no.",
    "cheque / ref no", "cheque/ref no", "chq / ref number", "ref / chq no", "chq./ref.no.",
    "chq.ref.no.", "chq./ref no.", "chq. / ref. no.", "cheque no", "cheque no.", "cheque number",
    "chq no", "chq no.", "chq.no.", "chq. no.", "chq./txn. no.", "chq./txn.no.", "chq/txn no",
    "chq/txn no.", "txn no", "txn no.", "txn. no.", "txn number", "chq.", "transaction id", "utr",
    "utr no", "utr no.", "utr number", "instrument no", "instrument no.", "instrument",
    "instruments", "tran id", "chq / instrument no", "chq/instrument no", "ref.no", "ref no.",
    "ref num", "ref"]

def colDebit : List String :=
  ["debit", "dr", "dr.", "withdrawal", "withdrawal amt", "withdrawal amount", "withdrawal amt.",
    "withdrawals", "debit amount", "dr amount", "dr amt", "debit amt", "withdrawal amt.(inr)",
    "withdrawal amt. (inr)", "withdrawal amount (inr)", "withdrawal (dr)", "withdrawal (dr.)",
    "withdrawal(dr)", "withdrawal(dr.)", "debit (inr)", "debit(dr)", "paid out", "amount debit",
    "debit amount (inr)", "w/d"]

def colCredit : List String :=
  ["credit", "cr", "cr.", "deposit", "deposit amt", "deposit amount", "deposit amt.", "deposits",
    "credit amount", "cr amount", "cr amt", "credit amt", "deposit amt.(inr)",
    "deposit amt. (inr)", "deposit amount (inr)", "deposit (cr)", "deposit (cr.)", "deposit(cr)",
    "deposit(cr.)", "credit (inr)", "credit(cr)", "paid in", "amount credit",
    "credit amount (inr)"]

def colBalance : List String :=
  ["balance", "bal", "closing balance", "running balance", "closing bal", "available balance",
    "balance amt", "bal amt", "balance (inr)", "closing balance (inr)", "balance(inr)",
    "outstanding balance", "total balance", "ledger balance", "total amount", "total amt",
    "total bal", "running total", "closing amount", "book balance", "net balance"]

def colDebitcredit : List String :=
  ["debit/credit", "debit / credit", "debit/credit(₹)", "debit / credit(₹)", "debit/credit (₹)",
    "debit / credit (₹)", "debit/credit(inr)", "debit / credit(inr)", "debit/credit (inr)",
    "debit / credit (inr)", "dr/cr", "dr / cr", "dr/cr(₹)", "dr / cr(₹)"]

namespace ColField

def patterns : ColField → List String
  | date => colDate
  | narration => colNarration
  | reference => colReference
  | debit => colDebit
  | credit => colCredit
  | balance => colBalance
  | debitCredit => colDebitcredit

/-- `ASSIGN_ORDER`: the combined column comes before its two parts. -/
def assignOrder : List ColField :=
  [date, balance, debitCredit, debit, credit, narration, reference]

end ColField

/-! ## Scores -/

def normalizeCell (u : Unicode) (s : List Char) : List Char := joinWords (u.toLowercase s)

/-- What one keyword that is not the whole cell adds. -/
def patternScore (val : List Char) (p : String) : ℕ :=
  if p.toList.isPrefixOf val then 60
  else if p.toList.isSuffixOf val then 40
  else if 4 ≤ len p.toList && contains val p then 20
  else if 4 ≤ len val && val.isPrefixOf p.toList then 10
  else 0

def scoreCell (val : List Char) (patterns : List String) : ℕ :=
  if len val < 2 then 0
  else if patterns.any (·.toList == val) then 100
  else (patterns.map (patternScore val)).foldl max 0

/-! ## Claiming columns -/

namespace ColumnMap

/-- `ColumnMap::default` -/
def unassigned : ColumnMap := ⟨-1, -1, -1, -1, -1, -1, -1⟩

def get (m : ColumnMap) : ColField → ℤ
  | .date => m.date
  | .narration => m.narration
  | .reference => m.reference
  | .debit => m.debit
  | .credit => m.credit
  | .balance => m.balance
  | .debitCredit => m.debitCredit

def set (m : ColumnMap) (field : ColField) (col : ℤ) : ColumnMap :=
  match field with
  | .date => { m with date := col }
  | .narration => { m with narration := col }
  | .reference => { m with reference := col }
  | .debit => { m with debit := col }
  | .credit => { m with credit := col }
  | .balance => { m with balance := col }
  | .debitCredit => { m with debitCredit := col }

@[simp] theorem get_set (m : ColumnMap) (f : ColField) (col : ℤ) : (m.set f col).get f = col := by
  cases f <;> rfl

@[simp] theorem get_set_of_ne (m : ColumnMap) {f g : ColField} (col : ℤ) (h : g ≠ f) :
    (m.set f col).get g = m.get g := by
  cases f <;> cases g <;> first | rfl | exact absurd rfl h

theorem get_unassigned (f : ColField) : unassigned.get f = -1 := by cases f <;> rfl

end ColumnMap

/-- `as i32` -/
def colIndex (col : ℕ) : ℤ := Int.bmod col (2 ^ 32)

/-- The columns assigned so far, and which of them no other field may take. -/
structure Claims where
  map : ColumnMap
  taken : List ℤ
deriving DecidableEq, Repr

def Claims.claim (s : Claims) (field : ColField) (col : ℤ) : Claims where
  map := s.map.set field col
  taken := col :: s.taken

/-! ## The header row -/

section

variable (score : ColField → ℕ → ℕ)

/-- A combined column that is only similar to its keyword may not take the column that is
exactly the debit or the credit one. -/
def stealsExact (field : ColField) (col : ℕ) : Bool :=
  field == .debitCredit && score field col < 100 &&
    (score .debit col == 100 || score .credit col == 100)

/-- Look at one more column: `best` is the one with the highest score so far. -/
def stepBest (taken : List ℤ) (field : ColField) (best : ℤ × ℕ) (col : ℕ) : ℤ × ℕ :=
  if best.2 < score field col && !taken.contains (col : ℤ) && !stealsExact score field col then
    (colIndex col, score field col)
  else best

def bestColumn (n : ℕ) (taken : List ℤ) (field : ColField) : ℤ × ℕ :=
  run (stepBest score taken field) (-1, 9) (List.range n)

def claimBest (n : ℕ) (s : Claims) (field : ColField) : Claims :=
  let best := (bestColumn score n s.taken field).1
  if 0 ≤ best then s.claim field best else s

end

/-- `detect_excel_cols` -/
def detectExcelCols (u : Unicode) (row : List (List Char)) : ColumnMap :=
  let score := fun (field : ColField) col =>
    scoreCell (normalizeCell u (row.getD col [])) field.patterns
  (run (claimBest score row.length) ⟨.unassigned, []⟩ ColField.assignOrder).map

/-! ## The rows below -/

section

variable (parts : TextParts)

/-- What the sample rows have in one column. -/
structure ColStats where
  total : ℕ
  dateCnt : ℕ
  numCnt : ℕ
  txtCnt : ℕ
  avgLen : F64
deriving DecidableEq, Repr

def colStats (sample : List (List GridCell)) (col : ℕ) : ColStats :=
  let vals := (sample.map fun row => (row.getD col .empty).rawStr parts).filter (!·.isEmpty)
  let isDate := fun v => (normalizeTransactionDate parts.unicode v).valid
  let isAmount := fun v => (parseAmountStr parts.unicode v).isSome
  let total := max vals.length 1
  { total := total
    dateCnt := vals.countP isDate
    numCnt := vals.countP isAmount
    txtCnt := vals.countP fun v => !isAmount v && !isDate v
    avgLen := F64.toDouble ((F64.toDouble (.finite (vals.map len).sum)).divNat total) }

/-- `Iterator::max_by`: the last one of the largest. -/
def lastMax {α : Type} (less : α → α → Bool) (xs : List α) : Option α :=
  xs.foldl (fun best x => match best with
    | none => some x
    | some b => if less x b then some b else some x) none

section

variable (stats : ℕ → ColStats) (maxCol : ℕ)

/-- The columns that no field has and whose contents fit. -/
def freeColumns (taken : List ℤ) (fits : ColStats → Bool) : List ℕ :=
  (List.range maxCol).filter fun c => !taken.contains (colIndex c) && fits (stats c)

/-- Give a field without a column the best one that is free. -/
def inferColumn (field : ColField) (fits : ColStats → Bool) (less : ColStats → ColStats → Bool)
    (s : Claims) : Claims :=
  if s.map.get field < 0 then
    match lastMax (fun c d => less (stats c) (stats d)) (freeColumns stats maxCol s.taken fits) with
    | some c => s.claim field (colIndex c)
    | none => s
  else s

/-- More than half of the values are dates. -/
def inferDate : Claims → Claims :=
  inferColumn stats maxCol .date (fun s => s.total < s.dateCnt * 2)
    fun s t => s.dateCnt < t.dateCnt

def inferBalance : Claims → Claims :=
  inferColumn stats maxCol .balance (fun s => s.total * 7 < s.numCnt * 10)
    fun s t => s.numCnt < t.numCnt

/-- The leftmost two columns of numbers are debit and credit. -/
def inferAmounts (s : Claims) : Claims :=
  if s.map.debit < 0 && s.map.credit < 0 then
    match freeColumns stats maxCol s.taken fun s => s.total * 3 < s.numCnt * 10 with
    | c :: d :: _ => (s.claim .debit (colIndex c)).claim .credit (colIndex d)
    | [c] => s.claim .debit (colIndex c)
    | [] => s
  else s

/-- The column with the longest texts. -/
def inferNarration : Claims → Claims :=
  inferColumn stats maxCol .narration (fun s => s.total * 3 < s.txtCnt * 10)
    fun s t => s.avgLen.lt t.avgLen

end

/-- Up to 15 rows after the header that have a cell. -/
def sampleRows (grid : List (List GridCell)) (hdrIdx : ℕ) : List (List GridCell) :=
  ((grid.drop (hdrIdx + 1)).filter fun row => row.any (· != .empty)).take 15

/-- `detect_cols_from_content` -/
def detectColsFromContent (grid : List (List GridCell)) (hdrIdx : ℕ) (existing : ColumnMap) :
    ColumnMap :=
  let sample := sampleRows grid hdrIdx
  if sample.length < 3 then existing
  else
    let maxCol := (sample.map List.length).foldl max 0
    let stats := colStats parts sample
    let taken := (ColField.all.map existing.get).filter (0 ≤ ·)
    (inferNarration stats maxCol (inferAmounts stats maxCol
      (inferBalance stats maxCol (inferDate stats maxCol ⟨existing, taken⟩)))).map

/-! ## The sheet -/

def ColumnMap.hasAmount (m : ColumnMap) : Bool := 0 ≤ m.debit || 0 ≤ m.credit || 0 ≤ m.debitCredit

/-- `as_detect_str` -/
def detectStr (cell : GridCell) : List Char := cell.rawStr parts

/-- The first of up to 50 rows with a date, a narration and an amount column, or else the first
one with a date and an amount. -/
def keywordHeader (grid : List (List GridCell)) : Option (ℕ × ColumnMap) :=
  let maps := (grid.take 50).zipIdx.map fun p =>
    (p.2, detectExcelCols parts.unicode (p.1.map (detectStr parts)))
  (maps.find? fun p => 0 ≤ p.2.date && 0 ≤ p.2.narration && p.2.hasAmount) <|>
    maps.find? fun p => 0 ≤ p.2.date && p.2.hasAmount

/-- The header row and the columns with which the rows are read. -/
def detectHeader (grid : List (List GridCell)) : Option (ℕ × ColumnMap) := do
  let (hdrIdx, colMap) ← keywordHeader parts grid
  let colMap := detectColsFromContent parts grid hdrIdx colMap
  if 0 ≤ colMap.date && colMap.hasAmount then some (hdrIdx, colMap) else none

end

end Desktop.Parser
