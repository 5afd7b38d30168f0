import BankStatementProcessor.Desktop.Reconciliation
import BankStatementProcessor.Infra.Display

/-!
# The files of the reconciliation

The daybook of Tally that the vouchers are read from, and the report that is written.
-/

namespace Desktop

open Infra

/-! ## The daybook -/

/-- A row of the daybook. -/
structure TallyVoucher extends Voucher where
  voucherType : String
  ledger : String
deriving DecidableEq, Repr

/-- The columns of a daybook. -/
structure TallyColumns where
  date : ℕ
  narration : ℕ
  amount : Option ℕ
  credit : Option ℕ
  voucher : Option ℕ
  type : Option ℕ
  ledger : Option ℕ
deriving DecidableEq, Repr

section

variable (u : Unicode) (fl : F64 → F64)

/-- `col`, the first column with the word in its heading. -/
def tallyColumn (header : List String) (name : String) : Option ℕ :=
  (header.map fun c => u.toLowercase c.toList).findIdx? (contains · name)

/-- A daybook without dates or narrations is not read. -/
def tallyColumns (header : List String) : Option TallyColumns :=
  let col := tallyColumn u header
  (col "date").bind fun date =>
    (((col "particular").or (col "narration")).or (col "description")).map fun narration =>
      { date, narration
        amount := (col "amount").or (col "debit")
        credit := col "credit"
        voucher := col "voucher"
        type := col "type"
        ledger := col "ledger" }

/-- `get` -/
def tallyCell (row : List String) (idx : Option ℕ) : String := (idx.bind (row[·]?)).getD ""

/-- `str::replace` of two letters by nothing. -/
def removePair (a b : Char) : List Char → List Char
  | c :: d :: cs => if c = a ∧ d = b then removePair a b cs else c :: removePair a b (d :: cs)
  | cs => cs

/-- `parse_amount`. What is no number counts as zero. -/
def tallyAmount (raw : String) : F64 :=
  let cleaned := raw.toList.filter fun c => !(['₹', ',', ' '].contains c)
  let cleaned := removePair 'D' 'R' (removePair 'C' 'R' (u.toUppercase cleaned))
  (((F64.parse (trim cleaned)).map fl).getD (.finite 0)).abs

def isBlank (s : String) : Bool := (trim s.toList).isEmpty

def trimmed (s : String) : String := String.ofList (trim s.toList)

/-- The amount of a row is that of the credit column only where the other cell is blank. -/
def rowAmount (cols : TallyColumns) (row : List String) : F64 :=
  let rawAmt := tallyCell row cols.amount
  if !isBlank rawAmt then tallyAmount u fl rawAmt
  else tallyAmount u fl (tallyCell row cols.credit)

def tallyVoucher (cols : TallyColumns) (row : List String) : Option TallyVoucher :=
  let rawDate := tallyCell row (some cols.date)
  let rawNarr := tallyCell row (some cols.narration)
  if isBlank rawDate then none
  else
    let amount := rowAmount u fl cols row
    if amount.le (.finite 0) && isBlank rawNarr then none
    else
      some {
        date := trimmed rawDate
        amount
        narration := trimmed rawNarr
        voucherNo := trimmed (tallyCell row cols.voucher)
        voucherType := trimmed (tallyCell row cols.type)
        ledger := trimmed (tallyCell row cols.ledger) }

/-- The first row of the grid is the header. -/
def parseTallyGrid (rows : List (List String)) : List TallyVoucher :=
  if rows.length < 2 then []
  else
    match tallyColumns u (rows.headD []) with
    | none => []
    | some cols => rows.tail.filterMap (tallyVoucher u fl cols)

end

/-! ## The report -/

def MatchStatus.asStr : MatchStatus → String
  | matched => "Matched"
  | likely => "Likely"
  | possible => "Possible"
  | unmatched => "Unmatched"

def csvField (s : String) : String :=
  "\"" ++ String.ofList (s.toList.flatMap fun c => if c = '"' then ['"', '"'] else [c]) ++ "\""

def csvLine (fields : List String) : String := ",".intercalate (fields.map csvField)

def reportHeader : String :=
  "Match Status,Bank Date,Bank Amount,Bank Narration,Voucher Date,Voucher Amount," ++
    "Voucher Narration,Voucher No,Confidence"

/-- The score in per cent, without digits after the point. -/
def confidence (fl : F64 → F64) (score : F64) : String :=
  F64.fixed 0 (fl (score.mul (.finite 100))) ++ "%"

def matchedLine (fl : F64 → F64) (m : MatchPair) (b : BankEntry) (v : Voucher) : String :=
  csvLine [m.status.asStr, b.date, F64.fixed 2 b.amount, b.narration, v.date,
    F64.fixed 2 v.amount, v.narration, v.voucherNo, confidence fl m.score]

def unmatchedBankLine (b : BankEntry) : String :=
  csvLine ["UNMATCHED-BANK", b.date, F64.fixed 2 b.amount, b.narration, "", "", "", "", "0%"]

def unmatchedVoucherLine (v : Voucher) : String :=
  csvLine ["MISSING-IN-BANK", "", "", "", v.date, F64.fixed 2 v.amount, v.narration, v.voucherNo,
    "0%"]

/-- `report_to_csv`, or nothing where it indexes out of bounds. -/
def reportToCsv (fl : F64 → F64) (bank : List BankEntry) (vouchers : List Voucher)
    (report : ReconReport) : Option String := do
  let pairs ← report.pairs.mapM fun m => do
    let b ← bank[m.bankIdx]?
    let v ← vouchers[m.voucherIdx]?
    return matchedLine fl m b v
  let unmatchedBank ← report.unmatchedBank.mapM fun bi => (bank[bi]?).map unmatchedBankLine
  let unmatchedVouchers ←
    report.unmatchedVouchers.mapM fun vi => (vouchers[vi]?).map unmatchedVoucherLine
  return "\n".intercalate ([reportHeader] ++ pairs ++ unmatchedBank ++ unmatchedVouchers)

end Desktop
