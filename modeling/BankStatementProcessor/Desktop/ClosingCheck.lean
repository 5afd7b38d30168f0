import BankStatementProcessor.Desktop.Export.TallyXml

/-!
# The check of the closing balance

What a statement says of its closing balance is compared with the opening balance and the totals
of its transactions: on the screen, in the CSV file and in the workbook.
-/

namespace Desktop

open Infra Desktop.Export

/-! ## Rupees on the screen -/

/-- `as u64`, which stops at its bounds. -/
def toU64 : F64 → ℕ
  | .finite q => min ⌊q⌋.toNat (2 ^ 64 - 1)
  | .infinite false => 2 ^ 64 - 1
  | _ => 0

/-- `chunks(2)`. -/
def chunks2 : List Char → List (List Char)
  | [] => []
  | [c] => [[c]]
  | c :: d :: cs => [c, d] :: chunks2 cs

/-- The last three digits, and groups of two before them. -/
def groupRupees (s : List Char) : List Char :=
  if s.length ≤ 3 then s
  else
    let first := s.take (s.length - 3)
    let odd := first.length % 2
    let groups := chunks2 (first.drop odd)
    let groups := if odd = 0 then groups else first.take odd :: groups
    [ ','].intercalate (groups ++ [s.drop (s.length - 3)])

/-- `fmt_inr` -/
def fmtInr (fl : F64 → F64) (amount : F64) : String :=
  let sign := if amount.lt (.finite 0) then "-" else ""
  let cents := toU64 (F64.round (fl (amount.abs.mul (.finite 100))))
  let paise := (toString (cents % 100)).toList
  let rupees := cents / 100
  let grouped := if rupees = 0 then [ '0'] else groupRupees (toString rupees).toList
  String.ofList (sign.toList ++ grouped ++ '.' :: zfill2 paise)

/-- `fmt_inr_dash` -/
def fmtInrDash (fl : F64 → F64) : Option F64 → String
  | none => "—"
  | some n => fmtInr fl n

example : fmtInr id (.finite (123456789 / 100)) = "12,34,567.89" := by decide +kernel
example : fmtInr id (.finite (-1000)) = "-1,000.00" := by decide +kernel

/-! ## Totals -/

def real (txns : List Transaction) : List Transaction := txns.filter fun t => !t.isOpeningBalance

def totalDr (fl : F64 → F64) (txns : List Transaction) : F64 :=
  sumF64 fl ((real txns).filterMap Transaction.debit)

def totalCr (fl : F64 → F64) (txns : List Transaction) : F64 :=
  sumF64 fl ((real txns).filterMap Transaction.credit)

/-- `ob + total_cr - total_dr`. -/
def expectedClosing (fl : F64 → F64) (txns : List Transaction) (ob : F64) : F64 :=
  fl ((fl (ob.add (totalCr fl txns))).sub (totalDr fl txns))

/-! ## The screen -/

structure ClosingCheck where
  calcClosing : String
  hasMismatch : Bool
  mismatch : String
  diffAmt : Option F64
  diff : String
deriving DecidableEq, Repr

/-- The closing check of `apply_parse_result`. -/
def closingCheck (fl : F64 → F64) (txns : List Transaction)
    (openingBalance closingBalance : Option F64) : ClosingCheck :=
  let calcClosing := openingBalance.map fun ob => (expectedClosing fl txns ob).round.divNat 1
  let hasMismatch := match closingBalance, calcClosing with
    | some stated, some calculated => (F64.finite (1 / 2)).le (fl (stated.sub calculated)).abs
    | _, _ => false
  let mismatch :=
    if hasMismatch then
      match closingBalance, calcClosing with
      | some stated, some calculated => "Diff: " ++ fmtInr fl (fl (stated.sub calculated)).abs
      | _, _ => ""
    else ""
  let diffAmt := match closingBalance, calcClosing with
    | some stated, some calculated => some (fl (stated.sub calculated)).abs
    | _, _ => none
  { calcClosing := fmtInrDash fl calcClosing, hasMismatch, mismatch, diffAmt,
    diff := fmtInrDash fl diffAmt }

/-! ## The exports -/

/-- The row `Reconciliation` of the summary in the CSV file. -/
def reconCsv (fl : F64 → F64) (txns : List Transaction) (openingBal closingBal : Option F64) :
    String :=
  let calcCl := openingBal.map fun ob => (expectedClosing fl txns ob).round.divNat 1
  match calcCl, closingBal with
  | some c, some s =>
    if (fl (c.sub s)).abs.lt (.finite (1 / 2)) then "RECONCILED"
    else "MISMATCH (diff: " ++ (fl (c.sub s)).abs.fixed 2 ++ ")"
  | _, _ => "N/A"

/-- The row `Reconciliation` of the sheet `Summary`. -/
def reconXlsx (fl : F64 → F64) (txns : List Transaction) (openingBal closingBal : Option F64) :
    String :=
  let calcCl := openingBal.map fun ob => (expectedClosing fl txns ob).round
  match calcCl, closingBal with
  | some c, some s => if (fl (c.sub s)).abs.lt (.finite (1 / 2)) then "RECONCILED" else "MISMATCH"
  | _, _ => "N/A"

end Desktop
