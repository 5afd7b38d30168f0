import BankStatementProcessor.Desktop.Analytics

/-!
# The Tally export

`generate` writes one voucher for each selected transaction. A voucher is kept as its fields;
an amount is the number that `{:.2}` prints.
-/

namespace Desktop.Export

open Infra

structure TallyOpts where
  company : String
  bankLedger : String
  dateFrom : Option String
  dateTo : Option String
  onlyClassified : Bool
  includeLedgers : Bool
  includeNarrations : Bool
  includeOb : Bool
  skipLowConf : Bool
  skipDuplicates : Bool
deriving DecidableEq, Repr

/-! ## Dates -/

/-- `format!("{:0>2}", self)`. -/
def zfill2 (cs : List Char) : List Char := List.replicate (2 - cs.length) '0' ++ cs

/-- `DD/MM/YYYY` as the parts of a date, if it has the shape of one. -/
def dateParts (s : String) : Option (List Char × List Char × List Char) :=
  match s.toList.splitOn '/' with
  | [d, m, y] => if len y = 4 then some (zfill2 d, zfill2 m, y) else none
  | _ => none

/-- `YYYYMMDD`. -/
def toTallyDate (s : String) : String :=
  match dateParts s with
  | some (d, m, y) => String.ofList (y ++ m ++ d)
  | none => String.ofList (s.toList.filter fun c => c != '-' && c != '/')

/-- `YYYY-MM-DD`. -/
def toIsoDate (s : String) : String :=
  match dateParts s with
  | some (d, m, y) => String.ofList (y ++ '-' :: m ++ '-' :: d)
  | none => s

/-- A date that is missing is in no range. -/
def inRange (dateStr : String) (dateFrom dateTo : Option String) : Bool :=
  !dateStr.isEmpty && !dateFrom.any (toIsoDate dateStr < ·) && !dateTo.any (· < toIsoDate dateStr)

/-! ## Ledgers -/

/-- The type of the voucher, by its name. -/
def voucherType (t : Transaction) : String :=
  match t.txnType with
  | .receipt => "Receipt"
  | .contra => "Contra"
  | .payment => "Payment"
  | _ =>
    let n := toUppercase t.narration.toList
    if contains n "ATM" || contains n "CASH WDL" || contains n "CASH DEP" then "Contra"
    else if t.credit.isSome && t.debit.isNone then "Receipt"
    else "Payment"

/-- The ledger of the bank account. -/
def bankLedgerName (t : Transaction) (bankLedger : String) : String :=
  if !bankLedger.isEmpty then bankLedger
  else if !t.bankName.isEmpty then s!"{t.bankName} A/c"
  else "Bank Account"

/-- The ledger of the expense, the income or the party. -/
def postingLedger (t : Transaction) : String :=
  if !t.accountHead.isEmpty then t.accountHead
  else if !t.vendor.isEmpty then t.vendor
  else "Unclassified"

/-! ## Vouchers -/

structure LedgerEntry where
  ledgerName : String
  /-- Tally's word for a debit. Its amount is printed with a minus. -/
  isDeemedPositive : Bool
  amount : F64
deriving DecidableEq, Repr

structure Voucher where
  vchType : String
  date : String
  narration : String
  entries : List LedgerEntry
deriving DecidableEq, Repr

/-- `t.debit.or(t.credit).unwrap_or(0.0)`. -/
def amt (t : Transaction) : F64 := (t.debit.or t.credit).getD (.finite 0)

/-- The ledgers that are debited and credited. -/
def voucherSides (t : Transaction) (opts : TallyOpts) : String × String :=
  let bank := bankLedgerName t opts.bankLedger
  let ledger := postingLedger t
  match voucherType t with
  | "Receipt" => (bank, ledger)
  | "Contra" => (bank, "Cash")
  | _ => (ledger, bank)

def txnVoucher (t : Transaction) (opts : TallyOpts) : Voucher where
  vchType := voucherType t
  date := toTallyDate t.date
  narration := if opts.includeNarrations then t.narration else ""
  entries :=
    [{ ledgerName := (voucherSides t opts).1, isDeemedPositive := true, amount := amt t },
     { ledgerName := (voucherSides t opts).2, isDeemedPositive := false, amount := amt t }]

/-- The double written `0.4`. -/
def lowConfidence : F64 := .finite (mkRat 3602879701896397 9007199254740992)

/-- The options that select by what the classifier said. -/
def passesReview (onlyClassified skipLowConf skipDuplicates : Bool) (t : Transaction) : Bool :=
  (!onlyClassified || (t.status != .unreviewed && t.status != .suspense)) &&
    (!skipLowConf || lowConfidence.le t.confidence) && (!skipDuplicates || !t.dupFlag)

/-- The transactions `generate` writes. -/
def tallySelected (txns : List Transaction) (opts : TallyOpts) : List Transaction :=
  txns.filter fun t => !t.isOpeningBalance && inRange t.date opts.dateFrom opts.dateTo &&
    passesReview opts.onlyClassified opts.skipLowConf opts.skipDuplicates t

/-- The transaction vouchers of `generate`. -/
def tallyVouchers (txns : List Transaction) (opts : TallyOpts) : List Voucher :=
  (tallySelected txns opts).map (txnVoucher · opts)

end Desktop.Export
