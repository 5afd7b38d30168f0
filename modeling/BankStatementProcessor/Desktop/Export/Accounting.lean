import BankStatementProcessor.Desktop.Export.Tally

/-!
# The accounting exports

The files for Zoho Books, QuickBooks, Odoo and the generic CSV. A row is kept as its cells.
-/

namespace Desktop.Export

open Infra

structure AccountingOpts where
  company : String
  currency : String
  bankLedger : String
  dateFrom : Option String
  dateTo : Option String
  includeOb : Bool
  includeGst : Bool
  includeLedgers : Bool
  includeNarrations : Bool
  onlyClassified : Bool
  skipLowConf : Bool
  skipDuplicates : Bool
deriving DecidableEq, Repr

/-- The options of the Tally export, which `generate` hands on. -/
def AccountingOpts.toTallyOpts (opts : AccountingOpts) : TallyOpts where
  company := opts.company
  bankLedger := opts.bankLedger
  dateFrom := opts.dateFrom
  dateTo := opts.dateTo
  onlyClassified := opts.onlyClassified
  includeLedgers := opts.includeLedgers
  includeNarrations := opts.includeNarrations
  includeOb := opts.includeOb
  skipLowConf := opts.skipLowConf
  skipDuplicates := opts.skipDuplicates

/-- `YYYY-MM-DD`, as in the Tally export. -/
def dateToIso (s : String) : String := toIsoDate s

/-- `MM/DD/YYYY`. -/
def dateToUs (s : String) : String :=
  match dateParts s with
  | some (d, m, y) => String.ofList (m ++ '/' :: d ++ '/' :: y)
  | none => s

/-- A date that is missing is in every range, unlike in the Tally export. -/
def inDateRange (date : String) (dateFrom dateTo : Option String) : Bool :=
  date.isEmpty || (!dateFrom.any (dateToIso date < ·) && !dateTo.any (· < dateToIso date))

def filterTxns (txns : List Transaction) (opts : AccountingOpts) : List Transaction :=
  txns.filter fun t => !t.isOpeningBalance && inDateRange t.date opts.dateFrom opts.dateTo &&
    passesReview opts.onlyClassified opts.skipLowConf opts.skipDuplicates t

/-- The type of the voucher. A credit alone decides here, and no narration. -/
def vt (t : Transaction) : String :=
  match t.txnType with
  | .receipt => "Receipt"
  | .payment => "Payment"
  | .contra => "Contra"
  | _ => if t.credit.isSome then "Receipt" else "Payment"

/-! ## The double-entry files -/

/-- The debit and the credit of the bank line and of the line it is posted to. -/
structure DoubleEntry where
  bankDr : F64
  bankCr : F64
  postingDr : F64
  postingCr : F64
deriving DecidableEq, Repr

def doubleEntry (t : Transaction) : DoubleEntry :=
  if vt t = "Receipt" then
    { bankDr := amt t, bankCr := .finite 0, postingDr := .finite 0, postingCr := amt t }
  else { bankDr := .finite 0, bankCr := amt t, postingDr := amt t, postingCr := .finite 0 }

/-- `{:05}`. -/
def zfill5 (n : ℕ) : String :=
  String.ofList (List.replicate (5 - (Nat.toDigits 10 n).length) '0' ++ Nat.toDigits 10 n)

structure ZohoRow where
  journalDate : String
  journalNumber : String
  notes : String
  referenceNumber : String
  currencyCode : String
  account : String
  accountType : String
  contactName : String
  description : String
  debit : F64
  credit : F64
  tags : String
  taxName : String
  taxType : String
  taxPercentage : Option F64
deriving DecidableEq, Repr

/-- The tax of the line it is posted to. -/
def zohoTax (t : Transaction) (opts : AccountingOpts) : String × String × Option F64 :=
  match opts.includeGst, t.gstType, t.gstRate with
  | true, some gt, some rate =>
    (gt, if t.debit.isSome then "Purchase Tax" else "Sales Tax", some rate)
  | _, _, _ => ("", "", none)

def zohoRows (opts : AccountingOpts) (t : Transaction) (i : ℕ) : List ZohoRow :=
  let notes := if opts.includeNarrations then t.narration else ""
  let sides := doubleEntry t
  let tax := zohoTax t opts
  let bank : ZohoRow :=
    { journalDate := dateToIso t.date
      journalNumber := "BSP-" ++ zfill5 (i + 1)
      notes := notes
      referenceNumber := t.reference
      currencyCode := if opts.currency.isEmpty then "INR" else opts.currency
      account := opts.bankLedger
      accountType := "Bank"
      contactName := t.vendor
      description := notes
      debit := sides.bankDr
      credit := sides.bankCr
      tags := ""
      taxName := ""
      taxType := ""
      taxPercentage := none }
  [bank,
   { bank with
     account := postingLedger t
     accountType := "Expense"
     debit := sides.postingDr
     credit := sides.postingCr
     taxName := tax.1
     taxType := tax.2.1
     taxPercentage := tax.2.2 }]

def genZoho (txns : List Transaction) (opts : AccountingOpts) : List ZohoRow :=
  (filterTxns txns opts).zipIdx.flatMap fun (t, i) => zohoRows opts t i

structure QuickBooksRow where
  date : String
  journalNo : String
  memo : String
  accountName : String
  debit : F64
  credit : F64
  name : String
deriving DecidableEq, Repr

def quickBooksRows (opts : AccountingOpts) (t : Transaction) (i : ℕ) : List QuickBooksRow :=
  let sides := doubleEntry t
  let bank : QuickBooksRow :=
    { date := dateToUs t.date
      journalNo := "BSP" ++ zfill5 (i + 1)
      memo := if opts.includeNarrations then t.narration else ""
      accountName := opts.bankLedger
      debit := sides.bankDr
      credit := sides.bankCr
      name := t.vendor }
  [bank,
   { bank with
     accountName := postingLedger t
     debit := sides.postingDr
     credit := sides.postingCr }]

def genQuickbooks (txns : List Transaction) (opts : AccountingOpts) : List QuickBooksRow :=
  (filterTxns txns opts).zipIdx.flatMap fun (t, i) => quickBooksRows opts t i

structure OdooRow where
  date : String
  moveType : String
  name : String
  partner : String
  account : String
  debit : F64
  credit : F64
  narration : String
  ref : String
deriving DecidableEq, Repr

def odooRows (opts : AccountingOpts) (t : Transaction) : List OdooRow :=
  let narr := if opts.includeNarrations then t.narration else ""
  let sides := doubleEntry t
  let bank : OdooRow :=
    { date := dateToIso t.date
      moveType := "entry"
      name := narr
      partner := t.vendor
      account := opts.bankLedger
      debit := sides.bankDr
      credit := sides.bankCr
      narration := narr
      ref := t.reference }
  [bank,
   { bank with
     account := postingLedger t
     debit := sides.postingDr
     credit := sides.postingCr }]

def genOdoo (txns : List Transaction) (opts : AccountingOpts) : List OdooRow :=
  (filterTxns txns opts).flatMap (odooRows opts)

/-! ## The generic file -/

structure GenericRow where
  date : String
  narration : String
  reference : String
  voucherType : String
  debitLedger : String
  creditLedger : String
  amount : F64
  tags : String
  status : String
deriving DecidableEq, Repr

def genericRow (opts : AccountingOpts) (t : Transaction) : GenericRow :=
  let ledger := postingLedger t
  let sides := if vt t = "Receipt" then (opts.bankLedger, ledger) else (ledger, opts.bankLedger)
  { date := dateToIso t.date
    narration := t.narration
    reference := t.reference
    voucherType := vt t
    debitLedger := sides.1
    creditLedger := sides.2
    amount := amt t
    tags := "; ".intercalate t.tags
    status := t.status.display }

def genGenericCsv (txns : List Transaction) (opts : AccountingOpts) : List GenericRow :=
  (filterTxns txns opts).map (genericRow opts)

end Desktop.Export
