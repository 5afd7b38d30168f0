import BankStatementProcessor.Desktop.Export.Tally
import BankStatementProcessor.Infra.Display

/-!
# The document of the Tally export

`generate` joins the pieces of its document as text. Beside it stands `count_preview`, which counts
what the document will hold.
-/

namespace Desktop.Export

open Infra

/-! ## Text -/

/-- `s.replace(a, by)`. -/
def replaceChar (a : Char) (by' : String) (s : List Char) : List Char :=
  s.flatMap fun c => if c = a then by'.toList else [c]

/-- The escaping of a text. The ampersand comes first. -/
def x (s : String) : List Char :=
  replaceChar '\x27' "&apos;" (replaceChar '"' "&quot;" (replaceChar '>' "&gt;"
    (replaceChar '<' "&lt;" (replaceChar '&' "&amp;" s.toList))))

/-! ## Ledgers -/

/-- The groups that `tally_group_engine` knows. -/
inductive TallyGroup where
  | capitalAccount
  | reserves
  | loans
  | bankOd
  | sundryCreditors
  | dutiesTaxes
  | provisions
  | salesAccounts
  | directIncome
  | indirectIncome
  | purchaseAccounts
  | directExpenses
  | indirectExpenses
  | fixedAssets
  | investments
  | loansAdvances
  | sundryDebtors
  | stockInTrade
  | cashInHand
  | bankAccounts
  | deposits
deriving DecidableEq, Repr

def TallyGroup.name : TallyGroup → String
  | .capitalAccount => "Capital Account"
  | .reserves => "Reserves & Surplus"
  | .loans => "Loans (Liability)"
  | .bankOd => "Bank OD A/c"
  | .sundryCreditors => "Sundry Creditors"
  | .dutiesTaxes => "Duties & Taxes"
  | .provisions => "Provisions"
  | .salesAccounts => "Sales Accounts"
  | .directIncome => "Direct Income"
  | .indirectIncome => "Indirect Income"
  | .purchaseAccounts => "Purchase Accounts"
  | .directExpenses => "Direct Expenses"
  | .indirectExpenses => "Indirect Expenses"
  | .fixedAssets => "Fixed Assets"
  | .investments => "Investments"
  | .loansAdvances => "Loans & Advances (Asset)"
  | .sundryDebtors => "Sundry Debtors"
  | .stockInTrade => "Stock-in-Trade"
  | .cashInHand => "Cash-in-Hand"
  | .bankAccounts => "Bank Accounts"
  | .deposits => "Deposits (Asset)"

/-- `tally_group_engine::classify` without overrides, which scores the words of a ledger by a table
in the order of a hash map. -/
abbrev ClassifyGroup := String → String → Bool → F64 → TallyGroup

/-- The group of the ledger that a transaction is posted to. -/
def ledgerGroup (classify : ClassifyGroup) (fl : F64 → F64) (t : Transaction) : TallyGroup :=
  if t.accountHead.isEmpty && !t.vendor.isEmpty then
    if voucherType t = "Receipt" then .sundryDebtors else .sundryCreditors
  else
    classify (postingLedger t) t.narration t.credit.isSome
      (fl ((t.credit.getD (.finite 0)).add (t.debit.getD (.finite 0))))

/-- The ledgers of the document, each at its first use. -/
def ledgers (classify : ClassifyGroup) (fl : F64 → F64) (real : List Transaction)
    (opts : TallyOpts) : List (String × TallyGroup) :=
  real.foldl
    (fun seen t =>
      if seen.any (·.1 = postingLedger t) then seen
      else seen ++ [(postingLedger t, ledgerGroup classify fl t)])
    (if opts.bankLedger.isEmpty then [] else [(opts.bankLedger, .bankAccounts)])

def ledgerMaster (name group : String) : List Char :=
  "        <TALLYMESSAGE xmlns:UDF=\"TallyUDF\"><LEDGER NAME=\"".toList ++ x name ++
    "\" ACTION=\"Create\"><NAME>".toList ++ x name ++ "</NAME><PARENT>".toList ++ x group ++
      "</PARENT></LEDGER></TALLYMESSAGE>\n".toList

/-! ## Vouchers -/

/-- The voucher of the opening balance. -/
def obVoucher (date : String) (ob : F64) (opts : TallyOpts) : Voucher where
  vchType := "Journal"
  date := toTallyDate date
  narration := if opts.includeNarrations then "Opening Balance" else ""
  entries :=
    [{ ledgerName := opts.bankLedger, isDeemedPositive := true, amount := ob },
     { ledgerName := "Capital Account", isDeemedPositive := false, amount := ob }]

/-- It is dated like the first transaction. -/
def obVouchers (real : List Transaction) (opts : TallyOpts) (openingBal : Option F64) :
    List Voucher :=
  if opts.includeOb then
    match openingBal, real with
    | some ob, t :: _ => [obVoucher t.date ob opts]
    | _, _ => []
  else []

/-- The vouchers of `generate`. -/
def vouchers (txns : List Transaction) (opts : TallyOpts) (openingBal : Option F64) :
    List Voucher :=
  obVouchers (tallySelected txns opts) opts openingBal ++ tallyVouchers txns opts

/-- A minus is set before the amount of a debit, whatever its own sign. -/
def LedgerEntry.amountText (e : LedgerEntry) : String :=
  if e.isDeemedPositive then "-" ++ F64.fixed 2 e.amount else F64.fixed 2 e.amount

def LedgerEntry.xml (e : LedgerEntry) : List Char :=
  "<ALLLEDGERENTRIES.LIST><LEDGERNAME>".toList ++ x e.ledgerName ++
    "</LEDGERNAME><ISDEEMEDPOSITIVE>".toList ++
    (if e.isDeemedPositive then "Yes" else "No").toList ++
    "</ISDEEMEDPOSITIVE><AMOUNT>".toList ++ e.amountText.toList ++
    "</AMOUNT></ALLLEDGERENTRIES.LIST>".toList

/-- The date and the type stand as they are. -/
def Voucher.xml (v : Voucher) : List Char :=
  "        <TALLYMESSAGE xmlns:UDF=\"TallyUDF\"><VOUCHER VCHTYPE=\"".toList ++ v.vchType.toList ++
    "\" ACTION=\"Create\"><DATE>".toList ++ v.date.toList ++ "</DATE><NARRATION>".toList ++
    x v.narration ++ "</NARRATION><VOUCHERTYPENAME>".toList ++ v.vchType.toList ++
    "</VOUCHERTYPENAME>".toList ++ v.entries.flatMap LedgerEntry.xml ++
    "</VOUCHER></TALLYMESSAGE>\n".toList

/-! ## The document -/

/-- `generate`. -/
def generate (classify : ClassifyGroup) (fl : F64 → F64) (txns : List Transaction)
    (opts : TallyOpts) (openingBal : Option F64) : List Char :=
  "<?xml version=\"1.0\" encoding=\"UTF-8\"?>\n".toList ++
    "<ENVELOPE>\n  <HEADER>\n    <TALLYREQUEST>Import Data</TALLYREQUEST>\n".toList ++
    "  </HEADER>\n  <BODY>\n    <IMPORTDATA>\n      <REQUESTDESC>\n".toList ++
    "        <REPORTNAME>Vouchers</REPORTNAME>\n".toList ++
    "        <STATICVARIABLES><SVCURRENTCOMPANY>".toList ++ x opts.company ++
    "</SVCURRENTCOMPANY></STATICVARIABLES>\n".toList ++
    "      </REQUESTDESC>\n      <REQUESTDATA>\n".toList ++
    (if opts.includeLedgers then
      (ledgers classify fl (tallySelected txns opts) opts).flatMap
        fun l => ledgerMaster l.1 l.2.name
    else []) ++
    (vouchers txns opts openingBal).flatMap Voucher.xml ++
    "      </REQUESTDATA>\n    </IMPORTDATA>\n  </BODY>\n</ENVELOPE>\n".toList

/-! ## The preview -/

structure TallyPreview where
  total : ℕ
  payment : ℕ
  receipt : ℕ
  contra : ℕ
  gst : ℕ
  gstAmount : F64
  skipped : ℕ
deriving DecidableEq, Repr

/-- `iter().sum()`. -/
def sumF64 (fl : F64 → F64) (l : List F64) : F64 := l.foldl (fun s a => fl (s.add a)) (.finite 0)

/-- What the preview says of `selected`, out of `totalReal` transactions. -/
def previewOf (fl : F64 → F64) (totalReal : ℕ) (selected : List Transaction) : TallyPreview :=
  let gstTxns := selected.filter fun t => t.tags.contains "GST"
  { total := selected.length
    payment := selected.countP fun t => voucherType t = "Payment"
    receipt := selected.countP fun t => voucherType t = "Receipt"
    contra := selected.countP fun t => voucherType t = "Contra"
    gst := gstTxns.length
    gstAmount := sumF64 fl (gstTxns.filterMap Transaction.gstAmount)
    skipped := totalReal - selected.length }

/-- `count_preview`, with a filter of its own. -/
def countPreview (fl : F64 → F64) (txns : List Transaction) (opts : TallyOpts) : TallyPreview :=
  previewOf fl (txns.countP fun t => !t.isOpeningBalance) <|
    txns.filter fun t => !t.isOpeningBalance && inRange t.date opts.dateFrom opts.dateTo &&
      passesReview opts.onlyClassified opts.skipLowConf opts.skipDuplicates t

end Desktop.Export
