import BankStatementProcessor.Desktop.Export.Accounting
import BankStatementProcessor.Desktop.Export.TallyXml

/-!
# The files of the accounting exports

The text of the CSV files and of the generic XML document, and the checks before an export.
-/

namespace Desktop.Export

open Infra

/-! ## CSV -/

/-- A cell is quoted where it holds a comma, a quote or a line feed. -/
def csvVal (v : String) : List Char :=
  if v.toList.contains ',' || v.toList.contains '"' || v.toList.contains '\n' then
    '"' :: replaceChar '"' "\"\"" v.toList ++ ['"']
  else v.toList

def csvRow (cells : List String) : List Char := [','].intercalate (cells.map csvVal)

/-- The mark of the byte order, then the rows. -/
def csvFile (rows : List (List String)) : List Char :=
  '\uFEFF' :: ['\r', '\n'].intercalate (rows.map csvRow)

def ZohoRow.header : List String :=
  ["JournalDate", "JournalNumber", "Notes", "ReferenceNumber", "CurrencyCode", "Account",
    "AccountType", "ContactName", "Description", "Debit", "Credit", "Tags", "TaxName", "TaxType",
    "TaxPercentage"]

def ZohoRow.cells (r : ZohoRow) : List String :=
  [r.journalDate, r.journalNumber, r.notes, r.referenceNumber, r.currencyCode, r.account,
    r.accountType, r.contactName, r.description, F64.fixed 2 r.debit, F64.fixed 2 r.credit, r.tags,
    r.taxName, r.taxType, (r.taxPercentage.map (F64.fixed 2)).getD ""]

def QuickBooksRow.header : List String :=
  ["Date", "JournalNo", "Memo", "AccountName", "Debit", "Credit", "Name"]

def QuickBooksRow.cells (r : QuickBooksRow) : List String :=
  [r.date, r.journalNo, r.memo, r.accountName, F64.fixed 2 r.debit, F64.fixed 2 r.credit, r.name]

def OdooRow.header : List String :=
  ["date", "move_type", "name", "partner_id/name", "account_id/code", "debit", "credit",
    "narration", "ref"]

def OdooRow.cells (r : OdooRow) : List String :=
  [r.date, r.moveType, r.name, r.partner, r.account, F64.fixed 2 r.debit, F64.fixed 2 r.credit,
    r.narration, r.ref]

def GenericRow.header : List String :=
  ["Date", "Narration", "Reference", "VoucherType", "DebitLedger", "CreditLedger", "Amount",
    "Tags", "Status"]

def GenericRow.cells (r : GenericRow) : List String :=
  [r.date, r.narration, r.reference, r.voucherType, r.debitLedger, r.creditLedger,
    F64.fixed 2 r.amount, r.tags, r.status]

/-- The text of `gen_zoho`. -/
def genZohoText (txns : List Transaction) (opts : AccountingOpts) : List Char :=
  csvFile (ZohoRow.header :: (genZoho txns opts).map ZohoRow.cells)

/-- The text of `gen_quickbooks`. -/
def genQuickbooksText (txns : List Transaction) (opts : AccountingOpts) : List Char :=
  csvFile (QuickBooksRow.header :: (genQuickbooks txns opts).map QuickBooksRow.cells)

/-- The text of `gen_odoo`. -/
def genOdooText (txns : List Transaction) (opts : AccountingOpts) : List Char :=
  csvFile (OdooRow.header :: (genOdoo txns opts).map OdooRow.cells)

/-- The text of `gen_generic_csv`. -/
def genGenericCsvText (txns : List Transaction) (opts : AccountingOpts) : List Char :=
  csvFile (GenericRow.header :: (genGenericCsv txns opts).map GenericRow.cells)

/-! ## XML -/

/-- The options that only the generic XML reads stand beside the others. -/
structure XmlOpts extends AccountingOpts where
  gstin : String
  fy : String
  stateCode : String
deriving DecidableEq, Repr

/-- One element of a transaction, on a line of its own. -/
def xmlLine (indent name : String) (content : List Char) : List Char :=
  indent.toList ++ '<' :: name.toList ++ '>' :: content ++ "</".toList ++ name.toList ++
    ">\n".toList

/-- The ledgers that are debited and credited. -/
def xmlSides (t : Transaction) (opts : AccountingOpts) : String × String :=
  if vt t = "Receipt" then (opts.bankLedger, postingLedger t)
  else (postingLedger t, opts.bankLedger)

/-- The date and the type stand as they are. -/
def xmlTransaction (opts : AccountingOpts) (t : Transaction) : List Char :=
  "    <Transaction>\n".toList ++
    xmlLine "      " "Date" (dateToIso t.date).toList ++
    xmlLine "      " "Narration" (x t.narration) ++
    xmlLine "      " "Reference" (x t.reference) ++
    xmlLine "      " "VoucherType" (vt t).toList ++
    xmlLine "      " "Amount" (F64.fixed 2 (amt t)).toList ++
    xmlLine "      " "DebitLedger" (x (xmlSides t opts).1) ++
    xmlLine "      " "CreditLedger" (x (xmlSides t opts).2) ++
    xmlLine "      " "Vendor" (x t.vendor) ++
    xmlLine "      " "Status" (x t.status.display) ++
    "    </Transaction>\n".toList

/-- The document of the transactions selected. -/
def xmlDocument (opts : XmlOpts) (filtered : List Transaction) : List Char :=
  "<?xml version=\"1.0\" encoding=\"UTF-8\"?>\n".toList ++
    "<BankStatementExport>\n".toList ++
    xmlLine "  " "Company" (x opts.company) ++
    xmlLine "  " "GSTIN" (x opts.gstin) ++
    xmlLine "  " "FinancialYear" (x opts.fy) ++
    xmlLine "  " "StateCode" (x opts.stateCode) ++
    xmlLine "  " "BankLedger" (x opts.bankLedger) ++
    "  <Transactions>\n".toList ++
    filtered.flatMap (xmlTransaction opts.toAccountingOpts) ++
    "  </Transactions>\n</BankStatementExport>\n".toList

def genGenericXml (txns : List Transaction) (opts : XmlOpts) : List Char :=
  xmlDocument opts (filterTxns txns opts.toAccountingOpts)

/-! ## Checks -/

/-- The transactions `generate()` is said to write. -/
def filteredCount (txns : List Transaction) (opts : AccountingOpts) : ℕ :=
  (filterTxns txns opts).length

structure ExportValidation where
  errors : List String
  warnings : List String
deriving DecidableEq, Repr

/-- A message about some of the transactions, if there are any. -/
def message (n : ℕ) (text : String) : List String := if 0 < n then [s!"{n} {text}"] else []

/-- What is found wrong with `filtered`. -/
def validationOf (fl : F64 → F64) (opts : AccountingOpts) (filtered : List Transaction) :
    ExportValidation :=
  let selfPosted := filtered.countP fun t =>
    !opts.bankLedger.isEmpty && postingLedger t = opts.bankLedger
  let badDate := filtered.countP fun t =>
    t.date.isEmpty || (t.date.toList.splitOn '/').length != 3
  let zeroAmt := filtered.countP fun t => (amt t).le (.finite 0)
  let unclassified := filtered.countP fun t => postingLedger t = "Unclassified"
  let lowConf := filtered.countP fun t =>
    (F64.finite 0).lt t.confidence && t.confidence.lt lowConfidence
  let flaggedDup := filtered.countP fun t => t.dupFlag
  let gstTxns := filtered.filter fun t => t.tags.any fun g => g = "GST" || g = "TAX"
  let gstAmountTotal := sumF64 fl (gstTxns.filterMap Transaction.gstAmount)
  { errors :=
      (if filtered.isEmpty then ["No transactions fall within the selected period/filters"]
      else []) ++
        message selfPosted "voucher(s) have identical Dr/Cr ledger — Tally will reject" ++
        message badDate "voucher(s) have missing or invalid dates"
    warnings :=
      message zeroAmt "voucher(s) have zero or negative amount" ++
        message unclassified
          "voucher(s) map to \"Unclassified\" ledger — verify in your accounting software" ++
        message lowConf
          "voucher(s) have low confidence (<40%) — ledger may be incorrect" ++
        message flaggedDup
          "voucher(s) are flagged as possible duplicates — review before import, or enable \"Skip duplicates\"" ++
        (if (F64.finite 0).lt gstAmountTotal then
          message gstTxns.length ("GST-tagged voucher(s), estimated tax ₹" ++
            F64.fixed 2 gstAmountTotal ++ " — verify CGST/SGST/IGST split")
        else
          message gstTxns.length
            "GST-tagged voucher(s) — manually verify CGST/SGST/IGST split") }

def validate (fl : F64 → F64) (txns : List Transaction) (opts : AccountingOpts) :
    ExportValidation :=
  validationOf fl opts (filterTxns txns opts)

end Desktop.Export
