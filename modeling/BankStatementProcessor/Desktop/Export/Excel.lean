import BankStatementProcessor.Desktop.Export.Tally
import BankStatementProcessor.Infra.Sheet

/-!
# The Excel export

The sheet `Transactions` of the workbook: a header, and a row for each transaction. The three
sheets with totals are left out, as is the code that finds the group of an expense.
-/

namespace Desktop.Export

open Infra

def txnHeaders : List String :=
  ["Date", "Narration", "Reference", "Debit", "Credit", "Balance", "Vendor", "Account Head",
    "Ledger for Posting", "Expense Head", "Party Group", "Type", "Status", "Tags", "Confidence",
    "Classification Source", "Classification Reason", "Classified By", "Bank Name", "Account No"]

/-- `party_group`, for the ledger of a party only. -/
def partyGroup (t : Transaction) : String :=
  if !t.accountHead.isEmpty then ""
  else if t.vendor.isEmpty then ""
  else if t.credit.isSome && t.debit.isNone then "SDr"
  else "SCr"

/-- `classification_basis` -/
def classificationBasis (t : Transaction) : String :=
  match t.classificationSource with
  | "rule" => "Matched a saved classification rule"
  | "keyword" => "Matched a built-in keyword pattern"
  | "ai" => "Classified by AI (third-party)"
  | "user" => "Manually entered or confirmed by user"
  | _ =>
    match t.status with
    | .manual => "Manually added transaction"
    | .suspense => "Marked as suspense"
    | _ => "Not yet classified — no matching rule or keyword found"

/-- An amount that is not there leaves its cell blank. -/
def amountCell : Option F64 → SheetCell
  | none => .blank
  | some v => .number v

def txnCells (expenseHead : Transaction → String) (t : Transaction) : List SheetCell :=
  let classifiedBy := if t.classificationSource.isEmpty then "local" else t.classificationSource
  [.text t.date, .text t.narration, .text t.reference, amountCell t.debit, amountCell t.credit,
    amountCell t.balance, .text t.vendor, .text t.accountHead, .text (postingLedger t),
    .text (expenseHead t), .text (partyGroup t), .text t.txnType.display, .text t.status.display,
    .text ("; ".intercalate t.tags), .number t.confidence, .text t.classificationSource,
    .text (classificationBasis t), .text classifiedBy, .text t.bankName, .text t.accountNo]

def transactionsSheet (expenseHead : Transaction → String) (txns : List Transaction) :
    List (List SheetCell) :=
  txnHeaders.map .text ::
    (txns.filter fun t => !t.isOpeningBalance).map (txnCells expenseHead)

/-- The file, and the number of its rows. -/
def exportXlsx {File : Type} (lib : XlsxLibrary File) (expenseHead : Transaction → String)
    (txns : List Transaction) : Option (File × ℕ) :=
  (lib.save (transactionsSheet expenseHead txns)).map fun file =>
    (file, (txns.filter fun t => !t.isOpeningBalance).length)

end Desktop.Export
