import BankStatementProcessor.Desktop.Loading
import BankStatementProcessor.Infra.Rounding
import BankStatementProcessor.Infra.Sheet
import BankStatementProcessor.Infra.Unicode

/-!
# The exported file, read again

`on_do_reimport_excel` looks for the columns by their names, makes a transaction of each row with
a date or a narration, and hands them to `apply_parse_result` as it does a statement.
-/

namespace Desktop

open Infra

structure SheetColumns where
  date : ℕ
  narration : ℕ
  reference : Option ℕ
  debit : Option ℕ
  credit : Option ℕ
  balance : Option ℕ
  vendor : ℕ
  head : ℕ
  type : Option ℕ
  status : Option ℕ
  tags : Option ℕ
  confidence : Option ℕ
  bank : Option ℕ
  account : Option ℕ
deriving DecidableEq, Repr

section

variable (u : Unicode)

/-- `to_string().trim()` -/
def cellText (s : String) : String := String.ofList (trim s.toList)

def lowered (s : String) : String := String.ofList (u.toLowercase s.toList)

/-- `col` -/
def sheetColumn (hdr : List String) (k : String) : Option ℕ := hdr.findIdx? (· == k)

def sheetColumns (hdr : List String) : Except String SheetColumns :=
  let col := sheetColumn hdr
  match col "date", col "narration" with
  | some date, some narration =>
    match col "vendor", col "account head" with
    | some vendor, some head =>
      .ok {
        date, narration, vendor, head
        reference := col "reference"
        debit := col "debit"
        credit := col "credit"
        balance := col "balance"
        type := col "type"
        status := col "status"
        tags := col "tags"
        confidence := col "confidence"
        bank := col "bank name"
        account := col "account no" }
    | _, _ => .error "Vendor and Account Head columns required — export from this app first"
  | _, _ => .error "Date or Narration column missing"

/-- `get` -/
def sheetCell (row : List String) (idx : Option ℕ) : String := (idx.bind (row[·]?)).getD ""

/-- `parse_amt`. A zero counts as no amount. -/
def parseAmt (s : String) : Option F64 :=
  if s.isEmpty then none
  else
    let clean := s.toList.filter fun c => c.isDigit || c == '.' || c == '-'
    ((F64.parse clean).map F64.toDouble).filter fun v => !v.eqv (.finite 0)

/-- The status for a text in lower case. -/
def readStatus (statS vendor head : String) : TransactionStatus :=
  match statS with
  | "suspense" => .suspense
  | "classified" => .classified
  | "needs_review" | "review" => .needsReview
  | _ => if vendor.isEmpty && head.isEmpty then .unreviewed else .classified

def readType (typeS : String) : VoucherType :=
  match typeS with
  | "Payment" | "payment" => .payment
  | "Receipt" | "receipt" => .receipt
  | "Contra" | "contra" => .contra
  | "Journal" | "journal" => .journal
  | _ => .payment

def readTags (tagsS : String) : List String :=
  (((tagsS.toList.splitOn ';').map trim).filter (!·.isEmpty)).map String.ofList

def readConfidence (confS : String) (status : TransactionStatus) : F64 :=
  ((F64.parse confS.toList).map F64.toDouble).getD
    (if status = .classified then .finite 1 else .finite 0)

/-- The id of the row that is read after `n` others. -/
def reimportId (n : ℕ) : String := s!"ri_{n}"

def reimportRow (cols : SheetColumns) (n : ℕ) (row : List String) : Option Transaction :=
  let narr := sheetCell row cols.narration
  let date := sheetCell row cols.date
  if narr.isEmpty && date.isEmpty then none
  else
    let vendor := sheetCell row cols.vendor
    let head := sheetCell row cols.head
    let status := readStatus (lowered u (sheetCell row cols.status)) vendor head
    some { Transaction.new (reimportId n) with
      date := date
      narration := narr
      reference := sheetCell row cols.reference
      debit := parseAmt (sheetCell row cols.debit)
      credit := parseAmt (sheetCell row cols.credit)
      balance := parseAmt (sheetCell row cols.balance)
      vendor := vendor
      accountHead := head
      txnType := readType (sheetCell row cols.type)
      status := status
      confidence := readConfidence (sheetCell row cols.confidence) status
      classificationSource := if status = .classified then "user" else ""
      tags := readTags (sheetCell row cols.tags)
      bankName := sheetCell row cols.bank
      accountNo := sheetCell row cols.account }

/-- The rows one after the other, behind those that are read. -/
def reimportRows (cols : SheetColumns) (rows : List (List String)) (txns : List Transaction) :
    List Transaction :=
  rows.foldl (fun txns row => txns ++ (reimportRow u cols txns.length row).toList) txns

/-- The transactions of the sheet, or what the toast says. -/
def parseSheet (range : List (List String)) : Except String (List Transaction) :=
  let rows := range.map (List.map cellText)
  match rows with
  | hdr :: row :: rows =>
    match sheetColumns (hdr.map (lowered u)) with
    | .error msg => .error msg
    | .ok cols =>
      let txns := reimportRows u cols (row :: rows) []
      if txns.isEmpty then .error "No transactions found in sheet" else .ok txns
  | _ => .error "Transactions sheet is empty"

/-- The rows that are read, and the store with what is left of them after the classification. -/
def onDoReimportExcel {File : Type} (lib : XlsxLibrary File) (auto : AutoClassify) (f : Faults)
    (clientId : Option ℕ) (s : Store) (fileName : String) (file : File) :
    Except String (List Transaction) × Store :=
  match parseSheet u (lib.worksheetRange file) with
  | .error msg => (.error msg, s)
  | .ok txns =>
    -- the result that is handed on names no bank and no account
    let result : StatementFile := ⟨fileName, ⟨[], "", ""⟩⟩
    (.ok txns, (applyParseResult auto f clientId s result txns).1)

end

end Desktop
