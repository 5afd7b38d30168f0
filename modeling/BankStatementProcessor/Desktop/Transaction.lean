import BankStatementProcessor.Infra.F64
import Mathlib.Data.Int.Notation

/-!
# Transactions

The row every parser produces and every screen shows.
-/

namespace Desktop

open Infra

inductive TransactionStatus where
  | unreviewed
  | classified
  | manual
  | suspense
  | needsReview
deriving DecidableEq, Repr

/-- `impl Display for TransactionStatus`. -/
def TransactionStatus.display : TransactionStatus → String
  | unreviewed => "unreviewed"
  | classified => "classified"
  | manual => "manual"
  | suspense => "suspense"
  | needsReview => "needs_review"

inductive VoucherType where
  | unknown
  | payment
  | receipt
  | contra
  | journal
  | sales
  | purchase
deriving DecidableEq, Repr

/-- `impl Display for VoucherType`. -/
def VoucherType.display : VoucherType → String
  | unknown => ""
  | payment => "Payment"
  | receipt => "Receipt"
  | contra => "Contra"
  | journal => "Journal"
  | sales => "Sales"
  | purchase => "Purchase"

/-- A single bank transaction. `date` is `DD/MM/YYYY`, `dateTs` milliseconds, 0 without one. -/
structure Transaction where
  id : String
  importId : Option ℕ
  date : String
  dateTs : ℤ
  narration : String
  reference : String
  debit : Option F64
  credit : Option F64
  balance : Option F64
  vendor : String
  accountHead : String
  txnType : VoucherType
  confidence : F64
  status : TransactionStatus
  classificationSource : String
  tags : List String
  bankName : String
  accountNo : String
  isOpeningBalance : Bool
  dupFlag : Bool
  prevBalance : Option F64
  balanceOk : Option Bool
  gstRate : Option F64
  gstAmount : Option F64
  gstType : Option String
deriving DecidableEq, Repr

/-- `Transaction::new`. -/
def Transaction.new (id : String) : Transaction where
  id := id
  importId := none
  date := ""
  dateTs := 0
  narration := ""
  reference := ""
  debit := none
  credit := none
  balance := none
  vendor := ""
  accountHead := ""
  txnType := .unknown
  confidence := .finite 0
  status := .unreviewed
  classificationSource := ""
  tags := []
  bankName := ""
  accountNo := ""
  isOpeningBalance := false
  dupFlag := false
  prevBalance := none
  balanceOk := none
  gstRate := none
  gstAmount := none
  gstType := none

end Desktop
