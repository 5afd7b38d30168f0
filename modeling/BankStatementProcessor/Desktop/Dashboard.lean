import BankStatementProcessor.Desktop.Filters
import Mathlib.Data.List.Dedup

/-!
# The dashboard

The numbers that stand over the transactions (`analytics::compute`, `compute_filter_counts`) and
the dashboard's own filter (`analytics::filter_txns`). `fl` rounds the sums to doubles.
-/

namespace Desktop

open Infra

/-! ## The filter -/

/-- Parse `DD/MM/YYYY` into `(dd, mm, yyyy)`. -/
def parseDdMmYyyy (s : String) : Option (ℕ × ℕ × ℤ) :=
  match s.toList.splitOn '/' with
  | [d, m, y] => do
    let dd ← parseU32 d
    let mm ← parseU32 m
    let yyyy ← parseI32 y
    some (dd, mm, yyyy)
  | _ => none

/-- `(yyyy, mm, dd) < (yyyy', mm', dd')` -/
def ymdLt : ℕ × ℕ × ℤ → ℕ × ℕ × ℤ → Bool
  | (dd, mm, yyyy), (dd', mm', yyyy') =>
    yyyy < yyyy' || (yyyy == yyyy' && (mm < mm' || (mm == mm' && dd < dd')))

structure DashFilter where
  dateFrom : String
  dateTo : String
  bank : String
  vendor : String
  head : String
deriving DecidableEq, Repr

/-- The dates of the closure of `filter_txns`. -/
def DashFilter.coversDate (f : DashFilter) (t : Transaction) : Bool :=
  if !f.dateFrom.isEmpty || !f.dateTo.isEmpty then
    match parseDdMmYyyy t.date with
    | none => true
    | some d =>
      if !f.dateFrom.isEmpty && (parseDdMmYyyy f.dateFrom).any (fun fd => ymdLt d fd) then false
      else !(!f.dateTo.isEmpty && (parseDdMmYyyy f.dateTo).any (fun td => ymdLt td d))
  else true

/-- The closure of `filter_txns`. -/
def DashFilter.selects (f : DashFilter) (t : Transaction) : Bool :=
  if t.isOpeningBalance then false
  else if !f.bank.isEmpty && t.bankName != f.bank then false
  else if !f.vendor.isEmpty && t.vendor != f.vendor then false
  else if !f.head.isEmpty && t.accountHead != f.head then false
  else f.coversDate t

def filterTxns (txns : List Transaction) (f : DashFilter) : List (Transaction × ℕ) :=
  txns.zipIdx.filter fun r => f.selects r.1

/-! ## The numbers -/

structure DashSummary where
  totalCredit : F64
  totalDebit : F64
  netFlow : F64
  openingBal : Option F64
  closingBal : Option F64
  txnCount : ℕ
  vendorCount : ℕ
  suspenseCount : ℕ
  suspenseAmount : F64
  needsReviewCount : ℕ
  duplicateCount : ℕ
  gstCount : ℕ
deriving DecidableEq, Repr

/-- The summary that `compute` makes. -/
def compute (fl : F64 → F64) (txns : List Transaction) (openingBal : Option F64) : DashSummary :=
  let sum (amounts : List F64) := amounts.foldl (fun s a => fl (s.add a)) (.finite 0)
  let real := txns.filter fun t => !t.isOpeningBalance
  let totalCredit := sum (real.filterMap (·.credit))
  let totalDebit := sum (real.filterMap (·.debit))
  let suspense := real.filter fun t => t.status == .suspense
  { totalCredit
    totalDebit
    netFlow := fl (totalCredit.sub totalDebit)
    openingBal
    closingBal := real.reverse.findSome? (·.balance)
    txnCount := real.length
    vendorCount := ((real.map (·.vendor)).filter (fun v => !v.isEmpty)).dedup.length
    suspenseCount := suspense.length
    suspenseAmount := sum (suspense.map fun t => (t.debit.or t.credit).getD (.finite 0))
    needsReviewCount := real.countP effectiveNeedsReview
    duplicateCount := real.countP (·.dupFlag)
    gstCount := real.countP fun t => t.tags.any fun g => g == "GST" || g == "TAX" }

/-- All, unreviewed, suspense, high, duplicates, GST and review. -/
def computeFilterCounts (txns : List Transaction) : List ℕ :=
  let real := txns.filter fun t => !t.isOpeningBalance
  [ real.length,
    real.countP fun t => t.status == .unreviewed,
    real.countP fun t => t.status == .suspense,
    real.countP fun t => t.status == .classified && highConfidence.le t.confidence,
    real.countP (·.dupFlag),
    real.countP fun t => t.tags.any isGstTag,
    real.countP effectiveNeedsReview ]

end Desktop
