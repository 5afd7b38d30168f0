import BankStatementProcessor.Desktop.Analytics
import BankStatementProcessor.Infra.View
import Mathlib.Data.Int.Basic

/-!
# The transaction table

`rebuild_rows` shows the transactions that pass the filters. The callbacks of the table get
the number of the row clicked, which `visible_to_abs` turns back into an index.

A borrowed `&Transaction` is modelled as the transaction together with its index in the list
it is borrowed from.
-/

namespace Desktop

open Infra

/-! ## Dates -/

/-- The digits of `str::parse::<u32>` and `str::parse::<i32>`. -/
def parseDigits (cs : List Char) : Option ℕ :=
  if !cs.isEmpty && cs.all Char.isDigit then
    some (cs.foldl (fun n c => 10 * n + (c.toNat - '0'.toNat)) 0)
  else none

/-- `str::parse::<u32>`. -/
def parseU32 (cs : List Char) : Option ℕ :=
  (parseDigits (if cs.head? = some '+' then cs.tail else cs)).filter (· ≤ 4294967295)

/-- `str::parse::<i32>`. -/
def parseI32 (cs : List Char) : Option ℤ :=
  -- only a signed type takes a minus
  if cs.head? = some '-' then
    ((parseDigits cs.tail).filter (· ≤ 2147483648)).map (fun n => -(n : ℤ))
  else
    ((parseDigits (if cs.head? = some '+' then cs.tail else cs)).filter (· ≤ 2147483647)).map Nat.cast

theorem abs_le_of_parseI32 {cs : List Char} {n : ℤ} (h : parseI32 cs = some n) :
    |n| ≤ 2147483648 := by
  unfold parseI32 at h
  split at h
  · obtain ⟨k, hk, rfl⟩ := Option.map_eq_some_iff.mp h
    obtain ⟨j, hj, hjk⟩ := Option.bind_eq_some_iff.mp hk
    cases hjk
    have hle := of_decide_eq_true (Option.filter_eq_some_iff.mp hj).2
    rw [abs_neg, abs_of_nonneg (by omega)]
    omega
  · obtain ⟨k, hk, rfl⟩ := Option.map_eq_some_iff.mp h
    have hle := of_decide_eq_true (Option.filter_eq_some_iff.mp hk).2
    rw [abs_of_nonneg (by omega)]
    omega

structure DateYmd where
  yyyy : ℤ
  mm : ℕ
  dd : ℕ
deriving DecidableEq, Repr

/-- The order of the tuples `(yyyy, mm, dd)`. -/
def DateYmd.lt (d d' : DateYmd) : Bool :=
  d.yyyy < d'.yyyy ||
    (d.yyyy == d'.yyyy && (d.mm < d'.mm || (d.mm == d'.mm && d.dd < d'.dd)))

/-- Parse `DD/MM/YYYY`. -/
def parseDateYmd (s : String) : Option DateYmd :=
  match s.toList.splitOn '/' with
  | [d, m, y] => do
    let dd ← parseU32 d
    let mm ← parseU32 m
    let yyyy ← parseI32 y
    some { yyyy, mm, dd }
  | _ => none

/-- `td` lies before the lower bound. An empty bound or one that is no date bounds nothing. -/
def isBefore (dateFrom : String) (td : DateYmd) : Bool :=
  !dateFrom.isEmpty && (parseDateYmd dateFrom).any (fun fd => td.lt fd)

/-- `td` lies after the upper bound. -/
def isAfter (dateTo : String) (td : DateYmd) : Bool :=
  !dateTo.isEmpty && (parseDateYmd dateTo).any (fun tod => tod.lt td)

/-! ## The state of the window -/

structure UndoEntry where
  txnId : String
  vendor : String
  head : String
  txnType : VoucherType
  status : TransactionStatus
  confidence : F64
deriving DecidableEq, Repr

structure AppState where
  clientId : Option ℕ
  transactions : List Transaction
  filterStatuses : List String
  dateFrom : String
  dateTo : String
  bankFilter : String
  vendorFilter : String
  headFilter : String
  auditEvents : List String
  undoStack : List UndoEntry
deriving DecidableEq, Repr

/-! ## What is shown -/

/-- The status filter: any of the selected buckets, or none selected. -/
def matchesStatuses (statuses : List String) (t : Transaction) : Bool :=
  if statuses.isEmpty then true else statuses.any (matchStatus t)

/-- The date filter. A row whose own date is unreadable passes. -/
def inDateRange (dateFrom dateTo : String) (t : Transaction) : Bool :=
  if dateFrom.isEmpty && dateTo.isEmpty then true
  else match parseDateYmd t.date with
    | none => true
    | some td => !isBefore dateFrom td && !isAfter dateTo td

def matchesBank (bank : String) (t : Transaction) : Bool :=
  bank.isEmpty || bank == "All Banks" || t.bankName == bank

def matchesVendor (vendor : String) (t : Transaction) : Bool :=
  vendor.isEmpty || t.vendor == vendor

def matchesHead (head : String) (t : Transaction) : Bool :=
  head.isEmpty || t.accountHead == head

def applyTxnFilters (txns : List Transaction) (statuses : List String)
    (dateFrom dateTo bank vendor head : String) : List (Transaction × ℕ) :=
  txns.zipIdx
    |>.filter (fun r => !r.1.isOpeningBalance)
    |>.filter (fun r => matchesStatuses statuses r.1)
    |>.filter (fun r => inDateRange dateFrom dateTo r.1)
    |>.filter (fun r => matchesBank bank r.1)
    |>.filter (fun r => matchesVendor vendor r.1)
    |>.filter (fun r => matchesHead head r.1)

/-- The rows of the table. -/
def rebuildRows (st : AppState) : List (Transaction × ℕ) :=
  applyTxnFilters st.transactions st.filterStatuses st.dateFrom st.dateTo st.bankFilter
    st.vendorFilter st.headFilter

/-! ## From a row back to its transaction -/

/-- The loop of `visible_to_abs`; `vis` rows have been counted so far. -/
def visibleToAbs.loop (st : AppState) (visIdx : ℕ) : List (Transaction × ℕ) → ℕ → Option ℕ
  | [], _ => none
  | (t, abs) :: rest, vis =>
    if t.isOpeningBalance then loop st visIdx rest vis
    else if !matchesStatuses st.filterStatuses t then loop st visIdx rest vis
    else
      -- the end of the body, which rows with an unreadable date do not reach
      let countBank :=
        if !st.bankFilter.isEmpty && t.bankName != st.bankFilter then loop st visIdx rest vis
        else if vis = visIdx then some abs
        else loop st visIdx rest (vis + 1)
      if !st.dateFrom.isEmpty || !st.dateTo.isEmpty then
        match parseDateYmd t.date with
        | none => if vis = visIdx then some abs else loop st visIdx rest (vis + 1)
        | some td =>
          if isBefore st.dateFrom td then loop st visIdx rest vis
          else if isAfter st.dateTo td then loop st visIdx rest vis
          else countBank
      else countBank

/-- The index of the transaction in row `visIdx`. -/
def visibleToAbs (st : AppState) (visIdx : ℕ) : Option ℕ :=
  visibleToAbs.loop st visIdx st.transactions.zipIdx 0

/-! ## The callbacks -/

/-- What `upsert_transaction_classification` is given. -/
structure ClassificationUpdate where
  clientId : ℕ
  txnId : String
  vendor : String
  accountHead : String
  txnType : String
  status : String
  confidence : F64
  classificationSource : String
deriving DecidableEq, Repr

/-- The voucher type chosen in the edit form; an unknown choice keeps the old one. -/
def chosenType (typ : String) (old : VoucherType) : VoucherType :=
  match typ with
  | "Receipt" => .receipt
  | "Payment" => .payment
  | "Contra" => .contra
  | _ => old

/-- The transaction after a save, with `learn` for Save & Learn. -/
def Transaction.saved (t : Transaction) (vendor head typ : String) (learn : Bool) : Transaction :=
  { t with
    vendor := if vendor.isEmpty then t.vendor else vendor
    accountHead := if head.isEmpty then t.accountHead else head
    txnType := chosenType typ t.txnType
    status := .classified
    confidence := if learn then .finite 1 else .finite (3 / 4)
    classificationSource := "user" }

/-- Save the edit form on `transactions[abs]`. -/
def saveTxnAt (now vendor head typ : String) (learn : Bool) (st : AppState) (abs : ℕ) :
    AppState × Option ClassificationUpdate :=
  match st.transactions[abs]? with
  | none => (st, none)
  | some t =>
    let undo : UndoEntry := ⟨t.id, t.vendor, t.accountHead, t.txnType, t.status, t.confidence⟩
    let edited := t.saved vendor head typ learn
    let event := s!"[{now}] Edit Transaction — id='{edited.id}' vendor='{edited.vendor}' " ++
      s!"head='{edited.accountHead}' type='{edited.txnType.display}'"
    ({ st with
        undoStack := st.undoStack ++ [undo]
        transactions := st.transactions.set abs edited
        auditEvents := st.auditEvents ++ [event] },
      some ⟨st.clientId.getD 0, edited.id, edited.vendor, edited.accountHead,
        edited.txnType.display, edited.status.display, .finite 1, edited.classificationSource⟩)

/-- Remove `transactions[abs]`; the result names the row to delete from the database. -/
def deleteTxnAt (now : String) (st : AppState) (abs : ℕ) :
    AppState × Option (ℕ × String × String) :=
  match st.transactions[abs]? with
  | none => (st, none)
  | some t =>
    let narr := String.ofList (t.narration.toList.take 60)
    let event := s!"[{now}] Delete Transaction — id='{t.id}' narr='{narr}'"
    ({ st with
        auditEvents := st.auditEvents ++ [event]
        transactions := st.transactions.eraseIdx abs },
      st.clientId.map (fun cid => (cid, event, t.id)))

/-- Mark `transactions[abs]` as suspense. -/
def markSuspenseAt (st : AppState) (abs : ℕ) : AppState :=
  { st with transactions := st.transactions.modify abs (fun t => { t with status := .suspense }) }

def onDoSaveTxn (now : String) (st : AppState) (idx : ℕ) (vendor head typ : String)
    (learn : Bool) : AppState × Option ClassificationUpdate :=
  match visibleToAbs st idx with
  | some abs => saveTxnAt now vendor head typ learn st abs
  | none => (st, none)

def onDoDeleteTxn (now : String) (st : AppState) (idx : ℕ) :
    AppState × Option (ℕ × String × String) :=
  match visibleToAbs st idx with
  | some abs => deleteTxnAt now st abs
  | none => (st, none)

def onDoMarkSuspense (st : AppState) (idx : ℕ) : AppState :=
  match visibleToAbs st idx with
  | some abs => markSuspenseAt st abs
  | none => st

end Desktop
