import BankStatementProcessor.Desktop.Db
import BankStatementProcessor.Desktop.Filters
import BankStatementProcessor.Infra.StateMachine
import Mathlib.Data.List.Sort

/-!
# The screen and the store

The callbacks that edit the rows of a client change the list in memory and the table
`transactions`, each in its own way; the callbacks that show other rows read them back from the
table. The rules that Save & Learn writes are another table.

All writes succeed here: an `UPDATE` or a `DELETE` that finds no row does nothing.
-/

namespace Desktop

open Infra

/-! ## Rows read back -/

def voucherFromStr (s : String) : VoucherType :=
  match s with
  | "Payment" => .payment
  | "Receipt" => .receipt
  | "Contra" => .contra
  | "Journal" => .journal
  | "Sales" => .sales
  | "Purchase" => .purchase
  | _ => .unknown

def statusFromStr (s : String) : TransactionStatus :=
  match s with
  | "classified" => .classified
  | "manual" => .manual
  | "suspense" => .suspense
  | "needs_review" => .needsReview
  | _ => .unreviewed

@[simp] theorem voucherFromStr_display (v : VoucherType) : voucherFromStr v.display = v := by
  cases v <;> rfl

@[simp] theorem statusFromStr_display (s : TransactionStatus) : statusFromStr s.display = s := by
  cases s <;> rfl

/-- The transaction `get_transactions` makes of a row. -/
def TransactionRow.read (r : TransactionRow) : Transaction where
  id := r.id
  importId := r.importId
  bankName := r.bankName
  accountNo := r.accountNo
  date := r.date
  dateTs := r.dateTs
  narration := r.narration
  reference := r.reference
  debit := r.debit
  credit := r.credit
  balance := r.balance
  prevBalance := r.prevBalance
  vendor := r.vendor
  accountHead := r.accountHead
  txnType := voucherFromStr r.txnType
  status := statusFromStr r.status
  confidence := (realColumn r.confidence).getD (.finite 0)
  classificationSource := r.classifiedBy.getD ""
  tags := r.tags
  balanceOk := r.balanceOk
  isOpeningBalance := r.isOpeningBal
  dupFlag := r.dupFlag
  gstRate := r.gstRate
  gstAmount := r.gstAmount
  gstType := r.gstType

/-- `ORDER BY date_ts ASC, rowid ASC` -/
def inDateOrder (rows : List TransactionRow) : List TransactionRow :=
  rows.insertionSort (fun r r' => r.dateTs ≤ r'.dateTs)

namespace Db

def clientRows (db : Db) (clientId : ℕ) : List TransactionRow :=
  inDateOrder (db.transactions.rows.filter (fun r => r.clientId = clientId))

def importRows (db : Db) (importId : ℕ) : List TransactionRow :=
  inDateOrder (db.transactions.rows.filter (fun r => r.importId = some importId))

def getTransactions (db : Db) (clientId : ℕ) : List Transaction :=
  (db.clientRows clientId).map TransactionRow.read

def getTransactionsForImport (db : Db) (importId : ℕ) : List Transaction :=
  (db.importRows importId).map TransactionRow.read

end Db

theorem mem_clientRows {db : Db} {c : ℕ} {r : TransactionRow} :
    r ∈ db.clientRows c ↔ r ∈ db.transactions.rows ∧ r.clientId = c := by
  rw [Db.clientRows, inDateOrder, List.mem_insertionSort, List.mem_filter, decide_eq_true_iff]

/-! ## Writes -/

/-- What `upsert_transaction_classification` makes of the row. -/
def TransactionRow.classified (u : ClassificationUpdate) (r : TransactionRow) : TransactionRow :=
  { r with
    vendor := u.vendor
    accountHead := u.accountHead
    txnType := u.txnType
    status := u.status
    confidence := realColumn (some u.confidence)
    classifiedBy := some u.classificationSource }

theorem TransactionRow.classified_key (u : ClassificationUpdate) (r : TransactionRow) :
    (r.classified u).key = r.key := rfl

namespace Db

def upsertTransactionClassification (db : Db) (u : ClassificationUpdate) : Db :=
  { db with
    transactions := db.transactions.update (u.clientId, u.txnId) (TransactionRow.classified u)
      (TransactionRow.classified_key u)
    transactions_client := by
      intro r hr
      obtain ⟨r₀, hr₀, rfl⟩ := Keyed.mem_update.mp hr
      obtain ⟨c, hc, hid⟩ := db.transactions_client r₀ hr₀
      refine ⟨c, hc, hid.trans ?_⟩
      split <;> rfl
    transactions_import := by
      intro r hr
      obtain ⟨r₀, hr₀, rfl⟩ := Keyed.mem_update.mp hr
      have himport := db.transactions_import r₀ hr₀
      split
      · exact himport
      · exact himport }

section

variable {db : Db} {u : ClassificationUpdate} {r : TransactionRow}

theorem classified_mem (hr : r ∈ db.transactions.rows) (hk : r.key = (u.clientId, u.txnId)) :
    r.classified u ∈ (db.upsertTransactionClassification u).transactions.rows :=
  Keyed.mem_update_self (TransactionRow.classified_key u) hr hk

theorem mem_upsertTransactionClassification_of_ne (hk : r.key ≠ (u.clientId, u.txnId)) :
    r ∈ (db.upsertTransactionClassification u).transactions.rows ↔ r ∈ db.transactions.rows :=
  Keyed.mem_update_of_ne (TransactionRow.classified_key u) hk

/-- An update adds no key. -/
theorem exists_key_of_mem_upsert
    (hr : r ∈ (db.upsertTransactionClassification u).transactions.rows) :
    ∃ r₀ ∈ db.transactions.rows, r₀.clientId = r.clientId ∧ r₀.id = r.id := by
  obtain ⟨r₀, hr₀, hk⟩ :=
    (Keyed.exists_key_update (TransactionRow.classified_key u)).mp ⟨r, hr, rfl⟩
  exact ⟨r₀, hr₀, Prod.mk.inj hk⟩

end

def deleteTransaction (db : Db) (clientId : ℕ) (txnId : String) : Db :=
  { db with
    transactions := db.transactions.delete (clientId, txnId)
    transactions_client := fun r hr => db.transactions_client r (Keyed.mem_delete.mp hr).1
    transactions_import := fun r hr => db.transactions_import r (Keyed.mem_delete.mp hr).1 }

end Db

/-! ## Undo -/

def Transaction.restored (t : Transaction) (entry : UndoEntry) : Transaction :=
  { t with
    vendor := entry.vendor
    accountHead := entry.head
    txnType := entry.txnType
    status := entry.status
    confidence := entry.confidence }

/-- Restore `transactions[pos]`. -/
def undoAt (now : String) (entry : UndoEntry) (st : AppState) (pos : ℕ) :
    AppState × Option ClassificationUpdate :=
  match st.transactions[pos]? with
  | none => (st, none)
  | some t =>
    let restored := t.restored entry
    let event := s!"[{now}] Undo Last Edit — id='{restored.id}' vendor='{restored.vendor}' " ++
      s!"head='{restored.accountHead}'"
    ({ st with
        transactions := st.transactions.set pos restored
        auditEvents := st.auditEvents ++ [event] },
      st.clientId.map fun cid => ⟨cid, restored.id, restored.vendor, restored.accountHead,
        restored.txnType.display, restored.status.display, restored.confidence,
        restored.classificationSource⟩)

def onDoUndoLastEdit (now : String) (st : AppState) : AppState × Option ClassificationUpdate :=
  match st.undoStack.getLast? with
  | none => (st, none)
  | some entry =>
    let st := { st with undoStack := st.undoStack.dropLast }
    match st.transactions.findIdx? (fun t => t.id == entry.txnId) with
    | none => (st, none)
    | some pos => undoAt now entry st pos

/-! ## New rows -/

/-- The form of a new row; `dr` and `cr` as `parse::<f64>` reads them. -/
structure NewRow where
  date : String
  refno : String
  narr : String
  dr : Option F64
  cr : Option F64
  vendor : String
  head : String
  typ : String
deriving DecidableEq, Repr

/-- The id of a row that is added by hand. -/
def manualId (st : AppState) : String := s!"manual-{st.transactions.length}"

def NewRow.toTransaction (n : NewRow) (id bankName accountNo : String) : Transaction :=
  { Transaction.new id with
    date := n.date
    narration := n.narr
    reference := n.refno
    debit := n.dr.filter fun v => F64.lt (.finite 0) v
    credit := n.cr.filter fun v => F64.lt (.finite 0) v
    vendor := n.vendor
    accountHead := n.head
    txnType := chosenType n.typ .unknown
    confidence := .finite 1
    status := .manual
    classificationSource := "user"
    bankName := bankName
    accountNo := accountNo }

/-- The result names the client and the row to write, if a client is selected. -/
def onDoAddTxn (now : String) (st : AppState) (bankName accountNo : String) (n : NewRow) :
    AppState × Option (ℕ × Transaction) :=
  let t := n.toTransaction (manualId st) bankName accountNo
  let event := s!"[{now}] Manual Add — date='{n.date}' narr='{n.narr}'"
  ({ st with
      transactions := st.transactions ++ [t]
      auditEvents := st.auditEvents ++ [event] },
    st.clientId.map fun cid => (cid, t))

/-! ## Edits -/

structure Screen where
  st : AppState
  /-- The bank and the account of the file last loaded. -/
  bankName : String
  accountNo : String
  db : Db

inductive EditEvent where
  | save (idx : ℕ) (vendor head typ : String) (learn : Bool)
  | undo
  | add (n : NewRow)
  | delete (idx : ℕ)
  | markSuspense (idx : ℕ)
deriving DecidableEq, Repr

namespace Screen

def persist (db : Db) : Option ClassificationUpdate → Db
  | none => db
  | some u => db.upsertTransactionClassification u

def delete (db : Db) : Option (ℕ × String × String) → Db
  | none => db
  | some (cid, _, id) => db.deleteTransaction cid id

/-- An insertion that fails leaves the table as it is. -/
def insert (db : Db) : Option (ℕ × Transaction) → Db
  | none => db
  | some (cid, t) => ((db.upsertTransactions cid none [t]).map Prod.fst).getD db

/-- One callback, with the time it writes into the audit trail. -/
def edit (s : Screen) : String × EditEvent → Screen
  | (now, .save idx vendor head typ learn) =>
    let (st, u) := onDoSaveTxn now s.st idx vendor head typ learn
    { s with st := st, db := persist s.db u }
  | (now, .undo) =>
    let (st, u) := onDoUndoLastEdit now s.st
    { s with st := st, db := persist s.db u }
  | (now, .add n) =>
    let (st, new) := onDoAddTxn now s.st s.bankName s.accountNo n
    { s with st := st, db := insert s.db new }
  | (now, .delete idx) =>
    let (st, deleted) := onDoDeleteTxn now s.st idx
    { s with st := st, db := delete s.db deleted }
  | (_, .markSuspense idx) => { s with st := onDoMarkSuspense s.st idx }

end Screen

/-! ## Other rows -/

/-- Put other rows on the screen, and clear the filters. -/
def AppState.showing (st : AppState) (txns : List Transaction) : AppState :=
  { st with
    transactions := txns
    filterStatuses := []
    dateFrom := ""
    dateTo := ""
    bankFilter := ""
    vendorFilter := ""
    headFilter := "" }

/-- A transaction as the parser made it: all that a classification sets is blank. -/
def Transaction.asParsed (t : Transaction) : Transaction :=
  { t with
    vendor := ""
    accountHead := ""
    txnType := .unknown
    confidence := .finite 0
    status := .unreviewed
    classificationSource := ""
    tags := []
    dupFlag := false
    gstRate := none
    gstAmount := none
    gstType := none }

/-- `classify_all` and `normalize_vendors`, with the number of rows they changed. Both write to
the classification of the rows in place. -/
structure AutoClassify where
  classifyAll : List Transaction → ℕ × List Transaction
  keeps : ∀ txns, (classifyAll txns).2.map Transaction.asParsed = txns.map Transaction.asParsed

theorem AutoClassify.length_eq (auto : AutoClassify) (txns : List Transaction) :
    (auto.classifyAll txns).2.length = txns.length := by
  have hlength := congrArg List.length (auto.keeps txns)
  rwa [List.length_map, List.length_map] at hlength

/-- The classification that finds nothing. -/
def AutoClassify.nothing : AutoClassify := ⟨fun txns => (0, txns), fun _ => rfl⟩

/-- `get_client_by_name`, for the name chosen in the list of clients. -/
def Db.selectedClient (db : Db) (name : String) : Option Client :=
  if name.isEmpty || name == "-- Select Client --" then none
  else db.clients.rows.find? (fun client => client.name == name)

/-- `auditEvents` is the stored audit trail of the client. -/
def onDoSelectClient (auto : AutoClassify) (auditEvents : List String) (st : AppState) (db : Db)
    (name : String) : AppState × Db :=
  match db.selectedClient name with
  | none => (st, db)
  | some client =>
    let (changed, txns) := auto.classifyAll (db.getTransactions client.id)
    ({ st.showing txns with clientId := some client.id, auditEvents := auditEvents },
      if 0 < changed then ((db.upsertTransactions client.id none txns).map Prod.fst).getD db
      else db)

def onDoLoadAll (st : AppState) (db : Db) : AppState :=
  match st.clientId with
  | none => st
  | some cid => st.showing (db.getTransactions cid)

/-- `importIds` is the import history on the screen. -/
def onDoReloadImport (importIds : List ℕ) (st : AppState) (db : Db) (idx : ℕ) : AppState :=
  match importIds[idx]? with
  | none => st
  | some importId => st.showing (db.getTransactionsForImport importId)

inductive ViewEvent where
  | save (idx : ℕ) (vendor head typ : String) (learn : Bool)
  | undo
  | selectClient (auto : AutoClassify) (auditEvents : List String) (name : String)
  | loadAll
  | reloadImport (importIds : List ℕ) (idx : ℕ)

namespace Screen

def view (s : Screen) : String × ViewEvent → Screen
  | (now, .save idx vendor head typ learn) => s.edit (now, .save idx vendor head typ learn)
  | (now, .undo) => s.edit (now, .undo)
  | (_, .selectClient auto auditEvents name) =>
    let (st, db) := onDoSelectClient auto auditEvents s.st s.db name
    { s with st := st, db := db }
  | (_, .loadAll) => { s with st := onDoLoadAll s.st s.db }
  | (_, .reloadImport importIds idx) => { s with st := onDoReloadImport importIds s.st s.db idx }

end Screen

end Desktop
