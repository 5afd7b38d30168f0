import BankStatementProcessor.Desktop.RowId
import BankStatementProcessor.Infra.Table
import BankStatementProcessor.Infra.Upsert

/-!
# The desktop database

The tables an import writes to. A transaction row is keyed by client and row id, and writing
one replaces the row that has the key. The moments SQLite fills in by itself are left out.
-/

namespace Desktop

open Infra

structure Client where
  id : ℕ
  name : String
  tallyLedger : String
deriving DecidableEq, Repr

structure ImportRecord where
  id : ℕ
  clientId : ℕ
  fileName : String
  bankName : String
  accountNo : String
  txnCount : ℕ
deriving DecidableEq, Repr

/-- A row of `transactions`. `tags` stands for the JSON text of the list. -/
structure TransactionRow where
  id : String
  clientId : ℕ
  importId : Option ℕ
  bankName : String
  accountNo : String
  date : String
  dateTs : ℤ
  narration : String
  reference : String
  debit : Option F64
  credit : Option F64
  balance : Option F64
  prevBalance : Option F64
  vendor : String
  accountHead : String
  txnType : String
  status : String
  confidence : Option F64
  classifiedBy : Option String
  tags : List String
  balanceOk : Option Bool
  isOpeningBal : Bool
  dupFlag : Bool
  gstRate : Option F64
  gstAmount : Option F64
  gstType : Option String
deriving DecidableEq, Repr

/-- `PRIMARY KEY (client_id, id)` -/
def TransactionRow.key (r : TransactionRow) : ℕ × String := (r.clientId, r.id)

/-- A `REAL` column. SQLite stores a number that is not one as `NULL`. -/
def realColumn (x : Option F64) : Option F64 := x.filter (· ≠ .nan)

/-- The values `upsert_transactions` binds. -/
def Transaction.toRow (t : Transaction) (clientId : ℕ) (importId : Option ℕ) : TransactionRow where
  id := t.id
  clientId := clientId
  importId := importId
  bankName := t.bankName
  accountNo := t.accountNo
  date := t.date
  dateTs := t.dateTs
  narration := t.narration
  reference := t.reference
  debit := realColumn t.debit
  credit := realColumn t.credit
  balance := realColumn t.balance
  prevBalance := realColumn t.prevBalance
  vendor := t.vendor
  accountHead := t.accountHead
  txnType := t.txnType.display
  status := t.status.display
  confidence := realColumn (some t.confidence)
  classifiedBy := if t.classificationSource.isEmpty then none else some t.classificationSource
  tags := t.tags
  balanceOk := t.balanceOk
  isOpeningBal := t.isOpeningBalance
  dupFlag := t.dupFlag
  gstRate := realColumn t.gstRate
  gstAmount := realColumn t.gstAmount
  gstType := t.gstType

@[simp] theorem Transaction.toRow_key (t : Transaction) (clientId : ℕ) (importId : Option ℕ) :
    (t.toRow clientId importId).key = (clientId, t.id) := rfl

structure Db where
  clients : Table Client Client.id
  importHistory : Table ImportRecord ImportRecord.id
  transactions : Keyed TransactionRow TransactionRow.key
  importHistory_client : ∀ i ∈ importHistory.rows, ∃ c ∈ clients.rows, c.id = i.clientId
  transactions_client : ∀ r ∈ transactions.rows, ∃ c ∈ clients.rows, c.id = r.clientId
  transactions_import : ∀ r ∈ transactions.rows, ∀ id ∈ r.importId,
    ∃ i ∈ importHistory.rows, i.id = id

/-- Where nothing is stored, nothing refers to an import. -/
theorem noTransactions_import : ∀ r ∈ (Keyed.empty : Keyed TransactionRow TransactionRow.key).rows,
    ∀ id ∈ r.importId, ∃ i ∈ (Table.empty : Table ImportRecord ImportRecord.id).rows, i.id = id := by
  simp [Keyed.empty]

namespace Db

/-- `save_import`. It fails for a client that does not exist. -/
def saveImport (db : Db) (clientId : ℕ) (fileName bankName accountNo : String) (txnCount : ℕ) :
    Option (Db × ℕ) :=
  if h : ∃ c ∈ db.clients.rows, c.id = clientId then
    some ({ db with
      importHistory := db.importHistory.insert
        (fun id => ⟨id, clientId, fileName, bankName, accountNo, txnCount⟩) (fun _ => rfl)
      importHistory_client := by
        intro i hi
        rcases Table.mem_insert.mp hi with hi | rfl
        · exact db.importHistory_client i hi
        · exact h
      transactions_import := by
        intro r hr id hid
        obtain ⟨i, hi, hk⟩ := db.transactions_import r hr id hid
        exact ⟨i, Table.mem_insert_of_mem hi, hk⟩ },
      db.importHistory.nextId)
  else none

/-- One `INSERT OR REPLACE INTO transactions`. It fails on an unknown client or import. -/
def insertOrReplace (db : Db) (r : TransactionRow) : Option Db :=
  if h : (∃ c ∈ db.clients.rows, c.id = r.clientId) ∧
      ∀ id ∈ r.importId, ∃ i ∈ db.importHistory.rows, i.id = id then
    some { db with
      transactions := db.transactions.replace r
      transactions_client := by
        intro r' hr'
        rcases Keyed.mem_replace.mp hr' with ⟨hr', -⟩ | rfl
        · exact db.transactions_client r' hr'
        · exact h.1
      transactions_import := by
        intro r' hr'
        rcases Keyed.mem_replace.mp hr' with ⟨hr', -⟩ | rfl
        · exact db.transactions_import r' hr'
        · exact h.2 }
  else none

/-- The rows of one `upsert_transactions`, written in order until one fails. -/
def insertRows (db : Db) (rows : List TransactionRow) : Option Db :=
  rows.foldlM insertOrReplace db

/-- `upsert_transactions`: every row is written, or none is and the statement fails. -/
def upsertTransactions (db : Db) (clientId : ℕ) (importId : Option ℕ) (txns : List Transaction) :
    Option (Db × ℕ) :=
  (db.insertRows (txns.map (fun t => t.toRow clientId (importId.or t.importId)))).map
    (fun db => (db, txns.length))

end Db

/-! ## Persisting a statement -/

/-- A parsed row: the place it was found, and a transaction with the id of that place. -/
structure ParsedTransaction where
  place : RowId
  txn : Transaction
  id_eq : txn.id = place.render
deriving DecidableEq

/-- What a parser makes of a file, as far as an import stores it. -/
structure ParseResult where
  transactions : List ParsedTransaction
  bankName : String
  accountNo : String
deriving DecidableEq

namespace ParseResult

def txns (result : ParseResult) : List Transaction := result.transactions.map (·.txn)

/-- The transactions without the opening balance row. -/
def real (result : ParseResult) : List Transaction :=
  result.txns.filter (fun t => !t.isOpeningBalance)

end ParseResult

/-- The writes of `apply_parse_result`. The result names the import recorded; when writing the
transactions fails the import stays recorded. -/
def Db.persistParseResult (db : Db) (clientId : ℕ) (fileName : String) (result : ParseResult) :
    Db × Option ℕ :=
  match db.saveImport clientId fileName result.bankName result.accountNo result.real.length with
  | none => (db, none)
  | some (recorded, importId) =>
    match recorded.upsertTransactions clientId (some importId) result.txns with
    | none => (recorded, some importId)
    | some (written, _) => (written, some importId)

/-! ## What the writes do -/

namespace Db

variable {db : Db} {clientId : ℕ}

theorem saveImport_eq (fileName bankName accountNo : String) (txnCount : ℕ)
    (h : ∃ c ∈ db.clients.rows, c.id = clientId) :
    ∃ db', db.saveImport clientId fileName bankName accountNo txnCount =
        some (db', db.importHistory.nextId) ∧ db'.clients = db.clients ∧
      db'.transactions = db.transactions ∧
      db'.importHistory.nextId = db.importHistory.nextId + 1 ∧
      ∃ i ∈ db'.importHistory.rows, i.id = db.importHistory.nextId := by
  rw [saveImport, dif_pos h]
  exact ⟨_, rfl, rfl, rfl, rfl, _, Table.mem_insert.mpr (Or.inr rfl), rfl⟩

theorem insertOrReplace_eq {r : TransactionRow} (hc : ∃ c ∈ db.clients.rows, c.id = r.clientId)
    (hi : ∀ id ∈ r.importId, ∃ i ∈ db.importHistory.rows, i.id = id) :
    ∃ db', db.insertOrReplace r = some db' ∧ db'.clients = db.clients ∧
      db'.importHistory = db.importHistory ∧ db'.transactions = db.transactions.replace r := by
  rw [insertOrReplace, dif_pos ⟨hc, hi⟩]
  exact ⟨_, rfl, rfl, rfl, rfl⟩

theorem insertRows_eq (importId : ℕ) (rows : List TransactionRow)
    (hrows : ∀ r ∈ rows, r.clientId = clientId ∧ r.importId = some importId) :
    ∀ db : Db, (∃ c ∈ db.clients.rows, c.id = clientId) →
      (∃ i ∈ db.importHistory.rows, i.id = importId) →
      ∃ db', db.insertRows rows = some db' ∧ db'.clients = db.clients ∧
        db'.importHistory = db.importHistory ∧
        db'.transactions = db.transactions.replaceAll rows := by
  induction rows with
  | nil => exact fun db _ _ => ⟨db, rfl, rfl, rfl, rfl⟩
  | cons r rows ih =>
    intro db hc hi
    obtain ⟨hclient, himport⟩ := hrows r List.mem_cons_self
    obtain ⟨db₁, heq₁, hclients₁, himports₁, htxns₁⟩ :=
      db.insertOrReplace_eq (r := r) (by rwa [hclient]) (by simpa [himport] using hi)
    obtain ⟨db₂, heq₂, hclients₂, himports₂, htxns₂⟩ :=
      ih (fun r' hr' => hrows r' (List.mem_cons_of_mem _ hr')) db₁
        (by rwa [hclients₁]) (by rwa [himports₁])
    refine ⟨db₂, ?_, hclients₂.trans hclients₁, himports₂.trans himports₁, ?_⟩
    · rw [insertRows, List.foldlM_cons, heq₁]
      exact heq₂
    · rw [htxns₂, htxns₁, Keyed.replaceAll_cons]

/-- Persisting a statement of a known client writes all its rows under a new import. -/
theorem persistParseResult_eq (fileName : String) (result : ParseResult)
    (h : ∃ c ∈ db.clients.rows, c.id = clientId) :
    ∃ db', db.persistParseResult clientId fileName result =
        (db', some db.importHistory.nextId) ∧ db'.clients = db.clients ∧
      db'.importHistory.nextId = db.importHistory.nextId + 1 ∧
      db'.transactions = db.transactions.replaceAll (result.txns.map
        (fun t => t.toRow clientId (some db.importHistory.nextId))) := by
  obtain ⟨db₁, heq₁, hclients₁, htxns₁, hnext₁, himport₁⟩ :=
    db.saveImport_eq fileName result.bankName result.accountNo result.real.length h
  have hrows : ∀ r ∈ result.txns.map
      (fun t => t.toRow clientId (some db.importHistory.nextId)),
      r.clientId = clientId ∧ r.importId = some db.importHistory.nextId := by
    intro r hr
    obtain ⟨t, -, rfl⟩ := List.mem_map.mp hr
    exact ⟨rfl, rfl⟩
  obtain ⟨db₂, heq₂, hclients₂, himports₂, htxns₂⟩ :=
    insertRows_eq _ _ hrows db₁ (by rwa [hclients₁]) himport₁
  refine ⟨db₂, ?_, hclients₂.trans hclients₁, by rw [himports₂, hnext₁], by rw [htxns₂, htxns₁]⟩
  simp [persistParseResult, heq₁, upsertTransactions, heq₂]

end Db

end Desktop
