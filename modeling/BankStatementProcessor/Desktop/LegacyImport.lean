import BankStatementProcessor.Desktop.Loading
import BankStatementProcessor.Desktop.Parser.DateParser
import BankStatementProcessor.Desktop.Rules

/-!
# Importing the old app's data

The export of the old app is imported entity by entity: clients, rules, ledgers, known hashes,
and then each recorded import with its transactions. Every entity has a test of its own for what
is already there.

All writes succeed. The texts of the report, the settings that are imported and the moments
recorded for clients and imports are left out; none of them decides what is written.
-/

namespace Desktop

open Infra Desktop.Parser

/-! ## The tables -/

structure LedgerRow where
  id : ℕ
  clientId : ℕ
  name : String
  groupName : Option String
deriving DecidableEq, Repr

/-- `UNIQUE(client_id, name)` -/
def LedgerRow.index (l : LedgerRow) : ℕ × String := (l.clientId, l.name)

/-- The database with all tables an import of old data writes to. `createdAt` is the column
`created_at` of `transactions`, which is the moment the row was inserted. -/
structure FullDb where
  db : Db
  rules : RuleDb
  ledgers : Table LedgerRow LedgerRow.id
  dedupeHashes : List (ℕ × String)
  createdAt : ℕ × String → String
  rules_clients : rules.clients = db.clients
  clients_name : UniqueOn (fun c => some c.name) db.clients.rows
  clients_next : 0 < db.clients.nextId
  ledgers_client : ∀ l ∈ ledgers.rows, ∃ c ∈ db.clients.rows, c.id = l.clientId
  ledgers_unique : UniqueOn (fun l => some l.index) ledgers.rows
  dedupe_client : ∀ e ∈ dedupeHashes, ∃ c ∈ db.clients.rows, c.id = e.1
  dedupe_nodup : dedupeHashes.Nodup

theorem RuleDb.insertOrIgnore_clients {db db' : RuleDb} {clientId n : ℕ} {t : RuleText}
    {priority : ℤ} (h : db.insertOrIgnore clientId t priority = some (db', n)) :
    db'.clients = db.clients := by
  unfold RuleDb.insertOrIgnore at h
  split at h
  · cases h
    rfl
  · split at h
    · cases h
      rfl
    · cases h

theorem RuleDb.addRule_clients {db db' : RuleDb} {clientId : ℕ} {t : RuleText} {added : Bool}
    (h : db.addRule clientId t = some (db', added)) : db'.clients = db.clients := by
  obtain ⟨⟨db₁, n⟩, heq, hpair⟩ := Option.map_eq_some_iff.mp h
  cases hpair
  exact RuleDb.insertOrIgnore_clients heq

namespace FullDb

def getClientByName (d : FullDb) (name : String) : Option Client :=
  d.db.clients.rows.find? (fun c => c.name = name)

/-- `add_client`. It fails when the name is taken. -/
def addClient (d : FullDb) (name tallyLedger : String) : Option (FullDb × ℕ) :=
  if htaken : ∃ c ∈ d.db.clients.rows, c.name = name then none
  else
    let clients := d.db.clients.insert (fun id => ⟨id, name, tallyLedger⟩) (fun _ => rfl)
    have hmem : ∀ id, (∃ c ∈ d.db.clients.rows, c.id = id) → ∃ c ∈ clients.rows, c.id = id :=
      fun _ ⟨c, hc, hid⟩ => ⟨c, Table.mem_insert_of_mem hc, hid⟩
    some ({ d with
      db := { d.db with
        clients := clients
        importHistory_client := fun i hi => hmem _ (d.db.importHistory_client i hi)
        transactions_client := fun r hr => hmem _ (d.db.transactions_client r hr) }
      rules := { d.rules with
        clients := clients
        clients_pos := by
          intro c hc
          rcases Table.mem_insert.mp hc with hc | rfl
          · exact d.rules.clients_pos c (d.rules_clients ▸ hc)
          · exact d.clients_next
        rules_client := fun r hr => hmem _ (d.rules_clients ▸ d.rules.rules_client r hr) }
      rules_clients := rfl
      clients_name := by
        refine d.clients_name.insert ?_
        intro c hc b hb hcb
        rw [← hb, Option.some.injEq] at hcb
        exact htaken ⟨c, hc, hcb⟩
      clients_next := Nat.succ_pos _
      ledgers_client := fun l hl => hmem _ (d.ledgers_client l hl)
      dedupe_client := fun e he => hmem _ (d.dedupe_client e he) }, d.db.clients.nextId)

def addRule (d : FullDb) (clientId : ℕ) (t : RuleText) : Option (FullDb × Bool) :=
  match h : d.rules.addRule clientId t with
  | none => none
  | some (rules, added) => some ({ d with
      rules := rules
      rules_clients := (RuleDb.addRule_clients h).trans d.rules_clients }, added)

/-- `INSERT OR IGNORE INTO ledgers`, and the number of rows it inserts. -/
def insertLedger (d : FullDb) (clientId : ℕ) (entry : String × String) : Option (FullDb × ℕ) :=
  if htaken : ∃ l ∈ d.ledgers.rows, l.index = (clientId, entry.1) then some (d, 0)
  else if hclient : ∃ c ∈ d.db.clients.rows, c.id = clientId then
    some ({ d with
      ledgers := d.ledgers.insert (fun id => ⟨id, clientId, entry.1, some entry.2⟩) (fun _ => rfl)
      ledgers_client := by
        intro l hl
        rcases Table.mem_insert.mp hl with hl | rfl
        · exact d.ledgers_client l hl
        · exact hclient
      ledgers_unique := by
        refine d.ledgers_unique.insert ?_
        intro l hl b hb hlb
        rw [← hb, Option.some.injEq] at hlb
        exact htaken ⟨l, hl, hlb⟩ }, 1)
  else none

/-- `db::import_ledgers`. The entries are names and groups. -/
def importLedgers (d : FullDb) (clientId : ℕ) (entries : List (String × String)) :
    Option (FullDb × ℕ) :=
  entries.foldlM (fun (d, added) entry =>
    (d.insertLedger clientId entry).map fun (d, n) => (d, added + n)) (d, 0)

def getDedupeHashes (d : FullDb) (clientId : ℕ) : List String :=
  (d.dedupeHashes.filter fun e => e.1 = clientId).map Prod.snd

/-- `INSERT OR IGNORE INTO dedupe_hashes` -/
def insertHash (d : FullDb) (clientId : ℕ) (hash : String) : Option FullDb :=
  if hknown : (clientId, hash) ∈ d.dedupeHashes then some d
  else if hclient : ∃ c ∈ d.db.clients.rows, c.id = clientId then
    some { d with
      dedupeHashes := d.dedupeHashes ++ [(clientId, hash)]
      dedupe_client := by
        intro e he
        rcases List.mem_append.mp he with he | he
        · exact d.dedupe_client e he
        · rw [List.mem_singleton.mp he]
          exact hclient
      dedupe_nodup := d.dedupe_nodup.append (List.nodup_singleton _)
        (List.disjoint_singleton.mpr hknown) }
  else none

/-- `add_dedupe_hashes`, a transaction. -/
def addDedupeHashes (d : FullDb) (clientId : ℕ) (hashes : List String) : Option FullDb :=
  hashes.foldlM (fun d hash => d.insertHash clientId hash) d

/-- The change of a database that leaves the clients as they are. -/
def withDb (d : FullDb) (db : Db) (h : db.clients = d.db.clients) : FullDb :=
  { d with
    db := db
    rules_clients := d.rules_clients.trans h.symm
    clients_name := h ▸ d.clients_name
    clients_next := h ▸ d.clients_next
    ledgers_client := h ▸ d.ledgers_client
    dedupe_client := h ▸ d.dedupe_client }

end FullDb

theorem Db.saveImport_clients {db db' : Db} {clientId txnCount id : ℕ}
    {fileName bankName accountNo : String}
    (h : db.saveImport clientId fileName bankName accountNo txnCount = some (db', id)) :
    db'.clients = db.clients := by
  unfold Db.saveImport at h
  split at h
  · cases h
    rfl
  · cases h

theorem Db.upsertTransactions_clients {db db' : Db} {clientId n : ℕ} {importId : Option ℕ}
    {txns : List Transaction}
    (h : db.upsertTransactions clientId importId txns = some (db', n)) :
    db'.clients = db.clients := by
  obtain ⟨db₁, heq, hpair⟩ := Option.map_eq_some_iff.mp h
  cases hpair
  exact Store.insertRows_clients heq

namespace FullDb

def saveImport (d : FullDb) (clientId : ℕ) (fileName bankName accountNo : String)
    (txnCount : ℕ) : Option (FullDb × ℕ) :=
  match h : d.db.saveImport clientId fileName bankName accountNo txnCount with
  | none => none
  | some (db, id) => some (d.withDb db (Db.saveImport_clients h), id)

/-- The rows written are given the moments `writtenAt`. -/
def upsertTransactions (d : FullDb) (writtenAt : ℕ × String → String) (clientId : ℕ)
    (importId : Option ℕ) (txns : List Transaction) : Option FullDb :=
  match h : d.db.upsertTransactions clientId importId txns with
  | none => none
  | some (db, _) => some { d.withDb db (Db.upsertTransactions_clients h) with
      createdAt := fun k =>
        if k.1 = clientId ∧ k.2 ∈ txns.map Transaction.id then writtenAt k else d.createdAt k }

/-- The import of a client with a file name and a number of transactions. -/
def existingImport (d : FullDb) (clientId : ℕ) (fileName : String) (txnCount : ℤ) : Option ℕ :=
  (d.db.importHistory.rows.find? fun i =>
    i.clientId = clientId ∧ i.fileName = fileName ∧ (i.txnCount : ℤ) = txnCount).map ImportRecord.id

/-- `count_existing_transaction_ids`. A statement takes no more than `maxVariables` values. -/
def countExistingTransactionIds (maxVariables : ℕ) (d : FullDb) (clientId : ℕ)
    (ids : List String) : Option ℕ :=
  if ids.isEmpty then some 0
  else if maxVariables < ids.length + 1 then none
  else some (d.db.transactions.rows.countP fun r => r.clientId = clientId ∧ r.id ∈ ids)

end FullDb

/-! ## The export -/

structure LegacyClient where
  id : String
  name : String
  tallyLedger : String
deriving DecidableEq

structure LegacyRule where
  clientId : String
  pattern : String
  vendor : String
  accountHead : String
  txnType : String
deriving DecidableEq

structure LegacyLedger where
  clientId : String
  name : String
  group : String
deriving DecidableEq

structure LegacyDedupe where
  clientId : String
  hash : String
deriving DecidableEq

structure LegacyImportMeta where
  id : String
  clientId : String
  fileName : String
  txnCount : ℤ
deriving DecidableEq

structure LegacyTransaction where
  id : Option String
  date : String
  dateTs : Option ℤ
  narration : String
  reference : String
  debit : Option F64
  credit : Option F64
  balance : Option F64
  vendor : String
  accountHead : String
  txnType : String
  confidence : F64
  status : String
  classifiedBy : String
  tags : List String
  bankName : String
  accountNo : String
  isOpeningBalance : Bool
  systemGenerated : Bool
  dupFlag : Bool
  gstRate : Option F64
  gstAmount : Option F64
deriving DecidableEq

/-- `bsp_config`, as far as it decides what is counted. -/
inductive LegacyConfig where
  | absent
  | notAnObject
  | malformed
  | config
deriving DecidableEq

/-- The export. In a list `none` is a value that does not have the shape of its record. -/
structure LegacyExport where
  clients : List (Option LegacyClient)
  rules : List (Option LegacyRule)
  ledgers : List (Option LegacyLedger)
  dedupe : List (Option LegacyDedupe)
  history : List (Option LegacyImportMeta)
  /-- The array under `bsp_imp_<id>`. -/
  importTransactions : String → List (Option LegacyTransaction)
  config : LegacyConfig

/-- The values that have the shape of their record. -/
def wellShaped {α : Type} (values : List (Option α)) : List α := values.filterMap id

/-- What the import takes from elsewhere: the tables of Unicode, the identifier for a transaction
without one (`fast_fallback_id`), and the number of values that a statement takes. -/
structure ImportEnv where
  unicode : Unicode
  fastFallbackId : String → String → Option F64 → Option F64 → String
  maxVariables : ℕ

def mapStatus (s : String) : TransactionStatus :=
  match s with
  | "unreviewed" => .unreviewed
  | "classified" => .classified
  | "manual" => .manual
  | "suspense" => .suspense
  | _ => .unreviewed

/-- `map_voucher_type` and `voucher_from_str` are one function. -/
def mapVoucherType (s : String) : VoucherType := voucherFromStr s

def transactionFromLegacy (env : ImportEnv) (t : LegacyTransaction)
    (bankNameFallback accountNoFallback : String) : Transaction :=
  let parsedDate := normalizeTransactionDate env.unicode t.date.toList
  let legacyId := t.id.getD
    ("legacy_" ++ env.fastFallbackId t.date t.narration t.debit t.credit)
  { Transaction.new legacyId with
    date := if parsedDate.valid then parsedDate.display else t.date
    dateTs := t.dateTs.getD parsedDate.ts
    narration := t.narration
    reference := t.reference
    debit := t.debit
    credit := t.credit
    balance := t.balance
    vendor := t.vendor
    accountHead := t.accountHead
    txnType := mapVoucherType t.txnType
    confidence := t.confidence
    status := mapStatus t.status
    classificationSource := t.classifiedBy
    tags := t.tags
    bankName := if t.bankName.isEmpty then bankNameFallback else t.bankName
    accountNo := if t.accountNo.isEmpty then accountNoFallback else t.accountNo
    isOpeningBalance := t.isOpeningBalance || t.systemGenerated
    dupFlag := t.dupFlag
    gstRate := t.gstRate
    gstAmount := t.gstAmount }

namespace LegacyExport

def legacyTransactions (e : LegacyExport) (importId : String) : List LegacyTransaction :=
  wellShaped (e.importTransactions importId)

/-- The first text that is not empty. -/
def firstNonempty (texts : List String) : String := (texts.find? fun s => !s.isEmpty).getD ""

def bankFallback (e : LegacyExport) (importId : String) : String :=
  firstNonempty ((e.legacyTransactions importId).map LegacyTransaction.bankName)

def acctFallback (e : LegacyExport) (importId : String) : String :=
  firstNonempty ((e.legacyTransactions importId).map LegacyTransaction.accountNo)

/-- The transactions of an import as they are written. -/
def transactions (e : LegacyExport) (env : ImportEnv) (importId : String) : List Transaction :=
  (e.legacyTransactions importId).map fun t =>
    transactionFromLegacy env t (e.bankFallback importId) (e.acctFallback importId)

end LegacyExport

/-! ## The report -/

inductive Entity where
  | clients
  | classificationRules
  | ledgers
  | dedupeHashes
  | importHistory
  | transactions
  | settings
deriving DecidableEq, Repr

def Entity.name : Entity → String
  | clients => "clients"
  | classificationRules => "classification_rules"
  | ledgers => "ledgers"
  | dedupeHashes => "dedupe_hashes"
  | importHistory => "import_history"
  | transactions => "transactions"
  | settings => "settings"

structure EntityReport where
  found : ℕ
  imported : ℕ
  skippedDuplicate : ℕ
  failed : ℕ
deriving DecidableEq, Repr

def EntityReport.new : EntityReport := ⟨0, 0, 0, 0⟩

/-- The first entry of an entity is changed, and a new one is appended. -/
def updateEntity (k : Entity) (f : EntityReport → EntityReport) :
    List (Entity × EntityReport) → List (Entity × EntityReport)
  | [] => [(k, f .new)]
  | (k', e) :: entities =>
    if k' = k then (k', f e) :: entities else (k', e) :: updateEntity k f entities

theorem keys_updateEntity (k : Entity) (f : EntityReport → EntityReport)
    (entities : List (Entity × EntityReport)) : (updateEntity k f entities).map Prod.fst =
      if k ∈ entities.map Prod.fst then entities.map Prod.fst
      else entities.map Prod.fst ++ [k] := by
  induction entities with
  | nil => rfl
  | cons entry entities ih =>
    rw [updateEntity]
    by_cases h : entry.1 = k
    · simp [h]
    · rw [if_neg h, List.map_cons, ih]
      by_cases hk : k ∈ entities.map Prod.fst
      · simp [hk]
      · simp [hk, Ne.symm h]

/-- An entity has one entry. -/
structure MigrationReport where
  entities : List (Entity × EntityReport)
  nodup : (entities.map Prod.fst).Nodup

namespace MigrationReport

def new : MigrationReport := ⟨[], List.nodup_nil⟩

/-- A change made through `entity_mut`. -/
def entityMut (r : MigrationReport) (k : Entity) (f : EntityReport → EntityReport) :
    MigrationReport where
  entities := updateEntity k f r.entities
  nodup := by
    rw [keys_updateEntity]
    split
    · exact r.nodup
    · next hk => exact r.nodup.append (List.nodup_singleton k) (List.disjoint_singleton.mpr hk)

/-- What is reported of an entity. -/
def entity (r : MigrationReport) (k : Entity) : EntityReport := (r.entities.lookup k).getD .new

end MigrationReport

/-! ## The phases -/

/-- The new ids of the old clients, the last one entered first. -/
structure IdMap where
  clients : List (String × ℕ)

def IdMap.resolveClient (m : IdMap) (legacyClientId : String) : Option ℕ :=
  if legacyClientId = "global" then none else m.clients.lookup legacyClientId

def IdMap.isUnsupportedGlobal (legacyClientId : String) : Bool := legacyClientId = "global"

/-- The clients of a hash map are visited in some order. -/
structure IterationOrder where
  order : List ℕ → List ℕ
  perm : ∀ cs, (order cs).Perm cs

def IterationOrder.asInserted : IterationOrder := ⟨fun cs => cs, fun _ => .refl _⟩

/-- What one run of the import takes from elsewhere. -/
structure ImportRun where
  ledgerOrder : IterationOrder
  dedupeOrder : IterationOrder
  /-- When the row of a transaction is written. -/
  writtenAt : ℕ × String → String

structure ImportState where
  target : FullDb
  idMap : IdMap
  report : MigrationReport

namespace ImportState

/-- Change the counters of an entity. -/
def count (s : ImportState) (k : Entity) (f : EntityReport → EntityReport) : ImportState :=
  { s with report := s.report.entityMut k f }

end ImportState

section

variable (env : ImportEnv) (r : ImportRun) (e : LegacyExport)

def importClient (s : ImportState) (c : LegacyClient) : Option ImportState :=
  match s.target.getClientByName c.name with
  | some existing =>
    some ({ s with idMap := ⟨(c.id, existing.id) :: s.idMap.clients⟩ }.count .clients
      fun e => { e with skippedDuplicate := e.skippedDuplicate + 1 })
  | none => do
    let (target, newId) ← s.target.addClient c.name c.tallyLedger
    some ({ s with target := target, idMap := ⟨(c.id, newId) :: s.idMap.clients⟩ }.count .clients
      fun e => { e with imported := e.imported + 1 })

def importClients (s : ImportState) : Option ImportState :=
  let clients := wellShaped e.clients
  clients.foldlM importClient (s.count .clients fun e => { e with found := clients.length })

def importRule (s : ImportState) (l : LegacyRule) : Option ImportState :=
  match s.idMap.resolveClient l.clientId with
  | none =>
    some (if IdMap.isUnsupportedGlobal l.clientId then s
      else s.count .classificationRules fun e => { e with failed := e.failed + 1 })
  | some clientId => do
    let (target, added) ←
      s.target.addRule clientId ⟨l.pattern, l.vendor, l.accountHead, l.txnType⟩
    some ({ s with target := target }.count .classificationRules fun e =>
      if added then { e with imported := e.imported + 1 }
      else { e with skippedDuplicate := e.skippedDuplicate + 1 })

def importRules (s : ImportState) : Option ImportState :=
  let rules := wellShaped e.rules
  rules.foldlM importRule
    (s.count .classificationRules fun e => { e with found := rules.length })

/-- The items of the clients that are known, with the new ids. -/
def resolved {α : Type} (idMap : IdMap) (items : List (String × α)) : List (ℕ × α) :=
  items.filterMap fun (clientId, a) => (idMap.resolveClient clientId).map fun c => (c, a)

/-- `by_client`, in the order in which it is visited. -/
def byClient {α : Type} (order : IterationOrder) (items : List (ℕ × α)) : List (ℕ × List α) :=
  (order.order (items.map Prod.fst).dedup).map fun c =>
    (c, (items.filter fun item => item.1 = c).map Prod.snd)

/-- The items of clients that are neither known nor global. -/
def failedItems {α : Type} (idMap : IdMap) (items : List (String × α)) : ℕ :=
  items.countP fun item =>
    (idMap.resolveClient item.1).isNone && !IdMap.isUnsupportedGlobal item.1

def importClientLedgers (s : ImportState) (group : ℕ × List (String × String)) :
    Option ImportState := do
  let (target, added) ← s.target.importLedgers group.1 group.2
  some ({ s with target := target }.count .ledgers fun e =>
    { e with
      imported := e.imported + added
      skippedDuplicate := e.skippedDuplicate + (group.2.length - added) })

def importLedgers (s : ImportState) : Option ImportState :=
  let ledgers := (wellShaped e.ledgers).map fun l => (l.clientId, (l.name, l.group))
  (byClient r.ledgerOrder (resolved s.idMap ledgers)).foldlM importClientLedgers
    (s.count .ledgers fun e =>
      { e with found := ledgers.length, failed := e.failed + failedItems s.idMap ledgers })

def importClientHashes (s : ImportState) (group : ℕ × List String) : Option ImportState := do
  let existing := s.target.getDedupeHashes group.1
  let newCount := group.2.countP fun h => !existing.contains h
  let target ← s.target.addDedupeHashes group.1 group.2
  some ({ s with target := target }.count .dedupeHashes fun e =>
    { e with
      imported := e.imported + newCount
      skippedDuplicate := e.skippedDuplicate + (group.2.length - newCount) })

def importDedupe (s : ImportState) : Option ImportState :=
  let dedupe := (wellShaped e.dedupe).map fun d => (d.clientId, d.hash)
  (byClient r.dedupeOrder (resolved s.idMap dedupe)).foldlM importClientHashes
    (s.count .dedupeHashes fun e =>
      { e with found := dedupe.length, failed := e.failed + failedItems s.idMap dedupe })

/-- The entry that the transactions of an import are attached to, its `import_id`. -/
def importEntry (s : ImportState) (clientId : ℕ) (h : LegacyImportMeta) :
    Option (ImportState × ℕ) :=
  match s.target.existingImport clientId h.fileName h.txnCount with
  | some id =>
    some (s.count .importHistory fun e =>
      { e with skippedDuplicate := e.skippedDuplicate + 1 }, id)
  | none => do
    let (target, newId) ← s.target.saveImport clientId h.fileName (e.bankFallback h.id)
      (e.acctFallback h.id) (e.legacyTransactions h.id).length
    some ({ s with target := target }.count .importHistory fun e =>
      { e with imported := e.imported + 1 }, newId)

def importTransactions (s : ImportState) (clientId importId : ℕ) (txns : List Transaction) :
    Option ImportState := do
  let alreadyPresent ← s.target.countExistingTransactionIds env.maxVariables clientId
    (txns.map Transaction.id)
  let target ← s.target.upsertTransactions r.writtenAt clientId (some importId) txns
  some ({ s with target := target }.count .transactions fun e =>
    { e with
      imported := e.imported + (txns.length - alreadyPresent)
      skippedDuplicate := e.skippedDuplicate + alreadyPresent })

/-- One record of the import history. The state comes with the entries given to the records so
far. -/
def importRecord (s : ImportState × List (LegacyImportMeta × ℕ)) (h : LegacyImportMeta) :
    Option (ImportState × List (LegacyImportMeta × ℕ)) :=
  match s.1.idMap.resolveClient h.clientId with
  | none =>
    some (s.1.count .importHistory fun e => { e with failed := e.failed + 1 }, s.2)
  | some clientId => do
    let found := s.1.count .transactions fun c =>
      { c with found := c.found + (e.importTransactions h.id).length }
    let (entered, importId) ← importEntry e found clientId h
    let written ← importTransactions env r entered clientId importId (e.transactions env h.id)
    some (written, s.2 ++ [(h, importId)])

def importHistoryAndTransactions (s : ImportState) :
    Option (ImportState × List (LegacyImportMeta × ℕ)) :=
  let history := wellShaped e.history
  history.foldlM (importRecord env r e)
    (s.count .importHistory fun c => { c with found := history.length }, [])

/-- `import_settings`. `validate_source` has found a configuration that is no object fatal. -/
def importSettings (s : ImportState) : ImportState :=
  match e.config with
  | .notAnObject => s
  | .absent => s.count .settings fun c => { c with found := 0 }
  | .malformed => s.count .settings fun c => { c with found := 1, failed := c.failed + 1 }
  | .config => s.count .settings fun c => { c with found := 1, imported := 1 }

/-- `import_all`, into a report that is new. With the result come the entries that the records of
the import history were given. -/
def importAll (target : FullDb) : Option (ImportState × List (LegacyImportMeta × ℕ)) := do
  let s ← importClients e ⟨target, ⟨[]⟩, .new⟩
  let s ← importRules e s
  let s ← importLedgers r e s
  let s ← importDedupe r e s
  let (s, entries) ← importHistoryAndTransactions env r e s
  some (importSettings e s, entries)

end

end Desktop
