import BankStatementProcessor.Desktop.ImportHistory
import BankStatementProcessor.Desktop.LegacyImport

/-!
# The data of the clients

The statements of `db` on the tables that hold the data of a client, and the deletion of a client
with everything that is its own. Foreign keys are on, and the tables refer to `clients` with
`ON DELETE CASCADE`; only `transactions.import_id` has no rule for a deletion.
-/

namespace Infra

/-- `DELETE`, which leaves the rows that `p` holds of. -/
def Keyed.keep {α κ : Type*} {key : α → κ} (t : Keyed α key) (p : α → Bool) : Keyed α key where
  rows := t.rows.filter p
  nodup := (List.filter_sublist.map key).nodup t.nodup

end Infra

namespace Desktop

open Infra

/-! ## Clients -/

namespace FullDb

/-- What `update_client` makes of the row. -/
def renamed (name tallyLedger : String) (c : Client) : Client :=
  { c with name := name, tallyLedger := tallyLedger }

theorem rules_index_unique (d : FullDb) :
    UniqueOn (fun r => some r.index) d.rules.rules.rows := d.rules.rules_unique

/-- `update_client`. It fails when another client has the name. -/
def updateClient (d : FullDb) (id : ℕ) (name tallyLedger : String) : Option FullDb :=
  if htaken : (∃ c ∈ d.db.clients.rows, c.id = id) ∧
      ∃ c ∈ d.db.clients.rows, c.name = name ∧ c.id ≠ id then none
  else
    let clients := d.db.clients.modify id (renamed name tallyLedger) (fun _ => rfl)
    have hmem : ∀ k, (∃ c ∈ d.db.clients.rows, c.id = k) → ∃ c ∈ clients.rows, c.id = k :=
      fun _ => Table.exists_key_modify
    some { d with
      db := { d.db with
        clients := clients
        importHistory_client := fun i hi => hmem _ (d.db.importHistory_client i hi)
        transactions_client := fun r hr => hmem _ (d.db.transactions_client r hr) }
      rules := { d.rules with
        clients := clients
        clients_pos := by
          intro c hc
          obtain ⟨c₀, hc₀, rfl⟩ := Table.mem_modify.mp hc
          have hpos := d.rules.clients_pos c₀ (d.rules_clients ▸ hc₀)
          split
          · exact hpos
          · exact hpos
        rules_client := fun r hr => hmem _ (d.rules_clients ▸ d.rules.rules_client r hr)
        rules_unique := d.rules_index_unique }
      rules_clients := rfl
      clients_name := by
        change UniqueOn _ (d.db.clients.modify id (renamed name tallyLedger) fun _ => rfl).rows
        refine d.clients_name.modify_of_free fun c hc c' hc' hid hne b hb hb' => htaken ?_
        cases hb
        cases hb'
        exact ⟨⟨c, hc, hid⟩, c', hc', rfl, hne⟩
      ledgers_client := fun l hl => hmem _ (d.ledgers_client l hl)
      dedupe_client := fun e he => hmem _ (d.dedupe_client e he) }

/-- `delete_client`, with what goes with it. A transaction of another client is in the way if it
refers to an import of this one. -/
def deleteClient (d : FullDb) (id : ℕ) : Option FullDb :=
  if hheld : ∃ r ∈ d.db.transactions.rows, r.clientId ≠ id ∧
      ∃ i ∈ d.db.importHistory.rows, i.clientId = id ∧ r.importId = some i.id then none
  else
    let clients := d.db.clients.keep (fun c => c.id ≠ id)
    have hmem : ∀ k, k ≠ id → (∃ c ∈ d.db.clients.rows, c.id = k) → ∃ c ∈ clients.rows, c.id = k :=
      fun _ hne ⟨c, hc, hk⟩ => ⟨c, List.mem_filter.mpr ⟨hc, by simpa [hk] using hne⟩, hk⟩
    some { d with
      db := { d.db with
        clients := clients
        importHistory := d.db.importHistory.keep (fun i => i.clientId ≠ id)
        transactions := d.db.transactions.keep (fun r => r.clientId ≠ id)
        importHistory_client := by
          intro i hi
          obtain ⟨hi, hne⟩ := List.mem_filter.mp hi
          exact hmem _ (of_decide_eq_true hne) (d.db.importHistory_client i hi)
        transactions_client := by
          intro r hr
          obtain ⟨hr, hne⟩ := List.mem_filter.mp hr
          exact hmem _ (of_decide_eq_true hne) (d.db.transactions_client r hr)
        transactions_import := by
          intro r hr k hk
          obtain ⟨hr, hne⟩ := List.mem_filter.mp hr
          obtain ⟨i, hi, rfl⟩ := d.db.transactions_import r hr k hk
          refine ⟨i, List.mem_filter.mpr ⟨hi, decide_eq_true fun howner => ?_⟩, rfl⟩
          exact hheld ⟨r, hr, of_decide_eq_true hne, i, hi, howner, hk⟩ }
      rules := { d.rules with
        clients := clients
        rules := d.rules.rules.keep (fun r => r.clientId ≠ id)
        clients_pos := fun c hc =>
          d.rules.clients_pos c (d.rules_clients ▸ List.mem_of_mem_filter hc)
        rules_client := by
          intro r hr
          obtain ⟨hr, hne⟩ := List.mem_filter.mp hr
          exact hmem _ (of_decide_eq_true hne) (d.rules_clients ▸ d.rules.rules_client r hr)
        rules_unique := d.rules.rules_unique.keep _ }
      rules_clients := rfl
      ledgers := d.ledgers.keep (fun l => l.clientId ≠ id)
      dedupeHashes := d.dedupeHashes.filter (fun e => e.1 ≠ id)
      clients_name := d.clients_name.keep _
      ledgers_client := by
        intro l hl
        obtain ⟨hl, hne⟩ := List.mem_filter.mp hl
        exact hmem _ (of_decide_eq_true hne) (d.ledgers_client l hl)
      ledgers_unique := d.ledgers_unique.keep _
      dedupe_client := by
        intro e he
        obtain ⟨he, hne⟩ := List.mem_filter.mp he
        exact hmem _ (of_decide_eq_true hne) (d.dedupe_client e he)
      dedupe_nodup := d.dedupe_nodup.filter _ }

end FullDb

/-! ## Transactions -/

/-- What `update_dup_flags` makes of the row. -/
def TransactionRow.flagged (dupFlag : Bool) (r : TransactionRow) : TransactionRow :=
  { r with dupFlag := dupFlag }

theorem TransactionRow.flagged_key (dupFlag : Bool) (r : TransactionRow) :
    (r.flagged dupFlag).key = r.key := rfl

namespace Db

/-- `delete_transactions_for_client`. -/
def deleteTransactionsForClient (db : Db) (clientId : ℕ) : Db :=
  { db with
    transactions := db.transactions.keep (fun r => r.clientId ≠ clientId)
    transactions_client := fun r hr => db.transactions_client r (List.mem_of_mem_filter hr)
    transactions_import := fun r hr => db.transactions_import r (List.mem_of_mem_filter hr) }

/-- `UPDATE transactions SET dup_flag` of one row. -/
def setDupFlag (db : Db) (clientId : ℕ) (t : Transaction) : Db :=
  { db with
    transactions := db.transactions.update (clientId, t.id) (TransactionRow.flagged t.dupFlag)
      (TransactionRow.flagged_key t.dupFlag)
    transactions_client := by
      intro r hr
      obtain ⟨r₀, hr₀, rfl⟩ := Keyed.mem_update.mp hr
      obtain ⟨c, hc, hid⟩ := db.transactions_client r₀ hr₀
      refine ⟨c, hc, hid.trans ?_⟩
      split <;> rfl
    transactions_import := by
      intro r hr
      obtain ⟨r₀, hr₀, rfl⟩ := Keyed.mem_update.mp hr
      have himport := db.transactions_import r₀ hr₀
      split
      · exact himport
      · exact himport }

/-- `update_dup_flags`. -/
def updateDupFlags (db : Db) (clientId : ℕ) (txns : List Transaction) : Db :=
  txns.foldl (fun db t => db.setDupFlag clientId t) db

theorem updateDupFlags_clients (db : Db) (clientId : ℕ) (txns : List Transaction) :
    (db.updateDupFlags clientId txns).clients = db.clients := by
  induction txns generalizing db with
  | nil => rfl
  | cons t txns ih => exact ih (db.setDupFlag clientId t)

theorem deleteImport_clients {db db' : Db} {importId : ℕ}
    (h : db.deleteImport importId = some db') : db'.clients = db.clients :=
  (deleteImport_eq_some h).2.1

end Db

/-! ## Rules -/

namespace RuleDb

/-- `delete_rule`. -/
def deleteRule (db : RuleDb) (ruleId : ℕ) : RuleDb :=
  { db with
    rules := db.rules.keep (fun r => r.id ≠ ruleId)
    rules_client := fun r hr => db.rules_client r (List.mem_of_mem_filter hr)
    rules_unique := db.rules_unique.keep _ }

theorem insertCaptured_clients {clientId : ℕ} {fails : ℕ → Bool} {ts : List RuleText}
    {n count : ℕ} {db : RuleDb} :
    (insertCaptured clientId fails ts n db count).1.clients = db.clients := by
  induction ts generalizing n db count with
  | nil => rfl
  | cons t ts ih =>
    rw [insertCaptured]
    split
    · exact ih
    · split
      · rfl
      · split
        · rfl
        · next db₁ inserted heq => exact ih.trans (insertOrIgnore_clients heq)

theorem importRulesJson_clients (db : RuleDb) (clientId : ℕ) (json : String)
    (faults : WriteFaults) : (db.importRulesJson clientId json faults).1.clients = db.clients := by
  unfold importRulesJson
  split
  · rfl
  · split
    · rfl
    · exact insertCaptured_clients

end RuleDb

/-! ## The store -/

/-- `audit_log` names clients but does not refer to them. -/
structure ClientStore where
  data : FullDb
  auditLog : List (ℕ × String)

inductive DbOp where
  | addClient (name tallyLedger : String)
  | updateClient (id : ℕ) (name tallyLedger : String)
  | deleteClient (id : ℕ)
  | upsertTransactions (writtenAt : ℕ × String → String) (clientId : ℕ) (importId : Option ℕ)
      (txns : List Transaction)
  | deleteTransactionsForClient (clientId : ℕ)
  | upsertTransactionClassification (u : ClassificationUpdate)
  | updateDupFlags (clientId : ℕ) (txns : List Transaction)
  | deleteTransaction (clientId : ℕ) (txnId : String)
  | saveImport (clientId : ℕ) (fileName bankName accountNo : String) (txnCount : ℕ)
  | deleteImport (importId : ℕ)
  | addRule (clientId : ℕ) (t : RuleText)
  | deleteRule (ruleId : ℕ)
  | importRulesJson (clientId : ℕ) (json : String) (faults : WriteFaults)
  | importLedgers (clientId : ℕ) (entries : List (String × String))
  | addDedupeHashes (clientId : ℕ) (hashes : List String)
  | resetDedupeHashes (clientId : ℕ)
  | pushAuditEvent (clientId : ℕ) (event : String)
  | clearAuditEvents (clientId : ℕ)
  | clearAllAuditEvents

namespace FullDb

def withRules (d : FullDb) (rules : RuleDb) (h : rules.clients = d.rules.clients) : FullDb :=
  { d with
    rules := rules
    rules_clients := h.trans d.rules_clients }

def deleteImport (d : FullDb) (importId : ℕ) : Option FullDb :=
  match h : d.db.deleteImport importId with
  | none => none
  | some db => some (d.withDb db (Db.deleteImport_clients h))

/-- `reset_dedupe_hashes`. -/
def resetDedupeHashes (d : FullDb) (clientId : ℕ) : FullDb :=
  { d with
    dedupeHashes := d.dedupeHashes.filter (fun e => e.1 ≠ clientId)
    dedupe_client := fun e he => d.dedupe_client e (List.mem_of_mem_filter he)
    dedupe_nodup := d.dedupe_nodup.filter _ }

theorem upsertTransactionClassification_clients (d : FullDb) (u : ClassificationUpdate) :
    (d.db.upsertTransactionClassification u).clients = d.db.clients := rfl

/-- The statements on the tables that refer to `clients`. One that fails has written nothing. -/
def exec (d : FullDb) : DbOp → Option FullDb
  | .addClient name tallyLedger => (d.addClient name tallyLedger).map Prod.fst
  | .updateClient id name tallyLedger => d.updateClient id name tallyLedger
  | .deleteClient id => d.deleteClient id
  | .upsertTransactions writtenAt clientId importId txns =>
    d.upsertTransactions writtenAt clientId importId txns
  | .deleteTransactionsForClient clientId =>
    some (d.withDb (d.db.deleteTransactionsForClient clientId) rfl)
  | .upsertTransactionClassification u =>
    some (d.withDb (d.db.upsertTransactionClassification u)
      (d.upsertTransactionClassification_clients u))
  | .updateDupFlags clientId txns =>
    some (d.withDb (d.db.updateDupFlags clientId txns) (d.db.updateDupFlags_clients clientId txns))
  | .deleteTransaction clientId txnId =>
    some (d.withDb (d.db.deleteTransaction clientId txnId) rfl)
  | .saveImport clientId fileName bankName accountNo txnCount =>
    (d.saveImport clientId fileName bankName accountNo txnCount).map Prod.fst
  | .deleteImport importId => d.deleteImport importId
  | .addRule clientId t => (d.addRule clientId t).map Prod.fst
  | .deleteRule ruleId => some (d.withRules (d.rules.deleteRule ruleId) rfl)
  | .importRulesJson clientId json faults =>
    some (d.withRules (d.rules.importRulesJson clientId json faults).1
      (d.rules.importRulesJson_clients clientId json faults))
  | .importLedgers clientId entries => (d.importLedgers clientId entries).map Prod.fst
  | .addDedupeHashes clientId hashes => d.addDedupeHashes clientId hashes
  | .resetDedupeHashes clientId => some (d.resetDedupeHashes clientId)
  | .pushAuditEvent _ _ => some d
  | .clearAuditEvents _ => some d
  | .clearAllAuditEvents => some d

end FullDb

/-- What an operation does to `audit_log`. -/
def auditAfter (log : List (ℕ × String)) : DbOp → List (ℕ × String)
  | .pushAuditEvent clientId event => log ++ [(clientId, event)]
  | .clearAuditEvents clientId => log.filter (fun e => e.1 ≠ clientId)
  | .clearAllAuditEvents => []
  | _ => log

namespace ClientStore

def exec (s : ClientStore) (op : DbOp) : Option ClientStore :=
  (s.data.exec op).map fun data => ⟨data, auditAfter s.auditLog op⟩

def step (s : ClientStore) (op : DbOp) : ClientStore := (s.exec op).getD s

end ClientStore

end Desktop
