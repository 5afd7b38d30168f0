import BankStatementProcessor.Desktop.ClientData
import BankStatementProcessor.Desktop.LegacyMigration

/-!
# Clients do not share data

What is done for one client leaves what the tables hold of another as it is
(`client_data_is_isolated`). A client that is deleted is gone with all its rows, and no later
statement brings anything of it back (`deleted_client_is_gone`). Only an import that another
client's transactions refer to keeps a client from being deleted; as long as transactions are
stored with imports of their own client, there is none (`every_client_can_be_deleted`).
-/

namespace Desktop

open Infra

/-! ## The rows of one owner -/

section

variable {α : Type*} {owner : α → ℕ} {l : List α} {id k : ℕ}

theorem filter_owner_append {a : α} (h : owner a ≠ id) :
    (l ++ [a]).filter (fun r => decide (owner r = id)) =
      l.filter fun r => decide (owner r = id) := by
  simp [h]

/-- Rows of other owners may have been deleted before. -/
theorem filter_owner_filter {p : α → Bool} (h : ∀ r ∈ l, owner r = id → p r = true) :
    (l.filter p).filter (fun r => decide (owner r = id)) =
      l.filter fun r => decide (owner r = id) := by
  rw [List.filter_filter]
  refine List.filter_congr fun r hr => ?_
  by_cases howner : owner r = id
  · simp [howner, h r hr howner]
  · simp [howner]

theorem filter_owner_filter_ne (h : id ≠ k) :
    (l.filter fun r => decide (owner r ≠ k)).filter (fun r => decide (owner r = id)) =
      l.filter fun r => decide (owner r = id) :=
  filter_owner_filter fun _ _ howner => decide_eq_true (howner.trans_ne h)

/-- Rows of other owners may have been changed. -/
theorem filter_owner_map {f : α → α} (howner : ∀ r, owner (f r) = owner r)
    (h : ∀ r ∈ l, owner r = id → f r = r) :
    (l.map f).filter (fun r => decide (owner r = id)) =
      l.filter fun r => decide (owner r = id) := by
  induction l with
  | nil => rfl
  | cons r l ih =>
    rw [List.forall_mem_cons] at h
    rw [List.map_cons, List.filter_cons, List.filter_cons, howner, ih h.2]
    split
    · next hr => rw [h.1 (of_decide_eq_true hr)]
    · rfl

end

/-! ## What the tables hold of a client -/

structure ClientData where
  clients : List Client
  imports : List ImportRecord
  transactions : List TransactionRow
  rules : List RuleRow
  ledgers : List LedgerRow
  dedupeHashes : List (ℕ × String)

def FullDb.clientData (d : FullDb) (id : ℕ) : ClientData where
  clients := d.db.clients.rows.filter fun c => c.id = id
  imports := d.db.importHistory.rows.filter fun i => i.clientId = id
  transactions := d.db.transactions.rows.filter fun r => r.clientId = id
  rules := d.rules.rules.rows.filter fun r => r.clientId = id
  ledgers := d.ledgers.rows.filter fun l => l.clientId = id
  dedupeHashes := d.dedupeHashes.filter fun e => e.1 = id

def ClientStore.clientLog (s : ClientStore) (id : ℕ) : List (ℕ × String) :=
  s.auditLog.filter fun e => e.1 = id

/-- The operation is about the client: it names it, or a row of it, or makes it. -/
def DbOp.Concerns (d : FullDb) (id : ℕ) : DbOp → Prop
  | .addClient _ _ => id = d.db.clients.nextId
  | .updateClient k _ _ => id = k
  | .deleteClient k => id = k
  | .upsertTransactions _ clientId _ _ => id = clientId
  | .deleteTransactionsForClient clientId => id = clientId
  | .upsertTransactionClassification u => id = u.clientId
  | .updateDupFlags clientId _ => id = clientId
  | .deleteTransaction clientId _ => id = clientId
  | .saveImport clientId _ _ _ _ => id = clientId
  | .deleteImport importId => ∃ i ∈ d.db.importHistory.rows, i.id = importId ∧ i.clientId = id
  | .addRule clientId _ => id = clientId
  | .deleteRule ruleId => ∃ r ∈ d.rules.rules.rows, r.id = ruleId ∧ r.clientId = id
  | .importRulesJson clientId _ _ => id = clientId
  | .importLedgers clientId _ => id = clientId
  | .addDedupeHashes clientId _ => id = clientId
  | .resetDedupeHashes clientId => id = clientId
  | .pushAuditEvent clientId _ => id = clientId
  | .clearAuditEvents clientId => id = clientId
  | .clearAllAuditEvents => True

/-! ## One statement -/

variable {d d' : FullDb} {id k : ℕ}

namespace FullDb

theorem exec_upsertTransactions {writtenAt : ℕ × String → String} {clientId : ℕ}
    {importId : Option ℕ} {txns : List Transaction}
    (h : d.exec (.upsertTransactions writtenAt clientId importId txns) = some d') :
    ∃ db hclients,
      d.db.insertRows (txns.map fun t => t.toRow clientId (importId.or t.importId)) = some db ∧
        ∃ createdAt, d' = { d.withDb db hclients with createdAt := createdAt } := by
  rw [exec, upsertTransactions] at h
  split at h
  · cases h
  · next heq =>
    cases h
    obtain ⟨db, hrows, hpair⟩ := Option.map_eq_some_iff.mp heq
    cases hpair
    exact ⟨_, Store.insertRows_clients hrows, hrows, _, rfl⟩

theorem exec_saveImport {clientId txnCount : ℕ} {fileName bankName accountNo : String}
    (h : d.exec (.saveImport clientId fileName bankName accountNo txnCount) = some d') :
    ∃ db n hclients, d.db.saveImport clientId fileName bankName accountNo txnCount =
      some (db, n) ∧ d' = d.withDb db hclients := by
  obtain ⟨⟨d₁, n⟩, heq, rfl⟩ := Option.map_eq_some_iff.mp h
  rw [saveImport] at heq
  split at heq
  · cases heq
  · next db n heq' =>
    cases heq
    exact ⟨db, n, Db.saveImport_clients heq', heq', rfl⟩

theorem exec_deleteImport {importId : ℕ} (h : d.exec (.deleteImport importId) = some d') :
    ∃ db hclients, d.db.deleteImport importId = some db ∧ d' = d.withDb db hclients := by
  rw [exec, deleteImport] at h
  split at h
  · cases h
  · next db heq =>
    cases h
    exact ⟨db, Db.deleteImport_clients heq, heq, rfl⟩

theorem exec_addRule {clientId : ℕ} {t : RuleText} (h : d.exec (.addRule clientId t) = some d') :
    ∃ rules n hclients, d.rules.insertOrIgnore clientId t 0 = some (rules, n) ∧
      d' = d.withRules rules hclients := by
  obtain ⟨⟨d₁, added⟩, heq, rfl⟩ := Option.map_eq_some_iff.mp h
  rw [addRule] at heq
  split at heq
  · cases heq
  · next rules added heq' =>
    cases heq
    obtain ⟨⟨rules₁, n⟩, hinsert, hpair⟩ := Option.map_eq_some_iff.mp heq'
    cases hpair
    exact ⟨_, n, RuleDb.insertOrIgnore_clients hinsert, hinsert, rfl⟩

end FullDb

/-- The imports and the transactions of the client are the same. -/
def Db.SameFor (id : ℕ) (db db' : Db) : Prop :=
  (db'.importHistory.rows.filter fun i => decide (i.clientId = id)) =
      db.importHistory.rows.filter (fun i => decide (i.clientId = id)) ∧
    (db'.transactions.rows.filter fun r => decide (r.clientId = id)) =
      db.transactions.rows.filter fun r => decide (r.clientId = id)

section

variable {db db' : Db}

theorem Db.SameFor.refl : Db.SameFor id db db := ⟨rfl, rfl⟩

theorem Db.SameFor.trans {db'' : Db} (h : Db.SameFor id db db') (h' : Db.SameFor id db' db'') :
    Db.SameFor id db db'' :=
  ⟨h'.1.trans h.1, h'.2.trans h.2⟩

theorem Db.sameFor_saveImport {clientId txnCount n : ℕ} {fileName bankName accountNo : String}
    (h : db.saveImport clientId fileName bankName accountNo txnCount = some (db', n))
    (hne : id ≠ clientId) : Db.SameFor id db db' := by
  unfold Db.saveImport at h
  split at h
  · cases h
    exact ⟨filter_owner_append hne.symm, rfl⟩
  · cases h

theorem Db.sameFor_insertOrReplace {r : TransactionRow} (h : db.insertOrReplace r = some db')
    (hne : id ≠ r.clientId) : Db.SameFor id db db' := by
  unfold Db.insertOrReplace at h
  split at h
  · cases h
    refine ⟨rfl, (filter_owner_append hne.symm).trans (filter_owner_filter fun r' _ howner => ?_)⟩
    -- a row is replaced by one of its own client
    exact decide_eq_true fun hkey => hne (howner ▸ congrArg Prod.fst hkey)
  · cases h

theorem Db.sameFor_insertRows {rows : List TransactionRow} (h : db.insertRows rows = some db')
    (hne : ∀ r ∈ rows, id ≠ r.clientId) : Db.SameFor id db db' :=
  invariant_foldlM (I := Db.SameFor id db)
    (fun _ r hr _ hstep hI => hI.trans (Db.sameFor_insertOrReplace hstep (hne r hr))) h .refl

theorem sameFor_update {f : TransactionRow → TransactionRow} {clientId : ℕ} {txnId : String}
    (hf : ∀ r, (f r).key = r.key) (hne : id ≠ clientId) :
    ((db.transactions.update (clientId, txnId) f hf).rows.filter
        fun r => decide (r.clientId = id)) =
      db.transactions.rows.filter fun r => decide (r.clientId = id) := by
  refine filter_owner_map (fun r => ?_) fun r _ howner => if_neg fun hkey => ?_
  · split
    · exact congrArg Prod.fst (hf r)
    · rfl
  · exact hne (howner ▸ congrArg Prod.fst hkey)

theorem Db.sameFor_updateDupFlags {clientId : ℕ} (txns : List Transaction)
    (hne : id ≠ clientId) : Db.SameFor id db (db.updateDupFlags clientId txns) := by
  induction txns generalizing db with
  | nil => exact .refl
  | cons t txns ih =>
    have hset : Db.SameFor id db (db.setDupFlag clientId t) :=
      ⟨rfl, sameFor_update (TransactionRow.flagged_key t.dupFlag) hne⟩
    exact hset.trans ih

theorem Db.sameFor_deleteImport {importId : ℕ} (h : db.deleteImport importId = some db')
    (hother : ∀ i ∈ db.importHistory.rows, i.id = importId → i.clientId ≠ id) :
    Db.SameFor id db db' := by
  obtain ⟨-, -, himports, htransactions⟩ := Db.deleteImport_eq_some h
  rw [Db.SameFor, himports, htransactions]
  refine ⟨filter_owner_filter fun i hi howner => decide_eq_true fun hid => ?_, rfl⟩
  exact hother i hi hid howner

/-- A change of imports and transactions alone. -/
theorem clientData_withDb (hclients : db.clients = d.db.clients) (h : Db.SameFor id d.db db) :
    (d.withDb db hclients).clientData id = d.clientData id := by
  unfold FullDb.clientData FullDb.withDb
  dsimp only
  rw [hclients, h.1, h.2]

end

section

variable {rules rules' : RuleDb} {clientId : ℕ}

theorem RuleDb.sameFor_insertOrIgnore {t : RuleText} {priority : ℤ} {n : ℕ}
    (h : rules.insertOrIgnore clientId t priority = some (rules', n)) (hne : id ≠ clientId) :
    (rules'.rules.rows.filter fun r => decide (r.clientId = id)) =
      rules.rules.rows.filter fun r => decide (r.clientId = id) := by
  unfold RuleDb.insertOrIgnore at h
  split at h
  · cases h
    rfl
  · split at h
    · cases h
      exact filter_owner_append hne.symm
    · cases h

theorem sameFor_insertCaptured {fails : ℕ → Bool} {ts : List RuleText} {n count : ℕ}
    (hne : id ≠ clientId) :
    ((insertCaptured clientId fails ts n rules count).1.rules.rows.filter
        fun r => decide (r.clientId = id)) =
      rules.rules.rows.filter fun r => decide (r.clientId = id) := by
  induction ts generalizing n count rules with
  | nil => rfl
  | cons t ts ih =>
    rw [insertCaptured]
    split
    · exact ih
    · split
      · rfl
      · split
        · rfl
        · next heq => exact ih.trans (RuleDb.sameFor_insertOrIgnore heq hne)

theorem RuleDb.sameFor_importRulesJson {json : String} {faults : WriteFaults}
    (hne : id ≠ clientId) :
    ((rules.importRulesJson clientId json faults).1.rules.rows.filter
        fun r => decide (r.clientId = id)) =
      rules.rules.rows.filter fun r => decide (r.clientId = id) := by
  unfold RuleDb.importRulesJson
  split
  · rfl
  · split
    · rfl
    · exact (sameFor_insertCaptured hne).trans (filter_owner_filter_ne hne)

theorem clientData_withRules (hclients : rules.clients = d.rules.clients)
    (h : (rules.rules.rows.filter fun r => decide (r.clientId = id)) =
      d.rules.rules.rows.filter fun r => decide (r.clientId = id)) :
    (d.withRules rules hclients).clientData id = d.clientData id := by
  unfold FullDb.clientData FullDb.withRules
  dsimp only
  rw [h]

theorem clientData_insertLedger {entry : String × String} {n : ℕ}
    (h : d.insertLedger clientId entry = some (d', n)) (hne : id ≠ clientId) :
    d'.clientData id = d.clientData id := by
  unfold FullDb.insertLedger at h
  split at h
  · cases h
    rfl
  · split at h
    · cases h
      unfold FullDb.clientData
      dsimp only [Table.insert]
      rw [filter_owner_append hne.symm]
    · cases h

theorem insertLedger_db {entry : String × String} {n : ℕ}
    (h : d.insertLedger clientId entry = some (d', n)) : d'.db = d.db := by
  unfold FullDb.insertLedger at h
  split at h
  · cases h
    rfl
  · split at h
    · cases h
      rfl
    · cases h

theorem insertHash_db {hash : String} (h : d.insertHash clientId hash = some d') :
    d'.db = d.db := by
  unfold FullDb.insertHash at h
  split at h
  · cases h
    rfl
  · split at h
    · cases h
      rfl
    · cases h

/-- The whole batch of ledgers leaves the other tables. -/
theorem exec_importLedgers_db {entries : List (String × String)}
    (h : d.exec (.importLedgers clientId entries) = some d') : d'.db = d.db := by
  obtain ⟨⟨d₁, n⟩, heq, rfl⟩ := Option.map_eq_some_iff.mp h
  refine invariant_foldlM (I := fun x : FullDb × ℕ => x.1.db = d.db)
    (fun x entry _ x' hstep hI => ?_) heq rfl
  obtain ⟨⟨d₂, n₂⟩, hinsert, rfl⟩ := Option.map_eq_some_iff.mp hstep
  exact (insertLedger_db hinsert).trans hI

theorem exec_addDedupeHashes_db {hashes : List String}
    (h : d.exec (.addDedupeHashes clientId hashes) = some d') : d'.db = d.db :=
  invariant_foldlM (I := fun d₁ : FullDb => d₁.db = d.db)
    (fun _ _ _ _ hstep hI => (insertHash_db hstep).trans hI) h rfl

theorem clientData_insertHash {hash : String} (h : d.insertHash clientId hash = some d')
    (hne : id ≠ clientId) : d'.clientData id = d.clientData id := by
  unfold FullDb.insertHash at h
  split at h
  · cases h
    rfl
  · split at h
    · cases h
      unfold FullDb.clientData
      dsimp only
      rw [filter_owner_append hne.symm]
    · cases h

end

theorem clientData_addClient {name tallyLedger : String} {n : ℕ}
    (h : d.addClient name tallyLedger = some (d', n)) (hne : id ≠ d.db.clients.nextId) :
    d'.clientData id = d.clientData id := by
  unfold FullDb.addClient at h
  split at h
  · cases h
  · cases h
    have hclients : ((d.db.clients.rows ++
        [(⟨d.db.clients.nextId, name, tallyLedger⟩ : Client)]).filter
          fun c => decide (c.id = id)) = d.db.clients.rows.filter fun c => decide (c.id = id) :=
      filter_owner_append hne.symm
    unfold FullDb.clientData
    dsimp only [Table.insert]
    rw [hclients]

theorem clientData_updateClient {name tallyLedger : String}
    (h : d.updateClient k name tallyLedger = some d') (hne : id ≠ k) :
    d'.clientData id = d.clientData id := by
  unfold FullDb.updateClient at h
  split at h
  · cases h
  · cases h
    unfold FullDb.clientData
    dsimp only [Table.modify]
    rw [filter_owner_map (fun c => by split <;> rfl)
      fun c _ howner => if_neg fun heq => hne (howner.symm.trans heq)]

theorem clientData_deleteClient (h : d.deleteClient k = some d') (hne : id ≠ k) :
    d'.clientData id = d.clientData id := by
  unfold FullDb.deleteClient at h
  split at h
  · cases h
  · cases h
    unfold FullDb.clientData
    dsimp only [Table.keep, Keyed.keep]
    rw [filter_owner_filter_ne hne, filter_owner_filter_ne hne, filter_owner_filter_ne hne,
      filter_owner_filter_ne hne, filter_owner_filter_ne hne, filter_owner_filter_ne hne]

/-- A statement that is not about the client does not touch its rows. -/
theorem clientData_exec {op : DbOp} (h : d.exec op = some d') (hop : ¬op.Concerns d id) :
    d'.clientData id = d.clientData id := by
  cases op with
  | addClient name tallyLedger =>
    obtain ⟨⟨d₁, n⟩, heq, rfl⟩ := Option.map_eq_some_iff.mp h
    exact clientData_addClient heq hop
  | updateClient k name tallyLedger => exact clientData_updateClient h hop
  | deleteClient k => exact clientData_deleteClient h hop
  | upsertTransactions writtenAt clientId importId txns =>
    obtain ⟨db, hclients, hrows, createdAt, rfl⟩ := FullDb.exec_upsertTransactions h
    refine clientData_withDb hclients (Db.sameFor_insertRows hrows fun r hr => ?_)
    obtain ⟨t, -, rfl⟩ := List.mem_map.mp hr
    exact hop
  | deleteTransactionsForClient clientId =>
    cases h
    exact clientData_withDb _ ⟨rfl, filter_owner_filter_ne hop⟩
  | upsertTransactionClassification u =>
    cases h
    exact clientData_withDb _ ⟨rfl, sameFor_update (TransactionRow.classified_key u) hop⟩
  | updateDupFlags clientId txns =>
    cases h
    exact clientData_withDb (d.db.updateDupFlags_clients clientId txns)
      (Db.sameFor_updateDupFlags txns hop)
  | deleteTransaction clientId txnId =>
    cases h
    refine clientData_withDb _ ⟨rfl, filter_owner_filter fun r _ howner => ?_⟩
    exact decide_eq_true fun hkey => hop (howner ▸ congrArg Prod.fst hkey)
  | saveImport clientId fileName bankName accountNo txnCount =>
    obtain ⟨db, n, hclients, hsave, rfl⟩ := FullDb.exec_saveImport h
    exact clientData_withDb hclients (Db.sameFor_saveImport hsave hop)
  | deleteImport importId =>
    obtain ⟨db, hclients, hdelete, rfl⟩ := FullDb.exec_deleteImport h
    exact clientData_withDb hclients
      (Db.sameFor_deleteImport hdelete fun i hi hid howner => hop ⟨i, hi, hid, howner⟩)
  | addRule clientId t =>
    obtain ⟨rules, n, hclients, hinsert, rfl⟩ := FullDb.exec_addRule h
    exact clientData_withRules hclients (RuleDb.sameFor_insertOrIgnore hinsert hop)
  | deleteRule ruleId =>
    cases h
    exact clientData_withRules _ (filter_owner_filter fun r hr howner =>
      decide_eq_true fun hid => hop ⟨r, hr, hid, howner⟩)
  | importRulesJson clientId json faults =>
    cases h
    exact clientData_withRules (d.rules.importRulesJson_clients clientId json faults)
      (RuleDb.sameFor_importRulesJson hop)
  | importLedgers clientId entries =>
    obtain ⟨⟨d₁, n⟩, heq, rfl⟩ := Option.map_eq_some_iff.mp h
    refine invariant_foldlM (I := fun x : FullDb × ℕ => x.1.clientData id = d.clientData id)
      (fun x entry _ x' hstep hI => ?_) heq rfl
    obtain ⟨⟨d₂, n₂⟩, hinsert, rfl⟩ := Option.map_eq_some_iff.mp hstep
    exact (clientData_insertLedger hinsert hop).trans hI
  | addDedupeHashes clientId hashes =>
    exact invariant_foldlM (I := fun d₁ : FullDb => d₁.clientData id = d.clientData id)
      (fun _ _ _ _ hstep hI => (clientData_insertHash hstep hop).trans hI) h rfl
  | resetDedupeHashes clientId =>
    cases h
    unfold FullDb.clientData FullDb.resetDedupeHashes
    dsimp only
    rw [filter_owner_filter_ne hop]
  | pushAuditEvent clientId event => rw [← Option.some.inj h]
  | clearAuditEvents clientId => rw [← Option.some.inj h]
  | clearAllAuditEvents => rw [← Option.some.inj h]

theorem clientLog_auditAfter {op : DbOp} {log : List (ℕ × String)} (hop : ¬op.Concerns d id) :
    ((auditAfter log op).filter fun e => decide (e.1 = id)) =
      log.filter fun e => decide (e.1 = id) := by
  cases op with
  | pushAuditEvent clientId event => exact filter_owner_append (Ne.symm hop)
  | clearAuditEvents clientId => exact filter_owner_filter_ne hop
  | clearAllAuditEvents => exact absurd trivial hop
  | _ => rfl

/-! ## Runs -/

/-- **Clients are isolated.** Whatever is done for other clients, what the tables hold of a client
stays as it is. -/
theorem client_data_is_isolated {s : ClientStore} {ops : List DbOp}
    (hops : EveryStep ClientStore.step (fun s op => ¬op.Concerns s.data id) s ops) :
    (run ClientStore.step s ops).data.clientData id = s.data.clientData id ∧
      (run ClientStore.step s ops).clientLog id = s.clientLog id := by
  refine hops.invariant (I := fun s' : ClientStore =>
    s'.data.clientData id = s.data.clientData id ∧ s'.clientLog id = s.clientLog id)
    (fun s₁ op hI hop => ?_) ⟨rfl, rfl⟩
  unfold ClientStore.step ClientStore.exec
  cases hexec : s₁.data.exec op with
  | none => exact hI
  | some d₁ => exact ⟨(clientData_exec hexec hop).trans hI.1, (clientLog_auditAfter hop).trans hI.2⟩

/-- Two clients with the same row id, each in an import of its own. -/
def sampleOps : List DbOp :=
  [.addClient "Sharma" "", .addClient "Mehta" "", .saveImport 1 "may.pdf" "HDFC" "" 1,
    .upsertTransactions (fun _ => "") 1 (some 1) [Transaction.new "t_1"],
    .saveImport 2 "may.pdf" "HDFC" "" 1,
    .upsertTransactions (fun _ => "") 2 (some 2) [Transaction.new "t_1"]]

def sampleStore : ClientStore := run ClientStore.step ⟨blankFullDb, []⟩ sampleOps

/-- The second client is deleted, and the row of the first is still there. -/
theorem other_client_is_deleted :
    ((run ClientStore.step sampleStore
        [.pushAuditEvent 2 "Edit Client", .deleteClient 2]).data.clientData 1).transactions =
      [(Transaction.new "t_1").toRow 1 (some 1)] := by
  have hother : (1 : ℕ) ≠ 2 := by decide
  have hops : EveryStep ClientStore.step (fun s op => ¬op.Concerns s.data 1) sampleStore
      [.pushAuditEvent 2 "Edit Client", .deleteClient 2] := ⟨hother, hother, trivial⟩
  rw [(client_data_is_isolated hops).1]
  decide +kernel

/-! ## Deletion -/

/-- The client was there, and is deleted. -/
structure FullDb.Gone (d : FullDb) (id : ℕ) : Prop where
  issued : id < d.db.clients.nextId
  deleted : ∀ c ∈ d.db.clients.rows, c.id ≠ id

/-- Every row refers to a client that exists. -/
theorem clientData_of_deleted (h : ∀ c ∈ d.db.clients.rows, c.id ≠ id) :
    d.clientData id = ⟨[], [], [], [], [], []⟩ := by
  have hno : ∀ {k : ℕ}, (∃ c ∈ d.db.clients.rows, c.id = k) → k ≠ id := by
    rintro _ ⟨c, hc, rfl⟩
    exact h c hc
  unfold FullDb.clientData
  rw [List.filter_eq_nil_iff.mpr fun c hc => by simpa using h c hc,
    List.filter_eq_nil_iff.mpr fun i hi => by simpa using hno (d.db.importHistory_client i hi),
    List.filter_eq_nil_iff.mpr fun r hr => by simpa using hno (d.db.transactions_client r hr),
    List.filter_eq_nil_iff.mpr fun r hr => by
      simpa using hno (d.rules_clients ▸ d.rules.rules_client r hr),
    List.filter_eq_nil_iff.mpr fun l hl => by simpa using hno (d.ledgers_client l hl),
    List.filter_eq_nil_iff.mpr fun e he => by simpa using hno (d.dedupe_client e he)]

/-- What a statement does to `clients`: it adds a row with the next id, or changes and deletes
rows. -/
theorem clients_exec {op : DbOp} (h : d.exec op = some d') :
    d.db.clients.nextId ≤ d'.db.clients.nextId ∧ ∀ c ∈ d'.db.clients.rows,
      c.id = d.db.clients.nextId ∨ ∃ c₀ ∈ d.db.clients.rows, c₀.id = c.id := by
  have hsame : d'.db.clients = d.db.clients → d.db.clients.nextId ≤ d'.db.clients.nextId ∧
      ∀ c ∈ d'.db.clients.rows, c.id = d.db.clients.nextId ∨
        ∃ c₀ ∈ d.db.clients.rows, c₀.id = c.id := by
    intro heq
    rw [heq]
    exact ⟨le_rfl, fun c hc => Or.inr ⟨c, hc, rfl⟩⟩
  cases op with
  | addClient name tallyLedger =>
    obtain ⟨⟨d₁, n⟩, heq, rfl⟩ := Option.map_eq_some_iff.mp h
    unfold FullDb.addClient at heq
    split at heq
    · cases heq
    · cases heq
      refine ⟨Nat.le_succ _, fun c hc => ?_⟩
      rcases Table.mem_insert.mp hc with hc | rfl
      · exact Or.inr ⟨c, hc, rfl⟩
      · exact Or.inl rfl
  | updateClient k name tallyLedger =>
    rw [FullDb.exec, FullDb.updateClient] at h
    split at h
    · cases h
    · cases h
      refine ⟨le_rfl, fun c hc => Or.inr ?_⟩
      obtain ⟨c₀, hc₀, rfl⟩ := List.mem_map.mp hc
      refine ⟨c₀, hc₀, ?_⟩
      split <;> rfl
  | deleteClient k =>
    rw [FullDb.exec, FullDb.deleteClient] at h
    split at h
    · cases h
    · cases h
      exact ⟨le_rfl, fun c hc => Or.inr ⟨c, List.mem_of_mem_filter hc, rfl⟩⟩
  | upsertTransactions writtenAt clientId importId txns =>
    obtain ⟨db, hclients, -, createdAt, rfl⟩ := FullDb.exec_upsertTransactions h
    exact hsame hclients
  | saveImport clientId fileName bankName accountNo txnCount =>
    obtain ⟨db, n, hclients, -, rfl⟩ := FullDb.exec_saveImport h
    exact hsame hclients
  | deleteImport importId =>
    obtain ⟨db, hclients, -, rfl⟩ := FullDb.exec_deleteImport h
    exact hsame hclients
  | addRule clientId t =>
    obtain ⟨rules, n, hclients, -, rfl⟩ := FullDb.exec_addRule h
    exact hsame rfl
  | importLedgers clientId entries => exact hsame (congrArg Db.clients (exec_importLedgers_db h))
  | addDedupeHashes clientId hashes =>
    exact hsame (congrArg Db.clients (exec_addDedupeHashes_db h))
  | updateDupFlags clientId txns =>
    cases h
    exact hsame (d.db.updateDupFlags_clients clientId txns)
  | _ =>
    cases h
    exact hsame rfl

theorem FullDb.Gone.exec {op : DbOp} (hgone : d.Gone id) (h : d.exec op = some d') :
    d'.Gone id := by
  obtain ⟨hnext, hclients⟩ := clients_exec h
  refine ⟨hgone.issued.trans_le hnext, fun c hc heq => ?_⟩
  rcases hclients c hc with hnew | ⟨c₀, hc₀, hid⟩
  · exact absurd hgone.issued (by omega)
  · exact hgone.deleted c₀ hc₀ (hid.trans heq)

theorem deleted_of_deleteClient (h : d.deleteClient id = some d') :
    ∀ c ∈ d'.db.clients.rows, c.id ≠ id := by
  unfold FullDb.deleteClient at h
  split at h
  · cases h
  · cases h
    exact fun c hc => of_decide_eq_true (List.mem_filter.mp hc).2

theorem gone_of_deleteClient (h : d.deleteClient id = some d')
    (hclient : ∃ c ∈ d.db.clients.rows, c.id = id) : d'.Gone id := by
  obtain ⟨c, hc, rfl⟩ := hclient
  have hnext : d.db.clients.nextId ≤ d'.db.clients.nextId :=
    (clients_exec (show d.exec (.deleteClient c.id) = some d' from h)).1
  exact ⟨(d.db.clients.below c hc).trans_le hnext, deleted_of_deleteClient h⟩

/-- **A deleted client is gone.** Its rows go with it, the rows of the others stay, and whatever
is done afterwards no table holds a row of it again. -/
theorem deleted_client_is_gone {s s' : ClientStore}
    (hclient : ∃ c ∈ s.data.db.clients.rows, c.id = id)
    (hdelete : s.exec (.deleteClient id) = some s') (ops : List DbOp) :
    (run ClientStore.step s' ops).data.clientData id = ⟨[], [], [], [], [], []⟩ ∧
      ∀ k ≠ id, s'.data.clientData k = s.data.clientData k ∧ s'.clientLog k = s.clientLog k := by
  obtain ⟨d', hd', rfl⟩ := Option.map_eq_some_iff.mp hdelete
  constructor
  · -- `Gone` says of the next id too that it is past, since a new client gets that one
    refine clientData_of_deleted (FullDb.Gone.deleted (invariant_run
      (I := fun s : ClientStore => s.data.Gone id) (fun s₁ op hI => ?_) ops
      (gone_of_deleteClient hd' hclient)))
    unfold ClientStore.step ClientStore.exec
    cases hexec : s₁.data.exec op with
    | none => exact hI
    | some d₁ => exact hI.exec hexec
  · exact fun k hk => ⟨clientData_deleteClient hd' hk, rfl⟩

/-- Nothing that is done later brings the second client back. -/
theorem second_client_is_gone : ∃ s', sampleStore.exec (.deleteClient 2) = some s' ∧
    ∀ ops, (run ClientStore.step s' ops).data.clientData 2 = ⟨[], [], [], [], [], []⟩ := by
  have hsome : (sampleStore.exec (.deleteClient 2)).isSome = true := by decide +kernel
  obtain ⟨s', hs'⟩ := Option.isSome_iff_exists.mp hsome
  have hclient : ∃ c ∈ sampleStore.data.db.clients.rows, c.id = 2 := by decide +kernel
  exact ⟨s', hs', fun ops => (deleted_client_is_gone hclient hs' ops).1⟩

/-! ## Clients that can be deleted -/

/-- The transactions of a client are from its own imports. -/
def Db.OwnImports (db : Db) : Prop :=
  ∀ r ∈ db.transactions.rows, ∀ i ∈ db.importHistory.rows, r.importId = some i.id →
    i.clientId = r.clientId

/-- The client and the import of each transaction that is stored. -/
def DbOp.stored : DbOp → List (ℕ × Option ℕ)
  | .upsertTransactions _ clientId importId txns =>
    txns.map fun t => (clientId, importId.or t.importId)
  | _ => []

/-- Transactions are stored with imports of their own client. -/
def DbOp.StoresOwn (d : FullDb) (op : DbOp) : Prop :=
  ∀ e ∈ op.stored, ∀ i ∈ d.db.importHistory.rows, e.2 = some i.id → i.clientId = e.1

instance (d : FullDb) (op : DbOp) : Decidable (op.StoresOwn d) :=
  inferInstanceAs (Decidable (∀ e ∈ op.stored, ∀ i ∈ d.db.importHistory.rows,
    e.2 = some i.id → i.clientId = e.1))

/-- No import is added, and no transaction that refers to one where none of the client did. -/
structure Db.NoNewReference (db db' : Db) : Prop where
  imports : ∀ i ∈ db'.importHistory.rows, i ∈ db.importHistory.rows
  transactions : ∀ r' ∈ db'.transactions.rows, ∃ r ∈ db.transactions.rows,
    r.clientId = r'.clientId ∧ r.importId = r'.importId

section

variable {db db' : Db}

theorem Db.NoNewReference.refl : Db.NoNewReference db db :=
  ⟨fun _ => id, fun r hr => ⟨r, hr, rfl, rfl⟩⟩

theorem Db.NoNewReference.trans {db'' : Db} (h : Db.NoNewReference db db')
    (h' : Db.NoNewReference db' db'') : Db.NoNewReference db db'' where
  imports i hi := h.imports i (h'.imports i hi)
  transactions r'' hr'' := by
    obtain ⟨r', hr', hclient', himport'⟩ := h'.transactions r'' hr''
    obtain ⟨r, hr, hclient, himport⟩ := h.transactions r' hr'
    exact ⟨r, hr, hclient.trans hclient', himport.trans himport'⟩

theorem Db.OwnImports.of_noNewReference (hown : db.OwnImports) (h : Db.NoNewReference db db') :
    db'.OwnImports := by
  intro r' hr' i hi hid
  obtain ⟨r, hr, hclient, himport⟩ := h.transactions r' hr'
  exact (hown r hr i (h.imports i hi) (himport.trans hid)).trans hclient

/-- Rows are changed where they stand. -/
theorem noNewReference_update {f : TransactionRow → TransactionRow} {k : ℕ × String}
    (himports : db'.importHistory = db.importHistory)
    (hrows : db'.transactions.rows = db.transactions.rows.map fun r => if r.key = k then f r else r)
    (hf : ∀ r, (f r).clientId = r.clientId ∧ (f r).importId = r.importId) :
    Db.NoNewReference db db' where
  imports i hi := himports ▸ hi
  transactions r' hr' := by
    rw [hrows] at hr'
    obtain ⟨r, hr, rfl⟩ := List.mem_map.mp hr'
    refine ⟨r, hr, ?_⟩
    split
    · exact ⟨(hf r).1.symm, (hf r).2.symm⟩
    · exact ⟨rfl, rfl⟩

theorem noNewReference_updateDupFlags {clientId : ℕ} (txns : List Transaction) :
    Db.NoNewReference db (db.updateDupFlags clientId txns) := by
  induction txns generalizing db with
  | nil => exact .refl
  | cons t txns ih =>
    have hset : Db.NoNewReference db (db.setDupFlag clientId t) :=
      noNewReference_update rfl rfl fun _ => ⟨rfl, rfl⟩
    exact hset.trans ih

/-- A new import has an id that no transaction refers to. -/
theorem Db.OwnImports.saveImport {clientId txnCount n : ℕ} {fileName bankName accountNo : String}
    (hown : db.OwnImports)
    (h : db.saveImport clientId fileName bankName accountNo txnCount = some (db', n)) :
    db'.OwnImports := by
  unfold Db.saveImport at h
  split at h
  · cases h
    intro r hr i hi hid
    rcases Table.mem_insert.mp hi with hi | rfl
    · exact hown r hr i hi hid
    · -- a row that refers to the new id would refer to an import that was there
      obtain ⟨i₀, hi₀, hid₀⟩ := db.transactions_import r hr _ hid
      have hold : i₀.id < db.importHistory.nextId := db.importHistory.below i₀ hi₀
      exact absurd hid₀ hold.ne
  · cases h

theorem Db.OwnImports.insertRows {rows : List TransactionRow} (hown : db.OwnImports)
    (h : db.insertRows rows = some db')
    (hrows : ∀ r ∈ rows, ∀ i ∈ db.importHistory.rows, r.importId = some i.id →
      i.clientId = r.clientId) : db'.OwnImports := by
  refine (invariant_foldlM
    (I := fun db₁ : Db => db₁.importHistory = db.importHistory ∧ db₁.OwnImports)
    (fun db₁ r hr db₂ hstep hI => ?_) h ⟨rfl, hown⟩).2
  obtain ⟨himports, hI⟩ := hI
  unfold Db.insertOrReplace at hstep
  split at hstep
  · cases hstep
    -- what stood under the key of the row goes
    refine ⟨himports, fun r' hr' i hi hid => ?_⟩
    rcases Keyed.mem_replace.mp hr' with ⟨hr', -⟩ | rfl
    · exact hI r' hr' i hi hid
    · exact hrows r' hr i (himports ▸ hi) hid
  · cases hstep

end

theorem Db.OwnImports.exec {op : DbOp} (hown : d.db.OwnImports) (hop : op.StoresOwn d)
    (h : d.exec op = some d') : d'.db.OwnImports := by
  cases op with
  | addClient name tallyLedger =>
    obtain ⟨⟨d₁, n⟩, heq, rfl⟩ := Option.map_eq_some_iff.mp h
    unfold FullDb.addClient at heq
    split at heq
    · cases heq
    · cases heq
      exact hown
  | updateClient k name tallyLedger =>
    rw [FullDb.exec, FullDb.updateClient] at h
    split at h
    · cases h
    · cases h
      exact hown
  | deleteClient k =>
    rw [FullDb.exec, FullDb.deleteClient] at h
    split at h
    · cases h
    · cases h
      exact hown.of_noNewReference ⟨fun i hi => List.mem_of_mem_filter hi,
        fun r hr => ⟨r, List.mem_of_mem_filter hr, rfl, rfl⟩⟩
  | upsertTransactions writtenAt clientId importId txns =>
    obtain ⟨db, hclients, hrows, createdAt, rfl⟩ := FullDb.exec_upsertTransactions h
    refine hown.insertRows hrows fun r hr => ?_
    obtain ⟨t, ht, rfl⟩ := List.mem_map.mp hr
    exact hop _ (List.mem_map_of_mem ht)
  | deleteTransactionsForClient clientId =>
    cases h
    exact hown.of_noNewReference ⟨fun _ => id,
      fun r hr => ⟨r, List.mem_of_mem_filter hr, rfl, rfl⟩⟩
  | upsertTransactionClassification u =>
    cases h
    exact hown.of_noNewReference (noNewReference_update rfl rfl fun _ => ⟨rfl, rfl⟩)
  | updateDupFlags clientId txns =>
    cases h
    exact hown.of_noNewReference (noNewReference_updateDupFlags txns)
  | deleteTransaction clientId txnId =>
    cases h
    exact hown.of_noNewReference ⟨fun _ => id,
      fun r hr => ⟨r, List.mem_of_mem_filter hr, rfl, rfl⟩⟩
  | saveImport clientId fileName bankName accountNo txnCount =>
    obtain ⟨db, n, hclients, hsave, rfl⟩ := FullDb.exec_saveImport h
    exact hown.saveImport hsave
  | deleteImport importId =>
    obtain ⟨db, hclients, hdelete, rfl⟩ := FullDb.exec_deleteImport h
    obtain ⟨-, -, himports, htransactions⟩ := Db.deleteImport_eq_some hdelete
    refine hown.of_noNewReference ⟨fun i hi => ?_, fun r hr => ⟨r, ?_, rfl, rfl⟩⟩
    · exact List.mem_of_mem_filter (himports ▸ hi)
    · exact htransactions ▸ hr
  | addRule clientId t =>
    obtain ⟨rules, n, hclients, -, rfl⟩ := FullDb.exec_addRule h
    exact hown
  | importLedgers clientId entries =>
    rw [exec_importLedgers_db h]
    exact hown
  | addDedupeHashes clientId hashes =>
    rw [exec_addDedupeHashes_db h]
    exact hown
  | _ =>
    cases h
    exact hown

/-- **Every client can be deleted**, after any run that stores transactions with imports of their
own client. -/
theorem every_client_can_be_deleted {s : ClientStore} {ops : List DbOp}
    (hs : s.data.db.OwnImports)
    (hops : EveryStep ClientStore.step (fun s op => op.StoresOwn s.data) s ops) (id : ℕ) :
    ∃ s', (run ClientStore.step s ops).exec (.deleteClient id) = some s' ∧
      s'.data.clientData id = ⟨[], [], [], [], [], []⟩ := by
  have hown : (run ClientStore.step s ops).data.db.OwnImports := by
    refine hops.invariant (I := fun s : ClientStore => s.data.db.OwnImports)
      (fun s₁ op hI hop => ?_) hs
    unfold ClientStore.step ClientStore.exec
    cases hexec : s₁.data.exec op with
    | none => exact hI
    | some d₁ => exact hI.exec hop hexec
  generalize run ClientStore.step s ops = s₁ at hown
  cases hdelete : s₁.data.deleteClient id with
  | none =>
    unfold FullDb.deleteClient at hdelete
    split at hdelete
    · next hheld =>
      -- the row in the way is of another client, and of an import of this one
      obtain ⟨r, hr, hne, i, hi, howner, hid⟩ := hheld
      exact absurd ((hown r hr i hi hid).symm.trans howner) hne
    · cases hdelete
  | some d' =>
    refine ⟨⟨d', s₁.auditLog⟩, ?_, clientData_of_deleted (deleted_of_deleteClient hdelete)⟩
    unfold ClientStore.exec
    rw [show s₁.data.exec (.deleteClient id) = some d' from hdelete]
    rfl

theorem first_client_can_be_deleted : ∃ s', sampleStore.exec (.deleteClient 1) = some s' ∧
    s'.data.clientData 1 = ⟨[], [], [], [], [], []⟩ := by
  have hops : EveryStep ClientStore.step (fun s op => op.StoresOwn s.data) ⟨blankFullDb, []⟩
      sampleOps := by
    decide +kernel
  exact every_client_can_be_deleted (fun _ hr => absurd hr List.not_mem_nil) hops 1

end Desktop
