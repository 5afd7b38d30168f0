import BankStatementProcessor.Desktop.LegacyMigration

/-!
# The phases of an import of old data

What each phase writes, what it leaves alone, and what it counts.
-/

namespace Desktop

open Infra

/-! ## The report -/

namespace MigrationReport

variable (r : MigrationReport) (k k' : Entity) (f : EntityReport → EntityReport)

theorem lookup_updateEntity (entities : List (Entity × EntityReport)) :
    (updateEntity k f entities).lookup k' =
      if k' = k then some (f ((entities.lookup k).getD .new)) else entities.lookup k' := by
  induction entities with
  | nil =>
    by_cases h : k' = k
    · simp [updateEntity, h]
    · simp [updateEntity, List.lookup_cons, beq_false_of_ne h, h]
  | cons entry entities ih =>
    obtain ⟨k₀, e⟩ := entry
    rw [updateEntity]
    by_cases h₀ : k₀ = k
    · subst h₀
      by_cases h : k' = k₀
      · simp [h]
      · simp [List.lookup_cons, beq_false_of_ne h, h]
    · rw [if_neg h₀]
      by_cases h : k' = k₀
      · subst h
        simp [h₀]
      · simp only [List.lookup_cons, beq_false_of_ne h, ih, beq_false_of_ne (Ne.symm h₀)]

@[simp] theorem entity_entityMut :
    (r.entityMut k f).entity k' = if k' = k then f (r.entity k) else r.entity k' := by
  rw [entity, entityMut, lookup_updateEntity]
  split <;> rfl

end MigrationReport

/-! ## The tables -/

/-- The rows of a database. -/
structure Tables where
  clients : Table Client Client.id
  rules : Table RuleRow RuleRow.id
  ledgers : Table LedgerRow LedgerRow.id
  dedupeHashes : List (ℕ × String)
  importHistory : Table ImportRecord ImportRecord.id
  transactions : Keyed TransactionRow TransactionRow.key
  createdAt : ℕ × String → String

/-- Two states of the tables that differ in what is written for one entity. -/
structure Tables.SameBut (k : Entity) (T T' : Tables) : Prop where
  clients : k ≠ .clients → T'.clients = T.clients
  rules : k ≠ .classificationRules → T'.rules = T.rules
  ledgers : k ≠ .ledgers → T'.ledgers = T.ledgers
  dedupeHashes : k ≠ .dedupeHashes → T'.dedupeHashes = T.dedupeHashes
  importHistory : k ≠ .importHistory → T'.importHistory = T.importHistory
  transactions : k ≠ .transactions → T'.transactions = T.transactions
  createdAt : k ≠ .transactions → T'.createdAt = T.createdAt

namespace Tables.SameBut

variable {k : Entity} {T T' T'' : Tables}

theorem refl (k : Entity) (T : Tables) : T.SameBut k T := by
  constructor <;> exact fun _ => rfl

theorem trans (h : T.SameBut k T') (h' : T'.SameBut k T'') : T.SameBut k T'' where
  clients hk := (h'.clients hk).trans (h.clients hk)
  rules hk := (h'.rules hk).trans (h.rules hk)
  ledgers hk := (h'.ledgers hk).trans (h.ledgers hk)
  dedupeHashes hk := (h'.dedupeHashes hk).trans (h.dedupeHashes hk)
  importHistory hk := (h'.importHistory hk).trans (h.importHistory hk)
  transactions hk := (h'.transactions hk).trans (h.transactions hk)
  createdAt hk := (h'.createdAt hk).trans (h.createdAt hk)

end Tables.SameBut

namespace FullDb

variable {d d' : FullDb} {clientId : ℕ}

def tables (d : FullDb) : Tables where
  clients := d.db.clients
  rules := d.rules.rules
  ledgers := d.ledgers
  dedupeHashes := d.dedupeHashes
  importHistory := d.db.importHistory
  transactions := d.db.transactions
  createdAt := d.createdAt

/-- A database is its rows. -/
theorem eq_of_tables (h : d.tables = d'.tables) : d = d' := by
  obtain ⟨⟨_, _, _, _, _, _⟩, ⟨_, _, _, _, _⟩, _, _, _, hrules, _, _, _, _, _, _⟩ := d
  obtain ⟨⟨_, _, _, _, _, _⟩, ⟨_, _, _, _, _⟩, _, _, _, hrules', _, _, _, _, _, _⟩ := d'
  simp only [tables, Tables.mk.injEq] at h
  obtain ⟨rfl, rfl, rfl, rfl, rfl, rfl, rfl⟩ := h
  dsimp only at hrules hrules'
  subst hrules
  cases hrules'
  rfl

/-- A client with the id. -/
def HasClient (d : FullDb) (clientId : ℕ) : Prop := ∃ c ∈ d.db.clients.rows, c.id = clientId

theorem addClient_spec {name : String} (tallyLedger : String)
    (h : ¬∃ c ∈ d.db.clients.rows, c.name = name) :
    ∃ d', d.addClient name tallyLedger = some (d', d.db.clients.nextId) ∧
      d.tables.SameBut .clients d'.tables ∧
      d'.db.clients.rows = d.db.clients.rows ++ [⟨d.db.clients.nextId, name, tallyLedger⟩] := by
  rw [addClient, dif_neg h]
  refine ⟨_, rfl, ?_, rfl⟩
  constructor <;> intro hk <;> first | rfl | exact absurd rfl hk

/-- A rule of the client with the pattern. -/
def HasRule (d : FullDb) (clientId : ℕ) (pattern : String) : Prop :=
  ∃ r ∈ d.rules.rules.rows, r.index = (clientId, noCase pattern)

theorem addRule_of_hasRule {t : RuleText} (h : d.HasRule clientId t.pattern) :
    d.addRule clientId t = some (d, false) := by
  unfold HasRule at h
  have hrule : d.rules.addRule clientId t = some (d.rules, false) := by
    rw [RuleDb.addRule, RuleDb.insertOrIgnore, dif_pos h]
    rfl
  unfold addRule
  split
  · next heq =>
    rw [hrule] at heq
    cases heq
  · next rules added heq =>
    rw [hrule] at heq
    cases heq
    rfl

theorem addRule_spec {t : RuleText} (hclient : d.HasClient clientId)
    (h : ¬d.HasRule clientId t.pattern) :
    ∃ d', d.addRule clientId t = some (d', true) ∧
      d.tables.SameBut .classificationRules d'.tables ∧
      d'.rules.rules.rows = d.rules.rules.rows ++ [t.toRow clientId 0 d.rules.rules.nextId] := by
  unfold HasRule at h
  have hrule : ∃ rules, d.rules.addRule clientId t = some (rules, true) ∧
      rules.rules.rows = d.rules.rules.rows ++ [t.toRow clientId 0 d.rules.rules.nextId] := by
    rw [RuleDb.addRule, RuleDb.insertOrIgnore, dif_neg h,
      dif_pos (by rw [d.rules_clients]; exact hclient)]
    exact ⟨_, rfl, rfl⟩
  obtain ⟨rules, hadd, hrows⟩ := hrule
  unfold addRule
  split
  · next heq =>
    rw [hadd] at heq
    cases heq
  · next rules' added heq =>
    rw [hadd] at heq
    cases heq
    refine ⟨_, rfl, ?_, hrows⟩
    constructor <;> intro hk <;> first | rfl | exact absurd rfl hk

/-- A ledger of the client with the name. -/
def HasLedger (d : FullDb) (clientId : ℕ) (name : String) : Prop :=
  ∃ l ∈ d.ledgers.rows, l.index = (clientId, name)

theorem insertLedger_of_hasLedger {entry : String × String} (h : d.HasLedger clientId entry.1) :
    d.insertLedger clientId entry = some (d, 0) := by
  unfold HasLedger at h
  rw [insertLedger, dif_pos h]

theorem insertLedger_spec {entry : String × String} (hclient : d.HasClient clientId)
    (h : ¬d.HasLedger clientId entry.1) :
    ∃ d', d.insertLedger clientId entry = some (d', 1) ∧ d.tables.SameBut .ledgers d'.tables ∧
      d'.ledgers.rows =
        d.ledgers.rows ++ [⟨d.ledgers.nextId, clientId, entry.1, some entry.2⟩] := by
  unfold HasLedger at h
  unfold HasClient at hclient
  rw [insertLedger, dif_neg h, dif_pos hclient]
  refine ⟨_, rfl, ?_, rfl⟩
  constructor <;> intro hk <;> first | rfl | exact absurd rfl hk

theorem insertHash_of_mem {hash : String} (h : (clientId, hash) ∈ d.dedupeHashes) :
    d.insertHash clientId hash = some d := by
  rw [insertHash, dif_pos h]

theorem insertHash_spec {hash : String} (hclient : d.HasClient clientId)
    (h : (clientId, hash) ∉ d.dedupeHashes) :
    ∃ d', d.insertHash clientId hash = some d' ∧ d.tables.SameBut .dedupeHashes d'.tables ∧
      d'.dedupeHashes = d.dedupeHashes ++ [(clientId, hash)] := by
  unfold HasClient at hclient
  rw [insertHash, dif_neg h, dif_pos hclient]
  refine ⟨_, rfl, ?_, rfl⟩
  constructor <;> intro hk <;> first | rfl | exact absurd rfl hk

theorem tables_withDb {db : Db} (h : db.clients = d.db.clients) :
    (d.withDb db h).tables = { d.tables with
      importHistory := db.importHistory, transactions := db.transactions } := by
  simp only [tables, withDb, h]

theorem saveImport_spec (fileName bankName accountNo : String) (txnCount : ℕ)
    (hclient : d.HasClient clientId) :
    ∃ d', d.saveImport clientId fileName bankName accountNo txnCount =
        some (d', d.db.importHistory.nextId) ∧ d.tables.SameBut .importHistory d'.tables ∧
      d'.db.importHistory = d.db.importHistory.insert
        (fun id => ⟨id, clientId, fileName, bankName, accountNo, txnCount⟩) (fun _ => rfl) := by
  have hsave : ∃ db, d.db.saveImport clientId fileName bankName accountNo txnCount =
      some (db, d.db.importHistory.nextId) ∧ db.transactions = d.db.transactions ∧
      db.importHistory = d.db.importHistory.insert
        (fun id => ⟨id, clientId, fileName, bankName, accountNo, txnCount⟩) (fun _ => rfl) := by
    unfold HasClient at hclient
    rw [Db.saveImport, dif_pos hclient]
    exact ⟨_, rfl, rfl, rfl⟩
  obtain ⟨db, hdb, htxns, himports⟩ := hsave
  unfold saveImport
  split
  · next heq =>
    rw [hdb] at heq
    cases heq
  · next db' id heq =>
    rw [hdb] at heq
    cases heq
    refine ⟨_, rfl, ?_, himports⟩
    rw [tables_withDb, htxns]
    constructor <;> intro hk <;> first | rfl | exact absurd rfl hk

/-- The rows of the transactions of one import. -/
def rowsOf (clientId importId : ℕ) (txns : List Transaction) : List TransactionRow :=
  txns.map fun t => t.toRow clientId (some importId)

theorem upsertTransactions_spec (writtenAt : ℕ × String → String) {importId : ℕ}
    (txns : List Transaction) (hclient : d.HasClient clientId)
    (himport : ∃ i ∈ d.db.importHistory.rows, i.id = importId) :
    ∃ d', d.upsertTransactions writtenAt clientId (some importId) txns = some d' ∧
      d.tables.SameBut .transactions d'.tables ∧
      d'.db.transactions = d.db.transactions.replaceAll (rowsOf clientId importId txns) ∧
      d'.createdAt = fun k =>
        if k.1 = clientId ∧ k.2 ∈ txns.map Transaction.id then writtenAt k else d.createdAt k := by
  have hrows : ∀ r ∈ rowsOf clientId importId txns,
      r.clientId = clientId ∧ r.importId = some importId := by
    intro r hr
    obtain ⟨t, -, rfl⟩ := List.mem_map.mp hr
    exact ⟨rfl, rfl⟩
  obtain ⟨db, hdb, hclients, himports, htxns⟩ :=
    Db.insertRows_eq importId (rowsOf clientId importId txns) hrows d.db hclient himport
  have hupsert : d.db.upsertTransactions clientId (some importId) txns =
      some (db, txns.length) := by
    rw [Db.upsertTransactions]
    exact congrArg (Option.map _) hdb
  unfold upsertTransactions
  split
  · next heq =>
    rw [hupsert] at heq
    cases heq
  · next db' n heq =>
    rw [hupsert] at heq
    cases heq
    refine ⟨_, rfl, ?_, htxns, rfl⟩
    simp only [tables, withDb, hclients, himports, htxns]
    constructor <;> intro hk <;> first | rfl | exact absurd rfl hk

end FullDb

/-! ## Counting -/

/-- The rows of the table of an entity, or none. -/
def FullDb.rowCount (d : FullDb) (k : Entity) : ℕ := (d.tableCount k).getD 0

theorem rowCount_of_sameBut {d d' : FullDb} {k k' : Entity} (h : d.tables.SameBut k d'.tables)
    (hk : k' ≠ k) : d'.rowCount k' = d.rowCount k' := by
  have hk := Ne.symm hk
  cases k' with
  | clients => exact congrArg (fun t : Table Client Client.id => t.rows.length) (h.clients hk)
  | classificationRules =>
    exact congrArg (fun t : Table RuleRow RuleRow.id => t.rows.length) (h.rules hk)
  | ledgers => exact congrArg (fun t : Table LedgerRow LedgerRow.id => t.rows.length) (h.ledgers hk)
  | dedupeHashes => exact congrArg List.length (h.dedupeHashes hk)
  | importHistory =>
    exact congrArg (fun t : Table ImportRecord ImportRecord.id => t.rows.length) (h.importHistory hk)
  | transactions =>
    exact congrArg (fun t : Keyed TransactionRow TransactionRow.key => t.rows.length)
      (h.transactions hk)
  | settings => rfl

namespace ImportState

variable {s s' s'' : ImportState} {k : Entity} {c c' : Prop}

def imported (s : ImportState) (k : Entity) : ℕ := (s.report.entity k).imported

@[simp] theorem imported_count (s : ImportState) (k : Entity) (f : EntityReport → EntityReport)
    (k' : Entity) : (s.count k f).imported k' =
      if k' = k then (f (s.report.entity k)).imported else s.imported k' := by
  rw [imported, count, MigrationReport.entity_entityMut]
  split <;> rfl

/-- How many more rows are reported than there are. -/
def lead (s : ImportState) (k : Entity) : ℤ :=
  if k = .settings then 0 else (s.imported k : ℤ) - s.target.rowCount k

/-- From `s` to `s'` no row is written without being reported, and when `c` holds no row is
reported without being written. -/
structure Counted (c : Prop) (s s' : ImportState) : Prop where
  le : s.lead ≤ s'.lead
  eq_iff : s.lead = s'.lead ↔ c

theorem Counted.of_eq (h : s.lead = s'.lead) : Counted True s s' := ⟨h.le, iff_true_intro h⟩

theorem Counted.trans (h : Counted c s s') (h' : Counted c' s' s'') : Counted (c ∧ c') s s'' where
  le := h.le.trans h'.le
  eq_iff := by
    constructor
    · intro heq
      have hle : s'.lead ≤ s.lead := heq ▸ h'.le
      have heq' : s.lead = s'.lead := le_antisymm h.le hle
      exact ⟨h.eq_iff.mp heq', h'.eq_iff.mp (heq'.symm.trans heq)⟩
    · rintro ⟨hc, hc'⟩
      exact (h.eq_iff.mpr hc).trans (h'.eq_iff.mpr hc')

theorem Counted.congr (h : Counted c s s') (hc : c ↔ c') : Counted c' s s' :=
  ⟨h.le, h.eq_iff.trans hc⟩

/-- A step that reports `n` rows of an entity more and writes `m`. -/
theorem Counted.of_step {n m : ℕ} (hk : k ≠ .settings)
    (hsame : s.target.tables.SameBut k s'.target.tables)
    (himported : ∀ k', s'.imported k' = s.imported k' + if k' = k then n else 0)
    (hrows : s'.target.rowCount k = s.target.rowCount k + m) (hle : m ≤ n) :
    Counted (n = m) s s' := by
  have hlead : ∀ k', s'.lead k' = s.lead k' + if k' = k then (n : ℤ) - m else 0 := by
    intro k'
    unfold lead
    by_cases hk' : k' = k
    · subst hk'
      rw [if_neg hk, if_neg hk, himported, hrows, if_pos rfl, if_pos rfl]
      omega
    · rw [himported, if_neg hk', if_neg hk', rowCount_of_sameBut hsame hk']
      simp
  refine ⟨fun k' => ?_, ?_⟩
  · show s.lead k' ≤ s'.lead k'
    rw [hlead]
    split <;> omega
  · constructor
    · intro heq
      have hown := hlead k
      rw [← congrFun heq k, if_pos rfl] at hown
      omega
    · rintro rfl
      funext k'
      rw [hlead]
      split <;> omega

end ImportState

/-! ## Clients -/

namespace FullDb

variable {d d' : FullDb} {name name' : String} {c : ℕ}

/-- The id of the client with a name. -/
def clientNamed (d : FullDb) (name : String) : Option ℕ :=
  (d.getClientByName name).map Client.id

theorem clientNamed_eq_some :
    d.clientNamed name = some c ↔ ∃ r ∈ d.db.clients.rows, r.name = name ∧ r.id = c := by
  have hunique : ∀ r ∈ d.db.clients.rows, ∀ r' ∈ d.db.clients.rows,
      decide (r.name = name) = true → decide (r'.name = name) = true → r = r' := by
    intro r hr r' hr' h h'
    exact d.clients_name r hr r' hr' name (congrArg some (of_decide_eq_true h))
      (congrArg some (of_decide_eq_true h'))
  rw [clientNamed, Option.map_eq_some_iff]
  constructor
  · rintro ⟨r, hr, hid⟩
    obtain ⟨hmem, hname⟩ := (find?_eq_some_of_unique hunique).mp hr
    exact ⟨r, hmem, of_decide_eq_true hname, hid⟩
  · rintro ⟨r, hmem, hname, hid⟩
    exact ⟨r, (find?_eq_some_of_unique hunique).mpr ⟨hmem, decide_eq_true hname⟩, hid⟩

theorem clientNamed_eq_none :
    d.clientNamed name = none ↔ ¬∃ r ∈ d.db.clients.rows, r.name = name := by
  rw [clientNamed, Option.map_eq_none_iff, getClientByName, List.find?_eq_none]
  simp

theorem hasClient_of_clientNamed (h : d.clientNamed name = some c) : d.HasClient c := by
  obtain ⟨r, hr, -, hid⟩ := clientNamed_eq_some.mp h
  exact ⟨r, hr, hid⟩

/-- A client has one name. -/
theorem clientNamed_inj (h : d.clientNamed name = some c) (h' : d.clientNamed name' = some c) :
    name = name' := by
  obtain ⟨r, hr, rfl, hid⟩ := clientNamed_eq_some.mp h
  obtain ⟨r', hr', rfl, hid'⟩ := clientNamed_eq_some.mp h'
  rw [d.db.clients.eq_of_key hr hr' (hid.trans hid'.symm)]

theorem clientNamed_congr (h : d'.db.clients = d.db.clients) :
    d'.clientNamed name = d.clientNamed name := by
  rw [clientNamed, getClientByName, h]
  rfl

end FullDb

/-- The run has written nothing and reported nothing as written. -/
def ImportState.Idle (s s' : ImportState) : Prop :=
  s'.target = s.target ∧ ∀ k, s'.imported k = s.imported k

theorem ImportState.Idle.trans {s s' s'' : ImportState} (h : s.Idle s') (h' : s'.Idle s'') :
    s.Idle s'' :=
  ⟨h'.1.trans h.1, fun k => (h'.2 k).trans (h.2 k)⟩

/-- A change of the other counters. -/
theorem ImportState.idle_count (s : ImportState) (k : Entity) {f : EntityReport → EntityReport}
    (hf : ∀ e, (f e).imported = e.imported) : s.Idle (s.count k f) := by
  refine ⟨rfl, fun k' => ?_⟩
  rw [imported_count, hf]
  split
  · next h => rw [h, imported]
  · rfl

theorem ImportState.Idle.counted {s s' : ImportState} (h : s.Idle s') : Counted True s s' := by
  refine .of_eq (funext fun k => ?_)
  rw [lead, lead, h.1, h.2]

open ImportState

/-- The clients entered so far keep their ids. -/
def KeepsNames (d d' : FullDb) : Prop :=
  ∀ name c, d.clientNamed name = some c → d'.clientNamed name = some c

/-- One client is found or added, and entered under its old id. -/
theorem importClient_spec (s : ImportState) (c : LegacyClient) :
    ∃ s' id, importClient s c = some s' ∧ s.target.tables.SameBut .clients s'.target.tables ∧
      Counted True s s' ∧ KeepsNames s.target s'.target ∧
      s'.target.clientNamed c.name = some id ∧
      s'.idMap.clients = (c.id, id) :: s.idMap.clients ∧
      (s.target.clientNamed c.name ≠ none → s.Idle s') := by
  cases hfind : s.target.getClientByName c.name with
  | some existing =>
    have hidle : s.Idle ({ s with idMap := ⟨(c.id, existing.id) :: s.idMap.clients⟩ }.count .clients
        fun e => { e with skippedDuplicate := e.skippedDuplicate + 1 }) :=
      idle_count { s with idMap := _ } .clients fun e => rfl
    have hname : s.target.clientNamed c.name = some existing.id := by
      rw [FullDb.clientNamed, hfind]
      rfl
    refine ⟨_, existing.id, by rw [importClient, hfind], ?_, hidle.counted, fun _ _ h => h, hname,
      rfl, fun _ => hidle⟩
    exact .refl _ _
  | none =>
    have hnone : s.target.clientNamed c.name = none := by rw [FullDb.clientNamed, hfind]; rfl
    have hfree := FullDb.clientNamed_eq_none.mp hnone
    obtain ⟨d', hadd, hsame, hclients⟩ := FullDb.addClient_spec c.tallyLedger hfree
    refine ⟨_, s.target.db.clients.nextId, by rw [importClient, hfind]; simp only [hadd]; rfl,
      hsame, ?_, ?_, ?_, rfl, ?_⟩
    · refine (Counted.of_step (n := 1) (m := 1) (by decide) hsame ?_ ?_ le_rfl).congr (by simp)
      · intro k'
        rw [imported_count]
        split
        · next h =>
          subst h
          rfl
        · rfl
      · show d'.db.clients.rows.length = s.target.db.clients.rows.length + 1
        rw [hclients]
        exact List.length_append
    · intro name id hname
      obtain ⟨r, hr, hrname, hid⟩ := FullDb.clientNamed_eq_some.mp hname
      refine FullDb.clientNamed_eq_some.mpr ⟨r, ?_, hrname, hid⟩
      show r ∈ d'.db.clients.rows
      rw [hclients]
      exact List.mem_append_left _ hr
    · refine FullDb.clientNamed_eq_some.mpr
        ⟨⟨s.target.db.clients.nextId, c.name, c.tallyLedger⟩, ?_, rfl, rfl⟩
      show _ ∈ d'.db.clients.rows
      rw [hclients]
      exact List.mem_append_right _ List.mem_cons_self
    · exact fun h => absurd hnone h

/-- The name of the client that an old id stands for. -/
def LegacyExport.clientName (e : LegacyExport) (legacyClientId : String) : Option String :=
  if legacyClientId = "global" then none
  else ((wellShaped e.clients).reverse.find? fun c => c.id = legacyClientId).map LegacyClient.name

theorem foldlM_importClient (cs : List LegacyClient) (s : ImportState)
    (hs : s.idMap.clients = []) :
    ∃ s', cs.foldlM importClient s = some s' ∧
      s.target.tables.SameBut .clients s'.target.tables ∧ Counted True s s' ∧
      KeepsNames s.target s'.target ∧ (∀ c ∈ cs, s'.target.clientNamed c.name ≠ none) ∧
      ∀ x, s'.idMap.clients.lookup x =
        (cs.reverse.find? fun c => c.id = x).bind fun c => s'.target.clientNamed c.name := by
  induction cs using List.reverseRecOn with
  | nil =>
    exact ⟨s, rfl, .refl _ _, .of_eq rfl, fun _ _ h => h, by simp, by simp [hs]⟩
  | append_singleton cs c ih =>
    obtain ⟨s₁, hs₁, hsame₁, hcounted₁, hkeeps₁, hnamed₁, hmap₁⟩ := ih
    obtain ⟨s₂, id, hs₂, hsame₂, hcounted₂, hkeeps₂, hname, hmap₂, -⟩ := importClient_spec s₁ c
    have hstill : ∀ c' ∈ cs, s₂.target.clientNamed c'.name = s₁.target.clientNamed c'.name := by
      intro c' hc'
      obtain ⟨id', hid'⟩ := Option.ne_none_iff_exists'.mp (hnamed₁ c' hc')
      rw [hid', hkeeps₂ _ _ hid']
    refine ⟨s₂, ?_, hsame₁.trans hsame₂, (hcounted₁.trans hcounted₂).congr (by simp),
      fun name c h => hkeeps₂ name c (hkeeps₁ name c h), ?_, ?_⟩
    · rw [List.foldlM_append, hs₁]
      simp [hs₂]
    · intro c' hc'
      rcases List.mem_append.mp hc' with hc' | hc'
      · rw [hstill c' hc']
        exact hnamed₁ c' hc'
      · rw [List.mem_singleton.mp hc', hname]
        exact Option.some_ne_none id
    · intro x
      rw [hmap₂, List.reverse_append, List.reverse_singleton, List.singleton_append,
        List.lookup_cons]
      by_cases hx : c.id = x
      · simp [hx, hname]
      · rw [beq_false_of_ne (Ne.symm hx), List.find?_cons_of_neg (by simpa using hx), hmap₁ x]
        cases hfind : cs.reverse.find? fun c => c.id = x with
        | none => rfl
        | some c' =>
          have hc' : c' ∈ cs := List.mem_reverse.mp (List.mem_of_find?_eq_some hfind)
          exact (hstill c' hc').symm

/-- After the first phase an old id resolves to the client that has its name. -/
theorem importClients_spec (e : LegacyExport) (s : ImportState) (hs : s.idMap.clients = []) :
    ∃ s', importClients e s = some s' ∧ s.target.tables.SameBut .clients s'.target.tables ∧
      Counted True s s' ∧ KeepsNames s.target s'.target ∧
      (∀ c ∈ wellShaped e.clients, s'.target.clientNamed c.name ≠ none) ∧
      ∀ x, s'.idMap.resolveClient x = (e.clientName x).bind s'.target.clientNamed := by
  have hidle : s.Idle (s.count .clients fun r => { r with found := (wellShaped e.clients).length }) :=
    idle_count s .clients fun _ => rfl
  obtain ⟨s', hs', hsame, hcounted, hkeeps, hnamed, hmap⟩ := foldlM_importClient
    (wellShaped e.clients) (s.count .clients fun r => { r with found := (wellShaped e.clients).length })
    hs
  refine ⟨s', hs', hsame, (hidle.counted.trans hcounted).congr (by simp), hkeeps, hnamed, ?_⟩
  intro x
  rw [IdMap.resolveClient, LegacyExport.clientName]
  split
  · rfl
  · rw [hmap x, Option.bind_map]
    rfl

/-- Clients that are all known are not imported again. -/
theorem importClients_idle {e : LegacyExport} {s s' : ImportState}
    (h : ∀ c ∈ wellShaped e.clients, s.target.clientNamed c.name ≠ none)
    (hs' : importClients e s = some s') : s.Idle s' := by
  have hidle : s.Idle (s.count .clients fun r => { r with found := (wellShaped e.clients).length }) :=
    idle_count s .clients fun _ => rfl
  refine invariant_foldlM (I := fun x => s.Idle x) ?_ hs' hidle
  intro s₁ c hc s₂ hs₂ hidle
  obtain ⟨s₂', -, heq, -, -, -, -, -, hstep⟩ := importClient_spec s₁ c
  obtain rfl := Option.some.inj (heq.symm.trans hs₂)
  refine hidle.trans (hstep ?_)
  rw [hidle.1]
  exact h c hc

end Desktop
