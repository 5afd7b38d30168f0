import BankStatementProcessor.Desktop.Properties.LegacyEntities
import BankStatementProcessor.Infra.Filing

/-!
# The import history of the old app

The records of the history are filed among the imports of the database: a record is looked up under
the number of transactions it declares, and filed under the number it has.
-/

namespace Desktop

open Infra ImportState

/-- `(client_id, file_name, txn_count)` -/
def ImportRecord.lookupKey (i : ImportRecord) : ℕ × String × ℤ :=
  (i.clientId, i.fileName, (i.txnCount : ℤ))

/-- A record with its client, as it is filed. -/
def LegacyExport.filing (e : LegacyExport) :
    Filing (ℕ × LegacyImportMeta) ImportRecord.id (ℕ × String × ℤ) where
  under := ImportRecord.lookupKey
  wanted p := (p.1, p.2.fileName, p.2.txnCount)
  got p := (p.1, p.2.fileName, ((e.legacyTransactions p.2.id).length : ℤ))
  row p id := ⟨id, p.1, p.2.fileName, e.bankFallback p.2.id, e.acctFallback p.2.id,
    (e.legacyTransactions p.2.id).length⟩
  row_key _ _ := rfl
  under_row _ _ := rfl

section

variable {e : LegacyExport} {s : ImportState} {c : ℕ} {h : LegacyImportMeta}

theorem existingImport_eq (e : LegacyExport) (d : FullDb) (c : ℕ) (h : LegacyImportMeta) :
    d.existingImport c h.fileName h.txnCount =
      e.filing.lookup d.db.importHistory (e.filing.wanted (c, h)) := by
  rw [FullDb.existingImport, Filing.lookup]
  congr 2
  funext i
  rw [decide_eq_decide]
  show _ ↔ (i.clientId, i.fileName, (i.txnCount : ℤ)) = (c, h.fileName, h.txnCount)
  rw [Prod.mk.injEq, Prod.mk.injEq]

theorem importEntry_spec (hclient : s.target.HasClient c) (h : LegacyImportMeta) :
    ∃ s', importEntry e s c h = some (s', (e.filing.file s.target.db.importHistory (c, h)).2) ∧
      Wrote .importHistory True s s' ∧
      s'.target.db.importHistory = (e.filing.file s.target.db.importHistory (c, h)).1 := by
  cases hfind : s.target.existingImport c h.fileName h.txnCount with
  | some id =>
    have hlookup := (existingImport_eq e s.target c h).symm.trans hfind
    have heq : importEntry e s c h = some (s.count .importHistory fun x =>
        { x with skippedDuplicate := x.skippedDuplicate + 1 }, id) := by
      rw [importEntry, hfind]
    rw [Filing.file_of_some hlookup]
    exact ⟨_, heq, .count s _ fun _ => rfl, rfl⟩
  | none =>
    have hlookup := (existingImport_eq e s.target c h).symm.trans hfind
    obtain ⟨d, hsave, hsame, hhistory⟩ := FullDb.saveImport_spec h.fileName (e.bankFallback h.id)
      (e.acctFallback h.id) (e.legacyTransactions h.id).length hclient
    have heq : importEntry e s c h = some ({ s with target := d }.count .importHistory fun x =>
        { x with imported := x.imported + 1 }, s.target.db.importHistory.nextId) := by
      rw [importEntry, hfind]
      simp only [hsave]
      rfl
    rw [Filing.file_of_none hlookup]
    refine ⟨_, heq, (Wrote.of_step (n := 1) (m := 1) (by decide) hsame (fun _ => rfl) ?_
      le_rfl).congr (by simp), hhistory⟩
    show d.db.importHistory.rows.length = s.target.db.importHistory.rows.length + 1
    rw [hhistory]
    exact List.length_append

/-- The transactions of an import fit into one query. -/
def Fits (env : ImportEnv) (txns : List Transaction) : Prop :=
  txns = [] ∨ txns.length + 1 ≤ env.maxVariables

/-- The rows with one of the ids of the client. -/
def FullDb.present (d : FullDb) (c : ℕ) (ids : List String) : ℕ :=
  d.db.transactions.rows.countP fun r => r.clientId = c ∧ r.id ∈ ids

theorem count_eq_present {env : ImportEnv} {d : FullDb} {txns : List Transaction}
    (h : Fits env txns) :
    d.countExistingTransactionIds env.maxVariables c (txns.map Transaction.id) =
      some (d.present c (txns.map Transaction.id)) := by
  by_cases hnil : txns = []
  · subst hnil
    exact congrArg some (List.countP_eq_zero.mpr fun r _ => by simp).symm
  · have hlimit : ¬env.maxVariables < (txns.map Transaction.id).length + 1 := by
      have := h.resolve_left hnil
      rw [List.length_map]
      omega
    rw [FullDb.countExistingTransactionIds, if_neg (by simpa using hnil), if_neg hlimit]
    rfl

theorem count_eq_none {env : ImportEnv} {d : FullDb} {txns : List Transaction}
    (h : ¬Fits env txns) :
    d.countExistingTransactionIds env.maxVariables c (txns.map Transaction.id) = none := by
  obtain ⟨hne, hlong⟩ := not_or.mp h
  rw [FullDb.countExistingTransactionIds, if_neg (by simpa using hne), List.length_map,
    if_pos (by omega)]

theorem keys_rowsOf (importId : ℕ) (txns : List Transaction) :
    (FullDb.rowsOf c importId txns).map TransactionRow.key =
      (txns.map Transaction.id).map fun id => (c, id) := by
  rw [FullDb.rowsOf, List.map_map, List.map_map]
  rfl

theorem mem_keys_rowsOf {k : ℕ × String} (importId : ℕ) (txns : List Transaction) :
    k ∈ (FullDb.rowsOf c importId txns).map TransactionRow.key ↔
      k.1 = c ∧ k.2 ∈ txns.map Transaction.id := by
  rw [keys_rowsOf]
  constructor
  · intro hk
    obtain ⟨id, hid, rfl⟩ := List.mem_map.mp hk
    exact ⟨rfl, hid⟩
  · rintro ⟨rfl, hid⟩
    exact List.mem_map_of_mem hid

/-- The rows that `present` counts are those with a key that is written. -/
theorem mem_present {r : TransactionRow} (importId : ℕ) (txns : List Transaction) :
    decide (r.clientId = c ∧ r.id ∈ txns.map Transaction.id) = true ↔
      r.key ∈ (FullDb.rowsOf c importId txns).map TransactionRow.key := by
  rw [mem_keys_rowsOf, decide_eq_true_iff]
  rfl

theorem importTransactions_spec {env : ImportEnv} (r : ImportRun) {importId : ℕ}
    {txns : List Transaction} (hclient : s.target.HasClient c)
    (himport : ∃ i ∈ s.target.db.importHistory.rows, i.id = importId) (hfits : Fits env txns) :
    ∃ s', importTransactions env r s c importId txns = some s' ∧
      Wrote .transactions (txns.map Transaction.id).Nodup s s' ∧
      s'.target.db.transactions =
        s.target.db.transactions.replaceAll (FullDb.rowsOf c importId txns) ∧
      s'.target.createdAt = fun k =>
        if k.1 = c ∧ k.2 ∈ txns.map Transaction.id then r.writtenAt k else s.target.createdAt k := by
  obtain ⟨d, hupsert, hsame, htxns, hcreated⟩ := FullDb.upsertTransactions_spec
    r.writtenAt txns hclient himport
  have heq : importTransactions env r s c importId txns =
      some ({ s with target := d }.count .transactions fun x =>
        { x with
          imported := x.imported + (txns.length - s.target.present c (txns.map Transaction.id))
          skippedDuplicate := x.skippedDuplicate +
            s.target.present c (txns.map Transaction.id) }) := by
    rw [importTransactions, count_eq_present hfits]
    simp only [Option.bind_eq_bind, Option.bind_some, hupsert]
  -- what is reported without being written are the repeated keys
  let keys := (FullDb.rowsOf c importId txns).map TransactionRow.key
  have hlength : keys.length = txns.length := by simp [keys, FullDb.rowsOf]
  have hle : s.target.present c (txns.map Transaction.id) ≤ keys.dedup.length :=
    Keyed.countP_mem_keys_le _ fun r => mem_present importId txns
  have hadded : d.db.transactions.rows.length + s.target.present c (txns.map Transaction.id) =
      s.target.db.transactions.rows.length + keys.dedup.length := by
    rw [htxns]
    exact Keyed.length_replaceAll _ fun r => mem_present importId txns
  have hrows : d.rowCount .transactions = s.target.rowCount .transactions +
      (keys.dedup.length - s.target.present c (txns.map Transaction.id)) := by
    show d.db.transactions.rows.length = s.target.db.transactions.rows.length + _
    omega
  have hdedup := (List.dedup_sublist keys).length_le
  have hnodup : keys.Nodup ↔ (txns.map Transaction.id).Nodup := by
    rw [show keys = _ from keys_rowsOf importId txns]
    exact List.nodup_map_iff fun x y heq => (Prod.mk.inj heq).2
  refine ⟨_, heq, (Wrote.of_step (by decide) hsame (fun _ => rfl) hrows ?_).congr ?_, htxns,
    hcreated⟩
  · omega
  · rw [← hnodup, ← length_eq_length_dedup]
    omega

end

/-! ## The loop -/

/-- The records of clients that are known, with their clients. -/
def resolvedHistory (m : IdMap) (hs : List LegacyImportMeta) : List (ℕ × LegacyImportMeta) :=
  hs.filterMap fun h => (m.resolveClient h.clientId).map fun c => (c, h)

/-- The rows written for records that got these entries. -/
def LegacyExport.rowsGiven (e : LegacyExport) (env : ImportEnv)
    (given : List ((ℕ × LegacyImportMeta) × ℕ)) : List TransactionRow :=
  given.flatMap fun p => FullDb.rowsOf p.1.1 p.2 (e.transactions env p.1.2.id)

/-- What the loop over the records of the history has done. -/
structure Recorded (env : ImportEnv) (r : ImportRun) (e : LegacyExport)
    (rs : List (ℕ × LegacyImportMeta)) (s : ImportState)
    (out : ImportState × List (LegacyImportMeta × ℕ)) : Prop where
  clients : out.1.target.db.clients = s.target.db.clients
  rules : out.1.target.rules.rules = s.target.rules.rules
  ledgers : out.1.target.ledgers = s.target.ledgers
  dedupeHashes : out.1.target.dedupeHashes = s.target.dedupeHashes
  idMap : out.1.idMap = s.idMap
  importHistory : out.1.target.db.importHistory = (e.filing.fileAll s.target.db.importHistory rs).1
  entries : out.2 = (e.filing.fileAll s.target.db.importHistory rs).2.map fun p => (p.1.2, p.2)
  transactions : out.1.target.db.transactions = s.target.db.transactions.replaceAll
    (e.rowsGiven env (e.filing.fileAll s.target.db.importHistory rs).2)
  createdAt : ∀ k, out.1.target.createdAt k =
    if k ∈ (e.rowsGiven env (e.filing.fileAll s.target.db.importHistory rs).2).map
      TransactionRow.key then r.writtenAt k else s.target.createdAt k
  counted : Counted (∀ p ∈ rs, ((e.transactions env p.2.id).map Transaction.id).Nodup) s out.1

section

variable {env : ImportEnv} {r : ImportRun} {e : LegacyExport} {rs : List (ℕ × LegacyImportMeta)}
  {s s' : ImportState} {entries : List (LegacyImportMeta × ℕ)} {c : ℕ} {h : LegacyImportMeta}

theorem Recorded.start (s : ImportState) : Recorded env r e [] s (s, []) where
  clients := rfl
  rules := rfl
  ledgers := rfl
  dedupeHashes := rfl
  idMap := rfl
  importHistory := rfl
  entries := rfl
  transactions := rfl
  createdAt _ := rfl
  counted := (Counted.of_eq rfl).congr (by simp)

/-- A record of an unknown client is passed over. -/
theorem importRecord_unknown (hres : s.idMap.resolveClient h.clientId = none) :
    importRecord env r e (s, entries) h =
      some (s.count .importHistory fun x => { x with failed := x.failed + 1 }, entries) := by
  rw [importRecord, hres]

theorem Recorded.unknown {s₀ : ImportState} (hrec : Recorded env r e rs s₀ (s, entries)) :
    Recorded env r e rs s₀
      (s.count .importHistory fun x => { x with failed := x.failed + 1 }, entries) where
  clients := hrec.clients
  rules := hrec.rules
  ledgers := hrec.ledgers
  dedupeHashes := hrec.dedupeHashes
  idMap := hrec.idMap
  importHistory := hrec.importHistory
  entries := hrec.entries
  transactions := hrec.transactions
  createdAt := hrec.createdAt
  counted := by
    have hidle : s.Idle (s.count .importHistory fun x => { x with failed := x.failed + 1 }) :=
      idle_count s _ fun _ => rfl
    exact (hrec.counted.trans hidle.counted).congr (and_iff_left trivial)

/-- Without a query that takes its ids an import fails. -/
theorem importRecord_eq_none (hres : s.idMap.resolveClient h.clientId = some c)
    (hfits : ¬Fits env (e.transactions env h.id)) : importRecord env r e (s, entries) h = none := by
  have hnone : ∀ s₁ importId, importTransactions env r s₁ c importId (e.transactions env h.id) =
      none := by
    intro s₁ importId
    rw [importTransactions, count_eq_none hfits]
    rfl
  rw [importRecord, hres]
  simp only [Option.bind_eq_bind, hnone, Option.bind_none, Option.bind_fun_none]

/-- A record of a known client is filed, and its transactions are written under its entry. -/
theorem Recorded.known {s₀ : ImportState} (hrec : Recorded env r e rs s₀ (s, entries))
    (hs : s.Resolves) (hres : s.idMap.resolveClient h.clientId = some c)
    (hfits : Fits env (e.transactions env h.id)) :
    ∃ out, importRecord env r e (s, entries) h = some out ∧
      Recorded env r e (rs ++ [(c, h)]) s₀ out ∧ out.1.Resolves := by
  let found := s.count .transactions fun x =>
    { x with found := x.found + (e.importTransactions h.id).length }
  have hfound : Wrote .transactions True s found := .count s _ fun _ => rfl
  have hclient : found.target.HasClient c := hs _ c hres
  obtain ⟨s₁, hentry, hwrote₁, hhistory⟩ := importEntry_spec (e := e) hclient h
  have hrow : ∃ i ∈ s₁.target.db.importHistory.rows,
      i.id = (e.filing.file s.target.db.importHistory (c, h)).2 := by
    rw [hhistory]
    exact Filing.exists_row_file (c, h)
  obtain ⟨s₂, htxns, hwrote₂, hreplaced, hcreated⟩ := importTransactions_spec r
    ((hwrote₁.hasClient (by decide)).mpr hclient) hrow hfits
  have heq : importRecord env r e (s, entries) h =
      some (s₂, entries ++ [(h, (e.filing.file s.target.db.importHistory (c, h)).2)]) := by
    rw [importRecord, hres]
    simp only [Option.bind_eq_bind]
    show (importEntry e found c h).bind _ = _
    rw [hentry, Option.bind_some]
    show (importTransactions env r s₁ c (e.filing.file s.target.db.importHistory (c, h)).2
      (e.transactions env h.id)).bind _ = _
    rw [htxns]
    rfl
  let given := e.filing.fileAll s₀.target.db.importHistory rs
  have hsame : s.target.db.importHistory = given.1 := hrec.importHistory
  have hfile : e.filing.fileAll s₀.target.db.importHistory (rs ++ [(c, h)]) =
      ((e.filing.file given.1 (c, h)).1, given.2 ++ [((c, h), (e.filing.file given.1 (c, h)).2)]) :=
    Filing.fileAll_append_singleton
  have hrows : e.rowsGiven env (given.2 ++ [((c, h), (e.filing.file given.1 (c, h)).2)]) =
      e.rowsGiven env given.2 ++
        FullDb.rowsOf c (e.filing.file given.1 (c, h)).2 (e.transactions env h.id) := by
    rw [LegacyExport.rowsGiven, List.flatMap_append, List.flatMap_singleton]
    rfl
  refine ⟨_, heq, ?_, hwrote₂.resolves (by decide)
    (hwrote₁.resolves (by decide) (hfound.resolves (by decide) hs))⟩
  refine ⟨?_, ?_, ?_, ?_, ?_, ?_, ?_, ?_, ?_, ?_⟩
  · exact (hwrote₂.same.clients (by decide)).trans
      ((hwrote₁.same.clients (by decide)).trans hrec.clients)
  · exact (hwrote₂.same.rules (by decide)).trans ((hwrote₁.same.rules (by decide)).trans hrec.rules)
  · exact (hwrote₂.same.ledgers (by decide)).trans
      ((hwrote₁.same.ledgers (by decide)).trans hrec.ledgers)
  · exact (hwrote₂.same.dedupeHashes (by decide)).trans
      ((hwrote₁.same.dedupeHashes (by decide)).trans hrec.dedupeHashes)
  · exact hwrote₂.idMap.trans (hwrote₁.idMap.trans hrec.idMap)
  · rw [hfile, ← hsame]
    exact (hwrote₂.same.importHistory (by decide)).trans hhistory
  · rw [hfile, hsame, List.map_append, ← hrec.entries]
    rfl
  · have hbefore : s₁.target.db.transactions = s.target.db.transactions :=
      hwrote₁.same.transactions (by decide)
    rw [hfile, hrows, Keyed.replaceAll_append, hreplaced, hbefore, hsame]
    exact congrArg (fun t => Keyed.replaceAll t _) hrec.transactions
  · intro k
    have hbefore : s₁.target.createdAt = s.target.createdAt :=
      hwrote₁.same.createdAt (by decide)
    have hold := hrec.createdAt k
    rw [hfile, hrows, List.map_append, hcreated, hbefore]
    simp only [List.mem_append, mem_keys_rowsOf]
    by_cases hnew : k.1 = c ∧ k.2 ∈ (e.transactions env h.id).map Transaction.id
    · rw [if_pos hnew, if_pos (Or.inr hnew)]
    · rw [if_neg hnew]
      refine hold.trans (if_congr ?_ rfl rfl)
      exact (or_iff_left hnew).symm
  · refine ((hrec.counted.trans hfound.counted).trans
      (hwrote₁.counted.trans hwrote₂.counted)).congr ?_
    simp [or_imp, forall_and]

theorem resolvedHistory_append_singleton (m : IdMap) (history : List LegacyImportMeta) :
    resolvedHistory m (history ++ [h]) = resolvedHistory m history ++
      ((m.resolveClient h.clientId).map fun c => (c, h)).toList := by
  rw [resolvedHistory, List.filterMap_append, ← resolvedHistory]
  congr 1

/-- The loop files the records of known clients, unless one of them has too many transactions. -/
theorem foldlM_importRecord (hs : s.Resolves) (history : List LegacyImportMeta)
    (hfits : ∀ p ∈ resolvedHistory s.idMap history, Fits env (e.transactions env p.2.id)) :
    ∃ out, history.foldlM (importRecord env r e) (s, []) = some out ∧
      Recorded env r e (resolvedHistory s.idMap history) s out ∧ out.1.Resolves := by
  induction history using List.reverseRecOn with
  | nil => exact ⟨(s, []), rfl, .start s, hs⟩
  | append_singleton history h ih =>
    rw [resolvedHistory_append_singleton] at hfits ⊢
    obtain ⟨⟨s₁, entries⟩, heq, hrec, hs₁⟩ := ih fun p hp => hfits p (List.mem_append_left _ hp)
    have hfold : (history ++ [h]).foldlM (importRecord env r e) (s, []) =
        importRecord env r e (s₁, entries) h := by
      rw [List.foldlM_append, heq]
      simp
    have hmap : s₁.idMap = s.idMap := hrec.idMap
    cases hres : s.idMap.resolveClient h.clientId with
    | none =>
      rw [Option.map_none, Option.toList_none, List.append_nil]
      exact ⟨_, hfold.trans (importRecord_unknown (by rw [hmap, hres])), hrec.unknown, hs₁⟩
    | some c =>
      have hmem : (c, h) ∈ resolvedHistory s.idMap history ++
          ((s.idMap.resolveClient h.clientId).map fun c => (c, h)).toList := by simp [hres]
      obtain ⟨out, hout, hrec', hout'⟩ :=
        hrec.known hs₁ (by rw [hmap, hres]) (hfits _ hmem)
      exact ⟨out, hfold.trans hout, hrec', hout'⟩

/-- When the loop completes, the ids of each record went into one query. -/
theorem fits_of_foldlM (hs : s.Resolves) {history : List LegacyImportMeta}
    {out : ImportState × List (LegacyImportMeta × ℕ)}
    (heq : history.foldlM (importRecord env r e) (s, []) = some out) :
    ∀ p ∈ resolvedHistory s.idMap history, Fits env (e.transactions env p.2.id) := by
  induction history using List.reverseRecOn generalizing out with
  | nil => simp [resolvedHistory]
  | append_singleton history h ih =>
    rw [List.foldlM_append, Option.bind_eq_bind, Option.bind_eq_some_iff] at heq
    obtain ⟨⟨s₁, entries⟩, hfold, hlast⟩ := heq
    have hfits := ih hfold
    obtain ⟨out₁, hfold₁, hrec, -⟩ := foldlM_importRecord (r := r) hs history hfits
    obtain rfl := Option.some.inj (hfold₁.symm.trans hfold)
    have hmap : s₁.idMap = s.idMap := hrec.idMap
    rw [resolvedHistory_append_singleton]
    intro p hp
    rcases List.mem_append.mp hp with hp | hp
    · exact hfits p hp
    · obtain ⟨c, hres, rfl⟩ := Option.map_eq_some_iff.mp (Option.mem_toList.mp hp)
      by_contra hbig
      have hnone : importRecord env r e (s₁, entries) h = none :=
        importRecord_eq_none (by rw [hmap, hres]) hbig
      rw [List.foldlM_cons, hnone] at hlast
      cases hlast

end

/-! ## The whole import -/

/-- The client of a database that an old id stands for. -/
def LegacyExport.resolveIn (e : LegacyExport) (d : FullDb) (x : String) : Option ℕ :=
  (e.clientName x).bind d.clientNamed

/-- All clients, rules, ledgers and hashes of the export are in the database. -/
structure Present (e : LegacyExport) (d : FullDb) : Prop where
  clients : ∀ c ∈ wellShaped e.clients, d.clientNamed c.name ≠ none
  rules : ∀ l ∈ wellShaped e.rules, ∀ c, e.resolveIn d l.clientId = some c →
    d.HasRule c l.pattern
  ledgers : ∀ l ∈ wellShaped e.ledgers, ∀ c, e.resolveIn d l.clientId = some c →
    d.HasLedger c l.name
  hashes : ∀ h ∈ wellShaped e.dedupe, ∀ c, e.resolveIn d h.clientId = some c →
    (c, h.hash) ∈ d.dedupeHashes

section

variable {env : ImportEnv} {r : ImportRun} {e : LegacyExport} {d d' : FullDb}

theorem resolveIn_congr (h : d'.db.clients = d.db.clients) (x : String) :
    e.resolveIn d' x = e.resolveIn d x := by
  rw [LegacyExport.resolveIn, LegacyExport.resolveIn]
  exact congrArg _ (funext fun name => FullDb.clientNamed_congr h)

theorem Present.congr (h : Present e d) (hclients : d'.db.clients = d.db.clients)
    (hrules : d'.rules.rules = d.rules.rules) (hledgers : d'.ledgers = d.ledgers)
    (hhashes : d'.dedupeHashes = d.dedupeHashes) : Present e d' where
  clients c hc := by
    rw [FullDb.clientNamed_congr hclients]
    exact h.clients c hc
  rules l hl c hc := by
    rw [resolveIn_congr hclients] at hc
    rw [FullDb.HasRule, hrules]
    exact h.rules l hl c hc
  ledgers l hl c hc := by
    rw [resolveIn_congr hclients] at hc
    rw [FullDb.HasLedger, hledgers]
    exact h.ledgers l hl c hc
  hashes x hx c hc := by
    rw [resolveIn_congr hclients] at hc
    rw [hhashes]
    exact h.hashes x hx c hc

/-- The state an import starts with. -/
def ImportState.start (d : FullDb) : ImportState := ⟨d, ⟨[]⟩, .new⟩

attribute [local instance] lawfulBEq_hashItem

/-- The hashes of the export that are not stored, with their clients. -/
def LegacyExport.newHashItems (e : LegacyExport) (m : IdMap) (d : FullDb) : List (ℕ × String) :=
  (resolved m e.hashItems).filter fun x => x ∉ d.dedupeHashes

/-- What the phases before the import history have done. -/
structure Prepared (e : LegacyExport) (d : FullDb) (s : ImportState) : Prop where
  keeps : KeepsNames d s.target
  resolve : ∀ x, s.idMap.resolveClient x = e.resolveIn s.target x
  present : Present e s.target
  importHistory : s.target.db.importHistory = d.db.importHistory
  transactions : s.target.db.transactions = d.db.transactions
  createdAt : s.target.createdAt = d.createdAt
  counted : Counted (e.newHashItems s.idMap d).Nodup (ImportState.start d) s
  idle : Present e d → (ImportState.start d).Idle s

theorem Prepared.resolves {s : ImportState} (h : Prepared e d s) : s.Resolves := by
  intro x c hx
  rw [h.resolve, LegacyExport.resolveIn, Option.bind_eq_some_iff] at hx
  obtain ⟨name, -, hname⟩ := hx
  exact FullDb.hasClient_of_clientNamed hname

/-- The phases before the import history do not fail. -/
theorem prepared (env : ImportEnv) (r : ImportRun) (e : LegacyExport) (d : FullDb) :
    ∃ s, Prepared e d s ∧ importAll env r e d =
      (importHistoryAndTransactions env r e s).map fun out => (importSettings e out.1, out.2) := by
  obtain ⟨s₁, heq₁, hsame₁, hcounted₁, hkeeps, hnamed, hmap⟩ :=
    importClients_spec e (ImportState.start d) rfl
  have hs₁ : s₁.Resolves := by
    intro x c hx
    rw [hmap, Option.bind_eq_some_iff] at hx
    obtain ⟨name, -, hname⟩ := hx
    exact FullDb.hasClient_of_clientNamed hname
  obtain ⟨s₂, heq₂, hwrote₂, hrules₂, hidle₂⟩ := importRules_spec e hs₁
  have hs₂ := hwrote₂.resolves (by decide) hs₁
  obtain ⟨s₃, heq₃, hwrote₃, hledgers₃, hidle₃⟩ := importLedgers_spec r e hs₂
  have hs₃ := hwrote₃.resolves (by decide) hs₂
  obtain ⟨s₄, heq₄, hwrote₄, hhashes₄, hidle₄⟩ := importDedupe_spec r e hs₃
  have hclients : s₄.target.db.clients = s₁.target.db.clients :=
    (hwrote₄.clients (by decide)).trans
      ((hwrote₃.clients (by decide)).trans (hwrote₂.clients (by decide)))
  have hidMap : s₄.idMap = s₁.idMap := hwrote₄.idMap.trans (hwrote₃.idMap.trans hwrote₂.idMap)
  have hresolve : ∀ x, s₄.idMap.resolveClient x = e.resolveIn s₄.target x := by
    intro x
    rw [hidMap, hmap, resolveIn_congr hclients]
    rfl
  refine ⟨s₄, ⟨?_, hresolve, ⟨?_, ?_, ?_, ?_⟩, ?_, ?_, ?_, ?_, ?_⟩, ?_⟩
  · intro name c hname
    rw [FullDb.clientNamed_congr hclients]
    exact hkeeps name c hname
  · intro c hc
    rw [FullDb.clientNamed_congr hclients]
    exact hnamed c hc
  · intro l hl c hc
    have hrules : s₄.target.rules.rules = s₂.target.rules.rules :=
      (hwrote₄.same.rules (by decide)).trans (hwrote₃.same.rules (by decide))
    rw [← hresolve, hidMap, ← hwrote₂.idMap] at hc
    rw [FullDb.HasRule, hrules]
    exact hrules₂ l hl c hc
  · intro l hl c hc
    have hledgers : s₄.target.ledgers = s₃.target.ledgers := hwrote₄.same.ledgers (by decide)
    rw [← hresolve, hidMap, ← hwrote₂.idMap] at hc
    rw [FullDb.HasLedger, hledgers]
    exact hledgers₃ (c, (l.name, l.group))
      (mem_resolved.mpr ⟨l.clientId, List.mem_map_of_mem hl, hc⟩)
  · intro x hx c hc
    rw [← hresolve, hwrote₄.idMap] at hc
    exact hhashes₄ (c, x.hash) (mem_resolved.mpr ⟨x.clientId, List.mem_map_of_mem hx, hc⟩)
  · exact (hwrote₄.same.importHistory (by decide)).trans
      ((hwrote₃.same.importHistory (by decide)).trans
        ((hwrote₂.same.importHistory (by decide)).trans (hsame₁.importHistory (by decide))))
  · exact (hwrote₄.same.transactions (by decide)).trans
      ((hwrote₃.same.transactions (by decide)).trans
        ((hwrote₂.same.transactions (by decide)).trans (hsame₁.transactions (by decide))))
  · exact (hwrote₄.same.createdAt (by decide)).trans
      ((hwrote₃.same.createdAt (by decide)).trans
        ((hwrote₂.same.createdAt (by decide)).trans (hsame₁.createdAt (by decide))))
  · have hhashes : s₃.target.dedupeHashes = d.dedupeHashes :=
      (hwrote₃.same.dedupeHashes (by decide)).trans
        ((hwrote₂.same.dedupeHashes (by decide)).trans (hsame₁.dedupeHashes (by decide)))
    refine ((hcounted₁.trans hwrote₂.counted).trans
      (hwrote₃.counted.trans hwrote₄.counted)).congr ?_
    rw [true_and, true_and, true_and, LegacyExport.newHashItems, hwrote₄.idMap, hhashes]
  · intro h
    have hidle₁ := importClients_idle h.clients heq₁
    have hres : ∀ x, s₁.idMap.resolveClient x = e.resolveIn d x := by
      intro x
      rw [hmap, hidle₁.1]
      rfl
    have hidle₁₂ : s₁.Idle s₂ := hidle₂ fun l hl c hc => by
      rw [hres] at hc
      rw [hidle₁.1]
      exact h.rules l hl c hc
    have hidle₂₃ : s₂.Idle s₃ := hidle₃ fun item hitem => by
      obtain ⟨x, hx, hc⟩ := mem_resolved.mp (show (item.1, item.2) ∈ _ from hitem)
      obtain ⟨l, hl, heq⟩ := List.mem_map.mp hx
      obtain ⟨rfl, hitem⟩ := Prod.mk.inj heq
      rw [hwrote₂.idMap, hres] at hc
      rw [hidle₁₂.1, hidle₁.1, ← hitem]
      exact h.ledgers l hl item.1 hc
    have hidle₃₄ : s₃.Idle s₄ := hidle₄ fun item hitem => by
      obtain ⟨x, hx, hc⟩ := mem_resolved.mp (show (item.1, item.2) ∈ _ from hitem)
      obtain ⟨l, hl, heq⟩ := List.mem_map.mp hx
      obtain ⟨rfl, hitem⟩ := Prod.mk.inj heq
      rw [hwrote₃.idMap, hwrote₂.idMap, hres] at hc
      rw [hidle₂₃.1, hidle₁₂.1, hidle₁.1]
      show (item.1, item.2) ∈ _
      rw [← hitem]
      exact h.hashes l hl item.1 hc
    exact hidle₁.trans (hidle₁₂.trans (hidle₂₃.trans hidle₃₄))
  · rw [importAll]
    show (importClients e (ImportState.start d)).bind _ = _
    rw [heq₁, Option.bind_some, heq₂]
    simp only [Option.bind_eq_bind, Option.bind_some, heq₃, heq₄]
    rw [Option.map_eq_bind]
    rfl

theorem lead_importSettings (e : LegacyExport) (s : ImportState) :
    (importSettings e s).lead = s.lead := by
  have hcount : ∀ f, (s.count .settings f).lead = s.lead := by
    intro f
    funext k
    rw [lead, lead, imported_count]
    by_cases hk : k = .settings
    · rw [if_pos hk, if_pos hk]
    · rw [if_neg hk, if_neg hk, if_neg hk]
      rfl
  unfold importSettings
  split
  · rfl
  · exact hcount _
  · exact hcount _
  · exact hcount _

theorem importSettings_frame (e : LegacyExport) (s : ImportState) :
    (importSettings e s).target = s.target ∧ (importSettings e s).idMap = s.idMap := by
  unfold importSettings
  split <;> exact ⟨rfl, rfl⟩

/-- The settings are written elsewhere. -/
theorem Recorded.settings {rs : List (ℕ × LegacyImportMeta)} {p s : ImportState}
    {entries : List (LegacyImportMeta × ℕ)} (h : Recorded env r e rs p (s, entries)) :
    Recorded env r e rs p (importSettings e s, entries) := by
  obtain ⟨htarget, hmap⟩ := importSettings_frame e s
  obtain ⟨hclients, hrules, hledgers, hhashes, hidMap, hhistory, hentries, htxns, hcreated,
    hcounted⟩ := h
  refine ⟨?_, ?_, ?_, ?_, hmap.trans hidMap, ?_, hentries, ?_, ?_, ?_⟩ <;> dsimp only <;>
    try rw [htarget]
  · exact hclients
  · exact hrules
  · exact hledgers
  · exact hhashes
  · exact hhistory
  · exact htxns
  · exact hcreated
  · exact ⟨(lead_importSettings e s) ▸ hcounted.le, by rw [lead_importSettings]; exact hcounted.eq_iff⟩

/-- The records of the history that are filed. -/
def LegacyExport.records (e : LegacyExport) (m : IdMap) : List (ℕ × LegacyImportMeta) :=
  resolvedHistory m (wellShaped e.history)

/-- An import completes unless an import of the old app has too many transactions. -/
theorem importAll_spec (env : ImportEnv) (r : ImportRun) (e : LegacyExport) (d : FullDb) :
    ∃ p, Prepared e d p ∧
      ((∀ q ∈ e.records p.idMap, Fits env (e.transactions env q.2.id)) ∧
          (∃ out, importAll env r e d = some out ∧ Recorded env r e (e.records p.idMap) p out) ∨
        ¬(∀ q ∈ e.records p.idMap, Fits env (e.transactions env q.2.id)) ∧
          importAll env r e d = none) := by
  obtain ⟨p, hprep, heq⟩ := prepared env r e d
  refine ⟨p, hprep, ?_⟩
  let f : EntityReport → EntityReport := fun c => { c with found := (wellShaped e.history).length }
  have hidle : p.Idle (p.count .importHistory f) := idle_count p _ fun _ => rfl
  have hres : (p.count .importHistory f).Resolves := hprep.resolves
  by_cases hfits : ∀ q ∈ e.records p.idMap, Fits env (e.transactions env q.2.id)
  · obtain ⟨⟨s, entries⟩, hfold, hrec, -⟩ :=
      foldlM_importRecord (r := r) hres (wellShaped e.history) hfits
    refine Or.inl ⟨hfits, (importSettings e s, entries), ?_, ?_⟩
    · rw [heq, importHistoryAndTransactions]
      show ((wellShaped e.history).foldlM (importRecord env r e)
        (p.count .importHistory f, [])).map _ = _
      rw [hfold]
      rfl
    · refine Recorded.settings ⟨hrec.clients, hrec.rules, hrec.ledgers, hrec.dedupeHashes,
        hrec.idMap, hrec.importHistory, hrec.entries, hrec.transactions, hrec.createdAt, ?_⟩
      exact (hidle.counted.trans hrec.counted).congr (and_iff_right trivial)
  · refine Or.inr ⟨hfits, ?_⟩
    rw [heq, Option.map_eq_none_iff, importHistoryAndTransactions]
    cases hfold : (wellShaped e.history).foldlM (importRecord env r e)
        (p.count .importHistory f, []) with
    | none => rfl
    | some out => exact absurd (fits_of_foldlM hres hfold) hfits

end

/-! ## The records by the names of their clients -/

/-- The records of the history that refer to a client of the export. -/
def LegacyExport.ownedHistory (e : LegacyExport) : List LegacyImportMeta :=
  (wellShaped e.history).filter fun h => (e.clientName h.clientId).isSome

/-- The client that a record refers to, if it is known. -/
def IdMap.clientOf (m : IdMap) (h : LegacyImportMeta) : ℕ := (m.resolveClient h.clientId).getD 0

section

variable {e : LegacyExport} {d : FullDb} {p : ImportState} {x name : String}

/-- A name that an old id stands for is the name of a client of the export. -/
theorem exists_of_clientName (h : e.clientName x = some name) :
    ∃ c ∈ wellShaped e.clients, c.name = name := by
  rw [LegacyExport.clientName] at h
  split at h
  · cases h
  · obtain ⟨c, hc, rfl⟩ := Option.map_eq_some_iff.mp h
    exact ⟨c, List.mem_reverse.mp (List.mem_of_find?_eq_some hc), rfl⟩

/-- The clients of the export are clients of the database. -/
theorem Prepared.named (h : Prepared e d p) (hx : e.clientName x = some name) :
    ∃ c, p.target.clientNamed name = some c ∧ p.idMap.resolveClient x = some c := by
  obtain ⟨c, hc, rfl⟩ := exists_of_clientName hx
  obtain ⟨id, hid⟩ := Option.ne_none_iff_exists'.mp (h.present.clients c hc)
  refine ⟨id, hid, ?_⟩
  rw [h.resolve, LegacyExport.resolveIn, hx, Option.bind_some, hid]

theorem Prepared.resolve_eq_none (h : Prepared e d p) (hx : e.clientName x = none) :
    p.idMap.resolveClient x = none := by
  rw [h.resolve, LegacyExport.resolveIn, hx]
  rfl

theorem Prepared.clientNamed_clientOf (h : Prepared e d p) {m : LegacyImportMeta}
    (hm : e.clientName m.clientId = some name) :
    p.target.clientNamed name = some (p.idMap.clientOf m) := by
  obtain ⟨c, hc, hres⟩ := h.named hm
  rw [hc, IdMap.clientOf, hres, Option.getD_some]

/-- The records that are filed are those that refer to a client of the export. -/
theorem Prepared.records_eq (h : Prepared e d p) :
    e.records p.idMap = e.ownedHistory.map fun m => (p.idMap.clientOf m, m) := by
  rw [LegacyExport.records, LegacyExport.ownedHistory]
  induction wellShaped e.history with
  | nil => rfl
  | cons m ms ih =>
    rw [resolvedHistory, List.filterMap_cons, ← resolvedHistory, ih]
    cases hname : e.clientName m.clientId with
    | none => simp [h.resolve_eq_none hname, hname]
    | some name =>
      obtain ⟨c, -, hres⟩ := h.named hname
      simp [hres, hname, IdMap.clientOf]

end

end Desktop
