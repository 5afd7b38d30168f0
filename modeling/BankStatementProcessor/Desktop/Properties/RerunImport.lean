import BankStatementProcessor.Desktop.Properties.LegacyHistory

/-!
# Importing the same export again

Clients, rules, ledgers and hashes are found again. A record of the history is found again when
some import has the number of transactions that it declares, and its transactions are written again
in any case, over what was changed in the meantime.
-/

namespace Desktop

open Infra ImportState

/-! ## Changes between two imports -/

/-- An edit of a classification on the screen. -/
def FullDb.classify (d : FullDb) (u : ClassificationUpdate) : FullDb :=
  d.withDb (d.db.upsertTransactionClassification u) rfl

def FullDb.edited (d : FullDb) (us : List ClassificationUpdate) : FullDb := run classify d us

/-- What the edits make of one row. -/
def TransactionRow.edited (us : List ClassificationUpdate) (r : TransactionRow) : TransactionRow :=
  us.foldl (fun r u => if r.key = (u.clientId, u.txnId) then r.classified u else r) r

section

variable {d d' : FullDb} {us : List ClassificationUpdate} {r : TransactionRow}

theorem edited_transactions (d : FullDb) (us : List ClassificationUpdate) :
    (d.edited us).db.transactions.rows =
      d.db.transactions.rows.map (TransactionRow.edited us) := by
  induction us generalizing d with
  | nil => exact (List.map_id _).symm
  | cons u us ih =>
    rw [FullDb.edited, run_cons, ← FullDb.edited, ih]
    exact List.map_map

theorem edited_tables (d : FullDb) (us : List ClassificationUpdate) :
    (d.edited us).tables =
      { d.tables with transactions := (d.edited us).db.transactions } := by
  induction us generalizing d with
  | nil => rfl
  | cons u us ih =>
    rw [FullDb.edited, run_cons, ← FullDb.edited, ih]
    rfl

theorem edited_key (us : List ClassificationUpdate) (r : TransactionRow) :
    (r.edited us).key = r.key ∧ (r.edited us).importId = r.importId := by
  induction us generalizing r with
  | nil => exact ⟨rfl, rfl⟩
  | cons u us ih =>
    rw [TransactionRow.edited, List.foldl_cons, ← TransactionRow.edited]
    split
    · exact ih (r.classified u)
    · exact ih r

/-- A row is as it was when it is still there. -/
theorem mem_edited_iff (hr : r ∈ d.db.transactions.rows) :
    r ∈ (d.edited us).db.transactions.rows ↔ r.edited us = r := by
  rw [edited_transactions, List.mem_map]
  constructor
  · rintro ⟨r₀, hr₀, heq⟩
    have hkey : r₀.key = r.key := by rw [← heq, (edited_key us r₀).1]
    rwa [d.db.transactions.eq_of_key hr₀ hr hkey] at heq
  · exact fun h => ⟨r, hr, h⟩

end

/-! ## What should hold of a second import -/

/-- Two databases with the same rows, `created_at` of the transactions aside. -/
structure FullDb.SameRows (d d' : FullDb) : Prop where
  clients : d'.db.clients = d.db.clients
  rules : d'.rules.rules = d.rules.rules
  ledgers : d'.ledgers = d.ledgers
  dedupeHashes : d'.dedupeHashes = d.dedupeHashes
  importHistory : d'.db.importHistory = d.db.importHistory
  transactions : d'.db.transactions = d.db.transactions

/-- The import completes, no row has changed in any column but `created_at`, and none is reported
as imported. -/
def ChangesNoRow (env : ImportEnv) (r : ImportRun) (e : LegacyExport) (d : FullDb) : Prop :=
  ∃ s entries, importAll env r e d = some (s, entries) ∧ d.SameRows s.target ∧
    ∀ k, k ≠ .settings → s.imported k = 0

/-- The import completes, the tables are exactly as they were, and nothing is reported as
imported. -/
def ChangesNothing (env : ImportEnv) (r : ImportRun) (e : LegacyExport) (d : FullDb) : Prop :=
  ∃ s entries, importAll env r e d = some (s, entries) ∧ s.target = d ∧
    ∀ k, k ≠ .settings → s.imported k = 0

/-- Imports of the old app with different ids have different entries. -/
def OwnEntries (entries : List (LegacyImportMeta × ℕ)) : Prop :=
  Filing.Separate LegacyImportMeta.id entries

/-! ## When it does -/

/-- The import that a record is looked up as: the name of the client, the file and the number of
transactions that the record declares. -/
def LegacyExport.declared (e : LegacyExport) (h : LegacyImportMeta) : Option String × String × ℤ :=
  (e.clientName h.clientId, h.fileName, h.txnCount)

/-- The import that a record is recorded as: the number of transactions is the one it has. -/
def LegacyExport.actual (e : LegacyExport) (h : LegacyImportMeta) : Option String × String × ℤ :=
  (e.clientName h.clientId, h.fileName, ((e.legacyTransactions h.id).length : ℤ))

def FullDb.hasImport (d : FullDb) (k : Option String × String × ℤ) : Bool :=
  d.db.importHistory.rows.any fun i =>
    k.1.bind d.clientNamed = some i.clientId && (i.fileName, (i.txnCount : ℤ)) = k.2

/-- The record is not found at first and is recorded as `k`. -/
def LegacyExport.adds (e : LegacyExport) (d : FullDb) (k : Option String × String × ℤ)
    (h : LegacyImportMeta) : Bool :=
  !d.hasImport (e.declared h) && e.actual h = k

/-- A record is found at first, or one of these records adds what it is looked up as. -/
def LegacyExport.FoundAmong (e : LegacyExport) (d : FullDb) (hs : List LegacyImportMeta)
    (h : LegacyImportMeta) : Prop :=
  d.hasImport (e.declared h) = true ∨ ∃ i ∈ hs, e.adds d (e.declared h) i = true

/-- The transaction ids of a record. -/
def LegacyExport.idsOf (e : LegacyExport) (env : ImportEnv) (h : LegacyImportMeta) : List String :=
  (e.transactions env h.id).map Transaction.id

/-- The row has a key that the import wrote. -/
def LegacyExport.Writes (e : LegacyExport) (env : ImportEnv) (d : FullDb) (k : ℕ × String) : Prop :=
  ∃ h ∈ e.ownedHistory, e.resolveIn d h.clientId = some k.1 ∧ k.2 ∈ e.idsOf env h

/-- When an import into `d` that led to `d₁` can be run again after the edits `us`. -/
structure RerunSafe (env : ImportEnv) (e : LegacyExport) (d d₁ : FullDb)
    (us : List ClassificationUpdate) : Prop where
  /-- Records with different ids are not found as one import that was there. -/
  old : ∀ h ∈ e.ownedHistory, ∀ h' ∈ e.ownedHistory, d.hasImport (e.declared h) = true →
    e.declared h' = e.declared h → h.id = h'.id
  /-- A record is not found as the import that one with another id is recorded as first. -/
  new : ∀ pre h post, e.ownedHistory = pre ++ h :: post → d.hasImport (e.declared h) = false →
    ∀ i, pre.find? (e.adds d (e.declared h)) = some i → i.id = h.id
  /-- Every record is found in the end. -/
  found : ∀ h ∈ e.ownedHistory, e.FoundAmong d e.ownedHistory h
  /-- A record is found as itself when no later record writes one of its transactions again. -/
  itself : ∀ pre h post, e.ownedHistory = pre ++ h :: post →
    (∃ id ∈ e.idsOf env h, ∀ h' ∈ post, e.clientName h'.clientId = e.clientName h.clientId →
      id ∉ e.idsOf env h') →
    e.FoundAmong d (pre ++ [h]) h
  /-- No record repeats a transaction id. -/
  ids : ∀ h ∈ e.ownedHistory, (e.idsOf env h).Nodup
  /-- No edit changes a row that the import wrote. -/
  kept : ∀ r ∈ d₁.db.transactions.rows, e.Writes env d₁ r.key →
    r ∈ (d₁.edited us).db.transactions.rows

/-! ## The filing of the records -/

/-- Records with one id have the same transactions. -/
theorem got_eq_wanted {e : LegacyExport} (i j : ℕ × LegacyImportMeta) (hid : i.2.id = j.2.id)
    (h : e.filing.wanted i = e.filing.got j) : e.filing.got i = e.filing.wanted i := by
  obtain ⟨c, m⟩ := i
  obtain ⟨c', m'⟩ := j
  obtain ⟨rfl, hrest⟩ := Prod.mk.inj h
  obtain ⟨-, hcount⟩ := Prod.mk.inj hrest
  show (c, m.fileName, ((e.legacyTransactions m.id).length : ℤ)) = (c, m.fileName, m.txnCount)
  have hid' : m.id = m'.id := hid
  rw [hcount, hid']

section

variable {env : ImportEnv} {r r₁ r₂ : ImportRun} {e : LegacyExport} {d : FullDb}
  {p s : ImportState} {entries : List (LegacyImportMeta × ℕ)} {h h' : LegacyImportMeta}

theorem exists_clientName (hh : h ∈ e.ownedHistory) :
    ∃ name, e.clientName h.clientId = some name :=
  Option.isSome_iff_exists.mp (List.mem_filter.mp hh).2

/-- Clients are the same when their names are. -/
theorem Prepared.clientOf_eq_iff (hprep : Prepared e d p) (hh : h ∈ e.ownedHistory)
    (hh' : h' ∈ e.ownedHistory) : p.idMap.clientOf h = p.idMap.clientOf h' ↔
      e.clientName h.clientId = e.clientName h'.clientId := by
  obtain ⟨name, hname⟩ := exists_clientName hh
  obtain ⟨name', hname'⟩ := exists_clientName hh'
  have hc := hprep.clientNamed_clientOf hname
  have hc' := hprep.clientNamed_clientOf hname'
  rw [hname, hname', Option.some.injEq]
  constructor
  · intro heq
    exact FullDb.clientNamed_inj hc (heq ▸ hc')
  · rintro rfl
    exact Option.some.inj (hc.symm.trans hc')

/-- A record is looked up among the imports of the client with its name. -/
theorem Prepared.lookup_eq_none_iff (hprep : Prepared e d p) (hh : h ∈ e.ownedHistory) :
    e.filing.lookup p.target.db.importHistory (e.filing.wanted (p.idMap.clientOf h, h)) = none ↔
      d.hasImport (e.declared h) = false := by
  obtain ⟨name, hname⟩ := exists_clientName hh
  have hc := hprep.clientNamed_clientOf hname
  rw [hprep.importHistory, Filing.lookup_eq_none, FullDb.hasImport, List.any_eq_false]
  refine forall₂_congr fun i hi => ?_
  have hclient : i.clientId = p.idMap.clientOf h ↔ d.clientNamed name = some i.clientId := by
    constructor
    · intro heq
      obtain ⟨row, hrow, hid⟩ := d.db.importHistory_client i hi
      have hnamed : d.clientNamed row.name = some i.clientId :=
        FullDb.clientNamed_eq_some.mpr ⟨row, hrow, rfl, hid⟩
      have hkept := hprep.keeps _ _ hnamed
      rw [heq] at hkept
      rwa [FullDb.clientNamed_inj hkept hc] at hnamed
    · intro hnamed
      exact Option.some.inj ((hprep.keeps _ _ hnamed).symm.trans hc)
  show (i.clientId, i.fileName, (i.txnCount : ℤ)) ≠ (p.idMap.clientOf h, h.fileName, h.txnCount) ↔
    ¬(decide ((e.clientName h.clientId).bind d.clientNamed = some i.clientId) &&
      decide ((i.fileName, (i.txnCount : ℤ)) = (h.fileName, h.txnCount))) = true
  rw [hname, Option.bind_some, Bool.and_eq_true, decide_eq_true_iff, decide_eq_true_iff,
    ← hclient, Ne, Prod.mk.injEq]

theorem Prepared.wanted_eq_got_iff (hprep : Prepared e d p) (hh : h ∈ e.ownedHistory)
    (hh' : h' ∈ e.ownedHistory) : e.filing.got (p.idMap.clientOf h', h') =
      e.filing.wanted (p.idMap.clientOf h, h) ↔ e.actual h' = e.declared h := by
  show (p.idMap.clientOf h', _) = (p.idMap.clientOf h, _) ↔
    (e.clientName h'.clientId, _) = (e.clientName h.clientId, _)
  simp only [Prod.mk.injEq, hprep.clientOf_eq_iff hh' hh]

theorem Prepared.wanted_eq_wanted_iff (hprep : Prepared e d p) (hh : h ∈ e.ownedHistory)
    (hh' : h' ∈ e.ownedHistory) : e.filing.wanted (p.idMap.clientOf h', h') =
      e.filing.wanted (p.idMap.clientOf h, h) ↔ e.declared h' = e.declared h := by
  show (p.idMap.clientOf h', _) = (p.idMap.clientOf h, _) ↔
    (e.clientName h'.clientId, _) = (e.clientName h.clientId, _)
  simp only [Prod.mk.injEq, hprep.clientOf_eq_iff hh' hh]

theorem Prepared.adds_iff (hprep : Prepared e d p) (hh : h ∈ e.ownedHistory)
    (hh' : h' ∈ e.ownedHistory) :
    e.filing.Adds p.target.db.importHistory (e.filing.wanted (p.idMap.clientOf h, h))
      (p.idMap.clientOf h', h') ↔ e.adds d (e.declared h) h' = true := by
  rw [Filing.Adds, hprep.lookup_eq_none_iff hh', hprep.wanted_eq_got_iff hh hh', LegacyExport.adds,
    Bool.and_eq_true, Bool.not_eq_true', decide_eq_true_iff]

/-- The first record that adds an entry, by clients or by their names. -/
theorem Prepared.find?_adds (hprep : Prepared e d p) (hh : h ∈ e.ownedHistory)
    {pre : List LegacyImportMeta} (hpre : ∀ i ∈ pre, i ∈ e.ownedHistory) :
    (pre.map fun m => (p.idMap.clientOf m, m)).find? (fun i =>
        e.filing.Adds p.target.db.importHistory (e.filing.wanted (p.idMap.clientOf h, h)) i) =
      (pre.find? (e.adds d (e.declared h))).map fun m => (p.idMap.clientOf m, m) := by
  induction pre with
  | nil => rfl
  | cons i pre ih =>
    have hi := hprep.adds_iff hh (hpre i List.mem_cons_self)
    have hrest := ih fun j hj => hpre j (List.mem_cons_of_mem _ hj)
    rw [List.map_cons]
    by_cases hadds : e.adds d (e.declared h) i = true
    · rw [List.find?_cons_of_pos (by simpa using hi.mpr hadds), List.find?_cons_of_pos hadds]
      rfl
    · rw [List.find?_cons_of_neg (by simpa using fun hc => hadds (hi.mp hc)),
        List.find?_cons_of_neg hadds]
      exact hrest

/-- Every record has an entry of its own under the two conditions on names. -/
theorem Prepared.separate_iff (hprep : Prepared e d p) :
    Filing.Separate (fun i : ℕ × LegacyImportMeta => i.2.id)
        (e.filing.fileAll p.target.db.importHistory (e.records p.idMap)).2 ↔
      (∀ h ∈ e.ownedHistory, ∀ h' ∈ e.ownedHistory, d.hasImport (e.declared h) = true →
        e.declared h' = e.declared h → h.id = h'.id) ∧
      ∀ pre h post, e.ownedHistory = pre ++ h :: post → d.hasImport (e.declared h) = false →
        ∀ i, pre.find? (e.adds d (e.declared h)) = some i → i.id = h.id := by
  rw [Filing.separate_iff got_eq_wanted, hprep.records_eq]
  constructor
  · rintro ⟨hold, hnew⟩
    refine ⟨fun h hh h' hh' hthere hsame => ?_, fun pre h post heq hnone i hi => ?_⟩
    · refine hold _ (List.mem_map_of_mem hh) _ (List.mem_map_of_mem hh') ?_
        ((hprep.wanted_eq_wanted_iff hh hh').mpr hsame)
      rw [Ne, hprep.lookup_eq_none_iff hh, hthere]
      exact Bool.noConfusion
    · have hmem : ∀ j ∈ pre ++ h :: post, j ∈ e.ownedHistory := fun j hj => heq ▸ hj
      have hh := hmem h (by simp)
      have hfind := hprep.find?_adds hh fun j hj => hmem j (List.mem_append_left _ hj)
      rw [hi] at hfind
      refine hnew _ _ (post.map fun m => (p.idMap.clientOf m, m)) ?_
        ((hprep.lookup_eq_none_iff hh).mpr hnone) _ hfind
      rw [heq, List.map_append, List.map_cons]
  · rintro ⟨hold, hnew⟩
    refine ⟨?_, ?_⟩
    · intro i hi j hj hthere hsame
      obtain ⟨h, hh, rfl⟩ := List.mem_map.mp hi
      obtain ⟨h', hh', rfl⟩ := List.mem_map.mp hj
      refine hold h hh h' hh' ?_ ((hprep.wanted_eq_wanted_iff hh hh').mp hsame)
      rw [Ne, hprep.lookup_eq_none_iff hh] at hthere
      exact Bool.of_not_eq_false hthere
    · intro pre i post heq hnone j hj
      obtain ⟨pre', rest, hsplit, rfl, hrest⟩ := List.map_eq_append_iff.mp heq
      obtain ⟨h, post', rfl, rfl, rfl⟩ := List.map_eq_cons_iff.mp hrest
      have hmem : ∀ j ∈ pre' ++ h :: post', j ∈ e.ownedHistory := fun j hj => hsplit ▸ hj
      have hh := hmem h (by simp)
      rw [hprep.find?_adds hh fun j hj => hmem j (List.mem_append_left _ hj)] at hj
      obtain ⟨m, hm, rfl⟩ := Option.map_eq_some_iff.mp hj
      exact hnew pre' h post' hsplit ((hprep.lookup_eq_none_iff hh).mp hnone) m hm

/-! ## The second run -/

/-- After the edits the import runs again on the same records, and writes nothing before the
history. -/
theorem rerun_spec (hrun : importAll env r₁ e d = some (s, entries))
    (us : List ClassificationUpdate) (r₂ : ImportRun) :
    ∃ p, Prepared e d p ∧ Recorded env r₁ e (e.records p.idMap) p (s, entries) ∧
      ∃ p₂ out, importAll env r₂ e (s.target.edited us) = some out ∧
        p₂.target = s.target.edited us ∧ (ImportState.start (s.target.edited us)).lead = p₂.lead ∧
        Recorded env r₂ e (e.records p.idMap) p₂ out := by
  obtain ⟨p, hprep, hcase⟩ := importAll_spec env r₁ e d
  rcases hcase with ⟨hfits, out, heq, hrec⟩ | ⟨-, hnone⟩
  · obtain rfl := Option.some.inj (heq.symm.trans hrun)
    have htables := edited_tables s.target us
    have hclients : (s.target.edited us).db.clients = p.target.db.clients :=
      (congrArg Tables.clients htables).trans hrec.clients
    have hpresent : Present e (s.target.edited us) := hprep.present.congr hclients
      ((congrArg Tables.rules htables).trans hrec.rules)
      ((congrArg Tables.ledgers htables).trans hrec.ledgers)
      ((congrArg Tables.dedupeHashes htables).trans hrec.dedupeHashes)
    obtain ⟨p₂, hprep₂, hcase₂⟩ := importAll_spec env r₂ e (s.target.edited us)
    have hidle := hprep₂.idle hpresent
    have hrecords : e.records p₂.idMap = e.records p.idMap := by
      refine List.filterMap_congr fun m _ => ?_
      rw [hprep₂.resolve, hprep.resolve, hidle.1]
      exact congrArg _ (resolveIn_congr hclients _)
    rw [hrecords] at hcase₂
    rcases hcase₂ with ⟨-, out₂, heq₂, hrec₂⟩ | ⟨hmany, -⟩
    · exact ⟨p, hprep, hrec, p₂, out₂, heq₂, hidle.1, hidle.counted.eq_iff.mpr trivial, hrec₂⟩
    · exact absurd hfits hmany
  · rw [hnone] at hrun
    cases hrun

/-- Without a change of the rows a report of nothing is one that is exact. -/
theorem imported_eq_zero_iff {s : ImportState} (hrows : d.SameRows s.target) :
    (∀ k, k ≠ .settings → s.imported k = 0) ↔ (ImportState.start d).lead = s.lead := by
  have hsame : d.tables.SameBut .transactions s.target.tables := by
    constructor <;> intro hk
    · exact hrows.clients
    · exact hrows.rules
    · exact hrows.ledgers
    · exact hrows.dedupeHashes
    · exact hrows.importHistory
    · exact hrows.transactions
    · exact absurd rfl hk
  have hcount : ∀ k, s.target.rowCount k = d.rowCount k := by
    intro k
    by_cases hk : k = .transactions
    · subst hk
      exact congrArg (fun t : Keyed TransactionRow TransactionRow.key => t.rows.length)
        hrows.transactions
    · exact rowCount_of_sameBut hsame hk
  have hlead : ∀ k, s.lead k =
      (ImportState.start d).lead k + if k = .settings then 0 else (s.imported k : ℤ) := by
    intro k
    rw [lead, lead]
    split
    · rfl
    · rw [hcount]
      show _ = ((0 : ℕ) : ℤ) - d.rowCount k + _
      omega
  constructor
  · intro hzero
    funext k
    rw [hlead]
    split
    · omega
    · next hk => rw [hzero k hk]; omega
  · intro heq k hk
    have hk' := hlead k
    rw [← congrFun heq k, if_neg hk] at hk'
    omega

/-! ## The transactions of both runs -/

/-- The rows of a record that got an entry, each with the record. -/
def LegacyExport.written (e : LegacyExport) (env : ImportEnv)
    (given : List ((ℕ × LegacyImportMeta) × ℕ)) :
    List (((ℕ × LegacyImportMeta) × ℕ) × Transaction) :=
  given.flatMap fun q => (e.transactions env q.1.2.id).map fun t => (q, t)

/-- The row written under an entry. -/
def rowUnder (entry : (ℕ × LegacyImportMeta) × ℕ → ℕ)
    (x : ((ℕ × LegacyImportMeta) × ℕ) × Transaction) : TransactionRow :=
  x.2.toRow x.1.1.1 (some (entry x.1))

/-- The keys that a record writes. -/
theorem mem_keys_written {q : (ℕ × LegacyImportMeta) × ℕ} {k : ℕ × String} :
    k ∈ ((e.transactions env q.1.2.id).map fun t => (q, t)).map
        (TransactionRow.key ∘ rowUnder Prod.snd) ↔ k.1 = q.1.1 ∧ k.2 ∈ e.idsOf env q.1.2 := by
  rw [LegacyExport.idsOf, ← mem_keys_rowsOf q.2, FullDb.rowsOf, List.map_map, List.map_map]
  rfl

theorem rowsGiven_eq (e : LegacyExport) (env : ImportEnv)
    (given : List ((ℕ × LegacyImportMeta) × ℕ)) (entry : (ℕ × LegacyImportMeta) × ℕ → ℕ) :
    e.rowsGiven env (given.map fun q => (q.1, entry q)) =
      (e.written env given).map (rowUnder entry) := by
  rw [LegacyExport.rowsGiven, LegacyExport.written, List.flatMap_map, List.map_flatMap]
  refine List.flatMap_congr fun q _ => ?_
  rw [FullDb.rowsOf, List.map_map]
  rfl

/-- The transactions are written again as they are when each stays under its entry and no edit has
changed it. -/
theorem transactions_again_iff {given : List ((ℕ × LegacyImportMeta) × ℕ)}
    {entry : (ℕ × LegacyImportMeta) × ℕ → ℕ} {us : List ClassificationUpdate} {d₁ : FullDb}
    {t : Keyed TransactionRow TransactionRow.key}
    (ht : d₁.db.transactions = t.replaceAll (e.rowsGiven env given)) :
    (d₁.edited us).db.transactions.replaceAll
        (e.rowsGiven env (given.map fun q => (q.1, entry q))) = (d₁.edited us).db.transactions ↔
      (∀ x ∈ Keyed.lastVersions (TransactionRow.key ∘ rowUnder Prod.snd) (e.written env given),
        entry x.1 = x.1.2) ∧
      ∀ r ∈ d₁.db.transactions.rows, r.key ∈ (e.rowsGiven env given).map TransactionRow.key →
        r ∈ (d₁.edited us).db.transactions.rows := by
  have hgiven : e.rowsGiven env given = (e.written env given).map (rowUnder Prod.snd) := by
    rw [← rowsGiven_eq, List.map_id']
  rw [hgiven] at ht ⊢
  have hedited : (d₁.edited us).db.transactions.rows =
      (t.replaceAll ((e.written env given).map (rowUnder Prod.snd))).rows.map
        (TransactionRow.edited us) := by
    rw [edited_transactions, ht]
  have hkey : ∀ x, (rowUnder entry x).key = (rowUnder Prod.snd x).key := fun _ => rfl
  rw [rowsGiven_eq, Keyed.replaceAll_again_eq_iff hkey (fun r => (edited_key us r).1) hedited]
  have hkept : (∀ r ∈ d₁.db.transactions.rows,
      r.key ∈ ((e.written env given).map (rowUnder Prod.snd)).map TransactionRow.key →
        r ∈ (d₁.edited us).db.transactions.rows) ↔
      ∀ x ∈ Keyed.lastVersions (TransactionRow.key ∘ rowUnder Prod.snd) (e.written env given),
        (rowUnder Prod.snd x).edited us = rowUnder Prod.snd x := by
    rw [← List.forall_mem_map (P := fun r : TransactionRow => r.edited us = r),
      ← Keyed.lastVersions_map]
    constructor
    · intro hall r hr
      rw [Keyed.mem_lastVersions_iff (t := t), ← ht] at hr
      exact (mem_edited_iff hr.1).mp (hall r hr.1 hr.2)
    · intro hall r hr hwritten
      refine (mem_edited_iff hr).mpr (hall r ?_)
      rw [Keyed.mem_lastVersions_iff (t := t), ← ht]
      exact ⟨hr, hwritten⟩
  rw [hkept, ← forall₂_and]
  refine forall₂_congr fun x _ => ?_
  constructor
  · intro heq
    have himport := congrArg TransactionRow.importId heq
    rw [(edited_key us _).2] at himport
    have hentry : entry x.1 = x.1.2 := Option.some.inj himport
    refine ⟨hentry, heq.symm.trans ?_⟩
    rw [rowUnder, hentry, rowUnder]
  · rintro ⟨hentry, hsame⟩
    rw [hsame, rowUnder, hentry, rowUnder]

/-! ## The entries of both runs -/

theorem Prepared.foundAmong_iff (hprep : Prepared e d p) (hh : h ∈ e.ownedHistory)
    {hs : List LegacyImportMeta} (hhs : ∀ i ∈ hs, i ∈ e.ownedHistory) :
    (e.filing.lookup p.target.db.importHistory (e.filing.wanted (p.idMap.clientOf h, h)) ≠ none ∨
      ∃ i ∈ hs.map fun m => (p.idMap.clientOf m, m), e.filing.Adds p.target.db.importHistory
        (e.filing.wanted (p.idMap.clientOf h, h)) i) ↔ e.FoundAmong d hs h := by
  have hadds : (∃ i ∈ hs.map fun m => (p.idMap.clientOf m, m), e.filing.Adds
      p.target.db.importHistory (e.filing.wanted (p.idMap.clientOf h, h)) i) ↔
        ∃ i ∈ hs, e.adds d (e.declared h) i = true := by
    constructor
    · rintro ⟨i, hi, hadd⟩
      obtain ⟨m, hm, rfl⟩ := List.mem_map.mp hi
      exact ⟨m, hm, (hprep.adds_iff hh (hhs m hm)).mp hadd⟩
    · rintro ⟨m, hm, hadd⟩
      exact ⟨_, List.mem_map_of_mem hm, (hprep.adds_iff hh (hhs m hm)).mpr hadd⟩
  rw [hadds, Ne, hprep.lookup_eq_none_iff hh, Bool.not_eq_false, LegacyExport.FoundAmong]

theorem Prepared.records_split (hprep : Prepared e d p) {pre post : List LegacyImportMeta}
    (heq : e.ownedHistory = pre ++ h :: post) :
    e.records p.idMap = pre.map (fun m => (p.idMap.clientOf m, m)) ++
      (p.idMap.clientOf h, h) :: post.map fun m => (p.idMap.clientOf m, m) := by
  rw [hprep.records_eq, heq, List.map_append, List.map_cons]

variable (hprep : Prepared e d p)
  (hsep : Filing.Separate (fun i : ℕ × LegacyImportMeta => i.2.id)
    (e.filing.fileAll p.target.db.importHistory (e.records p.idMap)).2)

include hprep hsep

/-- The history stays as it is when every record is found in the end. -/
theorem Prepared.found_iff :
    (∀ q ∈ e.records p.idMap, e.filing.lookup (e.filing.fileAll p.target.db.importHistory
      (e.records p.idMap)).1 (e.filing.wanted q) ≠ none) ↔
      ∀ h ∈ e.ownedHistory, e.FoundAmong d e.ownedHistory h := by
  simp only [Filing.lookup_fileAll_ne_none_iff got_eq_wanted hsep]
  rw [hprep.records_eq, List.forall_mem_map]
  exact forall₂_congr fun h hh => hprep.foundAmong_iff hh fun _ hi => hi

/-- A record finds its own entry in the end when it was found at first, or when no record after it
was needed to find it. -/
theorem Prepared.itself_iff {pre post : List LegacyImportMeta}
    (heq : e.ownedHistory = pre ++ h :: post) :
    e.filing.lookup (e.filing.fileAll p.target.db.importHistory (e.records p.idMap)).1
        (e.filing.wanted (p.idMap.clientOf h, h)) =
      some (e.filing.file (e.filing.fileAll p.target.db.importHistory
        (pre.map fun m => (p.idMap.clientOf m, m))).1 (p.idMap.clientOf h, h)).2 ↔
      e.FoundAmong d (pre ++ [h]) h := by
  have hmem : ∀ i ∈ pre ++ [h], i ∈ e.ownedHistory := by
    intro i hi
    rw [heq, List.append_cons]
    exact List.mem_append_left _ hi
  rw [Filing.lookup_fileAll_eq_iff got_eq_wanted (hprep.records_split heq) hsep,
    ← hprep.foundAmong_iff (hmem h (by simp)) hmem, List.map_append, List.map_singleton]

/-- The last versions of all transactions are under the entries found in the end just in case the
records that wrote them find their own. -/
theorem Prepared.versions_iff (hfound : ∀ q ∈ e.records p.idMap,
      e.filing.lookup (e.filing.fileAll p.target.db.importHistory (e.records p.idMap)).1
        (e.filing.wanted q) ≠ none) :
    (∀ x ∈ Keyed.lastVersions (TransactionRow.key ∘ rowUnder Prod.snd)
        (e.written env (e.filing.fileAll p.target.db.importHistory (e.records p.idMap)).2),
      (e.filing.lookup (e.filing.fileAll p.target.db.importHistory (e.records p.idMap)).1
        (e.filing.wanted x.1.1)).getD 0 = x.1.2) ↔
      ∀ pre h post, e.ownedHistory = pre ++ h :: post →
        (∃ id ∈ e.idsOf env h, ∀ h' ∈ post, e.clientName h'.clientId = e.clientName h.clientId →
          id ∉ e.idsOf env h') → e.FoundAmong d (pre ++ [h]) h := by
  have hgiven := Filing.map_fst_fileAll e.filing p.target.db.importHistory (e.records p.idMap)
  constructor
  · rintro hall pre h post heq ⟨id, hid, hlater⟩
    have hmem : ∀ m ∈ pre ++ h :: post, m ∈ e.ownedHistory := fun m hm => heq ▸ hm
    obtain ⟨given₁, rest, hsplit, hpre, hrest⟩ :=
      List.map_eq_append_iff.mp (hgiven.trans (hprep.records_split heq))
    obtain ⟨q, given₂, rfl, hq, hpost⟩ := List.map_eq_cons_iff.mp hrest
    have hentry := (Filing.snd_of_fileAll hsplit).2
    rw [hpre, hq] at hentry
    have hkey : (p.idMap.clientOf h, id) ∈ ((e.transactions env q.1.2.id).map fun t => (q, t)).map
        (TransactionRow.key ∘ rowUnder Prod.snd) := by
      rw [mem_keys_written, hq]
      exact ⟨rfl, hid⟩
    obtain ⟨x₀, hx₀, hkey₀⟩ := List.mem_map.mp hkey
    obtain ⟨x, hx, hxkey⟩ :=
      Keyed.exists_mem_lastVersions (TransactionRow.key ∘ rowUnder Prod.snd) hx₀
    rw [hkey₀] at hxkey
    obtain ⟨t, -, rfl⟩ := List.mem_map.mp (Keyed.mem_of_mem_lastVersions hx)
    have hown := hall (q, t) (Keyed.mem_lastVersions_flatMap.mpr ⟨given₁, q, given₂, hsplit, hx, by
      intro q' hq' hkey'
      rw [hxkey, mem_keys_written] at hkey'
      have hq'' : q'.1 ∈ post.map fun m => (p.idMap.clientOf m, m) :=
        hpost ▸ List.mem_map_of_mem hq'
      obtain ⟨h', hh', heq'⟩ := List.mem_map.mp hq''
      rw [← heq'] at hkey'
      refine hlater h' hh' ?_ hkey'.2
      exact (hprep.clientOf_eq_iff (hmem h' (by simp [hh'])) (hmem h (by simp))).mp hkey'.1.symm⟩)
    refine (hprep.itself_iff hsep heq).mp ?_
    obtain ⟨id', hid'⟩ := Option.ne_none_iff_exists'.mp
      (hfound (p.idMap.clientOf h, h) (by
        rw [hprep.records_eq]
        exact List.mem_map_of_mem (hmem h (by simp))))
    rw [hq, hid', Option.getD_some, hentry] at hown
    rw [hid', hown]
  · intro hall x hx
    obtain ⟨given₁, q, given₂, hsplit, hxq, hlater⟩ := Keyed.mem_lastVersions_flatMap.mp hx
    obtain ⟨hrecords, hentry⟩ := Filing.snd_of_fileAll hsplit
    rw [hprep.records_eq] at hrecords
    obtain ⟨pre, rest, heq, hpre, hrest⟩ := List.map_eq_append_iff.mp hrecords
    obtain ⟨h, post, rfl, hq, hpost⟩ := List.map_eq_cons_iff.mp hrest
    have hmem : ∀ m ∈ pre ++ h :: post, m ∈ e.ownedHistory := fun m hm => heq ▸ hm
    have hkey : (TransactionRow.key ∘ rowUnder Prod.snd) x ∈
        ((e.transactions env q.1.2.id).map fun t => (q, t)).map
          (TransactionRow.key ∘ rowUnder Prod.snd) :=
      List.mem_map_of_mem (Keyed.mem_of_mem_lastVersions hxq)
    have hkey' := mem_keys_written.mp hkey
    obtain ⟨t, -, rfl⟩ := List.mem_map.mp (Keyed.mem_of_mem_lastVersions hxq)
    have hfoundAmong := hall pre h post heq ⟨t.id, by rw [← hq] at hkey'; exact hkey'.2, by
      intro h' hh' hname hid
      have hq' : (p.idMap.clientOf h', h') ∈ given₂.map Prod.fst :=
        hpost ▸ List.mem_map_of_mem hh'
      obtain ⟨q', hq'mem, hq'eq⟩ := List.mem_map.mp hq'
      refine hlater q' hq'mem (mem_keys_written.mpr ?_)
      rw [hq'eq]
      refine ⟨?_, hid⟩
      show q.1.1 = _
      rw [← hq]
      exact (hprep.clientOf_eq_iff (hmem h (by simp)) (hmem h' (by simp [hh']))).mpr hname.symm⟩
    have hlookup := (hprep.itself_iff hsep heq).mpr hfoundAmong
    rw [hpre, hq, ← hentry] at hlookup
    rw [hlookup, Option.getD_some]

end

section

variable {env : ImportEnv} {r₁ r₂ : ImportRun} {e : LegacyExport} {d d₂ : FullDb}
  {p p₂ s s₂ : ImportState} {entries entries₂ : List (LegacyImportMeta × ℕ)}
  {us : List ClassificationUpdate} {k : ℕ × String}

/-- The keys written do not depend on the entries. -/
theorem mem_keys_rowsGiven {t : Table ImportRecord ImportRecord.id}
    {rs : List (ℕ × LegacyImportMeta)} :
    k ∈ (e.rowsGiven env (e.filing.fileAll t rs).2).map TransactionRow.key ↔
      ∃ q ∈ rs, k.1 = q.1 ∧ k.2 ∈ e.idsOf env q.2 := by
  have hgiven := Filing.map_fst_fileAll e.filing t rs
  have hkey : ∀ q : (ℕ × LegacyImportMeta) × ℕ,
      k ∈ (FullDb.rowsOf q.1.1 q.2 (e.transactions env q.1.2.id)).map TransactionRow.key ↔
        k.1 = q.1.1 ∧ k.2 ∈ e.idsOf env q.1.2 := fun q => mem_keys_rowsOf q.2 _
  rw [LegacyExport.rowsGiven, List.map_flatMap, List.mem_flatMap]
  constructor
  · rintro ⟨q, hq, hk⟩
    exact ⟨q.1, hgiven ▸ List.mem_map_of_mem hq, (hkey q).mp hk⟩
  · rintro ⟨q, hq, hk⟩
    rw [← hgiven] at hq
    obtain ⟨q', hq', rfl⟩ := List.mem_map.mp hq
    exact ⟨q', hq', (hkey q').mpr hk⟩

theorem Prepared.writes_iff (hprep : Prepared e d p) {d₁ : FullDb}
    (hclients : d₁.db.clients = p.target.db.clients) :
    e.Writes env d₁ k ↔ ∃ q ∈ e.records p.idMap, k.1 = q.1 ∧ k.2 ∈ e.idsOf env q.2 := by
  have hresolve : ∀ h ∈ e.ownedHistory, e.resolveIn d₁ h.clientId = some k.1 ↔
      k.1 = p.idMap.clientOf h := by
    intro h hh
    obtain ⟨name, hname⟩ := exists_clientName hh
    rw [resolveIn_congr hclients, LegacyExport.resolveIn, hname, Option.bind_some,
      hprep.clientNamed_clientOf hname, Option.some.injEq]
    exact eq_comm
  rw [LegacyExport.Writes, hprep.records_eq]
  constructor
  · rintro ⟨h, hh, hres, hid⟩
    exact ⟨_, List.mem_map_of_mem hh, (hresolve h hh).mp hres, hid⟩
  · rintro ⟨q, hq, hc, hid⟩
    obtain ⟨h, hh, rfl⟩ := List.mem_map.mp hq
    exact ⟨h, hh, (hresolve h hh).mpr hc, hid⟩

/-- A run on a database with everything before the history leaves the rows as they are when it
files nothing new and writes the transactions as they are. -/
theorem Recorded.sameRows_iff {rs : List (ℕ × LegacyImportMeta)}
    (hrec : Recorded env r₂ e rs p₂ (s₂, entries₂)) : p₂.target.SameRows s₂.target ↔
      (e.filing.fileAll p₂.target.db.importHistory rs).1 = p₂.target.db.importHistory ∧
      p₂.target.db.transactions.replaceAll
        (e.rowsGiven env (e.filing.fileAll p₂.target.db.importHistory rs).2) =
          p₂.target.db.transactions := by
  constructor
  · intro h
    exact ⟨hrec.importHistory.symm.trans h.importHistory,
      hrec.transactions.symm.trans h.transactions⟩
  · rintro ⟨hhistory, htransactions⟩
    exact ⟨hrec.clients, hrec.rules, hrec.ledgers, hrec.dedupeHashes,
      hrec.importHistory.trans hhistory, hrec.transactions.trans htransactions⟩

/-- The rows of a second run are the same when the records are found, those that matter find
themselves, and no edit is in the way. -/
theorem Prepared.sameRows_iff (hprep : Prepared e d p)
    (hrec : Recorded env r₁ e (e.records p.idMap) p (s, entries))
    (hsep : Filing.Separate (fun i : ℕ × LegacyImportMeta => i.2.id)
      (e.filing.fileAll p.target.db.importHistory (e.records p.idMap)).2)
    (hp₂ : p₂.target = s.target.edited us)
    (hrec₂ : Recorded env r₂ e (e.records p.idMap) p₂ (s₂, entries₂)) :
    p₂.target.SameRows s₂.target ↔
      (∀ h ∈ e.ownedHistory, e.FoundAmong d e.ownedHistory h) ∧
      (∀ pre h post, e.ownedHistory = pre ++ h :: post →
        (∃ id ∈ e.idsOf env h, ∀ h' ∈ post, e.clientName h'.clientId = e.clientName h.clientId →
          id ∉ e.idsOf env h') → e.FoundAmong d (pre ++ [h]) h) ∧
      ∀ r ∈ s.target.db.transactions.rows, e.Writes env s.target r.key →
        r ∈ (s.target.edited us).db.transactions.rows := by
  have hhistory : p₂.target.db.importHistory =
      (e.filing.fileAll p.target.db.importHistory (e.records p.idMap)).1 := by
    rw [hp₂]
    exact (congrArg Tables.importHistory (edited_tables s.target us)).trans hrec.importHistory
  have hgiven := Filing.map_fst_fileAll e.filing p.target.db.importHistory (e.records p.idMap)
  rw [hrec₂.sameRows_iff, Filing.fst_fileAll_eq_iff, hhistory, hprep.found_iff hsep]
  refine and_congr_right fun hfound => ?_
  have hlookup := (hprep.found_iff hsep).mpr hfound
  have hentries : (e.filing.fileAll (e.filing.fileAll p.target.db.importHistory
      (e.records p.idMap)).1 (e.records p.idMap)).2 =
      (e.filing.fileAll p.target.db.importHistory (e.records p.idMap)).2.map fun q =>
        (q.1, (e.filing.lookup (e.filing.fileAll p.target.db.importHistory
          (e.records p.idMap)).1 (e.filing.wanted q.1)).getD 0) := by
    rw [Filing.fileAll_of_found hlookup]
    conv_lhs => rw [← hgiven, List.map_map]
    rw [hgiven]
    rfl
  rw [hentries, hp₂, transactions_again_iff hrec.transactions, hprep.versions_iff hsep hlookup]
  refine and_congr_right fun _ => forall₂_congr fun r _ => ?_
  rw [mem_keys_rowsGiven, ← hprep.writes_iff hrec.clients]

/-- A run that changes no row reports none just in case no record repeats an id. -/
theorem Recorded.reports_none_iff (hprep : Prepared e d p)
    (hrec₂ : Recorded env r₂ e (e.records p.idMap) p₂ (s₂, entries₂))
    (hlead : (ImportState.start p₂.target).lead = p₂.lead) (hrows : p₂.target.SameRows s₂.target) :
    (∀ k, k ≠ .settings → s₂.imported k = 0) ↔ ∀ h ∈ e.ownedHistory, (e.idsOf env h).Nodup := by
  rw [imported_eq_zero_iff hrows, hlead, hrec₂.counted.eq_iff, hprep.records_eq, List.forall_mem_map]
  rfl

theorem ownEntries_iff (hrec : Recorded env r₁ e (e.records p.idMap) p (s, entries)) :
    OwnEntries entries ↔ Filing.Separate (fun i : ℕ × LegacyImportMeta => i.2.id)
      (e.filing.fileAll p.target.db.importHistory (e.records p.idMap)).2 := by
  have hentries : entries = (e.filing.fileAll p.target.db.importHistory (e.records p.idMap)).2.map
      fun q => (q.1.2, q.2) := hrec.entries
  rw [OwnEntries, Filing.Separate, hentries, List.forall_mem_map]
  refine forall₂_congr fun q _ => ?_
  rw [List.forall_mem_map]

/-- `created_at` stays when the rows are written at the moments they were written at first. -/
theorem Prepared.createdAt_iff (hprep : Prepared e d p)
    (hrec : Recorded env r₁ e (e.records p.idMap) p (s, entries))
    (hp₂ : p₂.target = s.target.edited us)
    (hrec₂ : Recorded env r₂ e (e.records p.idMap) p₂ (s₂, entries₂)) :
    s₂.target.createdAt = p₂.target.createdAt ↔
      ∀ k, e.Writes env s.target k → r₂.writtenAt k = r₁.writtenAt k := by
  have hbefore : p₂.target.createdAt = s.target.createdAt := by
    rw [hp₂]
    exact congrArg Tables.createdAt (edited_tables s.target us)
  have hkeys : ∀ (table : Table ImportRecord ImportRecord.id) (k : ℕ × String),
      k ∈ (e.rowsGiven env (e.filing.fileAll table (e.records p.idMap)).2).map
        TransactionRow.key ↔ e.Writes env s.target k := fun table k =>
    mem_keys_rowsGiven.trans (hprep.writes_iff hrec.clients).symm
  rw [funext_iff]
  refine forall_congr' fun k => ?_
  have hfirst := hrec.createdAt k
  have hsecond := hrec₂.createdAt k
  dsimp only at hfirst hsecond
  rw [hsecond, hbefore, hfirst]
  by_cases hwrites : e.Writes env s.target k
  · rw [if_pos ((hkeys _ k).mpr hwrites), if_pos ((hkeys _ k).mpr hwrites)]
    exact ⟨fun h _ => h, fun h => h hwrites⟩
  · rw [if_neg fun h => hwrites ((hkeys _ k).mp h), if_neg fun h => hwrites ((hkeys _ k).mp h)]
    exact iff_of_true rfl fun h => absurd h hwrites

/-- A second import of the export, after edits of classifications, changes no row and reports none,
and the imports of the old app got their own entries in the first, exactly when `RerunSafe` says
so. It changes no column either when the rows are also written at the same moments again. -/
theorem rerun_safe_iff (hrun : importAll env r₁ e d = some (s, entries)) :
    (ChangesNoRow env r₂ e (s.target.edited us) ∧ OwnEntries entries ↔
      RerunSafe env e d s.target us) ∧
    (ChangesNothing env r₂ e (s.target.edited us) ∧ OwnEntries entries ↔
      RerunSafe env e d s.target us ∧
        ∀ k, e.Writes env s.target k → r₂.writtenAt k = r₁.writtenAt k) := by
  obtain ⟨p, hprep, hrec, p₂, ⟨s₂, entries₂⟩, heq₂, hp₂, hlead, hrec₂⟩ := rerun_spec hrun us r₂
  have hchanges : ChangesNoRow env r₂ e (s.target.edited us) ↔ p₂.target.SameRows s₂.target ∧
      ∀ h ∈ e.ownedHistory, (e.idsOf env h).Nodup := by
    have hcounted : ChangesNoRow env r₂ e (s.target.edited us) ↔
        p₂.target.SameRows s₂.target ∧ ∀ k, k ≠ .settings → s₂.imported k = 0 := by
      rw [hp₂]
      constructor
      · rintro ⟨s', entries', heq', h⟩
        obtain ⟨rfl, -⟩ := Prod.mk.inj (Option.some.inj (heq₂.symm.trans heq'))
        exact h
      · exact fun h => ⟨s₂, entries₂, heq₂, h⟩
    rw [hcounted]
    rw [← hp₂] at hlead
    exact and_congr_right fun hrows => hrec₂.reports_none_iff hprep hlead hrows
  have hnoRow : ChangesNoRow env r₂ e (s.target.edited us) ∧ OwnEntries entries ↔
      RerunSafe env e d s.target us := by
    rw [ownEntries_iff hrec, hchanges]
    constructor
    · rintro ⟨⟨hrows, hids⟩, hsep⟩
      obtain ⟨hold, hnew⟩ := hprep.separate_iff.mp hsep
      obtain ⟨hfound, hitself, hkept⟩ := (hprep.sameRows_iff hrec hsep hp₂ hrec₂).mp hrows
      exact ⟨hold, hnew, hfound, hitself, hids, hkept⟩
    · intro h
      have hsep := hprep.separate_iff.mpr ⟨h.old, h.new⟩
      exact ⟨⟨(hprep.sameRows_iff hrec hsep hp₂ hrec₂).mpr ⟨h.found, h.itself, h.kept⟩, h.ids⟩,
        hsep⟩
  refine ⟨hnoRow, ?_⟩
  have hnothing : ChangesNothing env r₂ e (s.target.edited us) ↔
      ChangesNoRow env r₂ e (s.target.edited us) ∧
        s₂.target.createdAt = p₂.target.createdAt := by
    rw [hp₂]
    constructor
    · rintro ⟨s', entries', heq', hsame, hzero⟩
      obtain ⟨rfl, -⟩ := Prod.mk.inj (Option.some.inj (heq₂.symm.trans heq'))
      rw [hsame]
      exact ⟨⟨s₂, entries₂, heq₂, by rw [hsame]; exact ⟨rfl, rfl, rfl, rfl, rfl, rfl⟩, hzero⟩, rfl⟩
    · rintro ⟨⟨s', entries', heq', hrows, hzero⟩, hcreated⟩
      obtain ⟨rfl, -⟩ := Prod.mk.inj (Option.some.inj (heq₂.symm.trans heq'))
      refine ⟨s₂, entries₂, heq₂, FullDb.eq_of_tables ?_, hzero⟩
      rw [FullDb.tables, FullDb.tables, hrows.clients, hrows.rules, hrows.ledgers,
        hrows.dedupeHashes, hrows.importHistory, hrows.transactions, hcreated]
  rw [hnothing, and_right_comm, hnoRow, hprep.createdAt_iff hrec hp₂ hrec₂]

end

/-! ## An edit between two imports -/

def legacyPayment : LegacyTransaction where
  id := some "t_1"
  date := "05/01/2024"
  dateTs := none
  narration := "UPI BLUE CAFE"
  reference := ""
  debit := some (.finite 250)
  credit := none
  balance := none
  vendor := ""
  accountHead := ""
  txnType := "payment"
  confidence := .finite 0
  status := "unreviewed"
  classifiedBy := ""
  tags := []
  bankName := ""
  accountNo := ""
  isOpeningBalance := false
  systemGenerated := false
  dupFlag := false
  gstRate := none
  gstAmount := none

def januaryImport : LegacyImportMeta := ⟨"i_1", "c_1", "jan.csv", 1⟩

/-- One client with one import of one transaction. -/
def oneImport : LegacyExport where
  clients := [some ⟨"c_1", "Acme Co", ""⟩]
  rules := []
  ledgers := []
  dedupe := []
  history := [some januaryImport]
  importTransactions _ := [some legacyPayment]
  config := .absent

def cafeEdit : ClassificationUpdate where
  clientId := 1
  txnId := "t_1"
  vendor := "Blue Cafe"
  accountHead := "Staff Welfare"
  txnType := "Payment"
  status := "manual"
  confidence := .finite 1
  classificationSource := "manual"

/-- Without edits the second import at the same moment changes nothing. -/
theorem rerun_without_edits : ∃ s entries,
    importAll plainEnv plainRun oneImport blankFullDb = some (s, entries) ∧
      ChangesNothing plainEnv plainRun oneImport (s.target.edited []) ∧ OwnEntries entries := by
  have hsome : (importAll plainEnv plainRun oneImport blankFullDb).isSome = true := by
    decide +kernel
  obtain ⟨⟨s, entries⟩, hrun⟩ := Option.isSome_iff_exists.mp hsome
  have hhistory : oneImport.ownedHistory = [januaryImport] := by decide +kernel
  have hadds : oneImport.adds blankFullDb (oneImport.declared januaryImport) januaryImport = true := by
    decide +kernel
  refine ⟨s, entries, hrun, (rerun_safe_iff hrun).2.mpr ⟨?_, fun _ _ => rfl⟩⟩
  constructor
  · rw [hhistory]
    simp
  · rw [hhistory]
    intro pre h post heq _ i hi
    obtain rfl : pre = [] := by
      cases pre with
      | nil => rfl
      | cons _ _ => simp at heq
    cases hi
  · rw [hhistory]
    simp [LegacyExport.FoundAmong, hadds]
  · rw [hhistory]
    intro pre h post heq _
    obtain ⟨rfl, heq⟩ : pre = [] ∧ [januaryImport] = h :: post := by
      cases pre with
      | nil => exact ⟨rfl, heq⟩
      | cons _ _ => simp at heq
    obtain ⟨rfl, -⟩ := List.cons.inj heq
    exact Or.inr ⟨januaryImport, List.mem_cons_self, hadds⟩
  · rw [hhistory]
    simp [LegacyExport.idsOf, LegacyExport.transactions, LegacyExport.legacyTransactions, oneImport,
      wellShaped]
  · exact fun r hr _ => hr

/-- The vendor that was entered between two imports is gone after the second. -/
theorem edit_is_overwritten :
    ((importAll plainEnv plainRun oneImport blankFullDb).map fun out =>
        (out.1.target.edited [cafeEdit]).db.transactions.rows.map TransactionRow.vendor) =
      some ["Blue Cafe"] ∧
    ((importAll plainEnv plainRun oneImport blankFullDb).bind fun out =>
        (importAll plainEnv plainRun oneImport (out.1.target.edited [cafeEdit])).map fun out =>
          out.1.target.db.transactions.rows.map TransactionRow.vendor) = some [""] ∧
    ¬∀ s entries, importAll plainEnv plainRun oneImport blankFullDb = some (s, entries) →
      ChangesNoRow plainEnv plainRun oneImport (s.target.edited [cafeEdit]) := by
  have hbefore : ((importAll plainEnv plainRun oneImport blankFullDb).map fun out =>
      (out.1.target.edited [cafeEdit]).db.transactions.rows.map TransactionRow.vendor) =
        some ["Blue Cafe"] := by
    decide +kernel
  have hafter : ((importAll plainEnv plainRun oneImport blankFullDb).bind fun out =>
      (importAll plainEnv plainRun oneImport (out.1.target.edited [cafeEdit])).map fun out =>
        out.1.target.db.transactions.rows.map TransactionRow.vendor) = some [""] := by
    decide +kernel
  refine ⟨hbefore, hafter, fun h => ?_⟩
  obtain ⟨⟨s, entries⟩, hrun, hvendors⟩ := Option.map_eq_some_iff.mp hbefore
  obtain ⟨s₂, entries₂, hrun₂, hrows, -⟩ := h s entries hrun
  rw [hrun, Option.bind_some, hrun₂, Option.map_some, hrows.transactions, hvendors] at hafter
  simp at hafter

end Desktop
