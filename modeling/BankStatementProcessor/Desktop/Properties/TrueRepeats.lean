import BankStatementProcessor.Desktop.Properties.RetriedLoad
import BankStatementProcessor.Infra.StateMachine

/-!
# Repeats

A row is dropped because its hash is known, and a hash has 32 bits. Two other things make a hash
known that is of no import: a save that fails after the hashes are written, and a batch that
starts with rows on the screen that come from no file.
-/

namespace Desktop

open Infra

/-! ## Collisions -/

theorem rollHash_pair {a b a' b' : Char}
    (h : 31 * a.toNat + b.toNat = 31 * a'.toNat + b'.toNat) (x : Int32) :
    rollHash (rollHash x a) b = rollHash (rollHash x a') b' := by
  have hsum : ∀ c d : Char, rollHash (rollHash x c) d =
      31 * (31 * x) + Int32.ofNat (31 * c.toNat + d.toNat) := by
    intro c d
    rw [Int32.ofNat_add, Int32.ofNat_mul, rollHash, rollHash, Int32.mul_add, Int32.add_assoc]
    rfl
  rw [hsum, hsum, h]

/-- Two letters next to each other in a narration may be exchanged for others. -/
theorem hash_eq_of_pair {a b a' b' : Char}
    (h : 31 * a.toNat + b.toNat = 31 * a'.toNat + b'.toNat) (t : Transaction) (u v : List Char) :
    ({ t with narration := String.ofList (u ++ a :: b :: v) } : Transaction).hash =
      ({ t with narration := String.ofList (u ++ a' :: b' :: v) } : Transaction).hash := by
  unfold Transaction.hash
  congr 4
  simp only [Transaction.hashText, String.toList_append, String.toList_ofList, List.foldl_append,
    List.foldl_cons, rollHash_pair h]

/-! ## Histories -/

/-- The store, the batch that is running, and the transactions that were imported so far, each
with its client. -/
structure LoadHistory where
  store : Store
  batch : Option BatchProgress
  imported : List (ℕ × Transaction)

inductive LoadEvent where
  | loadFile (auto : AutoClassify) (f : Faults) (dedupEnabled : Bool) (clientId : Option ℕ)
      (file : StatementFile)
  | startBatch (f : Faults) (transactions : List Transaction) (clientId : Option ℕ)
  | batchFile (f : Faults) (file : StatementFile)
  | finishBatch (f : Faults)

def Faults.Saves (f : Faults) : Prop := f.saveImport = false ∧ f.upsertTransactions = false

namespace LoadHistory

/-- The transactions of a file that are stored for the client. -/
def importing (s : LoadHistory) (clientId : Option ℕ) (loaded : LoadedFile) : LoadHistory :=
  { s with
    store := loaded.store
    imported :=
      s.imported ++ clientId.toList.flatMap fun cid => loaded.stored.map fun t => (cid, t) }

def step (s : LoadHistory) : LoadEvent → LoadHistory
  | .loadFile auto f dedupEnabled clientId file =>
    s.importing clientId (finishLoadFile auto f dedupEnabled clientId s.store file)
  | .startBatch f transactions clientId =>
    { s with batch := some (startBatch f s.store transactions clientId) }
  | .batchFile f file =>
    match s.batch with
    | none => s
    | some bp =>
      let (bp', loaded) := recordBatchSuccess f bp s.store file
      { s.importing bp.clientId loaded with batch := some bp' }
  | .finishBatch f =>
    match s.batch with
    | none => s
    | some bp => { s with batch := none, store := finishBatch f bp s.store }

/-- The same transaction was imported for the client. -/
def Imported (s : LoadHistory) (cid : ℕ) (t : Transaction) : Prop :=
  ∃ e ∈ s.imported, e.1 = cid ∧ SameTransaction e.2 t

/-- The rows of a file that are not kept were imported before. -/
def DropsImported (s : LoadHistory) (clientId : Option ℕ) (file : StatementFile)
    (loaded : LoadedFile) : Prop :=
  ∀ cid ∈ clientId, ∀ t ∈ realRows file.result.txns, t ∉ loaded.kept → s.Imported cid t

def DropsOnlyRepeats (s : LoadHistory) : LoadEvent → Prop
  | .loadFile auto f dedupEnabled clientId file =>
    s.DropsImported clientId file (finishLoadFile auto f dedupEnabled clientId s.store file)
  | .batchFile f file => ∀ bp ∈ s.batch,
      s.DropsImported bp.clientId file (recordBatchSuccess f bp s.store file).2
  | _ => True

/-! ## The condition -/

/-- A row of the file with the hash of a transaction imported for the client, or of another row,
was imported itself. -/
def HashTells (s : LoadHistory) (cid : ℕ) (others : List Transaction) (file : StatementFile) :
    Prop :=
  ∀ t ∈ realRows file.result.txns,
    (∃ e ∈ s.imported, e.1 = cid ∧ e.2.hash = t.hash) ∨ (∃ t' ∈ others, t'.hash = t.hash) →
      s.Imported cid t

/-- Every file is saved, no hash stands for two transactions, and a batch starts with imported
transactions on the screen. -/
def Distinguishes (s : LoadHistory) : LoadEvent → Prop
  | .loadFile _ f dedupEnabled clientId file => dedupEnabled = true → ∀ cid ∈ clientId,
      f.Saves ∧ s.HashTells cid [] file
  | .startBatch _ transactions clientId => ∀ cid ∈ clientId, 0 < cid ∧
      (∃ c ∈ s.store.db.clients.rows, c.id = cid) ∧ ∀ t ∈ transactions, s.Imported cid t
  | .batchFile f file => ∀ bp ∈ s.batch, ∀ cid ∈ bp.clientId,
      f.Saves ∧ s.HashTells cid (bp.allTxns.filter (·.isOpeningBalance)) file
  | .finishBatch _ => True

/-! ## What is known is imported -/

/-- A transaction imported for the client has the hash. -/
def HashImported (s : LoadHistory) (cid : ℕ) (h : String) : Prop :=
  ∃ e ∈ s.imported, e.1 = cid ∧ e.2.hash = h

/-- The hashes in the table, and those that a batch knows but for its opening balance rows. -/
structure Accounted (s : LoadHistory) : Prop where
  stored : ∀ e ∈ s.store.dedupeHashes, s.HashImported e.1 e.2
  clients : ∀ bp ∈ s.batch, ∀ cid ∈ bp.clientId,
    0 < cid ∧ ∃ c ∈ s.store.db.clients.rows, c.id = cid
  rows : ∀ bp ∈ s.batch, ∀ cid ∈ bp.clientId, ∀ t ∈ bp.allTxns,
    t.isOpeningBalance = true ∨ s.HashImported cid t.hash
  persisted : ∀ bp ∈ s.batch, ∀ cid ∈ bp.clientId, ∀ h ∈ bp.persistedHashes, s.HashImported cid h

/-- No hash was written yet. -/
structure Started (s : LoadHistory) : Prop where
  batch : s.batch = none
  dedupeHashes : s.store.dedupeHashes = []

variable {s : LoadHistory}

theorem Started.accounted (h : Started s) : Accounted s where
  stored := by rw [h.dedupeHashes]; exact nofun
  clients := by rw [h.batch]; exact nofun
  rows := by rw [h.batch]; exact nofun
  persisted := by rw [h.batch]; exact nofun

theorem mem_importing {clientId : Option ℕ} {loaded : LoadedFile} {e : ℕ × Transaction} :
    e ∈ (s.importing clientId loaded).imported ↔
      e ∈ s.imported ∨ clientId = some e.1 ∧ e.2 ∈ loaded.stored := by
  rw [importing, List.mem_append]
  refine or_congr_right ?_
  cases clientId with
  | none => simp
  | some cid =>
    obtain ⟨c, t⟩ := e
    simp only [Option.toList_some, List.flatMap_cons, List.flatMap_nil, List.append_nil,
      List.mem_map, Prod.mk.injEq, Option.some.injEq]
    constructor
    · rintro ⟨t', ht', rfl, rfl⟩
      exact ⟨rfl, ht'⟩
    · rintro ⟨rfl, ht⟩
      exact ⟨t, ht, rfl, rfl⟩

/-- What was imported stays imported. -/
theorem HashImported.importing {cid : ℕ} {h : String} (hi : s.HashImported cid h)
    (clientId : Option ℕ) (loaded : LoadedFile) :
    (s.importing clientId loaded).HashImported cid h := by
  obtain ⟨e, he, hc, hh⟩ := hi
  exact ⟨e, mem_importing.mpr (Or.inl he), hc, hh⟩

theorem hashImported_of_stored {cid : ℕ} {loaded : LoadedFile} {t t' : Transaction}
    (ht : t ∈ loaded.stored) (hh : t.hash = t'.hash) :
    (s.importing (some cid) loaded).HashImported cid t'.hash :=
  ⟨(cid, t), mem_importing.mpr (Or.inr ⟨rfl, ht⟩), rfl, hh⟩

theorem mem_of_mem_addDedupeHashes {f : Faults} {st : Store} {cid : ℕ} {hashes : List String}
    {e : ℕ × String} (he : e ∈ (st.addDedupeHashes f cid hashes).dedupeHashes) :
    e ∈ st.dedupeHashes ∨
      (∃ c ∈ st.db.clients.rows, c.id = cid) ∧ e.1 = cid ∧ e.2 ∈ hashes := by
  by_cases hf : f.addDedupeHashes = true
  · rw [Store.addDedupeHashes_of_fault hf] at he
    exact Or.inl he
  · by_cases hclient : ∃ c ∈ st.db.clients.rows, c.id = cid
    · rw [Store.mem_addDedupeHashes (Bool.not_eq_true _ ▸ hf) hclient] at he
      exact he.imp_right fun h => ⟨hclient, h⟩
    · rw [Store.addDedupeHashes, if_neg hf, if_neg hclient] at he
      exact Or.inl he

/-- The rows that are new are imported if nothing fails. -/
theorem finishLoadFile_stored {auto : AutoClassify} {f : Faults} {st : Store} {cid : ℕ}
    {file : StatementFile} (hf : f.Saves) (hclient : ∃ c ∈ st.db.clients.rows, c.id = cid)
    (hnew : realRows (dedupe (st.getDedupeHashes f cid) file.result.txns) ≠ []) :
    (finishLoadFile auto f true (some cid) st file).stored =
      (auto.classifyAll (dedupe (st.getDedupeHashes f cid) file.result.txns)).2 := by
  unfold finishLoadFile
  dsimp only
  rw [if_neg (by simpa using hnew)]
  refine (Store.persist_stored (by rwa [Store.addDedupeHashes_db]) file _).trans (if_neg ?_)
  rw [hf.1, hf.2]
  exact Bool.false_ne_true

/-- A hash in the table after a load was there, or is that of a row that was imported. -/
theorem Accounted.hashImported_loadFile (h : Accounted s) {auto : AutoClassify} {f : Faults}
    {cid : ℕ} {file : StatementFile} (hf : f.Saves) {e : ℕ × String}
    (he : e ∈ (finishLoadFile auto f true (some cid) s.store file).store.dedupeHashes) :
    (s.importing (some cid)
      (finishLoadFile auto f true (some cid) s.store file)).HashImported e.1 e.2 := by
  by_cases hnew : realRows (dedupe (s.store.getDedupeHashes f cid) file.result.txns) = []
  · have hstore : (finishLoadFile auto f true (some cid) s.store file).store = s.store := by
      unfold finishLoadFile
      dsimp only
      rw [if_pos (by rw [hnew]; rfl)]
    rw [hstore] at he
    exact (h.stored e he).importing _ _
  · rw [finishLoadFile_dedupeHashes hnew] at he
    rcases mem_of_mem_addDedupeHashes he with hold | ⟨hclient, hcid, hhash⟩
    · exact (h.stored e hold).importing _ _
    · obtain ⟨t, ht, hh⟩ := List.mem_map.mp hhash
      obtain ⟨t', ht', hparsed⟩ := exists_asParsed_of_map_eq
        (auto.keeps (dedupe (s.store.getDedupeHashes f cid) file.result.txns)).symm
        (mem_realRows.mp ht).1
      rw [← finishLoadFile_stored hf hclient hnew] at ht'
      rw [hcid, ← hh]
      exact hashImported_of_stored ht' (hash_of_asParsed hparsed).1

theorem Accounted.loadFile (h : Accounted s) {auto : AutoClassify} {f : Faults}
    {dedupEnabled : Bool} {clientId : Option ℕ} {file : StatementFile}
    (he : Distinguishes s (.loadFile auto f dedupEnabled clientId file)) :
    Accounted (s.step (.loadFile auto f dedupEnabled clientId file)) := by
  refine ⟨fun e hmem => ?_, fun bp hbp cid hcid => ?_, fun bp hbp cid hcid t ht => ?_,
    fun bp hbp cid hcid x hx => (h.persisted bp hbp cid hcid x hx).importing _ _⟩
  · change e ∈ (finishLoadFile auto f dedupEnabled clientId s.store file).store.dedupeHashes at hmem
    match dedupEnabled, clientId with
    | true, some cid => exact h.hashImported_loadFile (he rfl cid rfl).1 hmem
    | true, none => exact (h.stored e hmem).importing _ _
    | false, none => exact (h.stored e hmem).importing _ _
    | false, some cid =>
      change e ∈ (s.store.persist f cid file (auto.classifyAll _).2).1.dedupeHashes at hmem
      rw [(Store.persist_frame file _).1] at hmem
      exact (h.stored e hmem).importing _ _
  · show 0 < cid ∧ ∃ c ∈ (finishLoadFile auto f dedupEnabled clientId s.store
      file).store.db.clients.rows, c.id = cid
    rw [finishLoadFile_clients]
    exact h.clients bp hbp cid hcid
  · exact (h.rows bp hbp cid hcid t ht).imp_right fun hi => hi.importing _ _

theorem Accounted.batchFile (h : Accounted s) {f : Faults} {file : StatementFile}
    (he : Distinguishes s (.batchFile f file)) : Accounted (s.step (.batchFile f file)) := by
  cases hbatch : s.batch with
  | none =>
    rw [step, hbatch]
    exact h
  | some bp =>
    have hstep : s.step (.batchFile f file) =
        { s.importing bp.clientId (recordBatchSuccess f bp s.store file).2 with
          batch := some (recordBatchSuccess f bp s.store file).1 } := by
      rw [step, hbatch]
    obtain ⟨hhashes, hclients⟩ := recordBatchSuccess_frame f bp s.store file
    rw [hstep]
    refine ⟨fun e hmem => ?_, fun _ hbp cid hcid => ?_, fun _ hbp cid hcid t ht => ?_,
      fun _ hbp cid hcid x hx => ?_⟩
    · change e ∈ (recordBatchSuccess f bp s.store file).2.store.dedupeHashes at hmem
      rw [hhashes] at hmem
      exact (h.stored e hmem).importing _ _
    · obtain rfl := Option.some.inj hbp
      rw [recordBatchSuccess_batch] at hcid
      show 0 < cid ∧ ∃ c ∈ (recordBatchSuccess f bp s.store file).2.store.db.clients.rows, c.id = cid
      rw [hclients]
      exact h.clients bp hbatch cid hcid
    · obtain rfl := Option.some.inj hbp
      rw [recordBatchSuccess_batch] at hcid ht
      rcases List.mem_append.mp ht with hold | hkept
      · exact (h.rows bp hbatch cid hcid t hold).imp_right fun hi => hi.importing _ _
      · refine or_iff_not_imp_left.mpr fun hreal => ?_
        obtain ⟨hpos, hclient⟩ := h.clients bp hbatch cid hcid
        have hrow := mem_realRows.mpr ⟨hkept, Bool.not_eq_true _ ▸ hreal⟩
        have hbp_client : bp.clientId = some cid := hcid
        have hstored := recordBatchSuccess_stored (f := f) hbp_client hpos hclient file
        obtain ⟨hsave, hupsert⟩ := (he bp hbatch cid hcid).1
        rw [if_neg (List.ne_nil_of_mem hrow), hsave, hupsert, if_neg (by exact Bool.false_ne_true)]
          at hstored
        exact ⟨(cid, t), mem_importing.mpr (Or.inr ⟨hcid, hstored ▸ hkept⟩), rfl, rfl⟩
    · obtain rfl := Option.some.inj hbp
      rw [recordBatchSuccess_batch] at hcid hx
      exact (h.persisted bp hbatch cid hcid x hx).importing _ _

/-- The hash is that of what makes two transactions the same. -/
theorem Imported.hashImported {cid : ℕ} {t : Transaction} (h : s.Imported cid t) :
    s.HashImported cid t.hash := by
  obtain ⟨e, he, hc, hdate, hnarration, hdebit, hcredit⟩ := h
  refine ⟨e, he, hc, ?_⟩
  rw [Transaction.hash, Transaction.hash, Transaction.hashText, Transaction.hashText, hdate,
    hnarration, hdebit, hcredit]

theorem mem_of_mem_finishBatch {f : Faults} {bp : BatchProgress} {st : Store} {e : ℕ × String}
    (he : e ∈ (finishBatch f bp st).dedupeHashes) : e ∈ st.dedupeHashes ∨
      bp.clientId = some e.1 ∧ ∃ t ∈ realRows bp.allTxns, t.hash = e.2 := by
  unfold finishBatch at he
  split at he
  · exact Or.inl he
  · split at he
    · exact Or.inl he
    · rename_i cid hcid
      rcases mem_of_mem_addDedupeHashes he with hold | ⟨-, hc, hh⟩
      · exact Or.inl hold
      · exact Or.inr ⟨hcid.trans (congrArg some hc.symm), List.mem_map.mp hh⟩

theorem accounted_step (s : LoadHistory) (e : LoadEvent) (h : Accounted s)
    (he : Distinguishes s e) : Accounted (s.step e) := by
  cases e with
  | loadFile auto f dedupEnabled clientId file => exact h.loadFile he
  | startBatch f transactions clientId =>
    refine ⟨h.stored, fun _ hbp cid hcid => ?_, fun _ hbp cid hcid t ht => ?_,
      fun _ hbp cid hcid x hx => ?_⟩
    · obtain rfl := Option.some.inj hbp
      obtain ⟨hpos, hclient, -⟩ := he cid hcid
      exact ⟨hpos, hclient⟩
    · obtain rfl := Option.some.inj hbp
      obtain ⟨-, -, himported⟩ := he cid hcid
      exact Or.inr (himported t ht).hashImported
    · obtain rfl := Option.some.inj hbp
      obtain rfl : clientId = some cid := hcid
      exact h.stored (cid, x) (Store.mem_getDedupeHashes.mp hx).2
  | batchFile f file => exact h.batchFile he
  | finishBatch f =>
    cases hbatch : s.batch with
    | none =>
      rw [step, hbatch]
      exact h
    | some bp =>
      rw [step, hbatch]
      refine ⟨fun e hmem => ?_, nofun, nofun, nofun⟩
      rcases mem_of_mem_finishBatch hmem with hold | ⟨hcid, t, ht, hh⟩
      · exact h.stored e hold
      · obtain ⟨hmem, hreal⟩ := mem_realRows.mp ht
        rw [← hh]
        exact (h.rows bp hbatch e.1 hcid t hmem).resolve_left (by simp [hreal])

/-- What a load drops has a hash that is known. -/
theorem Accounted.dropsOnlyRepeats (h : Accounted s) (e : LoadEvent) (he : Distinguishes s e) :
    DropsOnlyRepeats s e := by
  cases e with
  | loadFile auto f dedupEnabled clientId file =>
    intro cid hcid t ht hdropped
    obtain rfl : clientId = some cid := hcid
    obtain ⟨hmem, hreal⟩ := mem_realRows.mp ht
    cases dedupEnabled with
    | false => exact absurd hmem hdropped
    | true =>
      have hkept : (finishLoadFile auto f true (some cid) s.store file).kept =
          dedupe (s.store.getDedupeHashes f cid) file.result.txns := by
        unfold finishLoadFile
        dsimp only
        split <;> rfl
      rw [hkept, mem_dedupe, not_and_or, not_or, not_not] at hdropped
      obtain ⟨-, hknown⟩ := hdropped.resolve_left (not_not_intro hmem)
      exact (he rfl cid rfl).2 t ht
        (Or.inl (h.stored (cid, t.hash) (Store.mem_getDedupeHashes.mp hknown).2))
  | batchFile f file =>
    intro bp hbatch cid hcid t ht hdropped
    obtain ⟨hmem, hreal⟩ := mem_realRows.mp ht
    rw [recordBatchSuccess_kept, mem_dedupe, not_and_or, not_or, not_not] at hdropped
    obtain ⟨-, hknown⟩ := hdropped.resolve_left (not_not_intro hmem)
    refine (he bp hbatch cid hcid).2 t ht ?_
    rcases List.mem_append.mp hknown with hrow | hpersisted
    · obtain ⟨t', ht', hh⟩ := List.mem_map.mp hrow
      rw [← hh]
      refine or_comm.mp ((h.rows bp hbatch cid hcid t' ht').imp_left fun hopening => ?_)
      exact ⟨t', List.mem_filter.mpr ⟨ht', hopening⟩, rfl⟩
    · exact Or.inl (h.persisted bp hbatch cid hcid _ hpersisted)
  | startBatch f transactions clientId => trivial
  | finishBatch f => trivial

/--
**A run that tells the rows apart, saves what it loads and starts each batch with imported
transactions on the screen drops only what was imported before.**
-/
theorem drops_only_repeats (hs : Started s) (es : List LoadEvent)
    (hes : EveryStep step Distinguishes s es) : EveryStep step DropsOnlyRepeats s es :=
  hes.of_invariant accounted_step (fun _ e h he => h.dropsOnlyRepeats e he) hs.accounted

/-! ## Runs -/

instance (s : LoadHistory) (cid : ℕ) (t : Transaction) : Decidable (s.Imported cid t) :=
  inferInstanceAs (Decidable (∃ e ∈ s.imported, e.1 = cid ∧ e.2.date = t.date ∧
    e.2.narration = t.narration ∧ e.2.debit = t.debit ∧ e.2.credit = t.credit))

instance (s : LoadHistory) (cid : ℕ) (others : List Transaction) (file : StatementFile) :
    Decidable (s.HashTells cid others file) :=
  inferInstanceAs (Decidable (∀ t ∈ realRows file.result.txns,
    (∃ e ∈ s.imported, e.1 = cid ∧ e.2.hash = t.hash) ∨ (∃ t' ∈ others, t'.hash = t.hash) →
      s.Imported cid t))

instance (f : Faults) : Decidable f.Saves :=
  inferInstanceAs (Decidable (f.saveImport = false ∧ f.upsertTransactions = false))

instance (s : LoadHistory) : ∀ e, Decidable (Distinguishes s e)
  | .loadFile _ f dedupEnabled clientId file =>
    inferInstanceAs (Decidable (dedupEnabled = true → ∀ cid ∈ clientId,
      f.Saves ∧ s.HashTells cid [] file))
  | .startBatch _ transactions clientId =>
    inferInstanceAs (Decidable (∀ cid ∈ clientId, 0 < cid ∧
      (∃ c ∈ s.store.db.clients.rows, c.id = cid) ∧ ∀ t ∈ transactions, s.Imported cid t))
  | .batchFile f file =>
    inferInstanceAs (Decidable (∀ bp ∈ s.batch, ∀ cid ∈ bp.clientId,
      f.Saves ∧ s.HashTells cid (bp.allTxns.filter (·.isOpeningBalance)) file))
  | .finishBatch _ => instDecidableTrue

/-- Nothing was loaded yet. -/
def nothingLoaded : LoadHistory := ⟨emptyStore, none, []⟩

def loadOne (file : StatementFile) : LoadEvent := .loadFile .nothing .none true (some 1) file

/-- A file, the same file, and a batch with the rows that follow and the first file. -/
def repeatedLoads : List LoadEvent :=
  [loadOne januaryFile, loadOne januaryFile, .startBatch .none [] (some 1),
    .batchFile .none ⟨"january_2.xlsx", secondHalf⟩, .batchFile .none januaryFile,
    .finishBatch .none]

theorem repeatedLoads_drop_only_repeats :
    EveryStep step DropsOnlyRepeats nothingLoaded repeatedLoads :=
  drops_only_repeats ⟨rfl, rfl⟩ repeatedLoads (by decide +kernel)

/-- A file with one payment. -/
def onePayment (narration : String) : StatementFile :=
  ⟨"upi.xlsx", [sampleRow 0 "05/01/2024" narration 500], "HDFC Bank", "50100123456789"⟩

/-- Two payments of one day whose payees are `Aa` and `BB`. -/
theorem collision_drops_a_payment :
    ¬ ∀ s es, Started s → EveryStep step DropsOnlyRepeats s es := by
  intro h
  obtain ⟨-, hsecond, -⟩ := h nothingLoaded
    [loadOne (onePayment "UPI Aa"), loadOne (onePayment "UPI BB")] ⟨rfl, rfl⟩
  have himported := hsecond 1 rfl (sampleRow 0 "05/01/2024" "UPI BB" 500).txn
    (by decide +kernel) (by decide +kernel)
  exact absurd himported (by decide +kernel)

end LoadHistory

end Desktop
