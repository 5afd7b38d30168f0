import BankStatementProcessor.Desktop.Loading
import BankStatementProcessor.Desktop.Properties.StatementRows

/-!
# A load that is tried again

A load records the hashes of its rows before it knows that they are stored, and a batch records
them whether they are or not. A load of the same file then takes the rows for repeats.
-/

namespace Desktop

open Infra

/-! ## One load -/

/-- A file is loaded by itself, or in a batch: with the transactions on the screen, and with the
files before and after it. -/
inductive LoadPath where
  | single (dedupEnabled : Bool)
  | batch (transactions : List Transaction) (before after : List (Faults × StatementFile))

namespace LoadPath

/-- The store after a load, and the transactions of the file that are stored. -/
def load (auto : AutoClassify) (f : Faults) (clientId : ℕ) (s : Store) (file : StatementFile) :
    LoadPath → Store × List Transaction
  | single dedupEnabled =>
    let loaded := finishLoadFile auto f dedupEnabled (some clientId) s file
    (loaded.store, loaded.stored)
  | batch transactions before after =>
    let (bp, s) := recordFiles (startBatch f s transactions (some clientId)) s before
    let (bp, loaded) := recordBatchSuccess f bp s file
    let (bp, s) := recordFiles bp loaded.store after
    (finishBatch f bp s, loaded.stored)

def dedupes : LoadPath → Bool
  | single dedupEnabled => dedupEnabled
  | batch .. => true

/-- The hashes that make a row of the file a repeat. -/
def knownHashes (f : Faults) (clientId : ℕ) (s : Store) : LoadPath → List String
  | single dedupEnabled => if dedupEnabled then s.getDedupeHashes f clientId else []
  | batch transactions before _ =>
    transactions.map Transaction.hash ++ s.getDedupeHashes f clientId ++
      (before.flatMap fun file => file.2.result.txns).map Transaction.hash

/-- The load writes the hashes of the rows it keeps. -/
def recordsHashes (f : Faults) : LoadPath → Bool
  | single dedupEnabled => dedupEnabled && !f.addDedupeHashes
  | batch .. => !f.addDedupeHashes

/-- Only the rows of a single file are classified before they are stored. -/
def classified (auto : AutoClassify) (txns : List Transaction) : LoadPath → List Transaction
  | single _ => (auto.classifyAll txns).2
  | batch .. => txns

variable {auto : AutoClassify} {f : Faults} {clientId : ℕ} {s : Store} {file : StatementFile}

theorem map_asParsed_classified (path : LoadPath) (auto : AutoClassify) (txns : List Transaction) :
    (path.classified auto txns).map Transaction.asParsed = txns.map Transaction.asParsed := by
  cases path with
  | single _ => exact auto.keeps txns
  | batch => rfl

/-- What the files before make known to the batch. -/
theorem mem_existingHashes_before {transactions : List Transaction}
    {before : List (Faults × StatementFile)} (after : List (Faults × StatementFile)) {h : String} :
    h ∈ (recordFiles (startBatch f s transactions (some clientId)) s before).1.existingHashes ↔
      h ∈ (batch transactions before after).knownHashes f clientId s := by
  rw [mem_existingHashes_recordFiles, knownHashes, List.mem_append (s := _ ++ _)]
  rfl

theorem dedupe_nil (txns : List Transaction) : dedupe [] txns = txns :=
  List.filter_eq_self.mpr fun t _ => by simp

/-- What a load stores: the rows that are no repeats, if a row of the statement is among them. -/
theorem load_stored (path : LoadPath) (hpos : 0 < clientId)
    (hknown : ∃ c ∈ s.db.clients.rows, c.id = clientId) :
    (path.load auto f clientId s file).2 =
      if path.dedupes = true ∧
          realRows (dedupe (path.knownHashes f clientId s) file.result.txns) = [] then []
      else if f.saveImport || f.upsertTransactions then []
      else path.classified auto (dedupe (path.knownHashes f clientId s) file.result.txns) := by
  cases path with
  | single dedupEnabled =>
    cases dedupEnabled with
    | false =>
      rw [if_neg (by simp [dedupes]), knownHashes, if_neg Bool.false_ne_true, dedupe_nil]
      exact Store.persist_stored hknown file _
    | true =>
      rw [knownHashes, if_pos rfl]
      show (finishLoadFile auto f true (some clientId) s file).stored = _
      unfold finishLoadFile
      dsimp only
      by_cases hnew : realRows (dedupe (s.getDedupeHashes f clientId) file.result.txns) = []
      · rw [if_pos (by rw [hnew]; rfl), if_pos ⟨rfl, hnew⟩]
      · rw [if_neg (by simpa using hnew), if_neg (fun h => hnew h.2)]
        exact Store.persist_stored (by rwa [Store.addDedupeHashes_db]) file _
  | batch transactions before after =>
    show (recordBatchSuccess f
      (recordFiles (startBatch f s transactions (some clientId)) s before).1
      (recordFiles (startBatch f s transactions (some clientId)) s before).2 file).2.stored = _
    obtain ⟨-, hclients, hbatch, -⟩ := recordFiles_frame before
      (startBatch f s transactions (some clientId)) s
    rw [recordBatchSuccess_stored (hbatch.trans rfl) hpos (by rwa [hclients]),
      dedupe_congr (fun _ => mem_existingHashes_before after)]
    by_cases hnew : realRows (dedupe
        ((batch transactions before after).knownHashes f clientId s) file.result.txns) = []
    · rw [if_pos hnew, if_pos ⟨rfl, hnew⟩]
    · have hattempt : ¬ ((batch transactions before after).dedupes = true ∧ realRows (dedupe
          ((batch transactions before after).knownHashes f clientId s) file.result.txns) = []) :=
        fun h => hnew h.2
      rw [if_neg hnew, if_neg hattempt]
      rfl

theorem load_clients (path : LoadPath) :
    (path.load auto f clientId s file).1.db.clients = s.db.clients := by
  cases path with
  | single dedupEnabled => exact finishLoadFile_clients
  | batch transactions before after =>
    obtain ⟨-, hbefore, -⟩ := recordFiles_frame before
      (startBatch f s transactions (some clientId)) s
    show (finishBatch f _ _).db.clients = _
    rw [finishBatch_db]
    refine (recordFiles_frame after _ _).2.1.trans ?_
    exact (recordBatchSuccess_frame f _ _ file).2.trans hbefore

theorem load_dedupeHashes (path : LoadPath) (hf : path.recordsHashes f = false) :
    (path.load auto f clientId s file).1.dedupeHashes = s.dedupeHashes := by
  cases path with
  | single dedupEnabled =>
    cases dedupEnabled with
    | false => exact (Store.persist_frame file _).1
    | true =>
      have hf : f.addDedupeHashes = true := by simpa [recordsHashes] using hf
      show (finishLoadFile auto f true (some clientId) s file).store.dedupeHashes = _
      unfold finishLoadFile
      dsimp only
      split
      · rfl
      · refine (Store.persist_frame file _).1.trans ?_
        rw [Store.addDedupeHashes_of_fault hf]
  | batch transactions before after =>
    have hf : f.addDedupeHashes = true := by simpa [recordsHashes] using hf
    show (finishBatch f _ _).dedupeHashes = _
    rw [finishBatch_of_fault hf]
    refine (recordFiles_frame after _ _).1.trans ?_
    exact (recordBatchSuccess_frame f _ _ file).1.trans (recordFiles_frame before _ _).1

/-- A row that is no repeat is one from then on. -/
theorem hash_mem_load (path : LoadPath) (auto : AutoClassify) (hf : path.recordsHashes f = true)
    (hknown : ∃ c ∈ s.db.clients.rows, c.id = clientId) {t : Transaction}
    (ht : t ∈ realRows file.result.txns) (hnew : t.hash ∉ path.knownHashes f clientId s) :
    (clientId, t.hash) ∈ (path.load auto f clientId s file).1.dedupeHashes := by
  obtain ⟨hmem, hreal⟩ := mem_realRows.mp ht
  cases path with
  | single dedupEnabled =>
    obtain ⟨rfl, hadd⟩ : dedupEnabled = true ∧ f.addDedupeHashes = false := by
      simpa [recordsHashes] using hf
    rw [knownHashes, if_pos rfl] at hnew
    have hkept : t ∈ realRows (dedupe (s.getDedupeHashes f clientId) file.result.txns) :=
      mem_realRows.mpr ⟨mem_dedupe.mpr ⟨hmem, Or.inr hnew⟩, hreal⟩
    show _ ∈ (finishLoadFile auto f true (some clientId) s file).store.dedupeHashes
    rw [finishLoadFile_dedupeHashes (List.ne_nil_of_mem hkept)]
    exact (Store.mem_addDedupeHashes hadd hknown).mpr (Or.inr ⟨rfl, List.mem_map_of_mem hkept⟩)
  | batch transactions before after =>
    have hf : f.addDedupeHashes = false := by simpa [recordsHashes] using hf
    rw [← mem_existingHashes_before after] at hnew
    obtain ⟨-, hclients, hbatch, -⟩ := recordFiles_frame before
      (startBatch f s transactions (some clientId)) s
    generalize hstate : recordFiles (startBatch f s transactions (some clientId)) s before =
      state at hnew hclients hbatch
    obtain ⟨bp, s₁⟩ := state
    obtain ⟨-, hclients', hbatch', happend⟩ := recordFiles_frame after
      (recordBatchSuccess f bp s₁ file).1 (recordBatchSuccess f bp s₁ file).2.store
    have hkept : t ∈ (recordBatchSuccess f bp s₁ file).1.allTxns := by
      rw [recordBatchSuccess_batch]
      exact List.mem_append_right _ (mem_dedupe.mpr ⟨hmem, Or.inr hnew⟩)
    have hload : (load auto f clientId s file (batch transactions before after)).1 =
        finishBatch f (recordFiles (recordBatchSuccess f bp s₁ file).1
          (recordBatchSuccess f bp s₁ file).2.store after).1 (recordFiles
          (recordBatchSuccess f bp s₁ file).1 (recordBatchSuccess f bp s₁ file).2.store after).2 := by
      rw [load, hstate]
    rw [hload]
    refine (mem_finishBatch hf ?_ ?_).mpr (Or.inr ⟨rfl, List.mem_map_of_mem ?_⟩)
    · rw [hbatch', recordBatchSuccess_batch]
      exact hbatch
    · rw [hclients', (recordBatchSuccess_frame f _ _ file).2, hclients]
      exact hknown
    · exact mem_realRows.mpr ⟨happend.subset hkept, hreal⟩

end LoadPath

/-! ## The load and its retry -/

/-- The failures of a load but for those of `save_import` and `upsert_transactions`. -/
def Faults.withoutSave (f : Faults) : Faults :=
  { f with saveImport := false, upsertTransactions := false }

/-- A load that comes to save rows for a client, and fails. -/
structure SaveFails (path : LoadPath) (f : Faults) (clientId : ℕ) (s : Store)
    (file : StatementFile) : Prop where
  pos : 0 < clientId
  client : ∃ c ∈ s.db.clients.rows, c.id = clientId
  attempt : path.dedupes = true →
    ∃ t ∈ realRows file.result.txns, t.hash ∉ path.knownHashes f clientId s
  fault : f.saveImport = true ∨ f.upsertTransactions = true

/-- After a load that failed, `retry` stores every transaction that the load would have stored. -/
def RetryStores (auto auto' : AutoClassify) (path retry : LoadPath) (f : Faults) (clientId : ℕ)
    (s : Store) (file : StatementFile) : Prop :=
  ∀ t ∈ (path.load auto f.withoutSave clientId s file).2,
    ∃ t' ∈ (retry.load auto' .none clientId (path.load auto f clientId s file).1 file).2,
      t'.asParsed = t.asParsed

/-- The hashes of the rows were not written, and no row that was new to the load is a repeat to
the retry. A file without a row of the statement has nothing to store. -/
structure CanRetry (path retry : LoadPath) (f : Faults) (clientId : ℕ) (s : Store)
    (file : StatementFile) : Prop where
  notRecorded : path.recordsHashes f = false
  unknown : ∀ t ∈ realRows file.result.txns, t.hash ∉ path.knownHashes f clientId s →
    t.hash ∉ retry.knownHashes .none clientId s
  rows : realRows file.result.txns = [] → file.result.txns = []

section

variable {auto auto' : AutoClassify} {path retry : LoadPath} {f : Faults} {clientId : ℕ}
  {s : Store} {file : StatementFile}

/-- What is known does not depend on the rows that are stored. -/
theorem knownHashes_congr {s' : Store} (h : s'.dedupeHashes = s.dedupeHashes) :
    retry.knownHashes f clientId s' = retry.knownHashes f clientId s := by
  cases retry <;> simp only [LoadPath.knownHashes, Store.getDedupeHashes, h]

/-- What the failed load would have stored. -/
theorem SaveFails.would_store (h : SaveFails path f clientId s file) :
    (path.load auto f.withoutSave clientId s file).2 =
      path.classified auto (dedupe (path.knownHashes f clientId s) file.result.txns) := by
  have hknown : path.knownHashes f.withoutSave clientId s = path.knownHashes f clientId s := by
    cases path <;> rfl
  rw [LoadPath.load_stored path h.pos h.client, hknown, if_neg,
    if_neg (by simp [Faults.withoutSave])]
  rintro ⟨hdedupes, hnone⟩
  obtain ⟨t, ht, hnew⟩ := h.attempt hdedupes
  obtain ⟨hmem, hreal⟩ := mem_realRows.mp ht
  have hkept := mem_realRows.mpr ⟨mem_dedupe.mpr ⟨hmem, Or.inr hnew⟩, hreal⟩
  rw [hnone] at hkept
  cases hkept

/-- What the retry stores. -/
theorem SaveFails.retry_stored (h : SaveFails path f clientId s file) :
    (retry.load auto' .none clientId (path.load auto f clientId s file).1 file).2 =
      if retry.dedupes = true ∧ realRows (dedupe (retry.knownHashes .none clientId
          (path.load auto f clientId s file).1) file.result.txns) = [] then []
      else retry.classified auto' (dedupe (retry.knownHashes .none clientId
        (path.load auto f clientId s file).1) file.result.txns) := by
  rw [LoadPath.load_stored retry h.pos (by rw [LoadPath.load_clients]; exact h.client)]
  rfl

/-- A row that the retry stores for one that the load would have stored is new to it. -/
theorem RetryStores.exists_kept (h : RetryStores auto auto' path retry f clientId s file)
    (hfails : SaveFails path f clientId s file) {t : Transaction} (ht : t ∈ file.result.txns)
    (hnew : t.isOpeningBalance = true ∨ t.hash ∉ path.knownHashes f clientId s) :
    (retry.dedupes = true → realRows (dedupe (retry.knownHashes .none clientId
        (path.load auto f clientId s file).1) file.result.txns) ≠ []) ∧
      (t.isOpeningBalance = true ∨ t.hash ∉ retry.knownHashes .none clientId
        (path.load auto f clientId s file).1) := by
  obtain ⟨t₁, ht₁, hparsed₁⟩ := exists_asParsed_of_map_eq
    (path.map_asParsed_classified auto _).symm (mem_dedupe.mpr ⟨ht, hnew⟩)
  rw [← hfails.would_store] at ht₁
  obtain ⟨t₂, ht₂, hparsed₂⟩ := h t₁ ht₁
  rw [hfails.retry_stored] at ht₂
  split at ht₂
  · cases ht₂
  · rename_i hattempt
    refine ⟨fun hdedupes hnone => hattempt ⟨hdedupes, hnone⟩, ?_⟩
    obtain ⟨t₃, ht₃, hparsed₃⟩ :=
      exists_asParsed_of_map_eq (retry.map_asParsed_classified auto' _) ht₂
    obtain ⟨hhash, hopening⟩ := hash_of_asParsed (hparsed₃.trans (hparsed₂.trans hparsed₁))
    rw [← hhash, ← hopening]
    exact (mem_dedupe.mp ht₃).2

theorem mem_knownHashes {h : String} (hdedupes : retry.dedupes = true)
    (hmem : (clientId, h) ∈ s.dedupeHashes) : h ∈ retry.knownHashes .none clientId s := by
  have hget : h ∈ s.getDedupeHashes .none clientId := Store.mem_getDedupeHashes.mpr ⟨rfl, hmem⟩
  cases retry with
  | single dedupEnabled =>
    obtain rfl : dedupEnabled = true := hdedupes
    exact hget
  | batch transactions before after =>
    exact List.mem_append_left _ (List.mem_append_right _ hget)

/-- There is a row of the statement that was new to the load. -/
theorem CanRetry.exists_new (h : CanRetry path retry f clientId s file)
    (hfails : SaveFails path f clientId s file) (hrows : file.result.txns ≠ []) :
    ∃ t ∈ realRows file.result.txns, t.hash ∉ path.knownHashes f clientId s := by
  cases hdedupes : path.dedupes with
  | true => exact hfails.attempt hdedupes
  | false =>
    obtain ⟨t, ht⟩ := List.exists_mem_of_ne_nil _ fun hnone => hrows (h.rows hnone)
    refine ⟨t, ht, ?_⟩
    cases path with
    | single dedupEnabled =>
      obtain rfl : dedupEnabled = false := hdedupes
      exact List.not_mem_nil
    | batch => cases hdedupes

/--
**A load that failed to save its rows can be tried again exactly when it left no hashes, and no
row that was new to it is a repeat to the retry.**
-/
theorem retryStores_iff (hfails : SaveFails path f clientId s file)
    (hretry : retry.dedupes = true) :
    RetryStores auto auto' path retry f clientId s file ↔
      CanRetry path retry f clientId s file := by
  constructor
  · intro h
    have hrecorded : path.recordsHashes f = false := by
      rw [← Bool.not_eq_true]
      intro hrecords
      have hdedupes : path.dedupes = true := by
        cases path with
        | single dedupEnabled => exact (Bool.and_eq_true_iff.mp hrecords).1
        | batch => rfl
      obtain ⟨t, ht, hnew⟩ := hfails.attempt hdedupes
      obtain ⟨hmem, hreal⟩ := mem_realRows.mp ht
      have hstored := path.hash_mem_load auto hrecords hfails.client ht hnew
      have hunknown := (h.exists_kept hfails hmem (Or.inr hnew)).2.resolve_left (by simp [hreal])
      exact hunknown (mem_knownHashes hretry hstored)
    have hhashes : (path.load auto f clientId s file).1.dedupeHashes = s.dedupeHashes :=
      path.load_dedupeHashes hrecorded
    refine ⟨hrecorded, fun t ht hnew => ?_, fun hnone => ?_⟩
    · obtain ⟨hmem, hreal⟩ := mem_realRows.mp ht
      have hunknown := (h.exists_kept hfails hmem (Or.inr hnew)).2.resolve_left (by simp [hreal])
      rwa [knownHashes_congr hhashes] at hunknown
    · refine List.eq_nil_iff_forall_not_mem.mpr fun t ht => ?_
      have hopening : t.isOpeningBalance = true := by
        by_contra hreal
        have hmem := mem_realRows.mpr ⟨ht, Bool.not_eq_true _ ▸ hreal⟩
        rw [hnone] at hmem
        cases hmem
      obtain ⟨t', ht'⟩ := List.exists_mem_of_ne_nil _
        ((h.exists_kept hfails ht (Or.inl hopening)).1 hretry)
      obtain ⟨hkept, hreal⟩ := mem_realRows.mp ht'
      have hmem := mem_realRows.mpr ⟨(mem_dedupe.mp hkept).1, hreal⟩
      rw [hnone] at hmem
      cases hmem
  · intro h t ht
    rw [hfails.would_store] at ht
    obtain ⟨t₀, ht₀, hparsed⟩ := exists_asParsed_of_map_eq (path.map_asParsed_classified auto _) ht
    obtain ⟨hmem, hnew⟩ := mem_dedupe.mp ht₀
    rw [hfails.retry_stored, knownHashes_congr (path.load_dedupeHashes h.notRecorded)]
    obtain ⟨r, hr, hr_new⟩ := h.exists_new hfails (List.ne_nil_of_mem hmem)
    have hattempt : realRows (dedupe (retry.knownHashes .none clientId s) file.result.txns) ≠ [] := by
      obtain ⟨hr_mem, hr_real⟩ := mem_realRows.mp hr
      exact List.ne_nil_of_mem
        (mem_realRows.mpr ⟨mem_dedupe.mpr ⟨hr_mem, Or.inr (h.unknown r hr hr_new)⟩, hr_real⟩)
    rw [if_neg (fun hnone => hattempt hnone.2)]
    have hkept : t₀ ∈ dedupe (retry.knownHashes .none clientId s) file.result.txns := by
      refine mem_dedupe.mpr ⟨hmem, ?_⟩
      by_cases hreal : t₀.isOpeningBalance = true
      · exact Or.inl hreal
      · have hrow := mem_realRows.mpr ⟨hmem, Bool.not_eq_true _ ▸ hreal⟩
        exact Or.inr (h.unknown t₀ hrow (hnew.resolve_left hreal))
    obtain ⟨t', ht', hparsed'⟩ := exists_asParsed_of_map_eq
      (retry.map_asParsed_classified auto' _).symm hkept
    exact ⟨t', ht', hparsed'.trans hparsed⟩

end

def januaryFile : StatementFile := ⟨"january.xlsx", january⟩

/-- The sample client, for whom nothing was loaded yet. -/
def emptyStore : Store := ⟨sampleDb, []⟩

/-- Neither the hashes nor the import can be written. -/
def lockedDatabase : Faults := ⟨false, true, true, false⟩

/-- The file in a batch, and then by itself. -/
theorem retryStores_lockedDatabase :
    RetryStores .nothing .nothing (.batch [] [] []) (.single true) lockedDatabase 1 emptyStore
      januaryFile := by
  have hclient : ∃ c ∈ emptyStore.db.clients.rows, c.id = 1 :=
    ⟨⟨1, "Client A", "Ledger A"⟩, by decide +kernel, rfl⟩
  have hfails : SaveFails (.batch [] [] []) lockedDatabase 1 emptyStore januaryFile :=
    ⟨Nat.one_pos, hclient, fun _ => by decide +kernel, Or.inl rfl⟩
  refine (retryStores_iff hfails rfl).mpr ⟨rfl, by decide +kernel, fun hnone => ?_⟩
  exact absurd hnone (by decide +kernel)

/-- The import is not recorded but the hashes are. -/
theorem failed_save_is_a_repeat :
    ¬ ∀ auto auto' path retry f clientId s file, SaveFails path f clientId s file →
      retry.dedupes = true → RetryStores auto auto' path retry f clientId s file := by
  intro h
  have hclient : ∃ c ∈ emptyStore.db.clients.rows, c.id = 1 :=
    ⟨⟨1, "Client A", "Ledger A"⟩, by decide +kernel, rfl⟩
  have hstores := h .nothing .nothing (.single true) (.single true) ⟨false, false, true, false⟩ 1
    emptyStore januaryFile ⟨Nat.one_pos, hclient, fun _ => by decide +kernel, Or.inl rfl⟩ rfl
  obtain ⟨t, ht⟩ : ∃ t, t ∈ (LoadPath.load .nothing
      (Faults.withoutSave ⟨false, false, true, false⟩) 1 emptyStore januaryFile
      (.single true)).2 :=
    List.exists_mem_of_ne_nil _ (by decide +kernel)
  obtain ⟨t', ht', -⟩ := hstores t ht
  have hnone : (LoadPath.load .nothing .none 1 (LoadPath.load .nothing
      ⟨false, false, true, false⟩ 1 emptyStore januaryFile (.single true)).1 januaryFile
      (.single true)).2 = [] := by
    decide +kernel
  rw [hnone] at ht'
  cases ht'

end Desktop
