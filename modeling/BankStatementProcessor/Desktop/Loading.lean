import BankStatementProcessor.Desktop.Screen
import BankStatementProcessor.Infra.Display

/-!
# Loading files

A load drops the rows whose hash is known, and then writes the hashes of the others, the import
and its rows. A batch does so file by file, but writes the hashes at its end. Each of these
accesses to the database may fail, and the ones after it are made all the same.
-/

namespace Desktop

open Infra

/-! ## Hashes -/

/-- The text that is hashed. -/
def Transaction.hashText (t : Transaction) : String :=
  t.date ++ "|" ++ t.narration ++ "|" ++ (t.debit.map F64.display).getD "null" ++ "|" ++
    (t.credit.map F64.display).getD "null"

/-- One turn of the rolling hash. The arithmetic wraps. -/
def rollHash (h : Int32) (c : Char) : Int32 := 31 * h + Int32.ofNat c.toNat

/-- `Transaction::hash`. -/
def Transaction.hash (t : Transaction) : String :=
  String.ofList (Nat.toDigits 16 (t.hashText.toList.foldl rollHash 0).toUInt32.toNat)

example : ({ Transaction.new "t" with
    date := "01/01/2024", narration := "SALARY CREDIT", credit := some (.finite 50000) }).hash =
      "75f7d949" := by decide +kernel

/-- The transactions without the opening balance row. -/
def realRows (txns : List Transaction) : List Transaction :=
  txns.filter fun t => !t.isOpeningBalance

/-- The transactions whose hash is not known. An opening balance row is always kept. -/
def dedupe (known : List String) (txns : List Transaction) : List Transaction :=
  txns.filter fun t => t.isOpeningBalance || !known.contains t.hash

theorem mem_realRows {txns : List Transaction} {t : Transaction} :
    t ∈ realRows txns ↔ t ∈ txns ∧ t.isOpeningBalance = false := by
  rw [realRows, List.mem_filter, Bool.not_eq_true']

theorem mem_dedupe {known : List String} {txns : List Transaction} {t : Transaction} :
    t ∈ dedupe known txns ↔ t ∈ txns ∧ (t.isOpeningBalance = true ∨ t.hash ∉ known) := by
  rw [dedupe, List.mem_filter, Bool.or_eq_true, Bool.not_eq_true', ← Bool.not_eq_true,
    List.contains_iff_mem]

theorem dedupe_congr {known known' : List String} (h : ∀ x, x ∈ known ↔ x ∈ known')
    (txns : List Transaction) : dedupe known txns = dedupe known' txns := by
  refine List.filter_congr fun t _ => ?_
  rw [Bool.eq_iff_iff, Bool.or_eq_true, Bool.or_eq_true, Bool.not_eq_true', Bool.not_eq_true',
    ← Bool.not_eq_true, ← Bool.not_eq_true, List.contains_iff_mem, List.contains_iff_mem, h]

/-- The hash is that of the parsed row. -/
theorem hash_of_asParsed {t t' : Transaction} (h : t'.asParsed = t.asParsed) :
    t'.hash = t.hash ∧ t'.isOpeningBalance = t.isOpeningBalance := by
  constructor
  · show t'.asParsed.hash = t.asParsed.hash
    rw [h]
  · show t'.asParsed.isOpeningBalance = t.asParsed.isOpeningBalance
    rw [h]

theorem exists_asParsed_of_map_eq {l l' : List Transaction}
    (h : l.map Transaction.asParsed = l'.map Transaction.asParsed) {t : Transaction} (ht : t ∈ l) :
    ∃ t' ∈ l', t'.asParsed = t.asParsed := by
  have hmem : t.asParsed ∈ l'.map Transaction.asParsed := h ▸ List.mem_map_of_mem ht
  exact List.mem_map.mp hmem

/-! ## The database -/

/-- The accesses to the database that fail. -/
structure Faults where
  getDedupeHashes : Bool
  addDedupeHashes : Bool
  saveImport : Bool
  upsertTransactions : Bool
deriving DecidableEq, Repr

def Faults.none : Faults := ⟨false, false, false, false⟩

/-- The database with the table `dedupe_hashes`. -/
structure Store where
  db : Db
  dedupeHashes : List (ℕ × String)

structure StatementFile where
  fileName : String
  result : ParseResult
deriving DecidableEq

namespace Store

def getDedupeHashes (f : Faults) (s : Store) (clientId : ℕ) : List String :=
  if f.getDedupeHashes then []
  else (s.dedupeHashes.filter fun e => e.1 = clientId).map Prod.snd

/-- A new row refers to its client. -/
def addDedupeHashes (f : Faults) (s : Store) (clientId : ℕ) (hashes : List String) : Store :=
  if f.addDedupeHashes then s
  else if ∃ c ∈ s.db.clients.rows, c.id = clientId then
    { s with dedupeHashes := hashes.foldl (fun es h => es.insert (clientId, h)) s.dedupeHashes }
  else s

/-- `save_import` and `upsert_transactions`; the result has the transactions that are stored. -/
def persist (f : Faults) (s : Store) (clientId : ℕ) (file : StatementFile)
    (txns : List Transaction) : Store × List Transaction :=
  let recorded :=
    if f.saveImport then none
    else s.db.saveImport clientId file.fileName file.result.bankName file.result.accountNo
      (realRows txns).length
  match recorded with
  | none => (s, [])
  | some (db, importId) =>
    let written :=
      if f.upsertTransactions then none else db.upsertTransactions clientId (some importId) txns
    match written with
    | none => ({ s with db := db }, [])
    | some (db, _) => ({ s with db := db }, txns)

section

variable {f : Faults} {s : Store} {clientId : ℕ}

theorem mem_getDedupeHashes {h : String} : h ∈ s.getDedupeHashes f clientId ↔
    f.getDedupeHashes = false ∧ (clientId, h) ∈ s.dedupeHashes := by
  unfold getDedupeHashes
  split
  · rename_i hf
    simp [hf]
  · rename_i hf
    simp [hf]

theorem addDedupeHashes_db (hashes : List String) :
    (s.addDedupeHashes f clientId hashes).db = s.db := by
  unfold addDedupeHashes
  split
  · rfl
  · split <;> rfl

theorem addDedupeHashes_of_fault (hf : f.addDedupeHashes = true) (hashes : List String) :
    s.addDedupeHashes f clientId hashes = s := by
  rw [addDedupeHashes, if_pos hf]

/-- A hash is known for a client if it was, or if it is one of those added. -/
theorem mem_addDedupeHashes (hf : f.addDedupeHashes = false)
    (hknown : ∃ c ∈ s.db.clients.rows, c.id = clientId) {hashes : List String} {e : ℕ × String} :
    e ∈ (s.addDedupeHashes f clientId hashes).dedupeHashes ↔
      e ∈ s.dedupeHashes ∨ e.1 = clientId ∧ e.2 ∈ hashes := by
  have hfold : ∀ es : List (ℕ × String),
      e ∈ hashes.foldl (fun es h => es.insert (clientId, h)) es ↔
        e ∈ es ∨ e.1 = clientId ∧ e.2 ∈ hashes := by
    induction hashes with
    | nil => simp
    | cons h hashes ih =>
      intro es
      rw [List.foldl_cons, ih, List.mem_insert_iff, List.mem_cons, Prod.ext_iff]
      tauto
  unfold addDedupeHashes
  rw [if_neg (by simp [hf]), if_pos hknown]
  exact hfold s.dedupeHashes

/-- A row that is written refers to a client and an import that exist, and adds neither. -/
theorem insertRows_clients {rows : List TransactionRow} :
    ∀ {db db' : Db}, db.insertRows rows = some db' → db'.clients = db.clients := by
  induction rows with
  | nil =>
    rintro db db' heq
    rw [← Option.some.inj heq]
  | cons r rows ih =>
    intro db db' heq
    rw [Db.insertRows, List.foldlM_cons, Option.bind_eq_bind, Option.bind_eq_some_iff] at heq
    obtain ⟨db₁, hfirst, hrest⟩ := heq
    have hclients : db₁.clients = db.clients := by
      unfold Db.insertOrReplace at hfirst
      split at hfirst
      · rw [← Option.some.inj hfirst]
      · cases hfirst
    exact (ih hrest).trans hclients

/-- Whatever fails, a load adds no client and no hash with the transactions. -/
theorem persist_frame (file : StatementFile) (txns : List Transaction) :
    (s.persist f clientId file txns).1.dedupeHashes = s.dedupeHashes ∧
      (s.persist f clientId file txns).1.db.clients = s.db.clients := by
  unfold persist
  dsimp only
  split
  · exact ⟨rfl, rfl⟩
  · rename_i recorded importId hrecorded
    have hclients : recorded.clients = s.db.clients := by
      split at hrecorded
      · cases hrecorded
      · unfold Db.saveImport at hrecorded
        split at hrecorded
        · rw [← (Prod.mk.inj (Option.some.inj hrecorded)).1]
        · cases hrecorded
    split
    · exact ⟨rfl, hclients⟩
    · rename_i written _ hwritten
      refine ⟨rfl, Eq.trans ?_ hclients⟩
      split at hwritten
      · cases hwritten
      · obtain ⟨db, hdb, heq⟩ := Option.map_eq_some_iff.mp hwritten
        rw [← (Prod.mk.inj heq).1]
        exact insertRows_clients hdb

/-- For a client that exists, only a failure keeps the transactions from being stored. -/
theorem persist_stored (hknown : ∃ c ∈ s.db.clients.rows, c.id = clientId)
    (file : StatementFile) (txns : List Transaction) :
    (s.persist f clientId file txns).2 =
      if f.saveImport || f.upsertTransactions then [] else txns := by
  unfold persist
  cases hsave : f.saveImport with
  | true => rfl
  | false =>
    obtain ⟨db₁, heq₁, hclients₁, -, -, himport₁⟩ := s.db.saveImport_eq file.fileName
      file.result.bankName file.result.accountNo (realRows txns).length hknown
    simp only [Bool.false_eq_true, if_false, heq₁]
    cases hupsert : f.upsertTransactions with
    | true => rfl
    | false =>
      have hrows : ∀ r ∈ txns.map
          (fun t => t.toRow clientId (some s.db.importHistory.nextId)),
          r.clientId = clientId ∧ r.importId = some s.db.importHistory.nextId := by
        intro r hr
        obtain ⟨t, -, rfl⟩ := List.mem_map.mp hr
        exact ⟨rfl, rfl⟩
      obtain ⟨db₂, heq₂, -⟩ := Db.insertRows_eq _ _ hrows db₁ (by rwa [hclients₁]) himport₁
      simp [Db.upsertTransactions, heq₂]

end

end Store

/-! ## One file -/

/-- What a file became: the rows that are no repeats, and those that are stored. -/
structure LoadedFile where
  store : Store
  kept : List Transaction
  stored : List Transaction

/-- The writes of `apply_parse_result`, for the rows that are left of the file. -/
def applyParseResult (auto : AutoClassify) (f : Faults) (clientId : Option ℕ) (s : Store)
    (file : StatementFile) (txns : List Transaction) : Store × List Transaction :=
  match clientId with
  | none => (s, [])
  | some cid => s.persist f cid file (auto.classifyAll txns).2

def finishLoadFile (auto : AutoClassify) (f : Faults) (dedupEnabled : Bool)
    (clientId : Option ℕ) (s : Store) (file : StatementFile) : LoadedFile :=
  match dedupEnabled, clientId with
  | true, some cid =>
    let kept := dedupe (s.getDedupeHashes f cid) file.result.txns
    if (realRows kept).length = 0 then ⟨s, kept, []⟩
    else
      let s := s.addDedupeHashes f cid ((realRows kept).map Transaction.hash)
      let (s, stored) := applyParseResult auto f (some cid) s file kept
      ⟨s, kept, stored⟩
  | _, _ =>
    let (s, stored) := applyParseResult auto f clientId s file file.result.txns
    ⟨s, file.result.txns, stored⟩

theorem finishLoadFile_clients {auto : AutoClassify} {f : Faults} {dedupEnabled : Bool}
    {clientId : Option ℕ} {s : Store} {file : StatementFile} :
    (finishLoadFile auto f dedupEnabled clientId s file).store.db.clients = s.db.clients := by
  have happly : ∀ (s : Store) (txns : List Transaction),
      (applyParseResult auto f clientId s file txns).1.db.clients = s.db.clients := by
    intro s txns
    cases clientId with
    | none => rfl
    | some cid => exact (Store.persist_frame file _).2
  unfold finishLoadFile
  split
  · dsimp only
    split
    · rfl
    · rw [happly, Store.addDedupeHashes_db]
  · exact happly _ _

/-- A file with a row that is new leaves the hashes of these rows, stored or not. -/
theorem finishLoadFile_dedupeHashes {auto : AutoClassify} {f : Faults} {cid : ℕ} {s : Store}
    {file : StatementFile}
    (hnew : realRows (dedupe (s.getDedupeHashes f cid) file.result.txns) ≠ []) :
    (finishLoadFile auto f true (some cid) s file).store.dedupeHashes =
      (s.addDedupeHashes f cid ((realRows
        (dedupe (s.getDedupeHashes f cid) file.result.txns)).map Transaction.hash)).dedupeHashes := by
  unfold finishLoadFile
  dsimp only
  rw [if_neg (by simpa using hnew)]
  exact (Store.persist_frame file _).1

/-! ## A batch -/

structure BatchProgress where
  allTxns : List Transaction
  persistedHashes : List String
  clientId : Option ℕ

/-- `transactions` are those on the screen. -/
def startBatch (f : Faults) (s : Store) (transactions : List Transaction)
    (clientId : Option ℕ) : BatchProgress where
  allTxns := transactions
  persistedHashes := (clientId.map (s.getDedupeHashes f)).getD []
  clientId := clientId

def BatchProgress.existingHashes (bp : BatchProgress) : List String :=
  bp.allTxns.map Transaction.hash ++ bp.persistedHashes

def recordBatchSuccess (f : Faults) (bp : BatchProgress) (s : Store) (file : StatementFile) :
    BatchProgress × LoadedFile :=
  let newTxns := dedupe bp.existingHashes file.result.txns
  let bp := { bp with allTxns := bp.allTxns ++ newTxns }
  if 0 < (realRows newTxns).length then
    match bp.clientId.filter (0 < ·) with
    | none => (bp, ⟨s, newTxns, []⟩)
    | some cid =>
      let (s, stored) := s.persist f cid file newTxns
      (bp, ⟨s, newTxns, stored⟩)
  else (bp, ⟨s, newTxns, []⟩)

def finishBatch (f : Faults) (bp : BatchProgress) (s : Store) : Store :=
  if bp.allTxns.isEmpty then s
  else
    match bp.clientId with
    | none => s
    | some cid => s.addDedupeHashes f cid ((realRows bp.allTxns).map Transaction.hash)

/-- The files of a batch one after the other, each with its own failures. -/
def recordFiles (bp : BatchProgress) (s : Store) :
    List (Faults × StatementFile) → BatchProgress × Store
  | [] => (bp, s)
  | (f, file) :: files =>
    let (bp, loaded) := recordBatchSuccess f bp s file
    recordFiles bp loaded.store files

/-! ## What a batch does -/

section

variable {f : Faults} {bp : BatchProgress} {s : Store}

theorem recordBatchSuccess_batch (file : StatementFile) :
    (recordBatchSuccess f bp s file).1 =
      { bp with allTxns := bp.allTxns ++ dedupe bp.existingHashes file.result.txns } := by
  unfold recordBatchSuccess
  dsimp only
  split
  · split <;> rfl
  · rfl

theorem recordBatchSuccess_kept (file : StatementFile) :
    (recordBatchSuccess f bp s file).2.kept = dedupe bp.existingHashes file.result.txns := by
  unfold recordBatchSuccess
  dsimp only
  split
  · split <;> rfl
  · rfl

theorem recordBatchSuccess_frame (f : Faults) (bp : BatchProgress) (s : Store)
    (file : StatementFile) :
    (recordBatchSuccess f bp s file).2.store.dedupeHashes = s.dedupeHashes ∧
      (recordBatchSuccess f bp s file).2.store.db.clients = s.db.clients := by
  unfold recordBatchSuccess
  dsimp only
  split
  · split
    · exact ⟨rfl, rfl⟩
    · exact Store.persist_frame file _
  · exact ⟨rfl, rfl⟩

/-- A file with a row that is new is stored unless the database fails. -/
theorem recordBatchSuccess_stored {cid : ℕ} (hbatch : bp.clientId = some cid) (hpos : 0 < cid)
    (hknown : ∃ c ∈ s.db.clients.rows, c.id = cid) (file : StatementFile) :
    (recordBatchSuccess f bp s file).2.stored =
      if realRows (dedupe bp.existingHashes file.result.txns) = [] then []
      else if f.saveImport || f.upsertTransactions then []
      else dedupe bp.existingHashes file.result.txns := by
  unfold recordBatchSuccess
  dsimp only
  by_cases hnew : realRows (dedupe bp.existingHashes file.result.txns) = []
  · rw [if_pos hnew, if_neg (by rw [hnew]; exact Nat.lt_irrefl 0)]
  · rw [if_neg hnew, if_pos (List.length_pos_iff.mpr hnew), hbatch, Option.filter_some,
      if_pos (decide_eq_true hpos)]
    exact Store.persist_stored hknown file _

/-- After a file the batch knows the hashes it knew and those of the file. -/
theorem mem_existingHashes_recordBatchSuccess (file : StatementFile) {h : String} :
    h ∈ (recordBatchSuccess f bp s file).1.existingHashes ↔
      h ∈ bp.existingHashes ∨ h ∈ file.result.txns.map Transaction.hash := by
  rw [recordBatchSuccess_batch, BatchProgress.existingHashes, BatchProgress.existingHashes]
  simp only [List.map_append, List.mem_append]
  constructor
  · rintro ((hold | hnew) | hpersisted)
    · exact Or.inl (Or.inl hold)
    · obtain ⟨t, ht, rfl⟩ := List.mem_map.mp hnew
      exact Or.inr (List.mem_map_of_mem (mem_dedupe.mp ht).1)
    · exact Or.inl (Or.inr hpersisted)
  · rintro ((hold | hpersisted) | hfile)
    · exact Or.inl (Or.inl hold)
    · exact Or.inr hpersisted
    · obtain ⟨t, ht, rfl⟩ := List.mem_map.mp hfile
      -- a row that is dropped has a hash that was known
      by_cases hknown : t.hash ∈ bp.existingHashes
      · rcases List.mem_append.mp hknown with hold | hpersisted
        · exact Or.inl (Or.inl hold)
        · exact Or.inr hpersisted
      · exact Or.inl (Or.inr (List.mem_map_of_mem (mem_dedupe.mpr ⟨ht, Or.inr hknown⟩)))

theorem recordFiles_frame (files : List (Faults × StatementFile)) :
    ∀ (bp : BatchProgress) (s : Store),
      (recordFiles bp s files).2.dedupeHashes = s.dedupeHashes ∧
        (recordFiles bp s files).2.db.clients = s.db.clients ∧
        (recordFiles bp s files).1.clientId = bp.clientId ∧
        bp.allTxns <+: (recordFiles bp s files).1.allTxns := by
  induction files with
  | nil => exact fun _ _ => ⟨rfl, rfl, rfl, List.prefix_rfl⟩
  | cons file files ih =>
    intro bp s
    obtain ⟨f, file⟩ := file
    obtain ⟨hhashes, hclients⟩ := recordBatchSuccess_frame f bp s file
    obtain ⟨hhashes', hclients', hbatch', happend'⟩ :=
      ih (recordBatchSuccess f bp s file).1 (recordBatchSuccess f bp s file).2.store
    have hbatch : (recordBatchSuccess f bp s file).1.clientId = bp.clientId := by
      rw [recordBatchSuccess_batch]
    have happend : bp.allTxns <+: (recordBatchSuccess f bp s file).1.allTxns := by
      rw [recordBatchSuccess_batch]
      exact List.prefix_append _ _
    exact ⟨hhashes'.trans hhashes, hclients'.trans hclients, hbatch'.trans hbatch,
      happend.trans happend'⟩

theorem mem_existingHashes_recordFiles {h : String} (files : List (Faults × StatementFile)) :
    ∀ {bp : BatchProgress} {s : Store}, h ∈ (recordFiles bp s files).1.existingHashes ↔
      h ∈ bp.existingHashes ∨
        h ∈ (files.flatMap fun file => file.2.result.txns).map Transaction.hash := by
  induction files with
  | nil => simp [recordFiles]
  | cons file files ih =>
    intro bp s
    obtain ⟨f, file⟩ := file
    show h ∈ (recordFiles (recordBatchSuccess f bp s file).1
      (recordBatchSuccess f bp s file).2.store files).1.existingHashes ↔ _
    rw [ih, mem_existingHashes_recordBatchSuccess, List.flatMap_cons, List.map_append,
      List.mem_append, or_assoc]

theorem finishBatch_of_fault (hf : f.addDedupeHashes = true) : finishBatch f bp s = s := by
  unfold finishBatch
  split
  · rfl
  · split
    · rfl
    · exact Store.addDedupeHashes_of_fault hf _

theorem finishBatch_db : (finishBatch f bp s).db = s.db := by
  unfold finishBatch
  split
  · rfl
  · split
    · rfl
    · exact Store.addDedupeHashes_db _

/-- The hashes that a batch leaves. -/
theorem mem_finishBatch {cid : ℕ} (hf : f.addDedupeHashes = false)
    (hbatch : bp.clientId = some cid) (hknown : ∃ c ∈ s.db.clients.rows, c.id = cid)
    {e : ℕ × String} : e ∈ (finishBatch f bp s).dedupeHashes ↔
      e ∈ s.dedupeHashes ∨ e.1 = cid ∧ e.2 ∈ (realRows bp.allTxns).map Transaction.hash := by
  unfold finishBatch
  split
  · rename_i hempty
    rw [List.isEmpty_iff.mp hempty]
    simp [realRows]
  · rw [hbatch]
    exact Store.mem_addDedupeHashes hf hknown

end

end Desktop
