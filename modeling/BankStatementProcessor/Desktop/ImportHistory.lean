import BankStatementProcessor.Desktop.Loading

/-!
# The import history

The list of imports of a client: how it is read, how an entry is deleted, and which of the
callbacks refresh the list on the screen.
-/

namespace Desktop

open Infra

namespace Db

/-- `delete_import`. Foreign keys are on, and `transactions.import_id` refers to the row without
a rule for its deletion. -/
def deleteImport (db : Db) (importId : ℕ) : Option Db :=
  if h : ∃ r ∈ db.transactions.rows, r.importId = some importId then none
  else some { db with
    importHistory := db.importHistory.keep (fun i => i.id ≠ importId)
    importHistory_client := fun i hi => db.importHistory_client i (List.mem_of_mem_filter hi)
    transactions_import := by
      intro r hr id hid
      obtain ⟨i, hi, rfl⟩ := db.transactions_import r hr id hid
      refine ⟨i, List.mem_filter.mpr ⟨hi, decide_eq_true ?_⟩, rfl⟩
      intro heq
      exact h ⟨r, hr, by rw [← heq]; exact hid⟩ }

section

variable {db db' : Db} {importId : ℕ}

theorem deleteImport_eq_none :
    db.deleteImport importId = none ↔ ∃ r ∈ db.transactions.rows, r.importId = some importId := by
  unfold deleteImport
  split
  · next h => exact iff_of_true rfl h
  · next h => exact iff_of_false (Option.some_ne_none _) h

/-- A deletion that is carried out takes one row of one table. -/
theorem deleteImport_eq_some (h : db.deleteImport importId = some db') :
    (∀ r ∈ db.transactions.rows, r.importId ≠ some importId) ∧ db'.clients = db.clients ∧
      db'.importHistory.rows = db.importHistory.rows.filter (fun i => i.id ≠ importId) ∧
      db'.transactions = db.transactions := by
  unfold deleteImport at h
  split at h
  · cases h
  · next hfree =>
    cases h
    exact ⟨fun r hr hid => hfree ⟨r, hr, hid⟩, rfl, rfl, rfl⟩

theorem deleteImport_nextId (h : db.deleteImport importId = some db') :
    db'.importHistory.nextId = db.importHistory.nextId := by
  unfold deleteImport at h
  split at h
  · cases h
  · cases h
    rfl

end

end Db

/-- `delete_import` touches no other table. -/
def Store.deleteImport (s : Store) (importId : ℕ) : Option Store :=
  (s.db.deleteImport importId).map fun db => { s with db := db }

/-! ## The list of imports -/

/-- An import that the list shows. -/
def ImportRecord.listed (clientId : ℕ) (i : ImportRecord) : Bool :=
  i.clientId = clientId && 0 < i.txnCount && i.fileName != ""

/-- `ORDER BY imported_at DESC`, and by row id where the times are the same. An import keeps its
time and its id is never given again, so the times are a function of the id. -/
def NewerFirst (importedAt : ℕ → ℤ) (i j : ImportRecord) : Prop :=
  importedAt j.id < importedAt i.id ∨ importedAt i.id = importedAt j.id ∧ i.id ≤ j.id

instance (importedAt : ℕ → ℤ) : DecidableRel (NewerFirst importedAt) :=
  fun i j => inferInstanceAs (Decidable
    (importedAt j.id < importedAt i.id ∨ importedAt i.id = importedAt j.id ∧ i.id ≤ j.id))

def newestFirst (importedAt : ℕ → ℤ) (imports : List ImportRecord) : List ImportRecord :=
  imports.insertionSort (NewerFirst importedAt)

/-- `get_imports` -/
def Db.getImports (importedAt : ℕ → ℤ) (db : Db) (clientId : ℕ) : List ImportRecord :=
  (newestFirst importedAt (db.importHistory.rows.filter (·.listed clientId))).take 20

/-! ## The callbacks -/

/-- The import that a load records, `import_id_persisted`. -/
def Store.importIdPersisted (f : Faults) (s : Store) (clientId : ℕ) (file : StatementFile)
    (txns : List Transaction) : Option ℕ :=
  if f.saveImport then none
  else (s.db.saveImport clientId file.fileName file.result.bankName file.result.accountNo
    (realRows txns).length).map Prod.snd

def finishLoadFileImport (f : Faults) (dedupEnabled : Bool) (clientId : Option ℕ) (s : Store)
    (file : StatementFile) (loaded : LoadedFile) : Option ℕ :=
  match clientId with
  | none => none
  | some cid =>
    if dedupEnabled && (realRows loaded.kept).isEmpty then none
    else s.importIdPersisted f cid file loaded.kept

/-- An import whose transactions are not written is recorded, but not kept in mind. -/
def recordBatchSuccessImport (f : Faults) (bp : BatchProgress) (s : Store) (file : StatementFile)
    (loaded : LoadedFile) : Option ℕ :=
  if loaded.stored.isEmpty then none
  else bp.clientId.bind fun cid => s.importIdPersisted f cid file loaded.kept

/-- `importRecords` are the rows of the list on the screen, `importIds` what a click on one of
them is looked up in. -/
structure ImportScreen where
  st : AppState
  store : Store
  importRecords : List ImportRecord
  importIds : List ℕ
  /-- A batch that is running, with its `new_import_ids`. -/
  batch : Option (BatchProgress × List ℕ)

inductive ImportEvent where
  | selectClient (auto : AutoClassify) (auditEvents : List String) (name : String)
  | loadFile (auto : AutoClassify) (f : Faults) (dedupEnabled : Bool) (file : StatementFile)
  | startBatch (f : Faults)
  | batchFile (f : Faults) (file : StatementFile)
  | finishBatch (auto : AutoClassify) (f : Faults)
  | deleteImport (idx : ℕ)
  | importHistory

namespace ImportScreen

variable (importedAt : ℕ → ℤ)

/-- The imports that a new look at the table shows. -/
def imports (s : ImportScreen) : List ImportRecord :=
  s.store.db.getImports importedAt (s.st.clientId.getD 0)

def step (s : ImportScreen) : ImportEvent → ImportScreen
  | .selectClient auto auditEvents name =>
    match s.store.db.selectedClient name with
    | none => s
    | some client =>
      let (st, db) := onDoSelectClient auto auditEvents s.st s.store.db name
      let imports := db.getImports importedAt client.id
      { s with
        st := st
        store := { s.store with db := db }
        importRecords := imports
        importIds := imports.map ImportRecord.id }
  | .loadFile auto f dedupEnabled file =>
    let loaded := finishLoadFile auto f dedupEnabled s.st.clientId s.store file
    let importId := finishLoadFileImport f dedupEnabled s.st.clientId s.store file loaded
    { s with
      st :=
        if dedupEnabled && s.st.clientId.isSome && (realRows loaded.kept).isEmpty then s.st
        else { s.st.showing (auto.classifyAll loaded.kept).2 with undoStack := [] }
      store := loaded.store
      importIds := s.importIds ++ importId.toList }
  | .startBatch f =>
    { s with batch := some (startBatch f s.store s.st.transactions s.st.clientId, []) }
  | .batchFile f file =>
    match s.batch with
    | none => s
    | some (bp, newImportIds) =>
      let (bp', loaded) := recordBatchSuccess f bp s.store file
      let importId := recordBatchSuccessImport f bp s.store file loaded
      { s with store := loaded.store, batch := some (bp', newImportIds ++ importId.toList) }
  | .finishBatch auto f =>
    match s.batch with
    | none => s
    | some (bp, newImportIds) =>
      if bp.allTxns.isEmpty then { s with batch := none }
      else
        { s with
          st := s.st.showing (auto.classifyAll bp.allTxns).2
          store := Desktop.finishBatch f bp s.store
          importIds := s.importIds ++ newImportIds
          batch := none }
  | .deleteImport idx =>
    match (s.imports importedAt)[idx]? with
    | none => s
    | some i =>
      match s.store.deleteImport i.id with
      | none => s
      | some store =>
        let s := { s with store := store, importIds := s.importIds.filter (· ≠ i.id) }
        { s with importRecords := s.imports importedAt }
  | .importHistory => { s with importRecords := s.imports importedAt }

end ImportScreen

end Desktop
