import BankStatementProcessor.Desktop.ImportHistory
import BankStatementProcessor.Desktop.Properties.RetriedLoad

/-!
# An import that is deleted

The database refuses to delete an import as long as a transaction refers to it, and the hashes
that a load leaves are never taken back.
-/

namespace Desktop

open Infra

/-- The import is deleted with its transactions and nothing else, and a load of its file then
stores every transaction again. -/
def DeletionReversible (auto : AutoClassify) (s : Store) (clientId importId : ℕ)
    (file : StatementFile) : Prop :=
  ∃ s', s.deleteImport importId = some s' ∧
    s'.db.importHistory.rows = s.db.importHistory.rows.filter (fun i => i.id ≠ importId) ∧
    s'.db.transactions.rows =
      s.db.transactions.rows.filter (fun r => r.importId ≠ some importId) ∧
    (finishLoadFile auto .none true (some clientId) s' file).stored.map Transaction.asParsed =
      file.result.txns.map Transaction.asParsed

/-- No row of the table belongs to the import, no row of its file has a hash that is known, and
the file is not one of an opening balance alone. -/
structure CanDelete (s : Store) (clientId importId : ℕ) (file : StatementFile) : Prop where
  noRow : ∀ r ∈ s.db.transactions.rows, r.importId ≠ some importId
  newHashes : ∀ t ∈ realRows file.result.txns, (clientId, t.hash) ∉ s.dedupeHashes
  rows : realRows file.result.txns = [] → file.result.txns = []

section

variable {auto : AutoClassify} {s s' : Store} {clientId importId : ℕ} {file : StatementFile}

/-- What a load without a failure stores. -/
theorem finishLoadFile_stored (hclient : ∃ c ∈ s.db.clients.rows, c.id = clientId) :
    (finishLoadFile auto .none true (some clientId) s file).stored.map Transaction.asParsed =
      if realRows (dedupe (s.getDedupeHashes .none clientId) file.result.txns) = [] then []
      else (dedupe (s.getDedupeHashes .none clientId) file.result.txns).map
        Transaction.asParsed := by
  unfold finishLoadFile
  dsimp only
  by_cases hnew : realRows (dedupe (s.getDedupeHashes .none clientId) file.result.txns) = []
  · rw [if_pos (by rw [hnew]; rfl), if_pos hnew]
    rfl
  · rw [if_neg (by simpa using hnew), if_neg hnew]
    show (Store.persist _ _ clientId file _).2.map _ = _
    rw [Store.persist_stored (by rwa [Store.addDedupeHashes_db])]
    exact auto.keeps _

/-- All rows of a file are kept when the hash of none of its transactions is known. -/
theorem dedupe_eq_self_iff {known : List String} {txns : List Transaction} :
    dedupe known txns = txns ↔ ∀ t ∈ realRows txns, t.hash ∉ known := by
  rw [dedupe, List.filter_eq_self]
  constructor
  · intro h t ht
    obtain ⟨hmem, hreal⟩ := mem_realRows.mp ht
    simpa [hreal] using h t hmem
  · intro h t ht
    cases hopening : t.isOpeningBalance with
    | true => rfl
    | false => simpa using h t (mem_realRows.mpr ⟨ht, hopening⟩)

/-- A load stores its whole file again just in case nothing of it is known. -/
theorem stores_all_iff (hclient : ∃ c ∈ s.db.clients.rows, c.id = clientId) :
    (finishLoadFile auto .none true (some clientId) s file).stored.map Transaction.asParsed =
        file.result.txns.map Transaction.asParsed ↔
      (∀ t ∈ realRows file.result.txns, (clientId, t.hash) ∉ s.dedupeHashes) ∧
        (realRows file.result.txns = [] → file.result.txns = []) := by
  have hknown : ∀ t : Transaction, t.hash ∉ s.getDedupeHashes .none clientId ↔
      (clientId, t.hash) ∉ s.dedupeHashes := by
    intro t
    rw [Store.mem_getDedupeHashes]
    simp [Faults.none]
  rw [finishLoadFile_stored hclient]
  constructor
  · intro h
    have hall : dedupe (s.getDedupeHashes .none clientId) file.result.txns = file.result.txns := by
      split at h
      · rw [List.map_eq_nil_iff.mp h.symm]
        rfl
      · have hlength := congrArg List.length h
        rw [List.length_map, List.length_map] at hlength
        exact List.filter_sublist.eq_of_length hlength
    refine ⟨fun t ht => (hknown t).mp (dedupe_eq_self_iff.mp hall t ht), ?_⟩
    intro hreal
    rw [hall, if_pos hreal] at h
    exact List.map_eq_nil_iff.mp h.symm
  · rintro ⟨hnew, hrows⟩
    have hall : dedupe (s.getDedupeHashes .none clientId) file.result.txns = file.result.txns :=
      dedupe_eq_self_iff.mpr fun t ht => (hknown t).mpr (hnew t ht)
    rw [hall]
    split
    · next hreal =>
      rw [hrows hreal]
      rfl
    · rfl

/--
**An import can be deleted and loaded again exactly when none of its transactions is stored and
none of its file has left a hash.** So an import with a stored transaction never can.
-/
theorem deletionReversible_iff
    (himport : ∃ i ∈ s.db.importHistory.rows, i.id = importId ∧ i.clientId = clientId) :
    DeletionReversible auto s clientId importId file ↔ CanDelete s clientId importId file := by
  have hclient : ∃ c ∈ s.db.clients.rows, c.id = clientId := by
    obtain ⟨i, hi, -, rfl⟩ := himport
    exact s.db.importHistory_client i hi
  constructor
  · rintro ⟨s', hdelete, -, -, hstored⟩
    obtain ⟨db, hdb, rfl⟩ := Option.map_eq_some_iff.mp hdelete
    obtain ⟨hfree, hclients, -, -⟩ := Db.deleteImport_eq_some hdb
    obtain ⟨hnew, hrows⟩ := (stores_all_iff (by rwa [hclients])).mp hstored
    exact ⟨hfree, hnew, hrows⟩
  · rintro ⟨hfree, hnew, hrows⟩
    cases hdb : s.db.deleteImport importId with
    | none =>
      obtain ⟨r, hr, hid⟩ := Db.deleteImport_eq_none.mp hdb
      exact absurd hid (hfree r hr)
    | some db =>
      obtain ⟨-, hclients, hhistory, htransactions⟩ := Db.deleteImport_eq_some hdb
      refine ⟨{ s with db := db }, by rw [Store.deleteImport, hdb]; rfl, hhistory, ?_, ?_⟩
      · rw [htransactions, List.filter_eq_self.mpr]
        exact fun r hr => decide_eq_true (hfree r hr)
      · exact (stores_all_iff (by rwa [hclients])).mpr ⟨hnew, hrows⟩

end

/-- The one import of a store into which the statement of January was loaded. -/
def januaryStore (dedupEnabled : Bool) : Store :=
  (finishLoadFile .nothing .none dedupEnabled (some 1) emptyStore januaryFile).store

/-- The statement was loaded without deduplication, and its row was deleted by hand. -/
def januaryWithoutRows : Store :=
  { januaryStore false with
    db := (januaryStore false).db.deleteTransaction 1 (RowId.excel 1 0).render }

theorem januaryWithoutRows_reversible :
    DeletionReversible .nothing januaryWithoutRows 1 1 januaryFile :=
  (deletionReversible_iff ⟨⟨1, 1, "january.xlsx", "HDFC Bank", "50100123456789", 1⟩, by
    decide +kernel⟩).mpr ⟨by decide +kernel, by decide +kernel, by decide +kernel⟩

/-- An import with a stored transaction is not deleted. -/
theorem stored_import_stays :
    ¬ ∀ (auto : AutoClassify) (s : Store) (clientId importId : ℕ) (file : StatementFile),
      (∃ i ∈ s.db.importHistory.rows, i.id = importId ∧ i.clientId = clientId) →
      (∃ r ∈ s.db.transactions.rows, r.importId = some importId) →
      DeletionReversible auto s clientId importId file := by
  intro h
  obtain ⟨s', hdelete, -⟩ := h .nothing (januaryStore true) 1 1 januaryFile
    ⟨⟨1, 1, "january.xlsx", "HDFC Bank", "50100123456789", 1⟩, by decide +kernel⟩
    (by decide +kernel)
  obtain ⟨db, hdb, -⟩ := Option.map_eq_some_iff.mp hdelete
  rw [Db.deleteImport_eq_none.mpr (by decide +kernel)] at hdb
  cases hdb

end Desktop
