import BankStatementProcessor.Desktop.Properties.StatementRows
import BankStatementProcessor.Desktop.Screen

/-!
# Screen and store agree

Every edit changes the row in memory and the stored row, and three of them leave the two
different: a plain save stores confidence 1 for the 0.75 shown, a row marked as suspense is not
stored at all, and a row added after a deletion may get an id that is taken, so that it replaces
the stored row of another.
-/

namespace Desktop

open Infra

/-! ## Agreement -/

/-- The stored row, read back, has the classification that is shown. -/
def SameClassification (t : Transaction) (r : TransactionRow) : Prop :=
  r.read.vendor = t.vendor ∧ r.read.accountHead = t.accountHead ∧ r.read.txnType = t.txnType ∧
    r.read.status = t.status ∧ r.read.confidence = t.confidence ∧
    r.read.classificationSource = t.classificationSource

/-- Each transaction in memory has one stored row, which agrees with it, and no other row of the
client is stored. -/
structure StoreAgrees (c : ℕ) (s : Screen) : Prop where
  stored : ∀ t ∈ s.st.transactions,
    ∃ r ∈ s.db.transactions.rows, r.clientId = c ∧ r.id = t.id ∧ SameClassification t r ∧
      ∀ r' ∈ s.db.transactions.rows, r'.clientId = c → r'.id = t.id → r' = r
  shown : ∀ r ∈ s.db.transactions.rows, r.clientId = c → ∃ t ∈ s.st.transactions, t.id = r.id

/-- A client just loaded from the database, with anything on the undo stack. -/
structure Loaded (c : ℕ) (s : Screen) : Prop where
  client : s.st.clientId = some c
  known : ∃ client ∈ s.db.clients.rows, client.id = c
  transactions : s.st.transactions = s.db.getTransactions c

/-- What lies between a loaded client and the next edit: the ids in memory are different too. -/
structure InStep (c : ℕ) (s : Screen) : Prop extends StoreAgrees c s where
  client : s.st.clientId = some c
  known : ∃ client ∈ s.db.clients.rows, client.id = c
  ids : (s.st.transactions.map Transaction.id).Nodup

section

variable {c : ℕ} {s : Screen}

theorem realColumn_some {x : F64} (h : x ≠ .nan) : realColumn (some x) = some x := by
  simp [realColumn, Option.filter, h]

theorem row_unique {db : Db} {r r' : TransactionRow} (hr : r ∈ db.transactions.rows)
    (hr' : r' ∈ db.transactions.rows) (hc : r.clientId = r'.clientId) (hid : r.id = r'.id) :
    r = r' :=
  db.transactions.eq_of_key hr hr' (by rw [TransactionRow.key, TransactionRow.key, hc, hid])

theorem clientRows_ids_nodup (db : Db) (c : ℕ) :
    ((db.clientRows c).map TransactionRow.id).Nodup := by
  have hperm : (db.clientRows c).Perm (db.transactions.rows.filter (fun r => r.clientId = c)) :=
    List.perm_insertionSort _ _
  refine (hperm.map TransactionRow.id).nodup_iff.mpr ?_
  have hkeys : ((db.transactions.rows.filter (fun r => r.clientId = c)).map
      TransactionRow.key).Nodup :=
    (List.filter_sublist.map TransactionRow.key).nodup db.transactions.nodup
  refine List.Nodup.map_on ?_ hkeys.of_map
  intro r hr r' hr' hid
  refine List.inj_on_of_nodup_map hkeys hr hr' ?_
  have hc : r.clientId = c := by simpa using (List.mem_filter.mp hr).2
  have hc' : r'.clientId = c := by simpa using (List.mem_filter.mp hr').2
  rw [TransactionRow.key, TransactionRow.key, hc, hc', hid]

theorem Loaded.inStep (h : Loaded c s) : InStep c s where
  stored := by
    rw [h.transactions]
    intro t ht
    obtain ⟨r, hr, rfl⟩ := List.mem_map.mp ht
    obtain ⟨hmem, hc⟩ := mem_clientRows.mp hr
    refine ⟨r, hmem, hc, rfl, ⟨rfl, rfl, rfl, rfl, rfl, rfl⟩, fun r' hr' hc' hid => ?_⟩
    exact row_unique hr' hmem (hc'.trans hc.symm) hid
  shown := by
    rw [h.transactions]
    intro r hr hc
    exact ⟨r.read, List.mem_map_of_mem (mem_clientRows.mpr ⟨hr, hc⟩), rfl⟩
  client := h.client
  known := h.known
  ids := by
    rw [h.transactions, Db.getTransactions, List.map_map]
    exact clientRows_ids_nodup s.db c

/-- The uniqueness is that of the primary key. -/
theorem stored_of_exists {t : Transaction}
    (h : ∃ r ∈ s.db.transactions.rows, r.clientId = c ∧ r.id = t.id ∧ SameClassification t r) :
    ∃ r ∈ s.db.transactions.rows, r.clientId = c ∧ r.id = t.id ∧ SameClassification t r ∧
      ∀ r' ∈ s.db.transactions.rows, r'.clientId = c → r'.id = t.id → r' = r := by
  obtain ⟨r, hr, hc, hid, hsame⟩ := h
  refine ⟨r, hr, hc, hid, hsame, fun r' hr' hc' hid' => ?_⟩
  exact row_unique hr' hr (hc'.trans hc.symm) (hid'.trans hid.symm)

/-! ## A row that is edited -/

/-- The values of an update are those of the transaction. -/
def Writes (u : ClassificationUpdate) (t : Transaction) : Prop :=
  ∀ r : TransactionRow, SameClassification t (r.classified u)

theorem writes_of_eq {u : ClassificationUpdate} {t : Transaction} (hvendor : u.vendor = t.vendor)
    (hhead : u.accountHead = t.accountHead) (htype : u.txnType = t.txnType.display)
    (hstatus : u.status = t.status.display) (hconf : u.confidence = t.confidence)
    (hsource : u.classificationSource = t.classificationSource) (hnum : t.confidence ≠ .nan) :
    Writes u t := by
  intro r
  refine ⟨hvendor, hhead, ?_, ?_, ?_, hsource⟩
  · show voucherFromStr u.txnType = t.txnType
    rw [htype, voucherFromStr_display]
  · show statusFromStr u.status = t.status
    rw [hstatus, statusFromStr_display]
  · show (realColumn (realColumn (some u.confidence))).getD (.finite 0) = t.confidence
    rw [hconf, realColumn_some hnum, realColumn_some hnum, Option.getD_some]

/-- An edit that writes to the row of a transaction what it shows. -/
theorem InStep.classify (h : InStep c s) {pos : ℕ} {t t' : Transaction} {u : ClassificationUpdate}
    {st : AppState} (ht : s.st.transactions[pos]? = some t) (hid : t'.id = t.id)
    (hu : u.clientId = c ∧ u.txnId = t.id) (hw : Writes u t')
    (hclient : st.clientId = s.st.clientId)
    (htxns : st.transactions = s.st.transactions.set pos t') :
    InStep c { s with st := st, db := s.db.upsertTransactionClassification u } := by
  have hset := htxns.trans (set_eq_map_of_nodup h.ids ht)
  have hids : st.transactions.map Transaction.id = s.st.transactions.map Transaction.id := by
    rw [hset, List.map_map]
    refine List.map_congr_left fun x _ => ?_
    show (if x.id = t.id then t' else x).id = x.id
    split
    · rename_i hx
      rw [hid, hx]
    · rfl
  have hkey : ∀ r : TransactionRow,
      r.key = (u.clientId, u.txnId) ↔ r.clientId = c ∧ r.id = t.id := by
    intro r
    rw [TransactionRow.key, hu.1, hu.2, Prod.mk.injEq]
  refine ⟨⟨fun x hx => stored_of_exists ?_, fun r hr hc => ?_⟩, ?_, h.known, ?_⟩
  · rw [hset] at hx
    obtain ⟨x₀, hx₀, rfl⟩ := List.mem_map.mp hx
    obtain ⟨r, hr, hc, hr_id, hsame, -⟩ := h.stored x₀ hx₀
    by_cases hx_id : x₀.id = t.id
    · rw [if_pos hx_id]
      have hrow : r.key = (u.clientId, u.txnId) := (hkey r).mpr ⟨hc, hr_id.trans hx_id⟩
      exact ⟨r.classified u, Db.classified_mem hr hrow, hc,
        (hr_id.trans hx_id).trans hid.symm, hw r⟩
    · rw [if_neg hx_id]
      have hrow : r.key ≠ (u.clientId, u.txnId) :=
        fun hk => hx_id (hr_id.symm.trans ((hkey r).mp hk).2)
      exact ⟨r, (Db.mem_upsertTransactionClassification_of_ne hrow).mpr hr, hc, hr_id, hsame⟩
  · obtain ⟨r₀, hr₀, hc₀, hid₀⟩ := Db.exists_key_of_mem_upsert hr
    obtain ⟨x, hx, hx_id⟩ := h.shown r₀ hr₀ (hc₀.trans hc)
    have hmem : r.id ∈ st.transactions.map Transaction.id := by
      rw [hids, ← hid₀, ← hx_id]
      exact List.mem_map_of_mem hx
    exact List.mem_map.mp hmem
  · exact hclient.trans h.client
  · show (st.transactions.map Transaction.id).Nodup
    rw [hids]
    exact h.ids

/-- What is not shown may change. -/
theorem InStep.of_eq (h : InStep c s) {st : AppState} (hclient : st.clientId = s.st.clientId)
    (htxns : st.transactions = s.st.transactions) : InStep c { s with st := st } where
  stored := htxns ▸ h.stored
  shown := htxns ▸ h.shown
  client := hclient.trans h.client
  known := h.known
  ids := by
    show (st.transactions.map Transaction.id).Nodup
    rw [htxns]
    exact h.ids

theorem InStep.save (h : InStep c s) (now vendor head typ : String) (abs : ℕ) :
    InStep c { s with
      st := (saveTxnAt now vendor head typ true s.st abs).1
      db := Screen.persist s.db (saveTxnAt now vendor head typ true s.st abs).2 } := by
  unfold saveTxnAt
  split
  · exact h
  · rename_i t ht
    have hid : (t.saved vendor head typ true).id = t.id := rfl
    refine h.classify ht hid ⟨?_, rfl⟩ ?_ rfl rfl
    · show s.st.clientId.getD 0 = c
      rw [h.client, Option.getD_some]
    · exact writes_of_eq rfl rfl rfl rfl rfl rfl nofun

theorem InStep.undo (h : InStep c s) (now : String) {entry : UndoEntry}
    (hnum : entry.confidence ≠ .nan) (pos : ℕ) :
    InStep c { s with
      st := (undoAt now entry s.st pos).1
      db := Screen.persist s.db (undoAt now entry s.st pos).2 } := by
  unfold undoAt
  split
  · exact h
  · rename_i t ht
    rw [h.client]
    have hid : (t.restored entry).id = t.id := rfl
    refine h.classify ht hid ⟨rfl, rfl⟩ ?_ h.client.symm rfl
    exact writes_of_eq rfl rfl rfl rfl rfl rfl hnum

/-! ## Rows that go and come -/

theorem InStep.delete (h : InStep c s) (now : String) (abs : ℕ) :
    InStep c { s with
      st := (deleteTxnAt now s.st abs).1
      db := Screen.delete s.db (deleteTxnAt now s.st abs).2 } := by
  unfold deleteTxnAt
  split
  · exact h
  · rename_i t ht
    have herase := eraseIdx_eq_filter_of_nodup h.ids ht
    have hkey : ∀ r : TransactionRow, r.clientId = c → (r.key ≠ (c, t.id) ↔ r.id ≠ t.id) := by
      intro r hc
      rw [TransactionRow.key, hc, Ne, Prod.mk.injEq, and_iff_right rfl]
    rw [h.client]
    refine ⟨⟨fun x hx => stored_of_exists ?_, fun r hr hc => ?_⟩, rfl, h.known, ?_⟩
    · change x ∈ s.st.transactions.eraseIdx abs at hx
      rw [herase, List.mem_filter, decide_eq_true_iff] at hx
      obtain ⟨r, hr, hc, hid, hsame, -⟩ := h.stored x hx.1
      exact ⟨r, Keyed.mem_delete.mpr ⟨hr, (hkey r hc).mpr (hid ▸ hx.2)⟩, hc, hid, hsame⟩
    · obtain ⟨hmem, hne⟩ := Keyed.mem_delete.mp hr
      obtain ⟨x, hx, hid⟩ := h.shown r hmem hc
      refine ⟨x, ?_, hid⟩
      change x ∈ s.st.transactions.eraseIdx abs
      rw [herase, List.mem_filter, decide_eq_true_iff]
      exact ⟨hx, hid ▸ (hkey r hc).mp hne⟩
    · exact ((List.eraseIdx_sublist _ _).map Transaction.id).nodup h.ids

/-- A row that goes into the table as it stands in memory. -/
theorem toRow_sameClassification {t : Transaction} (hnum : t.confidence ≠ .nan)
    (importId : Option ℕ) : SameClassification t (t.toRow c importId) := by
  refine ⟨rfl, rfl, voucherFromStr_display _, statusFromStr_display _, ?_, ?_⟩
  · show (realColumn (realColumn (some t.confidence))).getD (.finite 0) = t.confidence
    rw [realColumn_some hnum, realColumn_some hnum, Option.getD_some]
  · show (if t.classificationSource.isEmpty then none else some t.classificationSource).getD "" =
      t.classificationSource
    split
    · rename_i hempty
      exact (String.isEmpty_iff.mp hempty).symm
    · rfl

theorem upsertTransactions_singleton {db : Db} {t : Transaction}
    (hknown : ∃ client ∈ db.clients.rows, client.id = c) (himport : t.importId = none) :
    ∃ db', db.upsertTransactions c none [t] = some (db', 1) ∧ db'.clients = db.clients ∧
      db'.transactions = db.transactions.replace (t.toRow c none) := by
  obtain ⟨db', heq, hclients, -, htxns⟩ :=
    Db.insertOrReplace_eq (r := t.toRow c none) hknown (by exact nofun)
  refine ⟨db', ?_, hclients, htxns⟩
  rw [Db.upsertTransactions, List.map_singleton, himport, Option.or_none, Db.insertRows,
    List.foldlM_cons, heq]
  rfl

theorem InStep.add (h : InStep c s) (now : String) (n : NewRow)
    (hfree : ∀ t ∈ s.st.transactions, t.id ≠ manualId s.st) :
    InStep c { s with
      st := (onDoAddTxn now s.st s.bankName s.accountNo n).1
      db := Screen.insert s.db (onDoAddTxn now s.st s.bankName s.accountNo n).2 } := by
  unfold onDoAddTxn
  rw [h.client]
  obtain ⟨db', heq, hclients, hrows⟩ := upsertTransactions_singleton
    (t := n.toTransaction (manualId s.st) s.bankName s.accountNo) h.known rfl
  show InStep c { s with
    st := _
    db := ((s.db.upsertTransactions c none
      [n.toTransaction (manualId s.st) s.bankName s.accountNo]).map Prod.fst).getD s.db }
  rw [heq]
  generalize ht : n.toTransaction (manualId s.st) s.bankName s.accountNo = t at hrows ⊢
  have hid : t.id = manualId s.st := ht ▸ rfl
  have hnum : t.confidence ≠ .nan := ht ▸ nofun
  rw [← hid] at hfree
  have hmem : ∀ {r : TransactionRow}, r ∈ db'.transactions.rows ↔
      r ∈ s.db.transactions.rows ∧ r.key ≠ (c, t.id) ∨ r = t.toRow c none := by
    intro r
    rw [hrows]
    exact Keyed.mem_replace
  refine ⟨⟨fun x hx => stored_of_exists ?_, fun r hr hc => ?_⟩, rfl, ?_, ?_⟩
  · rcases List.mem_append.mp hx with hx | hx
    · obtain ⟨r, hr, hc, hid_r, hsame, -⟩ := h.stored x hx
      have hne : r.key ≠ (c, t.id) := fun hk => hfree x hx (hid_r.symm.trans (Prod.mk.inj hk).2)
      exact ⟨r, hmem.mpr (Or.inl ⟨hr, hne⟩), hc, hid_r, hsame⟩
    · obtain rfl := List.mem_singleton.mp hx
      exact ⟨_, hmem.mpr (Or.inr rfl), rfl, rfl, toRow_sameClassification hnum none⟩
  · rcases hmem.mp hr with ⟨hr, -⟩ | rfl
    · obtain ⟨x, hx, hid_x⟩ := h.shown r hr hc
      exact ⟨x, List.mem_append_left _ hx, hid_x⟩
    · exact ⟨t, List.mem_append_right _ (List.mem_singleton_self t), rfl⟩
  · show ∃ client ∈ db'.clients.rows, client.id = c
    rw [hclients]
    exact h.known
  · show ((s.st.transactions ++ [t]).map Transaction.id).Nodup
    rw [List.map_append, List.map_singleton, List.nodup_append]
    refine ⟨h.ids, List.nodup_singleton _, ?_⟩
    intro a ha b hb
    obtain ⟨x, hx, rfl⟩ := List.mem_map.mp ha
    obtain rfl := List.mem_singleton.mp hb
    exact hfree x hx

end

/-! ## Runs -/

/-- The edits that leave the two in step, by the state they start from. -/
def EditKeeps (s : Screen) : String × EditEvent → Prop
  | (_, .save idx _ _ _ learn) => visibleToAbs s.st idx ≠ none → learn = true
  | (_, .undo) => ∀ entry ∈ s.st.undoStack.getLast?, entry.confidence ≠ .nan
  | (_, .add _) => ∀ t ∈ s.st.transactions, t.id ≠ manualId s.st
  | (_, .delete _) => True
  | (_, .markSuspense idx) => ∀ abs ∈ visibleToAbs s.st idx,
      ∀ t ∈ s.st.transactions[abs]?, t.status = .suspense

instance (s : Screen) : ∀ e, Decidable (EditKeeps s e)
  | (_, .save idx _ _ _ learn) =>
    inferInstanceAs (Decidable (visibleToAbs s.st idx ≠ none → learn = true))
  | (_, .undo) =>
    inferInstanceAs (Decidable (∀ entry ∈ s.st.undoStack.getLast?, entry.confidence ≠ .nan))
  | (_, .add _) => inferInstanceAs (Decidable (∀ t ∈ s.st.transactions, t.id ≠ manualId s.st))
  | (_, .delete _) => instDecidableTrue
  | (_, .markSuspense idx) => inferInstanceAs (Decidable (∀ abs ∈ visibleToAbs s.st idx,
      ∀ t ∈ s.st.transactions[abs]?, t.status = .suspense))

/-- To mark a row that is marked changes nothing. -/
theorem markSuspenseAt_of_suspense {st : AppState} {abs : ℕ}
    (h : ∀ t ∈ st.transactions[abs]?, t.status = .suspense) :
    (markSuspenseAt st abs).transactions = st.transactions := by
  refine List.ext_getElem? fun i => ?_
  show (st.transactions.modify abs _)[i]? = _
  rw [List.getElem?_modify]
  by_cases hi : abs = i
  · subst hi
    cases ht : st.transactions[abs]? with
    | none => simp
    | some t =>
      have hstatus : t.status = .suspense := h t ht
      simp [← hstatus]
  · simp [hi]

theorem inStep_edit {c : ℕ} (s : Screen) (e : String × EditEvent) (h : InStep c s)
    (he : EditKeeps s e) : InStep c (s.edit e) := by
  obtain ⟨now, e⟩ := e
  cases e with
  | save idx vendor head typ learn =>
    show InStep c { s with
      st := (onDoSaveTxn now s.st idx vendor head typ learn).1
      db := Screen.persist s.db (onDoSaveTxn now s.st idx vendor head typ learn).2 }
    unfold onDoSaveTxn
    split
    · rename_i abs habs
      obtain rfl : learn = true := he (by simp [habs])
      exact h.save now vendor head typ abs
    · exact h
  | undo =>
    show InStep c { s with
      st := (onDoUndoLastEdit now s.st).1
      db := Screen.persist s.db (onDoUndoLastEdit now s.st).2 }
    unfold onDoUndoLastEdit
    split
    · exact h
    · rename_i entry hentry
      have hpop : InStep c { s with st := { s.st with undoStack := s.st.undoStack.dropLast } } :=
        h.of_eq rfl rfl
      dsimp only
      split
      · exact hpop
      · exact hpop.undo now (he entry hentry) _
  | add n => exact h.add now n he
  | delete idx =>
    show InStep c { s with
      st := (onDoDeleteTxn now s.st idx).1
      db := Screen.delete s.db (onDoDeleteTxn now s.st idx).2 }
    unfold onDoDeleteTxn
    split
    · exact h.delete now _
    · exact h
  | markSuspense idx =>
    refine InStep.of_eq h ?_ ?_ <;> unfold onDoMarkSuspense <;> split
    · rfl
    · rfl
    · rename_i abs habs
      exact markSuspenseAt_of_suspense (he abs habs)
    · rfl

/-- A screen that starts as it was loaded stays in step with the store. -/
theorem storeAgrees_of_editKeeps {c : ℕ} {s : Screen} (hs : Loaded c s)
    (es : List (String × EditEvent)) (hes : EveryStep Screen.edit EditKeeps s es) :
    StoreAgrees c (run Screen.edit s es) :=
  (hes.invariant inStep_edit hs.inStep).toStoreAgrees

/-- A stored rent, and a stored salary that was marked as suspense. -/
def rentAndSalary : Db :=
  let rent := { Transaction.new "t_1_0" with narration := "RENT JANUARY" }
  let salary := { Transaction.new "t_2_1" with narration := "SALARY", status := .suspense }
  Screen.insert (Screen.insert sampleDb (some (1, rent))) (some (1, salary))

/-- The client of the sample database, just loaded. -/
def rentAndSalaryLoaded : Screen where
  st :=
    { clientId := some 1
      transactions := rentAndSalary.getTransactions 1
      filterStatuses := []
      dateFrom := ""
      dateTo := ""
      bankFilter := ""
      vendorFilter := ""
      headFilter := ""
      auditEvents := []
      undoStack := [] }
  bankName := "HDFC Bank"
  accountNo := "50100123456789"
  db := rentAndSalary

theorem rentAndSalaryLoaded_loaded : Loaded 1 rentAndSalaryLoaded where
  client := rfl
  known := ⟨⟨1, "Client A", "Ledger A"⟩, by decide +kernel, rfl⟩
  transactions := rfl

def cashSale : NewRow :=
  ⟨"05/01/2024", "", "CASH SALE", none, some (.finite 500), "", "Sales", "Receipt"⟩

/-- Save & Learn, undo, add, mark what is marked, delete. -/
def editsInStep : List (String × EditEvent) :=
  [("now", .save 0 "Landlord" "Rent" "Payment" true), ("now", .undo), ("now", .add cashSale),
    ("now", .markSuspense 1), ("now", .delete 0)]

theorem storeAgrees_editsInStep :
    EveryStep Screen.edit EditKeeps rentAndSalaryLoaded editsInStep ∧
      StoreAgrees 1 (run Screen.edit rentAndSalaryLoaded editsInStep) := by
  have hkeeps : EveryStep Screen.edit EditKeeps rentAndSalaryLoaded editsInStep := by
    decide +kernel
  exact ⟨hkeeps, storeAgrees_of_editKeeps rentAndSalaryLoaded_loaded editsInStep hkeeps⟩

/-- A plain save shows 0.75 and stores 1. -/
theorem plain_save_disagrees :
    ¬ ∀ c s, Loaded c s → ∀ es, StoreAgrees c (run Screen.edit s es) := by
  intro h
  have hagree := h 1 rentAndSalaryLoaded rentAndSalaryLoaded_loaded
    [("now", .save 0 "Landlord" "Rent" "Payment" false)]
  have hdiffer : ¬ ∀ t ∈ (rentAndSalaryLoaded.edit
      ("now", .save 0 "Landlord" "Rent" "Payment" false)).st.transactions,
      ∃ r ∈ (rentAndSalaryLoaded.edit
        ("now", .save 0 "Landlord" "Rent" "Payment" false)).db.transactions.rows,
        r.id = t.id ∧ r.read.confidence = t.confidence := by
    decide +kernel
  refine hdiffer fun t ht => ?_
  obtain ⟨r, hr, -, hid, hsame, -⟩ := hagree.stored t ht
  exact ⟨r, hr, hid, hsame.2.2.2.2.1⟩

end Desktop
