import BankStatementProcessor.Desktop.ImportHistory
import BankStatementProcessor.Desktop.Properties.RetriedLoad

/-!
# The rows of the import history and their ids

The list on the screen is read newest first, and the ids that its rows are looked up in are read
in the same order when a client is selected. From then on a load puts the id of its import at
the end, where the list has it at the front.
-/

namespace Desktop

open Infra

/-! ## Newest first -/

section

variable {importedAt : ℕ → ℤ} {db : Db} {p : ImportRecord → Bool}

instance : Std.Total (NewerFirst importedAt) where
  total i j := by
    unfold NewerFirst
    omega

instance : IsTrans ImportRecord (NewerFirst importedAt) where
  trans i j k hij hjk := by
    unfold NewerFirst at *
    omega

/-- Rows of the table in their order are determined by which they are. -/
theorem eq_newestFirst {l l' : List ImportRecord} (hrows : ∀ i ∈ l, i ∈ db.importHistory.rows)
    (hsorted : l.Pairwise (NewerFirst importedAt)) (hperm : l.Perm l') :
    newestFirst importedAt l' = l := by
  have hperm' : (newestFirst importedAt l').Perm l := (List.perm_insertionSort _ l').trans hperm.symm
  refine hperm'.eq_of_pairwise ?_ (List.pairwise_insertionSort _ l') hsorted
  intro i j hi hj hij hji
  refine db.importHistory.eq_of_key (hrows i (hperm'.subset hi)) (hrows j hj) ?_
  unfold NewerFirst at hij hji
  omega

/-- Fewer rows come in the same order. -/
theorem newestFirst_filter {l : List ImportRecord} (hrows : ∀ i ∈ l, i ∈ db.importHistory.rows)
    (p : ImportRecord → Bool) :
    newestFirst importedAt (l.filter p) = (newestFirst importedAt l).filter p := by
  have hperm : (newestFirst importedAt l).Perm l := List.perm_insertionSort _ l
  have hmem : ∀ i ∈ (newestFirst importedAt l).filter p, i ∈ db.importHistory.rows :=
    fun i hi => hrows i (hperm.subset (List.mem_of_mem_filter hi))
  refine eq_newestFirst hmem ?_ (hperm.filter p)
  exact (List.pairwise_insertionSort _ l).sublist List.filter_sublist

end

/-! ## Imports that are recorded -/

/-- The second database has the clients and the imports of the first, and imports recorded
since. -/
structure Records (db db' : Db) : Prop where
  rows : ∃ new, db'.importHistory.rows = db.importHistory.rows ++ new ∧
    ∀ i ∈ new, db.importHistory.nextId ≤ i.id
  nextId : db.importHistory.nextId ≤ db'.importHistory.nextId
  clients : db'.clients = db.clients

namespace Records

variable {db db' db'' : Db}

theorem of_eq (hhistory : db'.importHistory = db.importHistory)
    (hclients : db'.clients = db.clients) : Records db db' where
  rows := ⟨[], by rw [hhistory, List.append_nil], by simp⟩
  nextId := by rw [hhistory]
  clients := hclients

theorem refl (db : Db) : Records db db := of_eq rfl rfl

theorem trans (h : Records db db') (h' : Records db' db'') : Records db db'' where
  rows := by
    obtain ⟨new, hrows, hnew⟩ := h.rows
    obtain ⟨new', hrows', hnew'⟩ := h'.rows
    refine ⟨new ++ new', by rw [hrows', hrows, List.append_assoc], ?_⟩
    intro i hi
    rcases List.mem_append.mp hi with hi | hi
    · exact hnew i hi
    · exact h.nextId.trans (hnew' i hi)
  nextId := h.nextId.trans h'.nextId
  clients := h'.clients.trans h.clients

/-- The imports recorded before some time are the same. -/
theorem filter_eq (h : Records db db') {mark : ℕ} (hmark : mark ≤ db.importHistory.nextId)
    {p : ImportRecord → Bool} (hp : ∀ i, p i = true → i.id < mark) :
    db'.importHistory.rows.filter p = db.importHistory.rows.filter p := by
  obtain ⟨new, hrows, hnew⟩ := h.rows
  have hnone : new.filter p = [] := by
    refine List.filter_eq_nil_iff.mpr fun i hi hpi => ?_
    have := hp i hpi
    have := hnew i hi
    omega
  rw [hrows, List.filter_append, hnone, List.append_nil]

theorem saveImport {clientId txnCount importId : ℕ} {fileName bankName accountNo : String}
    (h : db.saveImport clientId fileName bankName accountNo txnCount = some (db', importId)) :
    Records db db' := by
  unfold Db.saveImport at h
  split at h
  · cases h
    exact ⟨⟨_, rfl, by simp⟩, Nat.le_succ _, rfl⟩
  · cases h

theorem importHistory_insertRows {rows : List TransactionRow} :
    ∀ {db db' : Db}, db.insertRows rows = some db' → db'.importHistory = db.importHistory := by
  induction rows with
  | nil =>
    rintro db db' heq
    rw [← Option.some.inj heq]
  | cons r rows ih =>
    intro db db' heq
    rw [Db.insertRows, List.foldlM_cons, Option.bind_eq_bind, Option.bind_eq_some_iff] at heq
    obtain ⟨db₁, hfirst, hrest⟩ := heq
    have hhistory : db₁.importHistory = db.importHistory := by
      unfold Db.insertOrReplace at hfirst
      split at hfirst
      · rw [← Option.some.inj hfirst]
      · cases hfirst
    exact (ih hrest).trans hhistory

/-- Transactions that are written record no import. -/
theorem upsertTransactions_frame {clientId n : ℕ} {importId : Option ℕ} {txns : List Transaction}
    (h : db.upsertTransactions clientId importId txns = some (db', n)) :
    db'.importHistory = db.importHistory ∧ db'.clients = db.clients := by
  obtain ⟨db₁, hrows, heq⟩ := Option.map_eq_some_iff.mp h
  cases heq
  exact ⟨importHistory_insertRows hrows, Store.insertRows_clients hrows⟩

theorem persist (f : Faults) (s : Store) (clientId : ℕ) (file : StatementFile)
    (txns : List Transaction) : Records s.db (s.persist f clientId file txns).1.db := by
  unfold Store.persist
  dsimp only
  split
  · exact refl _
  · next recorded importId hrecorded =>
    have hsaved : Records s.db recorded := by
      split at hrecorded
      · cases hrecorded
      · exact saveImport hrecorded
    split
    · exact hsaved
    · next written _ hwritten =>
      refine hsaved.trans ?_
      split at hwritten
      · cases hwritten
      · obtain ⟨hhistory, hclients⟩ := upsertTransactions_frame hwritten
        exact of_eq hhistory hclients

theorem finishLoadFile (auto : AutoClassify) (f : Faults) (dedupEnabled : Bool)
    (clientId : Option ℕ) (s : Store) (file : StatementFile) :
    Records s.db (finishLoadFile auto f dedupEnabled clientId s file).store.db := by
  have happly : ∀ (s : Store) (txns : List Transaction),
      Records s.db (applyParseResult auto f clientId s file txns).1.db := by
    intro s txns
    cases clientId with
    | none => exact refl _
    | some cid => exact persist f s cid file _
  unfold Desktop.finishLoadFile
  split
  · dsimp only
    split
    · exact refl _
    · exact (of_eq (by rw [Store.addDedupeHashes_db]) (by rw [Store.addDedupeHashes_db])).trans
        (happly _ _)
  · exact happly s _

theorem recordBatchSuccess (f : Faults) (bp : BatchProgress) (s : Store) (file : StatementFile) :
    Records s.db (recordBatchSuccess f bp s file).2.store.db := by
  unfold Desktop.recordBatchSuccess
  dsimp only
  split
  · split
    · exact refl _
    · exact persist f s _ file _
  · exact refl _

theorem onDoSelectClient_frame (auto : AutoClassify) (auditEvents : List String) (st : AppState)
    (db : Db) (name : String) :
    (onDoSelectClient auto auditEvents st db name).2.importHistory = db.importHistory ∧
      (onDoSelectClient auto auditEvents st db name).2.clients = db.clients := by
  unfold onDoSelectClient
  split
  · exact ⟨rfl, rfl⟩
  · dsimp only
    split
    · cases hupsert : db.upsertTransactions _ none _ with
      | none => exact ⟨rfl, rfl⟩
      | some written => exact upsertTransactions_frame hupsert
    · exact ⟨rfl, rfl⟩

end Records

/-! ## The condition -/

/-- The screen, and the next id of an import at the time the client was selected. -/
structure ImportSession where
  screen : ImportScreen
  selectedAt : ℕ

namespace ImportSession

variable (importedAt : ℕ → ℤ)

def step (x : ImportSession) (e : ImportEvent) : ImportSession where
  screen := x.screen.step importedAt e
  selectedAt :=
    match e with
    | .selectClient _ _ name =>
      match x.screen.store.db.selectedClient name with
      | none => x.selectedAt
      | some _ => x.screen.store.db.importHistory.nextId
    | _ => x.selectedAt

def clientId (x : ImportSession) : ℕ := x.screen.st.clientId.getD 0

/-- All imports of the client that the list could show, those from before the client was selected,
and those recorded since. -/
def listed (x : ImportSession) : List ImportRecord :=
  x.screen.store.db.importHistory.rows.filter (·.listed x.clientId)

def older (x : ImportSession) : List ImportRecord :=
  x.screen.store.db.importHistory.rows.filter fun i => i.listed x.clientId && i.id < x.selectedAt

def newer (x : ImportSession) : List ImportRecord :=
  x.screen.store.db.importHistory.rows.filter fun i => i.listed x.clientId && !(i.id < x.selectedAt)

/-- No import was recorded for the client since it was selected, or only one, the first of all,
and its id is all that is kept in mind. -/
def NothingNew (x : ImportSession) : Prop :=
  x.newer = [] ∨ (x.newer.length = 1 ∧ x.screen.importIds = x.newer.map ImportRecord.id)

/-- The list is refreshed only then, and nothing is deleted from a list that does not show all the
client's imports. -/
def RefreshesInTime (x : ImportSession) : ImportEvent → Prop
  | .importHistory => x.NothingNew
  | .deleteImport idx => ∀ i ∈ (x.screen.imports importedAt)[idx]?,
      (x.screen.store.deleteImport i.id).isSome = true → x.NothingNew ∧ x.listed.length ≤ 20
  | _ => True

/-! ## The ids of the rows -/

/-- Each row of the list is an import of the current client, and its id is at its place. -/
def Aligned (s : ImportScreen) : Prop :=
  ∀ (n : ℕ) (i : ImportRecord), s.importRecords[n]? = some i →
    s.importIds[n]? = some i.id ∧ s.st.clientId = some i.clientId

structure InStep (x : ImportSession) : Prop where
  clients : ∀ c ∈ x.screen.store.db.clients.rows, 0 < c.id
  selectedAt : x.selectedAt ≤ x.screen.store.db.importHistory.nextId
  recordIds : x.screen.importRecords.map ImportRecord.id <+: x.screen.importIds
  owner : ∀ i ∈ x.screen.importRecords, x.screen.st.clientId = some i.clientId
  olderIds : ((newestFirst importedAt x.older).take 20).map ImportRecord.id <+: x.screen.importIds

variable {importedAt} {x : ImportSession}

theorem InStep.aligned (h : x.InStep importedAt) : Aligned x.screen := by
  intro n i hi
  refine ⟨?_, h.owner i (List.mem_of_getElem? hi)⟩
  obtain ⟨rest, hrest⟩ := h.recordIds
  have hlt : n < (x.screen.importRecords.map ImportRecord.id).length := by
    rw [List.length_map]
    exact (List.getElem?_eq_some_iff.mp hi).1
  rw [← hrest, List.getElem?_append_left hlt, List.getElem?_map, hi]
  rfl

/-- The rows that a new look at the table shows belong to the client on the screen. -/
theorem InStep.owner_imports (h : x.InStep importedAt) {i : ImportRecord}
    (hi : i ∈ x.screen.imports importedAt) : x.screen.st.clientId = some i.clientId := by
  have hmem := (List.mem_insertionSort _).mp (List.mem_of_mem_take hi)
  obtain ⟨hrow, hlisted⟩ := List.mem_filter.mp hmem
  obtain ⟨c, hc, hid⟩ := x.screen.store.db.importHistory_client i hrow
  have hpos := h.clients c hc
  have hclient : i.clientId = x.screen.st.clientId.getD 0 := by
    simp only [ImportRecord.listed, Bool.and_eq_true, decide_eq_true_eq] at hlisted
    exact hlisted.1.1
  cases hst : x.screen.st.clientId with
  | none =>
    rw [hst, Option.getD_none] at hclient
    omega
  | some cid =>
    rw [hst, Option.getD_some] at hclient
    rw [hclient]

theorem listed_eq_older (h : x.newer = []) : x.listed = x.older := by
  refine List.filter_congr fun i hi => ?_
  have hnot := List.filter_eq_nil_iff.mp h i hi
  cases hlisted : i.listed x.clientId with
  | false => rfl
  | true => simpa [hlisted] using hnot

theorem listed_eq_newer (h : x.older = []) : x.listed = x.newer := by
  refine List.filter_congr fun i hi => ?_
  have hnot := List.filter_eq_nil_iff.mp h i hi
  cases hlisted : i.listed x.clientId with
  | false => rfl
  | true => simpa [hlisted] using hnot

/-- When nothing is new, a new look shows what is kept in mind. -/
theorem InStep.imports_prefix (h : x.InStep importedAt) (hnew : x.NothingNew) :
    (x.screen.imports importedAt).map ImportRecord.id <+: x.screen.importIds := by
  show ((newestFirst importedAt x.listed).take 20).map ImportRecord.id <+: _
  rcases hnew with hnone | ⟨hone, hids⟩
  · rw [listed_eq_older hnone]
    exact h.olderIds
  · obtain ⟨y, hy⟩ := List.length_eq_one_iff.mp hone
    rw [hy] at hids
    -- Nothing older is kept in mind, so there is nothing older.
    have holder : x.older = [] := by
      cases hsorted : (newestFirst importedAt x.older).take 20 with
      | nil =>
        have hlength := congrArg List.length hsorted
        rw [List.length_take, newestFirst, List.length_insertionSort, List.length_nil] at hlength
        exact List.length_eq_zero_iff.mp (by omega)
      | cons i rest =>
        have hprefix := h.olderIds
        rw [hsorted, hids, List.map_cons, List.map_singleton] at hprefix
        have hid : i.id = y.id := (List.cons_prefix_cons.mp hprefix).1
        have hi : i ∈ x.older := by
          have hmem : i ∈ (newestFirst importedAt x.older).take 20 := hsorted ▸ List.mem_cons_self
          exact (List.mem_insertionSort _).mp (List.mem_of_mem_take hmem)
        have hymem : y ∈ x.newer := hy ▸ List.mem_singleton_self y
        simp only [older, newer, List.mem_filter, Bool.and_eq_true, Bool.not_eq_true',
          decide_eq_true_eq, decide_eq_false_iff_not] at hi hymem
        omega
    rw [listed_eq_newer holder, hy, hids]
    rfl

/-! ## One step -/

/-- A step that only records imports and keeps ids in mind. -/
theorem InStep.grow (h : x.InStep importedAt) {s : ImportScreen}
    (hst : s.st.clientId = x.screen.st.clientId) (hrecords : s.importRecords = x.screen.importRecords)
    (hdb : Records x.screen.store.db s.store.db) {extra : List ℕ}
    (hids : s.importIds = x.screen.importIds ++ extra) :
    InStep importedAt ⟨s, x.selectedAt⟩ where
  clients := by rw [hdb.clients]; exact h.clients
  selectedAt := h.selectedAt.trans hdb.nextId
  recordIds := by
    show s.importRecords.map ImportRecord.id <+: s.importIds
    rw [hrecords, hids]
    exact h.recordIds.trans (List.prefix_append _ _)
  owner := by
    show ∀ i ∈ s.importRecords, s.st.clientId = some i.clientId
    rw [hrecords, hst]
    exact h.owner
  olderIds := by
    have holder : older ⟨s, x.selectedAt⟩ = x.older := by
      unfold older clientId
      rw [hst]
      refine hdb.filter_eq h.selectedAt fun i hi => ?_
      exact of_decide_eq_true ((Bool.and_eq_true _ _).mp hi).2
    rw [holder]
    show _ <+: s.importIds
    rw [hids]
    exact h.olderIds.trans (List.prefix_append _ _)

theorem showing_clientId (st : AppState) (txns : List Transaction) :
    (st.showing txns).clientId = st.clientId := rfl

theorem onDoSelectClient_clientId (auto : AutoClassify) (auditEvents : List String) (st : AppState)
    {db : Db} {name : String} {client : Client} (h : db.selectedClient name = some client) :
    (onDoSelectClient auto auditEvents st db name).1.clientId = some client.id := by
  unfold onDoSelectClient
  rw [h]

theorem InStep.selectClient (h : x.InStep importedAt) (auto : AutoClassify)
    (auditEvents : List String) (name : String) :
    (x.step importedAt (.selectClient auto auditEvents name)).InStep importedAt := by
  cases hclient : x.screen.store.db.selectedClient name with
  | none =>
    have hstep : x.step importedAt (.selectClient auto auditEvents name) = x := by
      simp only [step, ImportScreen.step, hclient]
    rw [hstep]
    exact h
  | some client =>
    obtain ⟨hhistory, hclients⟩ :=
      Records.onDoSelectClient_frame auto auditEvents x.screen.st x.screen.store.db name
    have hid := onDoSelectClient_clientId auto auditEvents x.screen.st hclient
    generalize hselected : onDoSelectClient auto auditEvents x.screen.st x.screen.store.db name =
      selected at hhistory hclients hid
    obtain ⟨st, db⟩ := selected
    have hstep : x.step importedAt (.selectClient auto auditEvents name) =
        ⟨{ x.screen with
            st := st
            store := { x.screen.store with db := db }
            importRecords := db.getImports importedAt client.id
            importIds := (db.getImports importedAt client.id).map ImportRecord.id },
          x.screen.store.db.importHistory.nextId⟩ := by
      simp only [step, ImportScreen.step, hclient, hselected]
    rw [hstep]
    have hclientId : st.clientId.getD 0 = client.id := by rw [hid, Option.getD_some]
    have hlisted : (db.getImports importedAt client.id).map ImportRecord.id <+:
        (db.getImports importedAt client.id).map ImportRecord.id := List.prefix_rfl
    refine ⟨?_, ?_, hlisted, ?_, ?_⟩
    · show ∀ c ∈ db.clients.rows, 0 < c.id
      rw [hclients]
      exact h.clients
    · show _ ≤ db.importHistory.nextId
      rw [hhistory]
    · intro i hi
      have hmem := (List.mem_insertionSort _).mp (List.mem_of_mem_take hi)
      have hshown := (List.mem_filter.mp hmem).2
      simp only [ImportRecord.listed, Bool.and_eq_true, decide_eq_true_eq] at hshown
      rw [hid, hshown.1.1]
    · -- All imports of the client are from before.
      have holder : older ⟨{ x.screen with
            st := st
            store := { x.screen.store with db := db }
            importRecords := db.getImports importedAt client.id
            importIds := (db.getImports importedAt client.id).map ImportRecord.id },
          x.screen.store.db.importHistory.nextId⟩ =
            db.importHistory.rows.filter (·.listed client.id) := by
        unfold older clientId
        dsimp only
        rw [hclientId]
        refine List.filter_congr fun i hi => ?_
        have hbelow := db.importHistory.below i hi
        rw [hhistory] at hbelow
        rw [decide_eq_true hbelow, Bool.and_true]
      rw [holder]
      exact hlisted

/-- Rows that all fit stay in their order when one is deleted. -/
theorem take_newestFirst_filter {db : Db} {l : List ImportRecord}
    (hrows : ∀ i ∈ l, i ∈ db.importHistory.rows) (hfew : l.length ≤ 20)
    (p : ImportRecord → Bool) :
    (newestFirst importedAt (l.filter p)).take 20 = ((newestFirst importedAt l).take 20).filter p := by
  have hlength : (newestFirst importedAt l).length ≤ 20 := by
    rw [newestFirst, List.length_insertionSort]
    exact hfew
  rw [newestFirst_filter hrows, List.take_of_length_le hlength,
    List.take_of_length_le ((List.length_filter_le _ _).trans hlength)]

theorem prefix_filter_ids {l : List ImportRecord} {ids : List ℕ}
    (h : l.map ImportRecord.id <+: ids) (importId : ℕ) :
    (l.filter (fun i => i.id ≠ importId)).map ImportRecord.id <+:
      ids.filter (fun id => id ≠ importId) := by
  have hmap : (l.filter (fun i => i.id ≠ importId)).map ImportRecord.id =
      (l.map ImportRecord.id).filter (fun id => id ≠ importId) := by
    rw [List.filter_map]
    rfl
  rw [hmap]
  exact h.filter _

theorem InStep.deleteImport (h : x.InStep importedAt) {idx : ℕ}
    (he : x.RefreshesInTime importedAt (.deleteImport idx)) :
    (x.step importedAt (.deleteImport idx)).InStep importedAt := by
  cases hi : (x.screen.imports importedAt)[idx]? with
  | none =>
    have hstep : x.step importedAt (.deleteImport idx) = x := by
      simp only [step, ImportScreen.step, hi]
    rw [hstep]
    exact h
  | some i =>
    cases hdelete : x.screen.store.deleteImport i.id with
    | none =>
      have hstep : x.step importedAt (.deleteImport idx) = x := by
        simp only [step, ImportScreen.step, hi, hdelete]
      rw [hstep]
      exact h
    | some store =>
      obtain ⟨hnew, hfew⟩ := he i hi (by rw [hdelete]; rfl)
      obtain ⟨db, hdb, rfl⟩ := Option.map_eq_some_iff.mp hdelete
      obtain ⟨-, hclients, hhistory, -⟩ := Db.deleteImport_eq_some hdb
      generalize hscreen : ({ x.screen with
          store := { x.screen.store with db := db }
          importIds := x.screen.importIds.filter (· ≠ i.id) } : ImportScreen) = s
      have hstep : x.step importedAt (.deleteImport idx) =
          ⟨{ s with importRecords := s.imports importedAt }, x.selectedAt⟩ := by
        rw [← hscreen]
        simp only [step, ImportScreen.step, hi, hdelete]
      have hfilter : ∀ p : ImportRecord → Bool, db.importHistory.rows.filter p =
          (x.screen.store.db.importHistory.rows.filter p).filter (fun j => j.id ≠ i.id) := by
        intro p
        rw [hhistory, List.filter_comm]
      have hlisted : s.imports importedAt =
          (x.screen.imports importedAt).filter (fun j => j.id ≠ i.id) := by
        rw [← hscreen]
        show (newestFirst importedAt (db.importHistory.rows.filter _)).take 20 = _
        rw [hfilter]
        exact take_newestFirst_filter (fun j hj => List.mem_of_mem_filter hj) hfew _
      have holder : (newestFirst importedAt (older
          ⟨{ s with importRecords := s.imports importedAt }, x.selectedAt⟩)).take 20 =
            ((newestFirst importedAt x.older).take 20).filter (fun j => j.id ≠ i.id) := by
        have hfewer : x.older.length ≤ 20 := by
          refine (List.Sublist.length_le ?_).trans hfew
          exact List.monotone_filter_right _ fun j hj => (Bool.and_eq_true _ _).mp hj |>.1
        rw [← hscreen]
        show (newestFirst importedAt (db.importHistory.rows.filter _)).take 20 = _
        rw [hfilter]
        exact take_newestFirst_filter (fun j hj => List.mem_of_mem_filter hj) hfewer _
      have hids : s.importIds = x.screen.importIds.filter (fun id => id ≠ i.id) := by
        rw [← hscreen]
      rw [hstep]
      refine ⟨?_, ?_, ?_, ?_, ?_⟩
      · rw [← hscreen]
        show ∀ c ∈ db.clients.rows, 0 < c.id
        rw [hclients]
        exact h.clients
      · rw [← hscreen]
        show x.selectedAt ≤ db.importHistory.nextId
        rw [Db.deleteImport_nextId hdb]
        exact h.selectedAt
      · show (s.imports importedAt).map ImportRecord.id <+: s.importIds
        rw [hlisted, hids]
        exact prefix_filter_ids (h.imports_prefix hnew) i.id
      · intro j hj
        have hst : s.st = x.screen.st := by rw [← hscreen]
        show s.st.clientId = some j.clientId
        rw [hst]
        have hmem : j ∈ s.imports importedAt := hj
        rw [hlisted] at hmem
        exact h.owner_imports (List.mem_of_mem_filter hmem)
      · rw [holder]
        show _ <+: s.importIds
        rw [hids]
        exact prefix_filter_ids h.olderIds i.id

theorem inStep_step (x : ImportSession) (e : ImportEvent) (h : x.InStep importedAt)
    (he : x.RefreshesInTime importedAt e) : (x.step importedAt e).InStep importedAt := by
  cases e with
  | selectClient auto auditEvents name => exact h.selectClient auto auditEvents name
  | loadFile auto f dedupEnabled file =>
    refine h.grow ?_ rfl (.finishLoadFile auto f dedupEnabled _ _ file) rfl
    show (ite _ _ _ : AppState).clientId = _
    split <;> rfl
  | startBatch f => exact h.grow rfl rfl (.refl _) (List.append_nil _).symm
  | batchFile f file =>
    cases hbatch : x.screen.batch with
    | none =>
      have hstep : x.step importedAt (.batchFile f file) = x := by
        simp only [step, ImportScreen.step, hbatch]
      rw [hstep]
      exact h
    | some batch =>
      obtain ⟨bp, newImportIds⟩ := batch
      have hrecords := Records.recordBatchSuccess f bp x.screen.store file
      simp only [step, ImportScreen.step, hbatch]
      exact h.grow rfl rfl hrecords (List.append_nil _).symm
  | finishBatch auto f =>
    cases hbatch : x.screen.batch with
    | none =>
      have hstep : x.step importedAt (.finishBatch auto f) = x := by
        simp only [step, ImportScreen.step, hbatch]
      rw [hstep]
      exact h
    | some batch =>
      obtain ⟨bp, newImportIds⟩ := batch
      simp only [step, ImportScreen.step, hbatch]
      split
      · exact h.grow rfl rfl (.refl _) (List.append_nil _).symm
      · refine h.grow rfl rfl (.of_eq ?_ ?_) rfl
        · rw [finishBatch_db]
        · rw [finishBatch_db]
  | deleteImport idx => exact h.deleteImport he
  | importHistory =>
    exact { h with
      recordIds := h.imports_prefix he
      owner := fun i hi => h.owner_imports hi }

/-- No client is selected, and nothing is shown. -/
structure Started (x : ImportSession) : Prop where
  client : x.screen.st.clientId = none
  importRecords : x.screen.importRecords = []
  clients : ∀ c ∈ x.screen.store.db.clients.rows, 0 < c.id
  selectedAt : x.selectedAt = 0

theorem Started.inStep (h : Started x) : x.InStep importedAt where
  clients := h.clients
  selectedAt := by rw [h.selectedAt]; exact Nat.zero_le _
  recordIds := by rw [h.importRecords]; exact List.nil_prefix
  owner := by rw [h.importRecords]; simp
  olderIds := by
    have holder : x.older = [] := List.filter_eq_nil_iff.mpr fun i _ => by simp [h.selectedAt]
    rw [holder]
    exact List.nil_prefix

/--
**In every run whose refreshes of the list all come in time, the rows of the list and the ids they
are looked up in stay aligned.**
-/
theorem aligned_run (hx : Started x) (es : List ImportEvent)
    (hes : EveryStep (step importedAt) (RefreshesInTime importedAt) x es) :
    Aligned (run (step importedAt) x es).screen := by
  have hrun : (run (step importedAt) x es).InStep importedAt :=
    hes.invariant (fun y e hy he => inStep_step y e hy he) hx.inStep
  exact hrun.aligned

instance (x : ImportSession) : Decidable x.NothingNew :=
  inferInstanceAs (Decidable (x.newer = [] ∨
    (x.newer.length = 1 ∧ x.screen.importIds = x.newer.map ImportRecord.id)))

instance (x : ImportSession) (e : ImportEvent) : Decidable (x.RefreshesInTime importedAt e) :=
  match e with
  | .importHistory => inferInstanceAs (Decidable x.NothingNew)
  | .deleteImport idx => inferInstanceAs (Decidable (∀ i ∈ (x.screen.imports importedAt)[idx]?,
      (x.screen.store.deleteImport i.id).isSome = true → x.NothingNew ∧ x.listed.length ≤ 20))
  | .selectClient .. | .loadFile .. | .startBatch .. | .batchFile .. | .finishBatch .. =>
    instDecidableTrue

/-- A database with a client and no imports. -/
def noImports : ImportSession where
  screen :=
    { st :=
        { clientId := none
          transactions := []
          filterStatuses := []
          dateFrom := ""
          dateTo := ""
          bankFilter := ""
          vendorFilter := ""
          headFilter := ""
          auditEvents := []
          undoStack := [] }
      store := emptyStore
      importRecords := []
      importIds := []
      batch := none }
  selectedAt := 0

theorem noImports_started : Started noImports :=
  ⟨rfl, rfl, by decide +kernel, rfl⟩

def selectClientA : ImportEvent := .selectClient .nothing [] "Client A"

def loadStatement (file : StatementFile) : ImportEvent := .loadFile .nothing .none true file

/-- The first import of a client. -/
def firstImport : List ImportEvent :=
  [selectClientA, loadStatement januaryFile, .importHistory, .deleteImport 0, selectClientA,
    .importHistory]

theorem firstImport_aligned :
    Aligned (run (step Nat.cast) noImports firstImport).screen :=
  aligned_run noImports_started firstImport (by decide +kernel)

/-- The second import comes first in the list, and last among the ids. -/
theorem second_import_out_of_line :
    ¬ ∀ (importedAt : ℕ → ℤ) (x : ImportSession) (es : List ImportEvent), Started x →
      Aligned (run (step importedAt) x es).screen := by
  intro h
  have haligned := h Nat.cast noImports [selectClientA, loadStatement januaryFile,
    loadStatement ⟨"january_2.xlsx", secondHalf⟩, .importHistory] noImports_started
  obtain ⟨hid, -⟩ := haligned 0 ⟨2, 1, "january_2.xlsx", "HDFC Bank", "50100123456789", 2⟩
    (by decide +kernel)
  revert hid
  decide +kernel

end ImportSession

end Desktop
