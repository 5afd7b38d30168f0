import BankStatementProcessor.Desktop.Properties.StatementRows
import BankStatementProcessor.Desktop.Properties.VisibleRow
import BankStatementProcessor.Desktop.Screen

/-!
# What an undo changes

An entry of the undo stack has five fields of the transaction and its id. The classification
source is not among them, and the id says nothing about the client: loading a file clears the
stack, but showing the rows of another client does not.
-/

namespace Desktop

open Infra

/-! ## An edit undone -/

/-- What a save puts on the undo stack. -/
def Transaction.undoEntry (t : Transaction) : UndoEntry :=
  ⟨t.id, t.vendor, t.accountHead, t.txnType, t.status, t.confidence⟩

/-- A save with an undo right after it leaves all transactions as they were. -/
def UndoRestores (now now' : String) (st : AppState) (idx : ℕ) (vendor head typ : String)
    (learn : Bool) : Prop :=
  (onDoUndoLastEdit now' (onDoSaveTxn now st idx vendor head typ learn).1).1.transactions =
    st.transactions

/-- The edit writes what the transaction has. -/
def AlreadySaved (t : Transaction) (vendor head typ : String) (learn : Bool) : Prop :=
  (vendor = "" ∨ vendor = t.vendor) ∧ (head = "" ∨ head = t.accountHead) ∧
    chosenType typ t.txnType = t.txnType ∧ t.status = .classified ∧
    t.confidence = (if learn then .finite 1 else .finite (3 / 4)) ∧
    t.classificationSource = "user"

/-- The user has classified the transaction before, and it is the first of its id in memory;
or the edit changes nothing and the first one is classified alike. -/
def UndoFits (st : AppState) (abs : ℕ) (vendor head typ : String) (learn : Bool) : Prop :=
  ∀ t ∈ st.transactions[abs]?, ∀ first ∈ st.transactions.findIdx? (fun x => x.id == t.id),
    if first = abs then t.classificationSource = "user"
    else AlreadySaved t vendor head typ learn ∧
      ∀ t' ∈ st.transactions[first]?, t'.undoEntry = t.undoEntry

section

variable {α : Type*} {l : List α} {f g : α → α} {i j : ℕ}

theorem modify_eq_self_iff : l.modify i f = l ↔ ∀ a ∈ l[i]?, f a = a := by
  constructor
  · intro h a ha
    have hi := congrArg (·[i]?) h
    rw [List.getElem?_modify_eq, Option.mem_def.mp ha] at hi
    exact Option.some.inj hi
  · intro h
    refine List.ext_getElem? fun k => ?_
    by_cases hk : i = k
    · subst hk
      rw [List.getElem?_modify_eq]
      cases ha : l[i]? with
      | none => rfl
      | some a => exact congrArg some (h a ha)
    · rw [List.getElem?_modify_ne _ _ hk]

theorem set_eq_modify {a : α} (h : l[i]? = some a) : l.set i (f a) = l.modify i f := by
  refine List.ext_getElem? fun k => ?_
  by_cases hk : i = k
  · subst hk
    rw [List.getElem?_modify_eq, List.getElem?_set_self (List.getElem?_eq_some_iff.mp h).1, h]
    rfl
  · rw [List.getElem?_modify_ne _ _ hk, List.getElem?_set_ne hk]

theorem modify_modify_eq_self_iff (hne : i ≠ j) :
    (l.modify i f).modify j g = l ↔ l.modify i f = l ∧ l.modify j g = l := by
  constructor
  · intro h
    have hf : l.modify i f = l := by
      refine modify_eq_self_iff.mpr fun a ha => ?_
      have hi := congrArg (·[i]?) h
      rw [List.getElem?_modify_ne _ _ hne.symm, List.getElem?_modify_eq,
        Option.mem_def.mp ha] at hi
      exact Option.some.inj hi
    exact ⟨hf, by rwa [hf] at h⟩
  · rintro ⟨hf, hg⟩
    rw [hf, hg]

end

section

variable {st : AppState} {abs : ℕ} {t t' : Transaction} {vendor head typ now : String}
  {learn : Bool}

theorem saved_eq_self_iff :
    t.saved vendor head typ learn = t ↔ AlreadySaved t vendor head typ learn := by
  have hkeep : ∀ new old : String,
      (if new.isEmpty then old else new) = old ↔ new = "" ∨ new = old := by
    intro new old
    by_cases h : new = "" <;> simp [h]
  cases t
  simp only [Transaction.saved, AlreadySaved, Transaction.mk.injEq, hkeep, true_and, and_true]
  constructor
  · rintro ⟨hvendor, hhead, htype, hconf, hstatus, hsource⟩
    exact ⟨hvendor, hhead, htype, hstatus.symm, hconf.symm, hsource.symm⟩
  · rintro ⟨hvendor, hhead, htype, hstatus, hconf, hsource⟩
    exact ⟨hvendor, hhead, htype, hconf.symm, hstatus.symm, hsource.symm⟩

/-- The fields an undo writes. -/
theorem restored_eq_self_iff (hid : t'.id = t.id) :
    t'.restored t.undoEntry = t' ↔ t'.undoEntry = t.undoEntry := by
  cases t'
  simp only [Transaction.restored, Transaction.undoEntry, Transaction.mk.injEq, UndoEntry.mk.injEq,
    true_and, and_true]
  constructor
  · rintro ⟨hvendor, hhead, htype, hconf, hstatus⟩
    exact ⟨hid, hvendor.symm, hhead.symm, htype.symm, hstatus.symm, hconf.symm⟩
  · rintro ⟨-, hvendor, hhead, htype, hstatus, hconf⟩
    exact ⟨hvendor.symm, hhead.symm, htype.symm, hconf.symm, hstatus.symm⟩

theorem saveTxnAt_transactions :
    (saveTxnAt now vendor head typ learn st abs).1.transactions =
      st.transactions.modify abs (fun t => t.saved vendor head typ learn) := by
  unfold saveTxnAt
  split
  · rename_i h
    exact (modify_eq_self_iff.mpr (by simp [h])).symm
  · rename_i t ht
    exact set_eq_modify (f := fun t => t.saved vendor head typ learn) ht

theorem undoAt_transactions {entry : UndoEntry} :
    (undoAt now entry st abs).1.transactions =
      st.transactions.modify abs (fun t => t.restored entry) := by
  unfold undoAt
  split
  · rename_i h
    exact (modify_eq_self_iff.mpr (by simp [h])).symm
  · rename_i t ht
    exact set_eq_modify (f := fun t => t.restored entry) ht

/-- The row an undo writes to is that of the selected client with the id of the transaction. -/
theorem undoAt_update {entry : UndoEntry} {u : ClassificationUpdate}
    (hu : u ∈ (undoAt now entry st abs).2) :
    st.clientId = some u.clientId ∧ ∃ x, st.transactions[abs]? = some x ∧ u.txnId = x.id := by
  unfold undoAt at hu
  split at hu
  · cases hu
  · rename_i x hx
    obtain ⟨cid, hcid, rfl⟩ := Option.map_eq_some_iff.mp hu
    exact ⟨hcid, x, hx, rfl⟩

/-- An undo looks for the first transaction with the id of the entry. -/
theorem onDoUndoLastEdit_transactions {entry : UndoEntry}
    (h : st.undoStack.getLast? = some entry) {first : ℕ}
    (hfirst : st.transactions.findIdx? (fun t => t.id == entry.txnId) = some first) :
    (onDoUndoLastEdit now st).1.transactions =
      st.transactions.modify first (fun t => t.restored entry) := by
  rw [onDoUndoLastEdit, h]
  dsimp only
  rw [hfirst]
  exact undoAt_transactions

/-- An undo pops one entry, and keeps the client and the number of transactions. -/
theorem onDoUndoLastEdit_frame (now : String) (st : AppState) :
    (onDoUndoLastEdit now st).1.clientId = st.clientId ∧
      (onDoUndoLastEdit now st).1.transactions.length = st.transactions.length ∧
      (onDoUndoLastEdit now st).1.undoStack = st.undoStack.dropLast := by
  cases hlast : st.undoStack.getLast? with
  | none =>
    have hnil : st.undoStack = [] := List.getLast?_eq_none_iff.mp hlast
    rw [onDoUndoLastEdit, hlast, hnil]
    exact ⟨rfl, rfl, rfl⟩
  | some entry =>
    rw [onDoUndoLastEdit, hlast]
    dsimp only
    split
    · exact ⟨rfl, rfl, rfl⟩
    · unfold undoAt
      split
      · exact ⟨rfl, rfl, rfl⟩
      · exact ⟨rfl, List.length_set, rfl⟩

/-- No edit of a transaction moves the first one with an id. -/
theorem findIdx?_modify {f : Transaction → Transaction} (hf : ∀ t, (f t).id = t.id)
    (l : List Transaction) (i : ℕ) (id : String) :
    (l.modify i f).findIdx? (fun t => t.id == id) = l.findIdx? (fun t => t.id == id) := by
  have hids : (l.modify i f).map Transaction.id = l.map Transaction.id := by
    refine List.ext_getElem? fun k => ?_
    rw [List.getElem?_map, List.getElem?_map, List.getElem?_modify]
    cases l[k]? with
    | none => rfl
    | some t =>
      by_cases hk : i = k <;> simp [hk, hf]
  have hcomp : ∀ l : List Transaction, l.findIdx? (fun t => t.id == id) =
      (l.map Transaction.id).findIdx? (· == id) := by
    intro l
    rw [List.findIdx?_map]
    rfl
  rw [hcomp, hids, ← hcomp]

theorem saveTxnAt_undoStack (ht : st.transactions[abs]? = some t) :
    (saveTxnAt now vendor head typ learn st abs).1.undoStack =
      st.undoStack ++ [t.undoEntry] := by
  unfold saveTxnAt
  rw [ht]
  rfl

/-- All an undo does not bring back is the source. -/
theorem restored_saved_eq_self_iff :
    (t.saved vendor head typ learn).restored t.undoEntry = t ↔ t.classificationSource = "user" := by
  have hsource : (t.saved vendor head typ learn).restored t.undoEntry =
      { t with classificationSource := "user" } := rfl
  rw [hsource]
  constructor
  · intro h
    rw [← h]
  · intro h
    rw [← h]

/-- A save with an undo right after it, on the row of a transaction. -/
theorem undoRestores_iff {now' : String} {idx : ℕ} (h : visibleToAbs st idx = some abs) :
    UndoRestores now now' st idx vendor head typ learn ↔
      UndoFits st abs vendor head typ learn := by
  obtain ⟨t, ht⟩ := getElem?_of_visibleToAbs h
  obtain ⟨first, hfirst⟩ :
      ∃ first, st.transactions.findIdx? (fun x => x.id == t.id) = some first := by
    rw [← Option.isSome_iff_exists, List.findIdx?_isSome, List.any_eq_true]
    exact ⟨t, List.mem_of_getElem? ht, beq_self_eq_true _⟩
  have hundone : (onDoUndoLastEdit now'
        (saveTxnAt now vendor head typ learn st abs).1).1.transactions =
      (st.transactions.modify abs (fun t => t.saved vendor head typ learn)).modify first
        (fun x => x.restored t.undoEntry) := by
    have hlast : (saveTxnAt now vendor head typ learn st abs).1.undoStack.getLast? =
        some t.undoEntry := by
      rw [saveTxnAt_undoStack ht, List.getLast?_concat]
    have hkeep : ∀ x : Transaction, (x.saved vendor head typ learn).id = x.id := fun _ => rfl
    rw [onDoUndoLastEdit_transactions hlast, saveTxnAt_transactions]
    rw [saveTxnAt_transactions, findIdx?_modify hkeep]
    exact hfirst
  unfold UndoRestores onDoSaveTxn
  rw [h]
  dsimp only
  rw [hundone]
  unfold UndoFits
  simp only [ht, hfirst, Option.mem_some_iff, forall_eq']
  by_cases habs : first = abs
  · subst habs
    rw [List.modify_modify_eq, modify_eq_self_iff, ht, if_pos rfl]
    simp only [Option.mem_some_iff, forall_eq']
    exact restored_saved_eq_self_iff
  · obtain ⟨hlt, hid, -⟩ := List.findIdx?_eq_some_iff_getElem.mp hfirst
    have hx := List.getElem?_eq_getElem hlt
    rw [modify_modify_eq_self_iff (Ne.symm habs), modify_eq_self_iff, modify_eq_self_iff, ht, hx,
      if_neg habs]
    simp only [Option.mem_some_iff, forall_eq']
    rw [saved_eq_self_iff, restored_eq_self_iff (eq_of_beq hid)]

end

/-! ## Whose row an undo changes -/

/-- A screen with what it does not remember: the client of each transaction in memory, and for
each entry of the undo stack the client and the id of the transaction whose save pushed it. -/
structure Traced where
  screen : Screen
  owners : List (Option ℕ)
  origins : List (Option ℕ × String)

namespace Traced

/-- The clients of the rows that an event puts on the screen. -/
def shownOwners (s : Screen) : ViewEvent → Option (List (Option ℕ))
  | .save .. => none
  | .undo => none
  | .selectClient _ _ name => (s.db.selectedClient name).map fun client =>
      (s.db.clientRows client.id).map fun r => some r.clientId
  | .loadAll => s.st.clientId.map fun cid => (s.db.clientRows cid).map fun r => some r.clientId
  | .reloadImport importIds idx => importIds[idx]?.map fun importId =>
      (s.db.importRows importId).map fun r => some r.clientId

/-- The transaction that a save edits. -/
def savedRow (t : Traced) (idx : ℕ) : Option (Option ℕ × String) :=
  (visibleToAbs t.screen.st idx).bind fun abs =>
    t.screen.st.transactions[abs]?.map fun x => (t.owners[abs]?.getD none, x.id)

def step (t : Traced) (e : String × ViewEvent) : Traced where
  screen := t.screen.view e
  owners := (shownOwners t.screen e.2).getD t.owners
  origins :=
    match e.2 with
    | .save idx _ _ _ _ => t.origins ++ (t.savedRow idx).toList
    | .undo => t.origins.dropLast
    | _ => t.origins

/-- Nothing to undo, and in memory the transactions of the client that is selected. -/
structure Fresh (t : Traced) : Prop where
  undoStack : t.screen.st.undoStack = []
  origins : t.origins = []
  owners : t.owners = t.screen.st.transactions.map fun _ => t.screen.st.clientId

/-- An undo changes no transaction but that of the entry it pops, in memory and in the table. -/
def UndoesItsOwn (t : Traced) : String × ViewEvent → Prop
  | (now, .undo) =>
    (∀ pos : ℕ, (t.step (now, .undo)).screen.st.transactions[pos]? ≠
        t.screen.st.transactions[pos]? →
      ∃ x owner, t.screen.st.transactions[pos]? = some x ∧ t.owners[pos]? = some owner ∧
        t.origins.getLast? = some (owner, x.id)) ∧
    ∀ r : TransactionRow, t.origins.getLast? ≠ some (some r.clientId, r.id) →
      (r ∈ (t.step (now, .undo)).screen.db.transactions.rows ↔
        r ∈ t.screen.db.transactions.rows)
  | _ => True

/-- Another client is selected only with nothing to undo, and an import that is shown again
belongs to the client that is selected. -/
def KeepsClient (t : Traced) : String × ViewEvent → Prop
  | (_, .selectClient _ _ name) => ∀ client ∈ t.screen.db.selectedClient name,
      t.screen.st.undoStack = [] ∨ t.screen.st.clientId = some client.id
  | (_, .reloadImport importIds idx) => ∀ importId ∈ importIds[idx]?,
      ∀ r ∈ t.screen.db.importRows importId, t.screen.st.clientId = some r.clientId
  | _ => True

/-- All transactions in memory, and all entries of the stack, are the selected client's. -/
structure Tracked (t : Traced) : Prop where
  length : t.owners.length = t.screen.st.transactions.length
  owners : ∀ owner ∈ t.owners, owner = t.screen.st.clientId
  ids : t.origins.map Prod.snd = t.screen.st.undoStack.map UndoEntry.txnId
  clients : ∀ origin ∈ t.origins, origin.1 = t.screen.st.clientId

variable {t : Traced}

theorem Fresh.tracked (h : Fresh t) : Tracked t where
  length := by rw [h.owners, List.length_map]
  owners := by simp [h.owners]
  ids := by rw [h.origins, h.undoStack]; rfl
  clients := by rw [h.origins]; exact nofun

theorem Tracked.getElem?_owners (h : Tracked t) {pos : ℕ} {x : Transaction}
    (hx : t.screen.st.transactions[pos]? = some x) :
    t.owners[pos]? = some t.screen.st.clientId := by
  have hlt : pos < t.owners.length := by
    rw [h.length]
    exact (List.getElem?_eq_some_iff.mp hx).1
  rw [List.getElem?_eq_getElem hlt, h.owners _ (List.getElem_mem hlt)]

/-- The entry that is popped has the id of its origin, and the selected client. -/
theorem Tracked.getLast?_origins (h : Tracked t) :
    t.origins.getLast? =
      t.screen.st.undoStack.getLast?.map fun entry => (t.screen.st.clientId, entry.txnId) := by
  have hids : (t.origins.map Prod.snd).getLast? =
      (t.screen.st.undoStack.map UndoEntry.txnId).getLast? := congrArg List.getLast? h.ids
  rw [List.getLast?_map, List.getLast?_map] at hids
  cases horigin : t.origins.getLast? with
  | none =>
    rw [horigin] at hids
    cases hentry : t.screen.st.undoStack.getLast? with
    | none => rfl
    | some entry =>
      rw [hentry] at hids
      cases hids
  | some origin =>
    rw [horigin] at hids
    obtain ⟨entry, hentry, hid⟩ := Option.map_eq_some_iff.mp hids.symm
    rw [hentry, Option.map_some, hid, ← h.clients origin (List.mem_of_getLast? horigin)]

/-- A row is as it was if the update is of another. -/
theorem mem_persist {db : Db} {o : Option ClassificationUpdate} {r : TransactionRow}
    (h : ∀ u ∈ o, r.key ≠ (u.clientId, u.txnId)) :
    r ∈ (Screen.persist db o).transactions.rows ↔ r ∈ db.transactions.rows := by
  cases o with
  | none => rfl
  | some u => exact Db.mem_upsertTransactionClassification_of_ne (h u rfl)

theorem Tracked.undoesItsOwn (h : Tracked t) (e : String × ViewEvent) : UndoesItsOwn t e := by
  obtain ⟨now, e⟩ := e
  cases e with
  | undo =>
    show (∀ pos : ℕ, (onDoUndoLastEdit now t.screen.st).1.transactions[pos]? ≠ _ → _) ∧
      ∀ r : TransactionRow, _ → (r ∈
        (Screen.persist t.screen.db (onDoUndoLastEdit now t.screen.st).2).transactions.rows ↔ _)
    rw [h.getLast?_origins]
    cases hlast : t.screen.st.undoStack.getLast? with
    | none =>
      rw [onDoUndoLastEdit, hlast]
      exact ⟨fun _ hne => absurd rfl hne, fun _ _ => Iff.rfl⟩
    | some entry =>
      rw [Option.map_some]
      cases hfirst : t.screen.st.transactions.findIdx? (fun x => x.id == entry.txnId) with
      | none =>
        rw [onDoUndoLastEdit, hlast]
        dsimp only
        rw [hfirst]
        exact ⟨fun _ hne => absurd rfl hne, fun _ _ => Iff.rfl⟩
      | some first =>
        obtain ⟨hlt, hid, -⟩ := List.findIdx?_eq_some_iff_getElem.mp hfirst
        have hx := List.getElem?_eq_getElem hlt
        have hid := eq_of_beq hid
        constructor
        · intro pos hne
          rw [onDoUndoLastEdit_transactions hlast hfirst] at hne
          obtain rfl : first = pos := by
            by_contra hpos
            exact hne (List.getElem?_modify_ne _ _ hpos)
          exact ⟨_, _, hx, h.getElem?_owners hx, by rw [hid]⟩
        · intro r hr
          refine mem_persist fun u hu hkey => hr ?_
          rw [onDoUndoLastEdit, hlast] at hu
          dsimp only at hu
          rw [hfirst] at hu
          obtain ⟨hclient, x, hx', hu_id⟩ := undoAt_update hu
          obtain ⟨hr_client, hr_id⟩ := Prod.mk.inj hkey
          obtain rfl := Option.some.inj (hx.symm.trans hx')
          rw [hr_client, hr_id, hu_id, hid]
          exact congrArg (fun owner => some (owner, entry.txnId)) hclient
  | _ => trivial

theorem Tracked.unchanged (h : Tracked t) {t' : Traced} (hst : t'.screen.st = t.screen.st)
    (howners : t'.owners = t.owners) (horigins : t'.origins = t.origins) : Tracked t' where
  length := by rw [hst, howners, h.length]
  owners := by rw [hst, howners]; exact h.owners
  ids := by rw [hst, horigins, h.ids]
  clients := by rw [hst, horigins]; exact h.clients

theorem Tracked.save (h : Tracked t) (now : String) (idx : ℕ) (vendor head typ : String)
    (learn : Bool) : Tracked (t.step (now, .save idx vendor head typ learn)) := by
  have hst : (t.step (now, .save idx vendor head typ learn)).screen.st =
      (onDoSaveTxn now t.screen.st idx vendor head typ learn).1 := rfl
  have horigins : (t.step (now, .save idx vendor head typ learn)).origins =
      t.origins ++ (t.savedRow idx).toList := rfl
  cases hvis : visibleToAbs t.screen.st idx with
  | none =>
    rw [onDoSaveTxn, hvis] at hst
    rw [savedRow, hvis, Option.bind_none, Option.toList_none, List.append_nil] at horigins
    exact h.unchanged hst rfl horigins
  | some abs =>
    obtain ⟨x, hx⟩ := getElem?_of_visibleToAbs hvis
    rw [onDoSaveTxn, hvis] at hst
    have hclient : (saveTxnAt now vendor head typ learn t.screen.st abs).1.clientId =
        t.screen.st.clientId := by
      unfold saveTxnAt
      rw [hx]
    rw [savedRow, hvis, Option.bind_some, hx, Option.map_some, h.getElem?_owners hx,
      Option.getD_some] at horigins
    refine ⟨?_, ?_, ?_, ?_⟩
    · rw [hst, saveTxnAt_transactions, List.length_modify]
      exact h.length
    · rw [hst, hclient]
      exact h.owners
    · rw [hst, horigins, saveTxnAt_undoStack hx, List.map_append, List.map_append, h.ids]
      rfl
    · rw [hst, horigins, hclient]
      intro origin horigin
      rcases List.mem_append.mp horigin with horigin | horigin
      · exact h.clients origin horigin
      · rw [List.mem_singleton.mp horigin]

theorem Tracked.undo (h : Tracked t) (now : String) : Tracked (t.step (now, .undo)) := by
  have hst : (t.step (now, .undo)).screen.st = (onDoUndoLastEdit now t.screen.st).1 := rfl
  have horigins : (t.step (now, .undo)).origins = t.origins.dropLast := rfl
  obtain ⟨hclient, hlength, hstack⟩ := onDoUndoLastEdit_frame now t.screen.st
  refine ⟨?_, ?_, ?_, ?_⟩
  · rw [hst, hlength]
    exact h.length
  · rw [hst, hclient]
    exact h.owners
  · rw [hst, horigins, hstack, List.map_dropLast, List.map_dropLast, h.ids]
  · rw [hst, horigins, hclient]
    exact fun origin horigin => h.clients origin (List.mem_of_mem_dropLast horigin)

/-- Rows of the selected client are put on the screen, and the stack stays. -/
theorem Tracked.of_shown (h : Tracked t) {t' : Traced} (rows : List TransactionRow)
    (hlength : t'.screen.st.transactions.length = rows.length)
    (howners : t'.owners = rows.map fun r => some r.clientId)
    (hclient : ∀ r ∈ rows, t'.screen.st.clientId = some r.clientId)
    (hstack : t'.screen.st.undoStack = t.screen.st.undoStack) (horigins : t'.origins = t.origins)
    (hkeep : t.screen.st.undoStack = [] ∨ t'.screen.st.clientId = t.screen.st.clientId) :
    Tracked t' where
  length := by rw [hlength, howners, List.length_map]
  owners := by
    intro owner howner
    rw [howners] at howner
    obtain ⟨r, hr, rfl⟩ := List.mem_map.mp howner
    exact (hclient r hr).symm
  ids := by rw [horigins, hstack, h.ids]
  clients := by
    rw [horigins]
    rcases hkeep with hempty | hsame
    · have hnil : t.origins = [] := by
        rw [← List.map_eq_nil_iff (f := Prod.snd), h.ids, hempty, List.map_nil]
      rw [hnil]
      exact nofun
    · rw [hsame]
      exact h.clients

theorem Tracked.selectClient (h : Tracked t) {now : String} {auto : AutoClassify}
    {auditEvents : List String} {name : String}
    (he : KeepsClient t (now, .selectClient auto auditEvents name)) :
    Tracked (t.step (now, .selectClient auto auditEvents name)) := by
  have hst : (t.step (now, .selectClient auto auditEvents name)).screen.st =
      (onDoSelectClient auto auditEvents t.screen.st t.screen.db name).1 := rfl
  have howners : (t.step (now, .selectClient auto auditEvents name)).owners =
      (shownOwners t.screen (.selectClient auto auditEvents name)).getD t.owners := rfl
  rw [onDoSelectClient] at hst
  rw [shownOwners] at howners
  cases hsel : t.screen.db.selectedClient name with
  | none =>
    rw [hsel] at hst howners
    exact h.unchanged hst howners rfl
  | some client =>
    rw [hsel] at hst howners
    have hlength := auto.length_eq (t.screen.db.getTransactions client.id)
    rw [Db.getTransactions, List.length_map] at hlength
    refine h.of_shown (t.screen.db.clientRows client.id) ?_ howners ?_ ?_ rfl ?_
    · rw [hst]
      exact hlength
    · intro r hr
      rw [hst, (mem_clientRows.mp hr).2]
    · rw [hst]
      rfl
    · rw [hst]
      exact (he client hsel).imp_right Eq.symm

theorem Tracked.loadAll (h : Tracked t) (now : String) : Tracked (t.step (now, .loadAll)) := by
  have hst : (t.step (now, .loadAll)).screen.st = onDoLoadAll t.screen.st t.screen.db := rfl
  have howners : (t.step (now, .loadAll)).owners =
      (shownOwners t.screen .loadAll).getD t.owners := rfl
  rw [onDoLoadAll] at hst
  rw [shownOwners] at howners
  cases hclient : t.screen.st.clientId with
  | none =>
    rw [hclient] at hst howners
    exact h.unchanged hst howners rfl
  | some cid =>
    rw [hclient] at hst howners
    refine h.of_shown (t.screen.db.clientRows cid) ?_ howners ?_ ?_ rfl (Or.inr ?_)
    · rw [hst]
      exact List.length_map _
    · intro r hr
      rw [hst, (mem_clientRows.mp hr).2]
      exact hclient
    · rw [hst]
      rfl
    · rw [hst]
      rfl

theorem Tracked.reloadImport (h : Tracked t) {now : String} {importIds : List ℕ} {idx : ℕ}
    (he : KeepsClient t (now, .reloadImport importIds idx)) :
    Tracked (t.step (now, .reloadImport importIds idx)) := by
  have hst : (t.step (now, .reloadImport importIds idx)).screen.st =
      onDoReloadImport importIds t.screen.st t.screen.db idx := rfl
  have howners : (t.step (now, .reloadImport importIds idx)).owners =
      (shownOwners t.screen (.reloadImport importIds idx)).getD t.owners := rfl
  rw [onDoReloadImport] at hst
  rw [shownOwners] at howners
  cases hid : importIds[idx]? with
  | none =>
    rw [hid] at hst howners
    exact h.unchanged hst howners rfl
  | some importId =>
    rw [hid] at hst howners
    refine h.of_shown (t.screen.db.importRows importId) ?_ howners ?_ ?_ rfl (Or.inr ?_)
    · rw [hst]
      exact List.length_map _
    · intro r hr
      rw [hst]
      exact he importId hid r hr
    · rw [hst]
      rfl
    · rw [hst]
      rfl

theorem tracked_step (t : Traced) (e : String × ViewEvent) (h : Tracked t) (he : KeepsClient t e) :
    Tracked (t.step e) := by
  obtain ⟨now, e⟩ := e
  cases e with
  | save idx vendor head typ learn => exact h.save now idx vendor head typ learn
  | undo => exact h.undo now
  | selectClient auto auditEvents name => exact h.selectClient he
  | loadAll => exact h.loadAll now
  | reloadImport importIds idx => exact h.reloadImport he

instance (t : Traced) : ∀ e, Decidable (KeepsClient t e)
  | (_, .save ..) => instDecidableTrue
  | (_, .undo) => instDecidableTrue
  | (_, .selectClient _ _ name) =>
    inferInstanceAs (Decidable (∀ client ∈ t.screen.db.selectedClient name,
      t.screen.st.undoStack = [] ∨ t.screen.st.clientId = some client.id))
  | (_, .loadAll) => instDecidableTrue
  | (_, .reloadImport importIds idx) =>
    inferInstanceAs (Decidable (∀ importId ∈ importIds[idx]?,
      ∀ r ∈ t.screen.db.importRows importId, t.screen.st.clientId = some r.clientId))

end Traced

open Traced

/--
**A save undone at once restores every transaction exactly when the user had classified the
transaction before and no earlier one has its id, or nothing was edited; and a run that shows
another client only with nothing to undo never undoes an edit on the transaction of another.**
-/
theorem undo_changes_its_own {now now' : String} {st : AppState} {idx abs : ℕ}
    {vendor head typ : String} {learn : Bool} (hvis : visibleToAbs st idx = some abs) {t : Traced}
    (ht : Fresh t) (es : List (String × ViewEvent)) (hes : EveryStep step KeepsClient t es) :
    (UndoRestores now now' st idx vendor head typ learn ↔
        UndoFits st abs vendor head typ learn) ∧
      EveryStep step UndoesItsOwn t es :=
  ⟨undoRestores_iff hvis,
    hes.of_invariant tracked_step (fun _ e h _ => h.undoesItsOwn e) ht.tracked⟩

/-- Two clients with a row of the same id. -/
def twoClients : Db :=
  let clients : Table Client Client.id :=
    (sampleDb.clients.insert (fun id => ⟨id, "Client B", "Ledger B"⟩) fun _ => rfl)
  let db : Db :=
    { clients := clients
      importHistory := .empty
      transactions := .empty
      importHistory_client := by simp [Table.empty]
      transactions_client := by simp [Keyed.empty]
      transactions_import := noTransactions_import }
  let rent := { Transaction.new "t_1_0" with narration := "RENT JANUARY" }
  let salary := { Transaction.new "t_1_0" with narration := "SALARY", vendor := "Employee" }
  Screen.insert (Screen.insert db (some (1, rent))) (some (2, salary))

/-- The first of them on the screen. -/
def clientA : Traced where
  screen :=
    { st :=
        { clientId := some 1
          transactions := twoClients.getTransactions 1
          filterStatuses := []
          dateFrom := ""
          dateTo := ""
          bankFilter := ""
          vendorFilter := ""
          headFilter := ""
          auditEvents := []
          undoStack := [] }
      bankName := "HDFC Bank"
      accountNo := "50100123456789"
      db := twoClients }
  owners := [some 1]
  origins := []

theorem clientA_fresh : Fresh clientA where
  undoStack := rfl
  origins := rfl
  owners := by decide +kernel

def saveRent : ViewEvent := .save 0 "Landlord" "Rent" "Payment" false

theorem undo_changes_its_own_same_client :
    (UndoRestores "now" "now" clientA.screen.st 0 "Landlord" "Rent" "Payment" false ↔
        UndoFits clientA.screen.st 0 "Landlord" "Rent" "Payment" false) ∧
      EveryStep step UndoesItsOwn clientA
        [("now", saveRent), ("now", .selectClient AutoClassify.nothing [] "Client A"),
          ("now", .loadAll), ("now", .undo)] :=
  undo_changes_its_own (by decide +kernel) clientA_fresh _ (by decide +kernel)

/-- An undo does not restore who classified the transaction, and after a change of clients it
restores the fields of one client's transaction on that of the other. -/
theorem undo_changes_another :
    (¬ ∀ now now' st idx vendor head typ learn, visibleToAbs st idx ≠ none →
        UndoRestores now now' st idx vendor head typ learn) ∧
      ¬ ∀ t es, Fresh t → EveryStep step UndoesItsOwn t es := by
  constructor
  · intro h
    have hrestored := h "now" "now" clientA.screen.st 0 "Landlord" "Rent" "Payment" false
      (by decide +kernel)
    exact absurd hrestored (by unfold UndoRestores; decide +kernel)
  · intro h
    have hrun := h clientA [("now", saveRent),
      ("now", .selectClient AutoClassify.nothing [] "Client B"), ("now", .undo)] clientA_fresh
    obtain ⟨-, -, ⟨hmemory, -⟩, -⟩ := hrun
    obtain ⟨x, owner, -, howner, horigin⟩ := hmemory 0 (by decide +kernel)
    have hshown : some owner = some (some 2) := howner.symm.trans (by decide +kernel)
    have hsaved : some (owner, x.id) = some (some 1, "t_1_0") :=
      horigin.symm.trans (by decide +kernel)
    rw [Option.some.inj hshown] at hsaved
    exact absurd hsaved (by simp)

end Desktop
