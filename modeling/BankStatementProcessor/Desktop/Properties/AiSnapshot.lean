import BankStatementProcessor.Desktop.AiClassify
import BankStatementProcessor.Desktop.Properties.RetriedLoad

/-!
# What an AI run overwrites

The end of a run puts back what was copied at its start. Nothing is lost as long as nobody
else changes what was copied, which neither the screen nor the database sees to.
-/

namespace Desktop

open Infra

namespace AiScreen

/-! ## Nothing is lost -/

/-- What was changed or added since the copy was taken is there after the end of the run, what
was deleted is not, and a row is only written for the client it was copied from. -/
structure LosesNothing (c : AiCopy) (s s' : Screen) : Prop where
  memory : ∀ t ∈ s.st.transactions, t ∉ c.txns → t ∈ s'.st.transactions
  memoryDeleted : ∀ t ∈ c.txns, t.id ∉ s.st.transactions.map Transaction.id →
    t.id ∉ s'.st.transactions.map Transaction.id
  stored : ∀ r ∈ s.db.transactions.rows, r ∉ c.rows → r ∈ s'.db.transactions.rows
  storedDeleted : ∀ r ∈ c.rows, r.key ∉ s.db.transactions.rows.map TransactionRow.key →
    r.key ∉ s'.db.transactions.rows.map TransactionRow.key
  owner : ∀ r ∈ s'.db.transactions.rows,
    r ∈ s.db.transactions.rows ∨ r.clientId = c.clientId.getD 0

def FinishLosesNothing (s : AiScreen) : AiEvent → Prop
  | .finish n classify => ∀ c ∈ s.copies[n]?,
      LosesNothing c s.screen (s.step (.finish n classify)).screen
  | _ => True

/-! ## The condition -/

def AiCopy.keys (c : AiCopy) : List (ℕ × String) :=
  c.txns.map fun t => (c.clientId.getD 0, t.id)

/-- The list, the client and the rows of the table that were copied are as they were. -/
structure Untouched (c : AiCopy) (s s' : Screen) : Prop where
  transactions : s'.st.transactions = s.st.transactions
  clientId : s'.st.clientId = s.st.clientId
  rows : ∀ r, r.key ∈ AiCopy.keys c →
    (r ∈ s'.db.transactions.rows ↔ r ∈ s.db.transactions.rows)

/-- No step touches what a run that goes on has copied. -/
def KeepsCopies (s : AiScreen) (e : AiEvent) : Prop :=
  ∀ c ∈ s.copies, c ∈ (s.step e).copies → Untouched c s.screen (s.step e).screen

/-! ## A copy that is fresh -/

structure Fresh (c : AiCopy) (s : Screen) : Prop where
  transactions : s.st.transactions = c.txns
  clientId : s.st.clientId = c.clientId
  rows : ∀ r, r.key ∈ AiCopy.keys c → (r ∈ s.db.transactions.rows ↔ r ∈ c.rows)

theorem Fresh.untouched {c : AiCopy} {s s' : Screen} (h : Fresh c s) (h' : Untouched c s s') :
    Fresh c s' where
  transactions := h'.transactions.trans h.transactions
  clientId := h'.clientId.trans h.clientId
  rows := fun r hr => (h'.rows r hr).trans (h.rows r hr)

theorem map_id_classifyAll (classify : AutoClassify) (txns : List Transaction) :
    (classify.classifyAll txns).2.map Transaction.id = txns.map Transaction.id := by
  have hmap : ∀ l : List Transaction,
      l.map Transaction.id = (l.map Transaction.asParsed).map Transaction.id := by
    intro l
    rw [List.map_map]
    rfl
  rw [hmap, classify.keeps, ← hmap]

theorem transactions_insertRows {rows : List TransactionRow} :
    ∀ {db db' : Db}, db.insertRows rows = some db' →
      db'.transactions = db.transactions.replaceAll rows := by
  induction rows with
  | nil =>
    rintro db db' heq
    rw [← Option.some.inj heq]
    rfl
  | cons r rows ih =>
    intro db db' heq
    rw [Db.insertRows, List.foldlM_cons, Option.bind_eq_bind, Option.bind_eq_some_iff] at heq
    obtain ⟨db₁, hfirst, hrest⟩ := heq
    have htransactions : db₁.transactions = db.transactions.replace r := by
      unfold Db.insertOrReplace at hfirst
      split at hfirst
      · rw [← Option.some.inj hfirst]
      · cases hfirst
    rw [Keyed.replaceAll_cons, ← htransactions]
    exact ih hrest

/-- The rows after the end of a run: those written all have a copied key. -/
theorem rows_finishAiClassify (s : Screen) (classify : AutoClassify) (txns : List Transaction) :
    ∃ rows : List TransactionRow,
      (∀ r ∈ rows, ∃ t ∈ txns, r.key = (s.st.clientId.getD 0, t.id)) ∧
      (s.finishAiClassify classify txns).db.transactions = s.db.transactions.replaceAll rows := by
  unfold Screen.finishAiClassify
  dsimp only
  cases hupsert : s.db.upsertTransactions (s.st.clientId.getD 0) none
      (classify.classifyAll txns).2 with
  | none => exact ⟨[], by simp, rfl⟩
  | some written =>
    obtain ⟨db, hrows, heq⟩ := Option.map_eq_some_iff.mp hupsert
    subst heq
    refine ⟨_, ?_, transactions_insertRows hrows⟩
    intro r hr
    obtain ⟨t, ht, rfl⟩ := List.mem_map.mp hr
    have hid : t.id ∈ txns.map Transaction.id := by
      rw [← map_id_classifyAll classify txns]
      exact List.mem_map_of_mem ht
    obtain ⟨t', ht', hid'⟩ := List.mem_map.mp hid
    exact ⟨t', ht', by rw [Transaction.toRow_key, hid']⟩

/-- A copy that is fresh overwrites nothing but what was copied. -/
theorem Fresh.losesNothing {c : AiCopy} {s : Screen} (h : Fresh c s) (classify : AutoClassify) :
    LosesNothing c s (s.finishAiClassify classify c.txns) := by
  obtain ⟨rows, hkeys, hrows⟩ := rows_finishAiClassify s classify c.txns
  have hcopied : ∀ r ∈ rows, r.key ∈ AiCopy.keys c := by
    intro r hr
    obtain ⟨t, ht, hkey⟩ := hkeys r hr
    rw [hkey, h.clientId]
    exact List.mem_map_of_mem ht
  constructor
  · intro t ht hnew
    rw [h.transactions] at ht
    exact absurd ht hnew
  · intro t ht hgone
    rw [h.transactions] at hgone
    exact absurd (List.mem_map_of_mem ht) hgone
  · intro r hr hnew
    have hother : r.key ∉ AiCopy.keys c := fun hkey => hnew ((h.rows r hkey).mp hr)
    rw [hrows]
    refine Keyed.mem_replaceAll_of_mem ?_ hr
    intro r' hr' heq
    rw [← heq] at hother
    exact hother (hcopied r' hr')
  · intro r hr hgone hback
    have hother : r.key ∉ AiCopy.keys c :=
      fun hkey => hgone (List.mem_map_of_mem ((h.rows r hkey).mpr hr))
    obtain ⟨r', hr', heq⟩ := List.mem_map.mp hback
    rw [hrows] at hr'
    rcases Keyed.mem_of_mem_replaceAll hr' with hwritten | hkept
    · rw [← heq] at hother
      exact hother (hcopied r' hwritten)
    · rw [← heq] at hgone
      exact hgone (List.mem_map_of_mem hkept)
  · intro r hr
    rw [hrows] at hr
    rcases Keyed.mem_of_mem_replaceAll hr with hwritten | hkept
    · right
      obtain ⟨t, -, hkey⟩ := hkeys r hwritten
      rw [← h.clientId]
      exact (Prod.mk.inj hkey).1
    · exact Or.inl hkept

/-! ## A run -/

/-- A copy is one of those there were, or the one just taken. -/
theorem mem_copies_step {s : AiScreen} {e : AiEvent} {c : AiCopy} (hc : c ∈ (s.step e).copies) :
    c ∈ s.copies ∨ Fresh c (s.step e).screen := by
  cases e with
  | start =>
    rcases List.mem_append.mp hc with hold | hnew
    · exact Or.inl hold
    · right
      rw [List.mem_singleton.mp hnew]
      exact ⟨rfl, rfl, fun _ _ => Iff.rfl⟩
  | finish n classify =>
    left
    simp only [step] at hc
    split at hc
    · exact hc
    · exact List.mem_of_mem_eraseIdx hc
  | edit e => exact Or.inl hc
  | view e => exact Or.inl hc
  | loadFile auto f dedupEnabled file =>
    left
    simp only [step, loadFile] at hc
    split at hc <;> exact hc
  | startBatch f => exact Or.inl hc
  | batchFile f file =>
    left
    simp only [step] at hc
    split at hc <;> exact hc
  | finishBatch auto f =>
    left
    simp only [step] at hc
    split at hc
    · exact hc
    · split at hc <;> exact hc

theorem fresh_step (s : AiScreen) (e : AiEvent) (h : ∀ c ∈ s.copies, Fresh c s.screen)
    (he : KeepsCopies s e) : ∀ c ∈ (s.step e).copies, Fresh c (s.step e).screen := by
  intro c hc
  rcases mem_copies_step hc with hold | hfresh
  · exact (h c hold).untouched (he c hold hc)
  · exact hfresh

theorem finishLosesNothing_of_fresh (s : AiScreen) (e : AiEvent)
    (h : ∀ c ∈ s.copies, Fresh c s.screen) : FinishLosesNothing s e := by
  cases e with
  | finish n classify =>
    intro c hc
    have hstep : (s.step (.finish n classify)).screen =
        s.screen.finishAiClassify classify c.txns := by
      have hget : s.copies[n]? = some c := hc
      simp only [step, hget]
    rw [hstep]
    exact (h c (List.mem_of_getElem? hc)).losesNothing classify
  | _ => trivial

/--
**In every run in which nothing touches what a run of the AI has copied before that run ends, the
end of a run loses nothing.**
-/
theorem finish_loses_nothing {s : AiScreen} (hs : s.copies = []) (es : List AiEvent)
    (hes : EveryStep step KeepsCopies s es) : EveryStep step FinishLosesNothing s es := by
  refine hes.of_invariant (I := fun s => ∀ c ∈ s.copies, Fresh c s.screen) ?_ ?_ ?_
  · exact fun s e h he => fresh_step s e h he
  · exact fun s e h _ => finishLosesNothing_of_fresh s e h
  · rw [hs]
    simp

/-- The sample client is selected, and has no transactions. -/
def aiScreen : AiScreen where
  screen :=
    { st :=
        { clientId := some 1
          transactions := []
          filterStatuses := []
          dateFrom := ""
          dateTo := ""
          bankFilter := ""
          vendorFilter := ""
          headFilter := ""
          auditEvents := []
          undoStack := [] }
      bankName := ""
      accountNo := ""
      db := sampleDb }
  dedupeHashes := []
  batch := none
  copies := []

def loadJanuary : AiEvent := .loadFile .nothing .none true januaryFile

/-- A statement is loaded and classified; an undo in between finds nothing to undo. -/
def undisturbed : List AiEvent := [loadJanuary, .start, .edit ("now", .undo), .finish 0 .nothing]

theorem undisturbed_loses_nothing : EveryStep step FinishLosesNothing aiScreen undisturbed := by
  refine finish_loses_nothing rfl undisturbed ⟨?_, ?_, ?_, ?_, trivial⟩
  · exact fun c hc => absurd hc List.not_mem_nil
  · exact fun c hc => absurd hc List.not_mem_nil
  · exact fun c _ _ => ⟨rfl, rfl, fun _ _ => Iff.rfl⟩
  · exact fun c _ hc => absurd hc List.not_mem_nil

/-- A row that was deleted during the run is back after it. -/
theorem deleted_row_comes_back :
    ¬ ∀ (s : AiScreen) (es : List AiEvent), s.copies = [] → EveryStep step FinishLosesNothing s es := by
  intro h
  obtain ⟨-, -, -, hfinish, -⟩ := h aiScreen
    [loadJanuary, .start, .edit ("now", .delete 0), .finish 0 .nothing] rfl
  obtain ⟨c, hc⟩ : ∃ c, (run step aiScreen
      [loadJanuary, .start, .edit ("now", .delete 0)]).copies[0]? = some c := ⟨_, rfl⟩
  have hcopied : (run step aiScreen [loadJanuary, .start, .edit ("now", .delete 0)]).copies[0]?.map
      AiCopy.txns = some [(sampleRow 0 "05/01/2024" "RENT JANUARY" 15000).txn] := by
    decide +kernel
  rw [hc] at hcopied
  have hmem : (sampleRow 0 "05/01/2024" "RENT JANUARY" 15000).txn ∈ c.txns := by
    rw [Option.some.inj hcopied]
    exact List.mem_singleton_self _
  exact (hfinish c hc).memoryDeleted _ hmem (by decide +kernel) (by decide +kernel)

end AiScreen

end Desktop
