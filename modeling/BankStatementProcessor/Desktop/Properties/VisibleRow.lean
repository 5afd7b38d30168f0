import BankStatementProcessor.Desktop.Filters

/-!
# The row clicked and the row changed

`row_clicked_is_row_changed_iff` — the callbacks act on the transaction shown in the clicked
row exactly when the part of the filters that `visible_to_abs` copies agrees, on every
transaction, with the filters the table is built with.
-/

namespace Desktop

open Infra

/-! ## Both sides as views -/

/-- A transaction the table shows. -/
def shows (st : AppState) (t : Transaction) : Bool :=
  !t.isOpeningBalance && matchesStatuses st.filterStatuses t &&
    inDateRange st.dateFrom st.dateTo t && matchesBank st.bankFilter t &&
    matchesVendor st.vendorFilter t && matchesHead st.headFilter t

theorem rebuildRows_eq_view (st : AppState) :
    rebuildRows st = view (shows st) st.transactions := by
  unfold rebuildRows applyTxnFilters
  have hopening : st.transactions.zipIdx.filter (fun r => !r.1.isOpeningBalance) =
    view (fun t => !t.isOpeningBalance) st.transactions := rfl
  rw [hopening, filter_view, filter_view, filter_view, filter_view, filter_view]
  rfl

/-- A date bound is set and the date of `t` cannot be read. -/
def undated (st : AppState) (t : Transaction) : Bool :=
  !(st.dateFrom.isEmpty && st.dateTo.isEmpty) && (parseDateYmd t.date).isNone

/-- A transaction `visible_to_abs` counts. -/
def counts (st : AppState) (t : Transaction) : Bool :=
  !t.isOpeningBalance && matchesStatuses st.filterStatuses t &&
    inDateRange st.dateFrom st.dateTo t &&
    (undated st t || st.bankFilter.isEmpty || t.bankName == st.bankFilter)

/-- One turn of the loop: a row that does not count is skipped, a row that counts is compared
with the row looked for. -/
theorem visibleToAbs.loop_cons (st : AppState) (visIdx : ℕ) (t : Transaction) (abs : ℕ)
    (rest : List (Transaction × ℕ)) (vis : ℕ) :
    loop st visIdx ((t, abs) :: rest) vis =
      if counts st t then
        if vis = visIdx then some abs else loop st visIdx rest (vis + 1)
      else loop st visIdx rest vis := by
  rw [loop]
  by_cases ho : t.isOpeningBalance = true
  · simp [counts, ho]
  by_cases hs : matchesStatuses st.filterStatuses t = true
  swap
  · simp [counts, ho, hs]
  by_cases hd : (!st.dateFrom.isEmpty || !st.dateTo.isEmpty) = true
  · rw [if_neg ho, if_neg (by simp [hs]), if_pos hd]
    cases hp : parseDateYmd t.date with
    -- an unreadable date ends the turn before the bank filter
    | none => grind [counts, inDateRange, undated]
    | some td => grind [counts, inDateRange, undated]
  · rw [if_neg ho, if_neg (by simp [hs]), if_neg hd]
    grind [counts, inDateRange, undated]

/-- The loop finds the row looked for among the rows that count. -/
theorem visibleToAbs.loop_eq {st : AppState} {visIdx : ℕ} (refs : List (Transaction × ℕ)) :
    ∀ vis ≤ visIdx, loop st visIdx refs vis =
      (refs.filter (fun r => counts st r.1))[visIdx - vis]?.map Prod.snd := by
  -- induction on the rows that are left; `vis` counting rows came before them
  induction refs with
  | nil => simp [loop]
  | cons r rest ih =>
    intro vis hvis
    obtain ⟨t, abs⟩ := r
    rw [loop_cons, List.filter_cons]
    by_cases hc : counts st t
    · rw [if_pos hc, if_pos hc]
      by_cases he : vis = visIdx
      · simp [he]
      · rw [if_neg he, ih (vis + 1) (by omega)]
        have : visIdx - vis = visIdx - (vis + 1) + 1 := by omega
        rw [this, List.getElem?_cons_succ]
    · rw [if_neg hc, if_neg hc]
      exact ih vis hvis

theorem visibleToAbs_eq (st : AppState) (i : ℕ) :
    visibleToAbs st i = (view (counts st) st.transactions)[i]?.map Prod.snd :=
  visibleToAbs.loop_eq _ 0 (Nat.zero_le i)

theorem getElem?_of_visibleToAbs {st : AppState} {i abs : ℕ} (h : visibleToAbs st i = some abs) :
    ∃ t, st.transactions[abs]? = some t := by
  rw [visibleToAbs_eq] at h
  obtain ⟨⟨t, k⟩, hrow, rfl⟩ := Option.map_eq_some_iff.mp h
  exact ⟨t, getElem?_of_view hrow⟩

/-! ## When the two sides agree -/

/-- What `act` does to the transaction shown in row `i`, and `otherwise` without such a row. -/
def onDisplayed {β : Type*} (st : AppState) (act : ℕ → β) (otherwise : β) (i : ℕ) : β :=
  match (rebuildRows st)[i]? with
  | some (_, abs) => act abs
  | none => otherwise

/-- Row numbers mean the row shown, and so do the callbacks that get one. -/
structure RowClickedIsRowChanged (st : AppState) : Prop where
  index : ∀ i abs, visibleToAbs st i = some abs ↔
    ∃ t, (rebuildRows st)[i]? = some (t, abs) ∧ st.transactions[abs]? = some t
  save : ∀ now vendor head typ learn i, onDoSaveTxn now st i vendor head typ learn =
    onDisplayed st (saveTxnAt now vendor head typ learn st) (st, none) i
  delete : ∀ now i, onDoDeleteTxn now st i = onDisplayed st (deleteTxnAt now st) (st, none) i
  markSuspense : ∀ i, onDoMarkSuspense st i = onDisplayed st (markSuspenseAt st) st i

/-- What the filters still ask of a transaction that passed the status and the date filter:
nothing more for one with an unreadable date, and only the bank filter for the others. -/
def FiltersAgreeOn (st : AppState) (t : Transaction) : Prop :=
  if undated st t then
    matchesBank st.bankFilter t ∧ matchesVendor st.vendorFilter t ∧ matchesHead st.headFilter t
  else if st.bankFilter = "" ∨ t.bankName = st.bankFilter then
    matchesVendor st.vendorFilter t ∧ matchesHead st.headFilter t
  else
    st.bankFilter = "All Banks" → ¬ (matchesVendor st.vendorFilter t ∧ matchesHead st.headFilter t)

/-- The bank, vendor and head filters agree on every transaction that passed the others. -/
def FiltersAgree (st : AppState) : Prop :=
  ∀ t ∈ st.transactions, t.isOpeningBalance = false → matchesStatuses st.filterStatuses t →
    inDateRange st.dateFrom st.dateTo t → FiltersAgreeOn st t

theorem filtersAgreeOn_iff (st : AppState) (t : Transaction) :
    FiltersAgreeOn st t ↔
      (matchesBank st.bankFilter t && matchesVendor st.vendorFilter t &&
          matchesHead st.headFilter t) =
        (undated st t || st.bankFilter.isEmpty || t.bankName == st.bankFilter) := by
  unfold FiltersAgreeOn
  by_cases hu : undated st t = true
  · simp [hu, and_assoc]
  rw [if_neg hu, Bool.eq_false_iff.mpr hu]
  by_cases hb : st.bankFilter = "" ∨ t.bankName = st.bankFilter
  · have hm : matchesBank st.bankFilter t = true := by
      rcases hb with hb | hb <;> simp [matchesBank, hb]
    have hc : (false || st.bankFilter.isEmpty || t.bankName == st.bankFilter) = true := by
      rcases hb with hb | hb <;> simp [hb]
    rw [if_pos hb, hm, hc]
    simp
  · obtain ⟨hempty, hne⟩ := not_or.mp hb
    have hempty' : st.bankFilter.isEmpty = false := by simpa using hempty
    have hne' : (t.bankName == st.bankFilter) = false := by simpa using hne
    have hm : matchesBank st.bankFilter t = (st.bankFilter == "All Banks") := by
      rw [matchesBank, hempty', hne', Bool.or_false, Bool.false_or]
    rw [if_neg hb, hm, hempty', hne']
    simp

theorem shows_eq_counts_iff (st : AppState) (t : Transaction) :
    shows st t = counts st t ↔
      (t.isOpeningBalance = false → matchesStatuses st.filterStatuses t →
        inDateRange st.dateFrom st.dateTo t → FiltersAgreeOn st t) := by
  rw [filtersAgreeOn_iff]
  unfold shows counts
  grind

theorem filtersAgree_iff (st : AppState) :
    FiltersAgree st ↔ RowsAgree (shows st) (counts st) st.transactions := by
  rw [rowsAgree_iff]
  exact forall₂_congr fun t _ => (shows_eq_counts_iff st t).symm

/-- The index `visible_to_abs` finds is the index of the row shown. -/
theorem visibleToAbs_eq_displayed {st : AppState} (h : FiltersAgree st) (i : ℕ) :
    visibleToAbs st i = (rebuildRows st)[i]?.map Prod.snd := by
  rw [filtersAgree_iff] at h
  ext abs
  rw [visibleToAbs_eq, rebuildRows_eq_view]
  simpa using h i abs

/--
**The row clicked is the row changed exactly when the bank, vendor and head filters agree on
every transaction that the opening balance, status and date filters let through.**
-/
theorem row_clicked_is_row_changed_iff (st : AppState) :
    RowClickedIsRowChanged st ↔ FiltersAgree st := by
  constructor
  · intro h
    -- the index alone forces the filters to agree
    rw [filtersAgree_iff]
    intro i abs
    have hrow := h.index i abs
    rw [visibleToAbs_eq, rebuildRows_eq_view] at hrow
    constructor
    · rintro ⟨t, ht⟩
      obtain ⟨t', ht', -⟩ := hrow.mp (by simp [ht])
      exact ⟨t', ht'⟩
    · rintro ⟨t, ht⟩
      simpa using hrow.mpr ⟨t, ht, getElem?_of_view ht⟩
  · intro h
    have hrow := visibleToAbs_eq_displayed h
    refine ⟨fun i abs => ?_, fun now vendor head typ learn i => ?_, fun now i => ?_, fun i => ?_⟩
    · rw [hrow, rebuildRows_eq_view]
      constructor
      · intro hi
        obtain ⟨⟨t, k⟩, ht, rfl⟩ := Option.map_eq_some_iff.mp hi
        exact ⟨t, ht, getElem?_of_view ht⟩
      · rintro ⟨t, ht, -⟩
        simp [ht]
    · unfold onDoSaveTxn onDisplayed
      rw [hrow]
      cases (rebuildRows st)[i]? <;> rfl
    · unfold onDoDeleteTxn onDisplayed
      rw [hrow]
      cases (rebuildRows st)[i]? <;> rfl
    · unfold onDoMarkSuspense onDisplayed
      rw [hrow]
      cases (rebuildRows st)[i]? <;> rfl

/-- Status and date filters alone never disturb the row numbers. -/
theorem filtersAgree_of_statuses_and_dates {st : AppState} (hbank : st.bankFilter = "")
    (hvendor : st.vendorFilter = "") (hhead : st.headFilter = "") : FiltersAgree st := by
  intro t _ _ _ _
  have hempty : "".isEmpty = true := rfl
  rw [filtersAgreeOn_iff, matchesBank, matchesVendor, matchesHead, hbank, hvendor, hhead, hempty]
  simp

/-- A rent and a salary payment, narrowed down to the salary. -/
def drilledDown : AppState where
  clientId := some 1
  transactions :=
    [{ Transaction.new "t_1_0" with vendor := "Landlord" },
     { Transaction.new "t_2_1" with vendor := "Employee" }]
  filterStatuses := []
  dateFrom := ""
  dateTo := ""
  bankFilter := ""
  vendorFilter := "Employee"
  headFilter := ""
  auditEvents := []
  undoStack := []

/-- The only row shown is the salary, and deleting it deletes the rent. -/
theorem drilledDown_deletes_hidden_row : ¬ ∀ st, RowClickedIsRowChanged st := by
  intro h
  have hdelete := congrArg (fun r => r.1.transactions) ((h drilledDown).delete "now" 0)
  exact absurd hdelete (by decide)

end Desktop
