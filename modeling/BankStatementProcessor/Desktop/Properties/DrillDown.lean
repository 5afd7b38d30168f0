import BankStatementProcessor.Desktop.Dashboard

/-!
# Numbers and the rows behind them

A number of the dashboard is the number of rows that a click on it shows, and the dashboard's own
filter selects the rows of the table. Two places differ: the GST count of `compute` looks for
exact tags, and `filter_txns` takes "All Banks" for the name of a bank.
-/

namespace Desktop

open Infra

/-- The rows of one bucket, with no other filter. -/
def drillDown (txns : List Transaction) (token : String) : List (Transaction × ℕ) :=
  applyTxnFilters txns [token] "" "" "" "" ""

/-- Every number says how many rows it stands for. -/
structure CountsAgree (summary : DashSummary) (filterCounts : List ℕ) (txns : List Transaction) :
    Prop where
  suspenseCount : summary.suspenseCount = (drillDown txns "suspense").length
  needsReviewCount : summary.needsReviewCount = (drillDown txns "needs_review").length
  duplicateCount : summary.duplicateCount = (drillDown txns "duplicates").length
  gstCount : summary.gstCount = (drillDown txns "gst").length
  filterCounts :
    filterCounts =
      ["all", "unreviewed", "suspense", "high", "duplicates", "gst", "needs_review"].map fun token =>
        (drillDown txns token).length

/-- A row with a tag that names GST or tax has a tag that is one of these words. -/
def GstTagsExact (txns : List Transaction) : Prop :=
  ∀ t ∈ txns, t.isOpeningBalance = false → t.tags.any isGstTag = true →
    "GST" ∈ t.tags ∨ "TAX" ∈ t.tags

/-- "All Banks" is the bank of every row that the other filters pass. -/
def OnlyAllBanks (txns : List Transaction) (dateFrom dateTo vendor head : String) : Prop :=
  ∀ t ∈ txns, t.isOpeningBalance = false → inDateRange dateFrom dateTo t = true →
    matchesVendor vendor t = true → matchesHead head t = true → t.bankName = "All Banks"

section

variable {txns : List Transaction} {t : Transaction}

/-! ## Counts -/

theorem applyTxnFilters_eq_view (txns : List Transaction) (statuses : List String)
    (dateFrom dateTo bank vendor head : String) :
    applyTxnFilters txns statuses dateFrom dateTo bank vendor head =
      view (fun t => !t.isOpeningBalance && matchesStatuses statuses t &&
        inDateRange dateFrom dateTo t && matchesBank bank t && matchesVendor vendor t &&
        matchesHead head t) txns := by
  unfold applyTxnFilters
  have hopening : txns.zipIdx.filter (fun r => !r.1.isOpeningBalance) =
    view (fun t => !t.isOpeningBalance) txns := rfl
  rw [hopening, filter_view, filter_view, filter_view, filter_view, filter_view]

theorem length_drillDown (txns : List Transaction) (token : String) :
    (drillDown txns token).length =
      (txns.filter fun t => !t.isOpeningBalance).countP fun t => matchStatus t token := by
  rw [drillDown, applyTxnFilters_eq_view, length_view, List.countP_filter]
  refine List.countP_congr fun t _ => ?_
  simp [matchesStatuses, inDateRange, matchesBank, matchesVendor, matchesHead, and_comm]

theorem length_drillDown_all (txns : List Transaction) :
    (drillDown txns "all").length = (txns.filter fun t => !t.isOpeningBalance).length := by
  rw [length_drillDown, List.countP_eq_length]
  exact fun _ _ => rfl

theorem computeFilterCounts_eq (txns : List Transaction) :
    computeFilterCounts txns =
      ["all", "unreviewed", "suspense", "high", "duplicates", "gst", "needs_review"].map fun token =>
        (drillDown txns token).length := by
  rw [List.map_cons, length_drillDown_all]
  simp only [List.map_cons, List.map_nil, length_drillDown]
  rfl

/-! ## GST tags -/

theorem isGstTag_of_exact {g : String} (h : (g == "GST" || g == "TAX") = true) :
    isGstTag g = true := by
  rw [Bool.or_eq_true, beq_iff_eq, beq_iff_eq] at h
  rcases h with rfl | rfl
  · decide +kernel
  · decide +kernel

theorem any_exact_iff : (t.tags.any fun g => g == "GST" || g == "TAX") = true ↔
    "GST" ∈ t.tags ∨ "TAX" ∈ t.tags := by
  simp only [List.any_eq_true, Bool.or_eq_true, beq_iff_eq]
  constructor
  · rintro ⟨g, hg, rfl | rfl⟩
    · exact Or.inl hg
    · exact Or.inr hg
  · rintro (h | h)
    · exact ⟨_, h, Or.inl rfl⟩
    · exact ⟨_, h, Or.inr rfl⟩

/-- The exact tags count what the bucket shows when no row has another spelling alone. -/
theorem gstCount_eq_iff (fl : F64 → F64) (txns : List Transaction) (openingBal : Option F64) :
    (compute fl txns openingBal).gstCount = (drillDown txns "gst").length ↔ GstTagsExact txns := by
  rw [length_drillDown]
  have hcount : (compute fl txns openingBal).gstCount =
      (txns.filter fun t => !t.isOpeningBalance).countP fun t =>
        t.tags.any fun g => g == "GST" || g == "TAX" := rfl
  have himp : ∀ t ∈ txns.filter fun t => !t.isOpeningBalance,
      (t.tags.any fun g => g == "GST" || g == "TAX") = true → matchStatus t "gst" = true := by
    intro t _ hexact
    obtain ⟨g, hg, hname⟩ := List.any_eq_true.mp hexact
    exact List.any_eq_true.mpr ⟨g, hg, isGstTag_of_exact hname⟩
  rw [hcount, countP_eq_countP_iff himp]
  constructor
  · intro h t ht hreal hgst
    exact any_exact_iff.mp (h t (List.mem_filter.mpr ⟨ht, by simp [hreal]⟩) hgst)
  · intro h t ht hgst
    obtain ⟨hmem, hreal⟩ := List.mem_filter.mp ht
    exact any_exact_iff.mpr (h t hmem (by simpa using hreal) hgst)

theorem countsAgree_iff (fl : F64 → F64) (txns : List Transaction) (openingBal : Option F64) :
    CountsAgree (compute fl txns openingBal) (computeFilterCounts txns) txns ↔
      GstTagsExact txns := by
  rw [← gstCount_eq_iff fl txns openingBal]
  constructor
  · exact fun h => h.gstCount
  · intro h
    refine ⟨?_, ?_, ?_, h, computeFilterCounts_eq txns⟩
    · rw [length_drillDown, List.countP_eq_length_filter]
      rfl
    · rw [length_drillDown]
      rfl
    · rw [length_drillDown]
      rfl

/-! ## The two filters -/

theorem parseDdMmYyyy_eq (s : String) :
    parseDdMmYyyy s = (parseDateYmd s).map fun d => (d.dd, d.mm, d.yyyy) := by
  unfold parseDdMmYyyy parseDateYmd
  generalize s.toList.splitOn '/' = parts
  rcases parts with _ | ⟨d, _ | ⟨m, _ | ⟨y, _ | ⟨_, _⟩⟩⟩⟩
  · rfl
  · rfl
  · rfl
  · dsimp only
    cases parseU32 d <;> cases parseU32 m <;> cases parseI32 y <;> rfl
  · rfl

theorem any_parseDdMmYyyy (s : String) (p : ℕ × ℕ × ℤ → Bool) :
    (parseDdMmYyyy s).any p = (parseDateYmd s).any fun d => p (d.dd, d.mm, d.yyyy) := by
  rw [parseDdMmYyyy_eq]
  cases parseDateYmd s <;> rfl

theorem DashFilter.coversDate_eq (f : DashFilter) (t : Transaction) :
    f.coversDate t = inDateRange f.dateFrom f.dateTo t := by
  rw [DashFilter.coversDate, inDateRange, parseDdMmYyyy_eq t.date]
  have hempty : (!f.dateFrom.isEmpty || !f.dateTo.isEmpty) =
      !(f.dateFrom.isEmpty && f.dateTo.isEmpty) := (Bool.not_and _ _).symm
  rw [hempty]
  cases f.dateFrom.isEmpty && f.dateTo.isEmpty with
  | true => rfl
  | false =>
    cases parseDateYmd t.date with
    | none => rfl
    | some d =>
      have hfrom : (!f.dateFrom.isEmpty &&
          (parseDdMmYyyy f.dateFrom).any fun fd => ymdLt (d.dd, d.mm, d.yyyy) fd) =
          isBefore f.dateFrom d := by
        rw [any_parseDdMmYyyy]
        rfl
      have hto : (!f.dateTo.isEmpty &&
          (parseDdMmYyyy f.dateTo).any fun td => ymdLt td (d.dd, d.mm, d.yyyy)) =
          isAfter f.dateTo d := by
        rw [any_parseDdMmYyyy]
        rfl
      simp only [Option.map_some, hfrom, hto]
      cases isBefore f.dateFrom d <;> rfl

/-- The filter of the dashboard asks for the bank as it is written. -/
theorem DashFilter.selects_eq (f : DashFilter) (t : Transaction) :
    f.selects t = (!t.isOpeningBalance && inDateRange f.dateFrom f.dateTo t &&
      (f.bank.isEmpty || t.bankName == f.bank) && matchesVendor f.vendor t &&
      matchesHead f.head t) := by
  rw [DashFilter.selects, f.coversDate_eq, matchesVendor, matchesHead, bne, bne, bne]
  generalize (t.bankName == f.bank) = bank
  generalize (t.vendor == f.vendor) = vendor
  generalize (t.accountHead == f.head) = head
  cases t.isOpeningBalance <;> cases f.bank.isEmpty <;> cases bank <;>
    cases f.vendor.isEmpty <;> cases vendor <;> cases f.head.isEmpty <;> cases head <;> simp

/-- Both filters select the same rows, but for what "All Banks" means. -/
theorem filterTxns_eq_iff (txns : List Transaction) (f : DashFilter) :
    filterTxns txns f = applyTxnFilters txns [] f.dateFrom f.dateTo f.bank f.vendor f.head ↔
      (f.bank = "All Banks" → OnlyAllBanks txns f.dateFrom f.dateTo f.vendor f.head) := by
  have hview : filterTxns txns f = view f.selects txns := rfl
  rw [hview, applyTxnFilters_eq_view, view_eq_view_iff]
  simp only [f.selects_eq, matchesStatuses, List.isEmpty_nil, if_true, Bool.and_true, matchesBank]
  constructor
  · intro h hbank t ht hreal hdate hvendor hhead
    have hrow := h t ht
    rw [hreal, hdate, hvendor, hhead, hbank] at hrow
    have hname : (t.bankName == "All Banks") = true := by simpa using hrow
    exact eq_of_beq hname
  · intro h t ht
    cases hall : f.bank == "All Banks" with
    | false => rw [Bool.or_false]
    | true =>
      cases hreal : t.isOpeningBalance with
      | true => rfl
      | false =>
        cases hdate : inDateRange f.dateFrom f.dateTo t with
        | false => rfl
        | true =>
          cases hvendor : matchesVendor f.vendor t with
          | false => simp
          | true =>
            cases hhead : matchesHead f.head t with
            | false => simp
            | true =>
              have hbank := eq_of_beq hall
              have hname := h hbank t ht hreal hdate hvendor hhead
              rw [hbank, hname]
              rfl

/-- **The numbers stand for the rows, and both filters select the same, exactly when the GST tags
are exact and "All Banks" is asked for of nothing but it.** -/
theorem dashboard_agrees_iff (fl : F64 → F64) (txns : List Transaction) (openingBal : Option F64)
    (f : DashFilter) :
    CountsAgree (compute fl txns openingBal) (computeFilterCounts txns) txns ∧
      filterTxns txns f = applyTxnFilters txns [] f.dateFrom f.dateTo f.bank f.vendor f.head ↔
    GstTagsExact txns ∧
      (f.bank = "All Banks" → OnlyAllBanks txns f.dateFrom f.dateTo f.vendor f.head) :=
  and_congr (countsAgree_iff fl txns openingBal) (filterTxns_eq_iff txns f)

/-- A tag in small letters is shown but not counted, and "All Banks" is no bank of its row. -/
theorem small_gst_not_counted :
    let txns := [{ Transaction.new "t1" with bankName := "HDFC Bank", tags := ["gst"] }]
    ¬ CountsAgree (compute id txns none) (computeFilterCounts txns) txns ∧
      filterTxns txns ⟨"", "", "All Banks", "", ""⟩ ≠
        applyTxnFilters txns [] "" "" "All Banks" "" "" := by
  refine ⟨fun h => ?_, by decide +kernel⟩
  have hcount := h.gstCount
  revert hcount
  decide +kernel

end

end Desktop
