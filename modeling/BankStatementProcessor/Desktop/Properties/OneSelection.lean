import BankStatementProcessor.Desktop.Export.AccountingFiles

/-!
# One selection for every format

The Tally export, its preview, the other files and the checks each filter the transactions
themselves. Their filters differ on a transaction without a date.
-/

namespace Desktop.Export

open Infra

section

variable {txns : List Transaction} {opts : AccountingOpts} {t : Transaction}

/-- What the options other than the dates select. -/
def passesOptions (opts : AccountingOpts) (t : Transaction) : Bool :=
  !t.isOpeningBalance && passesReview opts.onlyClassified opts.skipLowConf opts.skipDuplicates t

/-- On a date that is there the two tests of a range agree. -/
theorem inRange_eq_inDateRange {date : String} (h : date ≠ "") (dateFrom dateTo : Option String) :
    inRange date dateFrom dateTo = inDateRange date dateFrom dateTo := by
  have hempty : date.isEmpty = false := by
    rw [← Bool.not_eq_true, String.isEmpty_iff]
    exact h
  rw [inRange, inDateRange, hempty]
  rfl

/-- The Tally export writes what the others write of the transactions that have a date. -/
theorem tallySelected_eq (txns : List Transaction) (opts : AccountingOpts) :
    tallySelected txns opts.toTallyOpts =
      (filterTxns txns opts).filter fun t => !t.date.isEmpty := by
  rw [tallySelected, filterTxns, List.filter_filter]
  refine List.filter_congr fun t _ => ?_
  by_cases hdate : t.date = ""
  · have hempty : "".isEmpty = true := rfl
    rw [inRange, hdate, hempty]
    simp
  · have hempty : t.date.isEmpty = false := by
      rw [← Bool.not_eq_true, String.isEmpty_iff]
      exact hdate
    rw [inRange_eq_inDateRange hdate, hempty]
    rfl

/-- A transaction without a date is in every range of the accounting files. -/
theorem mem_filterTxns_of_empty (h : t ∈ txns) (hopts : passesOptions opts t = true)
    (hdate : t.date = "") : t ∈ filterTxns txns opts := by
  rw [passesOptions, Bool.and_eq_true] at hopts
  refine List.mem_filter.mpr ⟨h, ?_⟩
  simp [inDateRange, hdate, hopts.1, hopts.2]

theorem passesOptions_of_mem (h : t ∈ filterTxns txns opts) :
    t ∈ txns ∧ passesOptions opts t = true := by
  obtain ⟨hmem, hpass⟩ := List.mem_filter.mp h
  rw [Bool.and_eq_true, Bool.and_eq_true] at hpass
  exact ⟨hmem, Bool.and_eq_true_iff.mpr ⟨hpass.1.1, hpass.2⟩⟩

/-- The two filters select as many transactions only where all of them have a date. -/
theorem length_tallySelected_eq_iff : (tallySelected txns opts.toTallyOpts).length =
    (filterTxns txns opts).length ↔
      ∀ t ∈ txns, passesOptions opts t = true → t.date ≠ "" := by
  rw [tallySelected_eq, List.length_filter_eq_length_iff]
  constructor
  · intro h t ht hopts hdate
    have hsome := h t (mem_filterTxns_of_empty ht hopts hdate)
    rw [hdate] at hsome
    exact absurd hsome (by decide)
  · intro h t ht
    obtain ⟨hmem, hopts⟩ := passesOptions_of_mem ht
    rw [Bool.not_eq_true', ← Bool.not_eq_true, String.isEmpty_iff]
    exact h t hmem hopts

end

/-! ## What is written, counted and checked -/

/-- Every file is the file of `selected`, and every count and check is one of `selected`. -/
structure SelectsEverywhere (fl : F64 → F64) (txns : List Transaction) (opts : XmlOpts)
    (selected : List Transaction) : Prop where
  tally : tallyVouchers txns opts.toTallyOpts = selected.map (txnVoucher · opts.toTallyOpts)
  preview : countPreview fl txns opts.toTallyOpts =
    previewOf fl (txns.countP fun t => !t.isOpeningBalance) selected
  zoho : genZoho txns opts.toAccountingOpts =
    selected.zipIdx.flatMap fun p => zohoRows opts.toAccountingOpts p.1 p.2
  quickBooks : genQuickbooks txns opts.toAccountingOpts =
    selected.zipIdx.flatMap fun p => quickBooksRows opts.toAccountingOpts p.1 p.2
  odoo : genOdoo txns opts.toAccountingOpts = selected.flatMap (odooRows opts.toAccountingOpts)
  genericCsv : genGenericCsv txns opts.toAccountingOpts =
    selected.map (genericRow opts.toAccountingOpts)
  genericXml : genGenericXml txns opts = xmlDocument opts selected
  count : filteredCount txns opts.toAccountingOpts = selected.length
  checked : validate fl txns opts.toAccountingOpts =
    validationOf fl opts.toAccountingOpts selected

/-- **One list is selected everywhere just where each transaction that the options let through
has a date.** -/
theorem selectsEverywhere_iff (fl : F64 → F64) (txns : List Transaction) (opts : XmlOpts) :
    (∃ selected, SelectsEverywhere fl txns opts selected) ↔
      ∀ t ∈ txns, passesOptions opts.toAccountingOpts t = true → t.date ≠ "" := by
  rw [← length_tallySelected_eq_iff]
  constructor
  · rintro ⟨selected, h⟩
    have htally := congrArg List.length h.tally
    rw [tallyVouchers, List.length_map, List.length_map] at htally
    exact htally.trans h.count.symm
  · intro h
    have hsame : tallySelected txns opts.toTallyOpts = filterTxns txns opts.toAccountingOpts := by
      rw [tallySelected_eq] at h ⊢
      exact List.filter_sublist.eq_of_length h
    exact ⟨filterTxns txns opts.toAccountingOpts,
      { tally := congrArg (List.map _) hsame
        preview := congrArg (previewOf fl _) hsame
        zoho := rfl
        quickBooks := rfl
        odoo := rfl
        genericCsv := rfl
        genericXml := rfl
        count := rfl
        checked := rfl }⟩

/-- Options that let everything through. -/
def openOpts : XmlOpts where
  company := ""
  currency := "INR"
  bankLedger := "Bank"
  dateFrom := none
  dateTo := none
  includeOb := false
  includeGst := false
  includeLedgers := false
  includeNarrations := true
  onlyClassified := false
  skipLowConf := false
  skipDuplicates := false
  gstin := ""
  fy := ""
  stateCode := ""

/-- A row entered by hand without a date is counted, and written to every file but Tally's. -/
theorem undated_row_is_dropped_by_tally :
    ¬∃ selected, SelectsEverywhere id [Transaction.new "manual-1"] openOpts selected := by
  rintro ⟨selected, h⟩
  have htally : 0 = selected.length := by
    rw [← List.length_map (txnVoucher · openOpts.toTallyOpts), ← h.tally]
    decide +kernel
  have hcount : filteredCount [Transaction.new "manual-1"] openOpts.toAccountingOpts = 1 := by
    decide +kernel
  rw [h.count] at hcount
  omega

end Desktop.Export
