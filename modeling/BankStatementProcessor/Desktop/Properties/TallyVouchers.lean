import BankStatementProcessor.Desktop.ReconciliationFiles

/-!
# The amounts of a daybook

The two sides of a daybook stand in two columns, of which one is left blank or filled with a
zero. The cell of the credit is read only where that of the debit is blank, so a zero there
hides it.
-/

namespace Desktop

open Infra

section

variable {u : Unicode} {fl : F64 → F64} {header : List String} {date debit credit : ℕ}
  {rows : List (List String)} {row : List String} {cols : TallyColumns}

/-- A header with the two sides in columns of their own, and no column for both. -/
structure SplitHeader (u : Unicode) (header : List String) (date debit credit : ℕ) : Prop where
  date : tallyColumn u header "date" = some date
  narration : ∃ name ∈ ["particular", "narration", "description"],
    (tallyColumn u header name).isSome
  amount : tallyColumn u header "amount" = none
  debit : tallyColumn u header "debit" = some debit
  credit : tallyColumn u header "credit" = some credit

theorem SplitHeader.columns (h : SplitHeader u header date debit credit) :
    ∃ cols, tallyColumns u header = some cols ∧ cols.date = date ∧ cols.amount = some debit ∧
      cols.credit = some credit := by
  obtain ⟨name, hname, hsome⟩ := h.narration
  have hnarration : ∃ narration, ((tallyColumn u header "particular").or
      (tallyColumn u header "narration")).or (tallyColumn u header "description") =
        some narration := by
    rw [← Option.isSome_iff_exists, Option.isSome_or, Option.isSome_or, Bool.or_eq_true,
      Bool.or_eq_true]
    simp only [List.mem_cons, List.not_mem_nil, or_false] at hname
    rcases hname with rfl | rfl | rfl
    · exact Or.inl (Or.inl hsome)
    · exact Or.inl (Or.inr hsome)
    · exact Or.inr hsome
  obtain ⟨narration, hnarration⟩ := hnarration
  refine ⟨{ date, narration, amount := some debit, credit := some credit
            voucher := tallyColumn u header "voucher", type := tallyColumn u header "type"
            ledger := tallyColumn u header "ledger" }, ?_, rfl, rfl, rfl⟩
  simp [tallyColumns, h.date, hnarration, h.amount, h.debit, h.credit]

theorem parseTallyGrid_cons (h : tallyColumns u header = some cols) (rows : List (List String)) :
    parseTallyGrid u fl (header :: rows) = rows.filterMap (tallyVoucher u fl cols) := by
  cases rows with
  | nil => rfl
  | cons row rows => simp [parseTallyGrid, h]

theorem parseTallyGrid_append (h : tallyColumns u header = some cols)
    (before after : List (List String)) (row : List String) :
    parseTallyGrid u fl (header :: (before ++ row :: after)) =
      parseTallyGrid u fl (header :: before) ++ ((tallyVoucher u fl cols row).toList ++
        parseTallyGrid u fl (header :: after)) := by
  simp only [parseTallyGrid_cons h, List.filterMap_append, List.filterMap_cons]
  cases tallyVoucher u fl cols row <;> rfl

/-! ## One row -/

/-- The amount that a cell states. A blank one states none. -/
def statedAmount (u : Unicode) (fl : F64 → F64) (raw : String) : F64 :=
  if isBlank raw then .finite 0 else tallyAmount u fl raw

/-- The one of the two cells of a row that states an amount. -/
inductive OnlyAmount (u : Unicode) (fl : F64 → F64) (debit credit : String) : F64 → Prop
  | debit : statedAmount u fl debit ≠ .finite 0 → statedAmount u fl credit = .finite 0 →
      OnlyAmount u fl debit credit (statedAmount u fl debit)
  | credit : statedAmount u fl debit = .finite 0 → statedAmount u fl credit ≠ .finite 0 →
      OnlyAmount u fl debit credit (statedAmount u fl credit)

/-- A credit beside a cell that is not blank but states nothing, such as `0.00`. -/
def HiddenCredit (u : Unicode) (fl : F64 → F64) (debit credit : String) : Prop :=
  statedAmount u fl debit = .finite 0 ∧ statedAmount u fl credit ≠ .finite 0 ∧
    isBlank debit = false

instance (u : Unicode) (fl : F64 → F64) (debit credit : String) :
    Decidable (HiddenCredit u fl debit credit) :=
  inferInstanceAs (Decidable (_ ∧ _ ∧ _))

theorem statedAmount_of_ne_zero {raw : String} (h : statedAmount u fl raw ≠ .finite 0) :
    isBlank raw = false ∧ statedAmount u fl raw = tallyAmount u fl raw := by
  unfold statedAmount at h ⊢
  split
  · next hblank => exact absurd (if_pos hblank) h
  · next hblank => exact ⟨Bool.not_eq_true _ ▸ hblank, rfl⟩

theorem not_le_zero_statedAmount {raw : String} (h : statedAmount u fl raw ≠ .finite 0) :
    (statedAmount u fl raw).le (.finite 0) = false := by
  obtain ⟨-, heq⟩ := statedAmount_of_ne_zero h
  rw [heq, tallyAmount] at h ⊢
  generalize ((F64.parse _).map fl).getD (.finite 0) = x at h ⊢
  cases x with
  | nan => rfl
  | infinite negative => rfl
  | finite q =>
    rw [F64.abs_finite] at h ⊢
    rw [← Bool.not_eq_true, F64.le_finite, not_le]
    refine lt_of_le_of_ne (abs_nonneg q) ?_
    intro hzero
    exact h (by rw [← hzero])

/-- The only amount of a row is read, unless it is hidden. -/
theorem rowAmount_eq_iff {amount : F64} (hamount : cols.amount = some debit)
    (hcredit : cols.credit = some credit)
    (h : OnlyAmount u fl (tallyCell row (some debit)) (tallyCell row (some credit)) amount) :
    rowAmount u fl cols row = amount ↔
      ¬HiddenCredit u fl (tallyCell row (some debit)) (tallyCell row (some credit)) := by
  rw [rowAmount, hamount, hcredit, HiddenCredit]
  cases h with
  | debit hdebit hzero =>
    obtain ⟨hblank, heq⟩ := statedAmount_of_ne_zero hdebit
    simp [hblank, hzero, heq]
  | credit hzero hcredit =>
    obtain ⟨-, heq⟩ := statedAmount_of_ne_zero hcredit
    cases hblank : isBlank (tallyCell row (some debit)) with
    | true => simp [heq]
    | false =>
      have htally : tallyAmount u fl (tallyCell row (some debit)) = .finite 0 := by
        simpa [statedAmount, hblank] using hzero
      simp [htally, hzero, hcredit, hcredit.symm]

theorem OnlyAmount.not_le_zero {debit credit : String} {amount : F64}
    (h : OnlyAmount u fl debit credit amount) : amount.le (.finite 0) = false := by
  cases h with
  | debit hdebit _ => exact not_le_zero_statedAmount hdebit
  | credit _ hcredit => exact not_le_zero_statedAmount hcredit

theorem tallyVoucher_of_amount (hdate : isBlank (tallyCell row (some cols.date)) = false)
    (hamount : (rowAmount u fl cols row).le (.finite 0) = false) :
    ∃ v, tallyVoucher u fl cols row = some v ∧ v.amount = rowAmount u fl cols row := by
  simp only [tallyVoucher, hdate, hamount, Bool.false_and]
  exact ⟨_, rfl, rfl⟩

theorem amount_of_tallyVoucher {v : TallyVoucher} (h : tallyVoucher u fl cols row = some v) :
    v.amount = rowAmount u fl cols row := by
  simp only [tallyVoucher] at h
  split at h
  · cases h
  · split at h
    · cases h
    · rw [← Option.some.inj h]

/-! ## All rows -/

/-- Every row with a date and an amount on one of the two sides has its voucher, in the place
of the row and with the amount. -/
def VoucherForEachRow (u : Unicode) (fl : F64 → F64) (header : List String)
    (date debit credit : ℕ) (rows : List (List String)) : Prop :=
  ∀ before row after amount, rows = before ++ row :: after →
    isBlank (tallyCell row (some date)) = false →
    OnlyAmount u fl (tallyCell row (some debit)) (tallyCell row (some credit)) amount →
    ∃ v : TallyVoucher, v.amount = amount ∧
      parseTallyGrid u fl (header :: rows) =
        parseTallyGrid u fl (header :: before) ++ v :: parseTallyGrid u fl (header :: after)

/-- **The rows of a daybook have their vouchers exactly when no row with a date holds a credit
beside a debit that is not blank but states nothing.** -/
theorem vouchers_iff_no_hidden_credit (u : Unicode) (fl : F64 → F64) {header : List String}
    {date debit credit : ℕ} (h : SplitHeader u header date debit credit)
    (rows : List (List String)) :
    VoucherForEachRow u fl header date debit credit rows ↔
      ∀ row ∈ rows, isBlank (tallyCell row (some date)) = false →
        ¬HiddenCredit u fl (tallyCell row (some debit)) (tallyCell row (some credit)) := by
  obtain ⟨cols, hcols, hdate, hdebit, hcredit⟩ := h.columns
  subst hdate
  constructor
  · intro hvouchers row hrow hdated hhidden
    obtain ⟨before, after, hrows⟩ := List.append_of_mem hrow
    have honly := OnlyAmount.credit hhidden.1 hhidden.2.1
    obtain ⟨v, hv, hparsed⟩ := hvouchers before row after _ hrows hdated honly
    rw [hrows, parseTallyGrid_append hcols, List.append_cancel_left_eq] at hparsed
    have hvoucher : tallyVoucher u fl cols row = some v := by
      cases hread : tallyVoucher u fl cols row with
      | none =>
        rw [hread] at hparsed
        exact absurd (congrArg List.length hparsed) (by simp)
      | some w =>
        rw [hread] at hparsed
        rw [(List.cons.inj hparsed).1]
    rw [amount_of_tallyVoucher hvoucher, rowAmount_eq_iff hdebit hcredit honly] at hv
    exact hv hhidden
  · intro hfree before row after amount hrows hdated honly
    have hrow : row ∈ rows := by
      rw [hrows]
      exact List.mem_append_right _ List.mem_cons_self
    have hread := (rowAmount_eq_iff hdebit hcredit honly).mpr (hfree row hrow hdated)
    obtain ⟨v, hvoucher, hv⟩ :=
      tallyVoucher_of_amount hdated (hread ▸ honly.not_le_zero)
    refine ⟨v, hv.trans hread, ?_⟩
    rw [hrows, parseTallyGrid_append hcols, hvoucher]
    rfl

end

/-- The columns of a daybook of Tally. -/
def daybookHeader : List String := ["Date", "Particulars", "Debit", "Credit"]

theorem splitHeader_daybookHeader : SplitHeader .ascii daybookHeader 0 2 3 :=
  ⟨by decide +kernel, ⟨"particular", by decide, by decide +kernel⟩, by decide +kernel,
    by decide +kernel, by decide +kernel⟩

theorem blank_sides_have_vouchers :
    VoucherForEachRow .ascii id daybookHeader 0 2 3
      [["01/04/2025", "Acme", "1,500.00", "0.00"], ["02/04/2025", "Acme", " ", "₹ 200.00"]] :=
  (vouchers_iff_no_hidden_credit .ascii id splitHeader_daybookHeader _).mpr (by decide +kernel)

/-- A credit beside a debit of `0.00`. -/
def hiddenCreditRow : List String := ["01/04/2025", "Acme", "0.00", "1,500.00"]

theorem zero_hides_credit :
    SplitHeader .ascii daybookHeader 0 2 3 ∧
      ¬VoucherForEachRow .ascii id daybookHeader 0 2 3 [hiddenCreditRow] := by
  refine ⟨splitHeader_daybookHeader, fun h => ?_⟩
  have hparsed : (parseTallyGrid .ascii id [daybookHeader, hiddenCreditRow]).map (·.amount) =
      [.finite 0] := by decide +kernel
  obtain ⟨v, hv, hone⟩ := h [] hiddenCreditRow [] _ rfl (by decide +kernel)
    (.credit (by decide +kernel) (by decide +kernel))
  have hnone : parseTallyGrid .ascii id [daybookHeader] = [] := rfl
  rw [hone, hnone, List.nil_append, List.map_singleton, List.singleton_inj, hv] at hparsed
  exact absurd hparsed (by decide +kernel)

end Desktop
