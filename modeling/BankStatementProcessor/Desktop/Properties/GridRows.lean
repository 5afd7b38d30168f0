import BankStatementProcessor.Desktop.Parser.ExcelParser

/-!
# The transactions of a sheet

* `no_row_lost_iff` — when a row with a date and an amount is among the transactions
* `well_formed_iff` — when every transaction has a date of this century and positive amounts
-/

namespace Desktop.Parser

open Infra

/-! ## What a row states -/

section

variable (parts : TextParts) (colMap : ColumnMap)

def narrationOf (row : List GridCell) : List Char :=
  trim ((getCell row colMap.narration).rawStr parts)

def dateOfRow (row : List GridCell) : ParsedDate := (getCell row colMap.date).asDate parts

/-- The cells that the amounts of a row are read from: the one of the combined column, or those
of the debit and the credit column where it is blank or was not recognised. -/
def amountCells (row : List GridCell) : List GridCell :=
  let combined := getCell row colMap.debitCredit
  if (combined.rawStr parts).isEmpty then [getCell row colMap.debit, getCell row colMap.credit]
  else [combined]

/-- A cell of the row states the amount. -/
def StatesAmount (row : List GridCell) (a : F64) : Prop :=
  ∃ cell ∈ amountCells parts colMap row, cell.asAmount parts = some a

/-- The number in a cell, before it is rounded to paise. -/
def GridCell.stated : GridCell → Option F64
  | .empty => none
  | .serial _ => none
  | .number f => some f
  | .text s => readAmount parts.unicode s.toList

/-- The row has a valid date and an amount, and its narration is no noise. -/
def IsTransactionRow (row : List GridCell) : Prop :=
  (dateOfRow parts colMap row).valid = true ∧ (∃ a, StatesAmount parts colMap row a) ∧
    isNoiseRow parts.unicode (narrationOf parts colMap row) = false

/-- No amount of the row rounds to zero, and of two none is negative. -/
def AmountsCount (row : List GridCell) : Prop :=
  let cells := (amountCells parts colMap row).filter fun cell => (cell.asAmount parts).isSome
  ∀ cell ∈ cells, ∃ q : ℚ, cell.stated parts = some (.finite q) ∧ 1 / 200 ≤ |q| ∧
    (cells.length = 2 → 0 < q)

end

/-- A positive amount of at most 200 crore. -/
def IsPositiveAmount (x : F64) : Prop := ∃ q : ℚ, x = .finite q ∧ 0 < q ∧ q ≤ 2000000000

/-- A transaction of a day from 2000 to 2099 with an amount, and with positive ones only. -/
structure WellFormed (t : Transaction) : Prop where
  day : ∃ date : NaiveDate, 2000 ≤ date.year ∧ date.year ≤ 2099 ∧
    t.date = fmtDisplay date ∧ t.dateTs = date.timestampMillis
  stated : t.debit.isSome = true ∨ t.credit.isSome = true
  positive : ∀ x, OnSide (t.debit, t.credit) x → IsPositiveAmount x

/-! ## Positive amounts -/

section

variable {parts : TextParts} {cell : GridCell} {a n : F64}

theorem asAmount_eq_some (h : cell.asAmount parts = some a) :
    ∃ n, cell.stated parts = some n ∧ IsAmount n ∧ a = F64.round2 n := by
  cases cell with
  | empty => cases h
  | serial f => cases h
  | number f =>
    obtain ⟨hamount, -, hround⟩ := parseFloat_eq_some h
    exact ⟨f, rfl, hamount, hround⟩
  | text s =>
    rw [GridCell.asAmount, parseAmountStr] at h
    split at h
    · cases h
    · exact parseStr_eq_some h

/-- An amount is positive after rounding exactly when it is half a paisa at least. -/
theorem isPositiveAmount_round2_iff (h : IsAmount n) : IsPositiveAmount (F64.round2 n) ↔
    ∃ q : ℚ, n = .finite q ∧ 1 / 200 ≤ |q| ∧ 0 < q := by
  obtain rfl | ⟨q, rfl, hzero, hmax⟩ := h
  · simp [F64.round2, IsPositiveAmount]
  · have hpos := F64.roundRat_pos_iff (q := q * 100)
    constructor
    · rintro ⟨p, hp, hppos, -⟩
      obtain rfl := F64.finite.inj hp
      have hround : 0 < F64.roundRat (q * 100) := by
        have : (0 : ℚ) < F64.roundRat (q * 100) := by linarith
        exact_mod_cast this
      have hq : 0 < q := by linarith [hpos.mp hround]
      exact ⟨q, rfl, by rw [abs_of_pos hq]; linarith [hpos.mp hround], hq⟩
    · rintro ⟨p, hp, hmin, hppos⟩
      obtain rfl := F64.finite.inj hp
      rw [abs_of_pos hppos] at hmin hmax
      have hround : (0 : ℚ) < F64.roundRat (q * 100) := by
        exact_mod_cast hpos.mpr (by linarith)
      have hbound : (F64.roundRat (q * 100) : ℚ) ≤ (200000000000 : ℤ) := by
        exact_mod_cast F64.roundRat_le (n := 200000000000) (by push_cast; linarith)
      refine ⟨_, rfl, by linarith, ?_⟩
      push_cast at hbound
      linarith

/-- And its absolute value whatever its sign. -/
theorem isPositiveAmount_abs_round2_iff (h : IsAmount n) :
    IsPositiveAmount (F64.abs (F64.round2 n)) ↔ ∃ q : ℚ, n = .finite q ∧ 1 / 200 ≤ |q| := by
  obtain rfl | ⟨q, rfl, hzero, hmax⟩ := h
  · simp [F64.round2, F64.abs, IsPositiveAmount]
  · have hamount : IsAmount (.finite |q|) :=
      Or.inr ⟨|q|, rfl, abs_ne_zero.mpr hzero, by rwa [abs_abs]⟩
    rw [F64.abs_round2_finite, isPositiveAmount_round2_iff hamount]
    simp [hzero]

theorem isPositiveAmount_absAlone_iff :
    IsPositiveAmount (if F64.lt a (.finite 0) then F64.abs a else a) ↔
      IsPositiveAmount (F64.abs a) := by
  split
  · rfl
  · next hnot =>
    cases a with
    | nan => rfl
    | infinite negative => simp [IsPositiveAmount, F64.abs]
    | finite q =>
      rw [F64.lt_finite, not_lt] at hnot
      rw [F64.abs_finite, abs_of_nonneg hnot]

/-! ## The amounts of a row -/

variable {colMap : ColumnMap} {row : List GridCell} {r : SheetRow} {x : F64}

theorem onSide_finalSides : OnSide (finalSides parts colMap r) x ↔
    OnSide (absAlone (r.debit, r.credit)) x := by
  simp [finalSides]

/-- The cells of a row, and what is read from them. -/
theorem readAmounts_cases (parts : TextParts) (colMap : ColumnMap) (row : List GridCell) :
    (amountCells parts colMap row = [getCell row colMap.debit, getCell row colMap.credit] ∧
      readAmounts parts colMap row = ((getCell row colMap.debit).asAmount parts,
        (getCell row colMap.credit).asAmount parts)) ∨
    ∃ cell minus, amountCells parts colMap row = [cell] ∧
      readAmounts parts colMap row = signedSides minus (cell.asAmount parts) := by
  by_cases hblank : ((getCell row colMap.debitCredit).rawStr parts).isEmpty = true
  · left
    simp [amountCells, readAmounts, hblank]
  · right
    exact ⟨getCell row colMap.debitCredit, _, by simp [amountCells, hblank],
      by simp only [readAmounts, hblank]; rfl⟩

/-- What is read are the amounts that are stated, up to their signs. -/
theorem exists_onSide_readAmounts :
    (∃ x, OnSide (readAmounts parts colMap row) x ∧ F64.abs x = F64.abs a) ↔
      ∃ b, StatesAmount parts colMap row b ∧ F64.abs b = F64.abs a := by
  rcases readAmounts_cases parts colMap row with
    ⟨hcells, hread⟩ | ⟨cell, minus, hcells, hread⟩
  · simp [StatesAmount, OnSide, hcells, hread]
  · rw [hread, exists_onSide_signedSides]
    simp [StatesAmount, hcells]

theorem hasAmount_readRow : (readRow parts colMap row).hasAmount = true ↔
    ∃ a, StatesAmount parts colMap row a := by
  show ((readAmounts parts colMap row).1.isSome || (readAmounts parts colMap row).2.isSome) = true
    ↔ _
  rcases readAmounts_cases parts colMap row with
    ⟨hcells, hread⟩ | ⟨cell, minus, hcells, hread⟩
  · simp [StatesAmount, hcells, hread, Option.isSome_iff_exists, exists_or]
  · rw [hread, isSome_signedSides]
    simp [StatesAmount, hcells, Option.isSome_iff_exists]

theorem isPositiveAmount_iff (h : cell.asAmount parts = some a) : IsPositiveAmount a ↔
    ∃ q : ℚ, cell.stated parts = some (.finite q) ∧ 1 / 200 ≤ |q| ∧ 0 < q := by
  obtain ⟨n, hn, hamount, rfl⟩ := asAmount_eq_some h
  rw [isPositiveAmount_round2_iff hamount, hn]
  simp only [Option.some.injEq]

theorem isPositiveAmount_abs_iff (h : cell.asAmount parts = some a) :
    IsPositiveAmount (F64.abs a) ↔
      ∃ q : ℚ, cell.stated parts = some (.finite q) ∧ 1 / 200 ≤ |q| := by
  obtain ⟨n, hn, hamount, rfl⟩ := asAmount_eq_some h
  rw [isPositiveAmount_abs_round2_iff hamount, hn]
  simp only [Option.some.injEq]

theorem signedSides_positive_iff {minus : Bool} {v : Option F64} :
    (∀ x, OnSide (absAlone (signedSides minus v)) x → IsPositiveAmount x) ↔
      ∀ b ∈ v, IsPositiveAmount (F64.abs b) := by
  unfold signedSides
  split
  · simp [absAlone, OnSide]
  · split <;> simp [absAlone, OnSide, isPositiveAmount_absAlone_iff, F64.abs_idem]

/-- **The sides of a row are positive exactly when its amounts count.** -/
theorem finalSides_positive_iff :
    (∀ x, OnSide (finalSides parts colMap (readRow parts colMap row)) x → IsPositiveAmount x) ↔
      AmountsCount parts colMap row := by
  simp only [onSide_finalSides]
  show (∀ x, OnSide (absAlone (readAmounts parts colMap row)) x → IsPositiveAmount x) ↔ _
  rcases readAmounts_cases parts colMap row with
    ⟨hcells, hread⟩ | ⟨cell, minus, hcells, hread⟩
  · -- the two columns
    cases hdebit : (getCell row colMap.debit).asAmount parts with
    | none =>
      cases hcredit : (getCell row colMap.credit).asAmount parts with
      | none => simp [AmountsCount, hcells, hread, hdebit, hcredit, absAlone, OnSide]
      | some c =>
        simp [AmountsCount, hcells, hread, hdebit, hcredit, absAlone, OnSide,
          isPositiveAmount_absAlone_iff, isPositiveAmount_abs_iff hcredit]
    | some d =>
      cases hcredit : (getCell row colMap.credit).asAmount parts with
      | none =>
        simp [AmountsCount, hcells, hread, hdebit, hcredit, absAlone, OnSide,
          isPositiveAmount_absAlone_iff, isPositiveAmount_abs_iff hdebit]
      | some c =>
        simp [AmountsCount, hcells, hread, hdebit, hcredit, absAlone, OnSide,
          isPositiveAmount_iff hdebit, isPositiveAmount_iff hcredit, or_imp, forall_and]
  · rw [hread, signedSides_positive_iff]
    cases hsome : cell.asAmount parts with
    | none => simp [AmountsCount, hcells, hsome]
    | some c => simp [AmountsCount, hcells, hsome, isPositiveAmount_abs_iff hsome]

/-! ## The loop -/

/-- What a row adds to the transactions. -/
def emitted (parts : TextParts) (colMap : ColumnMap) (row : List GridCell) :
    Option (String × ℤ × Sides) :=
  let r := readRow parts colMap row
  if r.nd.valid && r.hasAmount && !isNoiseRow parts.unicode r.narration then
    some (r.nd.display, r.nd.ts, finalSides parts colMap r)
  else none

/-- A balance is taken only from a row without amounts. -/
theorem takeBalance_eq_some {s s' : SheetState} (h : s.takeBalance parts r = some s') :
    r.hasAmount = false ∧ s'.txns = s.txns := by
  unfold SheetState.takeBalance at h
  simp only at h
  split at h
  · next hbalance =>
    simp only [Bool.and_eq_true, Bool.not_eq_true'] at hbalance
    refine ⟨hbalance.2, ?_⟩
    split at h
    · cases h
      rfl
    · split at h
      · cases h
        rfl
      · cases h
  · cases h

/-- **A row adds at most one transaction, and leaves the others.** -/
theorem essence_stepRow (s : SheetState) (p : List GridCell × ℕ) :
    (stepRow parts colMap s p).txns.map essence =
      s.txns.map essence ++ (emitted parts colMap p.1).toList := by
  unfold stepRow emitted
  generalize readRow parts colMap p.1 = r
  simp only
  by_cases hblank : r.isBlank = true
  · have hinvalid : r.nd.valid = false := by
      simp only [SheetRow.isBlank, Bool.and_eq_true, Bool.not_eq_true'] at hblank
      exact hblank.1.1.1
    simp [hblank, hinvalid]
  · rw [if_neg hblank]
    cases htake : s.takeBalance parts r with
    | some s' =>
      obtain ⟨hnone, htxns⟩ := takeBalance_eq_some htake
      simp [hnone, htxns]
    | none =>
      by_cases hnoise : isNoiseRow parts.unicode r.narration = true
      · simp [hnoise]
      · by_cases hvalid : r.nd.valid = true
        · by_cases hamount : r.hasAmount = true
          · simp [hnoise, hvalid, hamount, SheetState.push, essence]
          · simp [hnoise, hvalid, hamount]
        · -- a row without a date adds nothing
          have hcontinued : (continueLast r.narration s.txns).map essence = s.txns.map essence :=
            essence_continueLast
          simp only [hnoise, hvalid]
          split
          · next hnot => simp at hnot
          · split <;> simp [hcontinued]

theorem essence_run (s : SheetState) (rows : List (List GridCell × ℕ)) :
    (run (stepRow parts colMap) s rows).txns.map essence =
      s.txns.map essence ++ rows.filterMap fun p => emitted parts colMap p.1 := by
  induction rows generalizing s with
  | nil => simp
  | cons p rows ih =>
    rw [run_cons, ih, essence_stepRow, List.append_assoc]
    cases hemitted : emitted parts colMap p.1 <;> simp [hemitted]

theorem emitted_eq_some {e : String × ℤ × Sides} : emitted parts colMap row = some e ↔
    IsTransactionRow parts colMap row ∧
      ((dateOfRow parts colMap row).display, (dateOfRow parts colMap row).ts,
        finalSides parts colMap (readRow parts colMap row)) = e := by
  have hdate : (readRow parts colMap row).nd = dateOfRow parts colMap row := rfl
  have hnarration : (readRow parts colMap row).narration = narrationOf parts colMap row := rfl
  simp only [emitted, hdate, hnarration, IsTransactionRow, ← hasAmount_readRow,
    Option.ite_none_right_eq_some, Option.some.injEq, Bool.and_eq_true, Bool.not_eq_true',
    and_assoc]

/-- **The transactions of a sheet are those of its transaction rows.** -/
theorem mem_extractRows {grid : List (List GridCell)} {hdrIdx : ℕ} {e : String × ℤ × Sides} :
    e ∈ (extractRows parts colMap grid hdrIdx).txns.map essence ↔
      ∃ p ∈ dataRows grid hdrIdx, IsTransactionRow parts colMap p.1 ∧
        ((dateOfRow parts colMap p.1).display, (dateOfRow parts colMap p.1).ts,
          finalSides parts colMap (readRow parts colMap p.1)) = e := by
  rw [extractRows, essence_run]
  simp only [SheetState.init, List.map_nil, List.nil_append, List.mem_filterMap, emitted_eq_some]

theorem hasAmount_finalSides :
    (∃ x, OnSide (finalSides parts colMap (readRow parts colMap row)) x ∧ F64.abs x = F64.abs a) ↔
      ∃ b, StatesAmount parts colMap row b ∧ F64.abs b = F64.abs a := by
  simp only [onSide_finalSides]
  exact exists_onSide_absAlone.trans exists_onSide_readAmounts

/-- In the combined column an amount is stated as well. -/
theorem statesAmount_of_combined
    (h : (getCell row colMap.debitCredit).asAmount parts = some a) :
    StatesAmount parts colMap row a := by
  have hfilled : (getCell row colMap.debitCredit).rawStr parts ≠ [] := by
    cases hcell : getCell row colMap.debitCredit with
    | empty => simp [hcell, GridCell.asAmount] at h
    | serial f => simp [hcell, GridCell.asAmount] at h
    | number f => simpa [GridCell.rawStr] using parts.displayF64_ne_empty f
    | text s =>
      intro hempty
      rw [GridCell.rawStr] at hempty
      simp [hcell, GridCell.asAmount, hempty, parseAmountStr, trim] at h
  exact ⟨_, by simp [amountCells, hfilled], h⟩

/-- The date of a transaction row is a day. -/
theorem isDay_asDate (h : (cell.asDate parts).valid = true) : (cell.asDate parts).IsDay := by
  cases cell with
  | empty => cases h
  | serial f =>
    simp only [GridCell.asDate] at h ⊢
    cases hserial : normalizeExcelDate f with
    | some nd =>
      rw [Option.getD_some]
      exact isDay_normalizeExcelDate hserial
    | none =>
      rw [hserial, Option.getD_none] at h
      rw [Option.getD_none]
      exact isDay_normalizeTransactionDate h
  | number f =>
    simp only [GridCell.asDate] at h ⊢
    split
    · next nd hserial =>
      split at hserial
      · exact isDay_normalizeExcelDate hserial
      · cases hserial
    · next hserial =>
      rw [hserial] at h
      exact isDay_normalizeTransactionDate h
  | text s =>
    rw [GridCell.asDate] at h ⊢
    exact isDay_normalizeTransactionDate h

/-- Its transaction is well formed exactly when its amounts count. -/
theorem wellFormed_iff {t : Transaction} (hrow : IsTransactionRow parts colMap row)
    (he : essence t = ((dateOfRow parts colMap row).display, (dateOfRow parts colMap row).ts,
      finalSides parts colMap (readRow parts colMap row))) :
    WellFormed t ↔ AmountsCount parts colMap row := by
  simp only [essence, Prod.mk.injEq] at he
  obtain ⟨hdate, hts, hsides⟩ := he
  constructor
  · intro hwell
    have hpositive := hwell.positive
    rw [hsides] at hpositive
    exact finalSides_positive_iff.mp hpositive
  · intro hcount
    have hday : (dateOfRow parts colMap row).IsDay := isDay_asDate hrow.1
    obtain ⟨date, hlower, hupper, hnd⟩ := hday
    obtain ⟨a, ha⟩ := hrow.2.1
    obtain ⟨x, hx, -⟩ := hasAmount_finalSides.mpr ⟨a, ha, rfl⟩
    rw [← hsides] at hx
    refine ⟨⟨date, hlower, hupper, ?_, ?_⟩, ?_, ?_⟩
    · rw [hdate, hnd]
      rfl
    · rw [hts, hnd]
      rfl
    · exact hx.imp Option.isSome_of_mem Option.isSome_of_mem
    · rw [hsides]
      exact finalSides_positive_iff.mpr hcount

end

/-! ## No row is lost -/

/-- **A row with a date and an amount is among the transactions exactly when its narration, or
that of another row with the same date and amount, is no noise.** -/
theorem no_row_lost_iff (parts : TextParts) (colMap : ColumnMap) (grid : List (List GridCell))
    (hdrIdx : ℕ) {p : List GridCell × ℕ} (hp : p ∈ dataRows grid hdrIdx)
    (hvalid : (dateOfRow parts colMap p.1).valid = true) {a : F64}
    (hstates : StatesAmount parts colMap p.1 a) :
    (∃ t ∈ (extractRows parts colMap grid hdrIdx).txns,
        t.date = (dateOfRow parts colMap p.1).display ∧ HasAmount t a) ↔
      isNoiseRow parts.unicode (narrationOf parts colMap p.1) = false ∨
        ∃ q ∈ dataRows grid hdrIdx, q ≠ p ∧ IsTransactionRow parts colMap q.1 ∧
          (dateOfRow parts colMap q.1).display = (dateOfRow parts colMap p.1).display ∧
          ∃ b, StatesAmount parts colMap q.1 b ∧ F64.abs b = F64.abs a := by
  constructor
  · rintro ⟨t, ht, hdate, hamount⟩
    obtain ⟨q, hq, hrow, he⟩ := mem_extractRows.mp (List.mem_map_of_mem ht)
    simp only [essence, Prod.mk.injEq] at he
    obtain ⟨hqdate, -, hsides⟩ := he
    rw [HasAmount, ← hsides, hasAmount_finalSides] at hamount
    by_cases hsame : q = p
    · exact Or.inl (hsame ▸ hrow.2.2)
    · exact Or.inr ⟨q, hq, hsame, hrow, hqdate.trans hdate, hamount⟩
  · intro hkept
    -- the row that is kept, be it this one or another one
    obtain ⟨q, hq, hrow, hqdate, hqamount⟩ : ∃ q ∈ dataRows grid hdrIdx,
        IsTransactionRow parts colMap q.1 ∧
        (dateOfRow parts colMap q.1).display = (dateOfRow parts colMap p.1).display ∧
        ∃ b, StatesAmount parts colMap q.1 b ∧ F64.abs b = F64.abs a := by
      rcases hkept with hnoise | ⟨q, hq, -, hrow, hqdate, hqamount⟩
      · exact ⟨p, hp, ⟨hvalid, ⟨a, hstates⟩, hnoise⟩, rfl, a, hstates, rfl⟩
      · exact ⟨q, hq, hrow, hqdate, hqamount⟩
    obtain ⟨t, ht, he⟩ := List.mem_map.mp (mem_extractRows.mpr ⟨q, hq, hrow, rfl⟩)
    simp only [essence, Prod.mk.injEq] at he
    obtain ⟨hdate, -, hsides⟩ := he
    refine ⟨t, ht, hdate.trans hqdate, ?_⟩
    rw [HasAmount, hsides, hasAmount_finalSides]
    exact hqamount

/-- A sheet with a date, a narration and an amount in each row. -/
def threeColumns : ColumnMap where
  date := 0
  narration := 1
  reference := -1
  debit := 2
  credit := -1
  balance := -1
  debitCredit := -1

/-- Character tables of ASCII, and the one number of the sheets below. -/
def asciiParts : TextParts where
  unicode := .ascii
  displayF64 _ := "0.004"
  displayF64_ne_empty _ := by decide

/-- A header, and a row of that narration. -/
def oneRowSheet (narration : String) (amount : GridCell) : List (List GridCell) :=
  [[.text "Date", .text "Narration", .text "Amount"],
    [.text "05/01/2026", .text narration, amount]]

theorem fuel_row_kept :
    ∃ t ∈ (extractRows asciiParts threeColumns (oneRowSheet "FUEL" (.text "500.00")) 0).txns,
      t.date = (dateOfRow asciiParts threeColumns
        [.text "05/01/2026", .text "FUEL", .text "500.00"]).display ∧
      HasAmount t (.finite 500) := by
  refine (no_row_lost_iff asciiParts threeColumns (oneRowSheet "FUEL" (.text "500.00")) 0
    (p := ([.text "05/01/2026", .text "FUEL", .text "500.00"], 1)) (by decide) (by decide +kernel)
    ⟨.text "500.00", by decide, by decide +kernel⟩).mpr (Or.inl ?_)
  decide +kernel

/-- A payment to Total Energies is taken for a total. -/
theorem total_energies_lost :
    ¬ ∀ (parts : TextParts) (colMap : ColumnMap) (grid : List (List GridCell)) (hdrIdx : ℕ),
      ∀ p ∈ dataRows grid hdrIdx, (dateOfRow parts colMap p.1).valid = true →
        ∀ a, a ≠ .finite 0 → StatesAmount parts colMap p.1 a →
          ∃ t ∈ (extractRows parts colMap grid hdrIdx).txns,
            t.date = (dateOfRow parts colMap p.1).display ∧ HasAmount t a := by
  intro hkept
  obtain ⟨t, ht, -⟩ := hkept asciiParts threeColumns
    (oneRowSheet "TOTAL ENERGIES FUEL" (.text "500.00")) 0
    ([.text "05/01/2026", .text "TOTAL ENERGIES FUEL", .text "500.00"], 1) (by decide)
    (by decide +kernel) (.finite 500) (by decide) ⟨.text "500.00", by decide, by decide +kernel⟩
  have hnone : (extractRows asciiParts threeColumns
      (oneRowSheet "TOTAL ENERGIES FUEL" (.text "500.00")) 0).txns = [] := by
    decide +kernel
  rw [hnone] at ht
  cases ht

/-! ## Well-formed transactions -/

/-- **Every transaction is well formed exactly when the amounts of every transaction row
count.** -/
theorem well_formed_iff (parts : TextParts) (colMap : ColumnMap) (grid : List (List GridCell))
    (hdrIdx : ℕ) :
    (∀ t ∈ (extractRows parts colMap grid hdrIdx).txns, WellFormed t) ↔
      ∀ p ∈ dataRows grid hdrIdx, IsTransactionRow parts colMap p.1 →
        AmountsCount parts colMap p.1 := by
  constructor
  · intro hwell p hp hrow
    obtain ⟨t, ht, he⟩ := List.mem_map.mp (mem_extractRows.mpr ⟨p, hp, hrow, rfl⟩)
    exact (wellFormed_iff hrow he).mp (hwell t ht)
  · intro hcount t ht
    obtain ⟨p, hp, hrow, he⟩ := mem_extractRows.mp (List.mem_map_of_mem ht)
    exact (wellFormed_iff hrow he.symm).mpr (hcount p hp hrow)

/-- Less than half a paisa becomes a debit of zero. -/
theorem fraction_of_paisa_is_zero :
    ¬ ∀ (parts : TextParts) (colMap : ColumnMap) (grid : List (List GridCell)) (hdrIdx : ℕ),
      ∀ t ∈ (extractRows parts colMap grid hdrIdx).txns, WellFormed t := by
  intro hwell
  obtain ⟨t, ht, hzero⟩ : ∃ t ∈ (extractRows asciiParts threeColumns
      (oneRowSheet "INTEREST" (.number (.finite (1 / 250)))) 0).txns,
      t.debit = some (.finite 0) := by
    decide +kernel
  obtain ⟨q, hq, hpos, -⟩ := (hwell _ _ _ _ t ht).positive (.finite 0) (Or.inl hzero)
  obtain rfl := F64.finite.inj hq
  exact absurd hpos (lt_irrefl 0)

end Desktop.Parser
