import BankStatementProcessor.Desktop.Parser.CsvParser
import BankStatementProcessor.Desktop.Properties.BalanceCheck
import BankStatementProcessor.Desktop.Properties.GridRows

/-!
# The suffix in a combined column

`parse_amount_str` drops `Cr` and `Dr`, and the direction of a combined column is taken from the
sign alone. The suffix is looked for only in the columns of the two sides, so an amount without
a sign is a credit until its balance says otherwise.
-/

namespace Desktop.Parser

open Infra

/-! ## Suffixes -/

inductive Side where
  | debit
  | credit
deriving DecidableEq, Repr

/-- What the suffix that is dropped from an amount says. -/
def suffixSide (u : Unicode) (s : List Char) : Option Side :=
  let suffix := (trim s).drop (reCrDrSuffix.beforeMatch u (trim s)).length
  match (suffix.dropWhile isWhitespace).take 2 |>.map Char.toLower with
  | ['d', 'r'] => some .debit
  | ['c', 'r'] => some .credit
  | _ => none

/-- The sides of an amount that counts on one side. -/
def Side.sides (side : Side) (a : F64) : Sides :=
  match side with
  | .debit => (some a, none)
  | .credit => (none, some a)

/-- The only column of amounts is the combined one. -/
structure ColumnMap.CombinedOnly (colMap : ColumnMap) : Prop where
  debit : colMap.debit < 0
  credit : colMap.credit < 0

/-- The combined cell is a text with an amount that is not negative and a suffix. -/
structure SuffixedAmount (parts : TextParts) (colMap : ColumnMap) (row : List GridCell)
    (side : Side) (a : F64) : Prop where
  cell : ∃ s : String, getCell row colMap.debitCredit = .text s ∧
    parseAmountStr parts.unicode s.toList = some a ∧
    suffixSide parts.unicode s.toList = some side ∧ (bareAmount s.toList).head? ≠ some '-'
  unsigned : F64.lt a (.finite 0) = false

/-- The balance of the row went down by about its amount since the balance before it. -/
def SaysDebit (parts : TextParts) (colMap : ColumnMap) (before : List Transaction)
    (row : List GridCell) (a : F64) : Prop :=
  ∃ bal ∈ (readRow parts colMap row).balance, ∃ pb ∈ lastAnchor before,
    F64.lt (F64.abs (F64.add (F64.round2 (F64.sub bal pb)) a)) (tolerance a) = true

/-- The number of a transaction, from its row and its place. -/
def rowId (i n : ℕ) : String := s!"t_{i}_{n}"

section

variable {parts : TextParts} {colMap : ColumnMap} {row : List GridCell} {side : Side} {a : F64}

/-! ## The row as it is read -/

theorem finalSides_of_suffixed (hcolumns : colMap.CombinedOnly)
    (h : SuffixedAmount parts colMap row side a) :
    finalSides parts colMap (readRow parts colMap row) = (none, some a) := by
  obtain ⟨⟨s, hcell, hamount, -, hsign⟩, hunsigned⟩ := h
  have hread : readAmounts parts colMap row = (none, some a) := by
    have hfilled : s.toList ≠ [] := by
      rintro hempty
      rw [hempty] at hamount
      exact absurd hamount (by simp [parseAmountStr, trim])
    have hminus : ((bareAmount s.toList).head? == some '-') = false := by
      simpa using hsign
    simp [readAmounts, hcell, GridCell.rawStr, GridCell.asAmount, hfilled, hamount, signedSides,
      hunsigned, hminus]
  have hblank : getCell row colMap.credit = .empty := by
    rw [getCell, if_neg (not_le.mpr hcolumns.credit)]
  have hnoDr : ((reSideSuffix "Dr").isMatch parts.unicode []) = false := rfl
  simp only [finalSides, readRow, hread, hblank, GridCell.rawStr, hnoDr]
  simp [absAlone, hunsigned, toCredit, toDebit]

/-! ## The loop -/

theorem exists_push (parts : TextParts) (colMap : ColumnMap) (s : SheetState) (r : SheetRow)
    (i : ℕ) : ∃ new : Transaction, (s.push parts colMap r i).txns = s.txns ++ [new] ∧
      new.id = rowId i s.txns.length ∧ (new.debit, new.credit) = finalSides parts colMap r ∧
      new.balance = r.balance ∧ new.isOpeningBalance = false :=
  ⟨_, rfl, rfl, rfl, rfl, rfl⟩

/-- The transactions before one that has been read stay, and it keeps all but its narration. -/
structure Extends (xs : List Transaction) (t : Transaction) (txns : List Transaction) : Prop where
  kept : ∃ narration rest, txns = xs ++ { t with narration } :: rest

theorem Extends.continueLast {xs txns : List Transaction} {t : Transaction}
    (h : Extends xs t txns) (narration : List Char) : Extends xs t (continueLast narration txns) := by
  obtain ⟨text, rest, rfl⟩ := h.kept
  rcases List.eq_nil_or_concat rest with rfl | ⟨init, last, rfl⟩
  · rw [Parser.continueLast, List.modifyLast_concat]
    exact ⟨_, [], rfl⟩
  · have hsplit : xs ++ { t with narration := text } :: init.concat last =
        (xs ++ { t with narration := text } :: init) ++ [last] := by simp
    rw [hsplit, Parser.continueLast, List.modifyLast_concat, List.append_assoc]
    exact ⟨text, _, rfl⟩

theorem Extends.stepRow {xs : List Transaction} {t : Transaction} {s : SheetState}
    (h : Extends xs t s.txns) (p : List GridCell × ℕ) :
    Extends xs t (stepRow parts colMap s p).txns := by
  unfold Parser.stepRow
  simp only
  split
  · exact h
  · split
    · next s' htake => rwa [(takeBalance_eq_some htake).2]
    · split
      · exact h
      · split
        · exact h.continueLast _
        · split
          · exact h
          · split
            · exact h
            · obtain ⟨text, rest, heq⟩ := h.kept
              obtain ⟨new, hnew, -⟩ := exists_push parts colMap s (readRow parts colMap p.1) p.2
              rw [hnew, heq]
              exact ⟨text, rest ++ [new], by simp⟩

theorem stepRow_of_isTransactionRow {p : List GridCell × ℕ}
    (h : IsTransactionRow parts colMap p.1) (s : SheetState) :
    stepRow parts colMap s p = s.push parts colMap (readRow parts colMap p.1) p.2 := by
  have hemitted := (emitted_eq_some (e := _)).mpr ⟨h, rfl⟩
  unfold emitted at hemitted
  simp only [Option.ite_none_right_eq_some, Bool.and_eq_true, Bool.not_eq_true'] at hemitted
  obtain ⟨⟨⟨hvalid, hamount⟩, hnoise⟩, -⟩ := hemitted
  have htake : s.takeBalance parts (readRow parts colMap p.1) = none := by
    cases htake : s.takeBalance parts (readRow parts colMap p.1) with
    | none => rfl
    | some s' => exact absurd (takeBalance_eq_some htake).1 (by simp [hamount])
  unfold Parser.stepRow
  simp [SheetRow.isBlank, hvalid, hamount, htake, hnoise]

/-- A transaction row adds its transaction, and later rows may add to the narration only. -/
theorem extractRows_split {grid : List (List GridCell)} {hdrIdx : ℕ}
    {before after : List (List GridCell × ℕ)} {p : List GridCell × ℕ}
    (hrows : dataRows grid hdrIdx = before ++ p :: after) (hrow : IsTransactionRow parts colMap p.1) :
    ∃ t rest, (extractRows parts colMap grid hdrIdx).txns =
        (run (stepRow parts colMap) .init before).txns ++ t :: rest ∧
      t.id = rowId p.2 (run (stepRow parts colMap) .init before).txns.length ∧
      (t.debit, t.credit) = finalSides parts colMap (readRow parts colMap p.1) ∧
      t.balance = (readRow parts colMap p.1).balance ∧ t.isOpeningBalance = false := by
  rw [extractRows, hrows, run_append, run_cons, stepRow_of_isTransactionRow hrow]
  generalize run (stepRow parts colMap) .init before = s
  obtain ⟨new, hnew, hid, hsides, hbalance, hmarker⟩ :=
    exists_push parts colMap s (readRow parts colMap p.1) p.2
  have hstart : Extends s.txns new (s.push parts colMap (readRow parts colMap p.1) p.2).txns := by
    rw [hnew]
    exact ⟨new.narration, [], rfl⟩
  obtain ⟨narration, rest, heq⟩ :=
    (invariant_run (I := fun s' : SheetState => Extends s.txns new s'.txns)
      (fun _ q h => h.stepRow q) after hstart).kept
  exact ⟨{ new with narration }, rest, heq, hid, hsides, hbalance, hmarker⟩

/-- The places of the transactions are in their numbers. -/
def Numbered (txns : List Transaction) : Prop :=
  ∃ rows : List ℕ, txns.map (·.id) = rows.mapIdx fun n i => rowId i n

theorem map_id_continueLast (narration : List Char) (txns : List Transaction) :
    (continueLast narration txns).map (·.id) = txns.map (·.id) := by
  rcases List.eq_nil_or_concat txns with rfl | ⟨init, t, rfl⟩
  · rfl
  · rw [List.concat_eq_append, continueLast, List.modifyLast_concat]
    simp

theorem Numbered.stepRow {s : SheetState} (h : Numbered s.txns) (p : List GridCell × ℕ) :
    Numbered (stepRow parts colMap s p).txns := by
  unfold Parser.stepRow
  simp only
  split
  · exact h
  · split
    · next s' htake => rwa [(takeBalance_eq_some htake).2]
    · split
      · exact h
      · split
        · rwa [Numbered, map_id_continueLast]
        · split
          · exact h
          · split
            · exact h
            · obtain ⟨rows, hrows⟩ := h
              obtain ⟨new, hnew, hid, -⟩ := exists_push parts colMap s (readRow parts colMap p.1) p.2
              have hlength : rows.length = s.txns.length := by
                have := congrArg List.length hrows
                simpa using this.symm
              refine ⟨rows ++ [p.2], ?_⟩
              rw [hnew, List.map_append, hrows, List.mapIdx_concat, hlength, List.map_singleton, hid]

theorem numbered_extractRows (grid : List (List GridCell)) (hdrIdx : ℕ) :
    Numbered (extractRows parts colMap grid hdrIdx).txns :=
  invariant_run (I := fun s : SheetState => Numbered s.txns) (fun _ p h => h.stepRow p) _ ⟨[], rfl⟩

theorem Numbered.id_eq {before after : List Transaction} {t : Transaction}
    (h : Numbered (before ++ t :: after)) : ∃ i, t.id = rowId i before.length := by
  obtain ⟨rows, hrows⟩ := h
  have hget := congrArg (·[before.length]?) hrows
  simp only [List.map_append, List.map_cons, List.getElem?_mapIdx] at hget
  rw [List.getElem?_append_right (by simp)] at hget
  simp only [List.length_map, Nat.sub_self, List.getElem?_cons_zero] at hget
  obtain ⟨i, -, hi⟩ := Option.map_eq_some_iff.mp hget.symm
  exact ⟨i, hi.symm⟩

theorem toList_rowId (i n : ℕ) : (rowId i n).toList =
    't' :: '_' :: (Nat.toDigits 10 i ++ '_' :: Nat.toDigits 10 n) := by
  simp [rowId, ToString.toString, Nat.repr]

theorem rowId_inj {i j n m : ℕ} (h : rowId i n = rowId j m) : n = m := by
  have hdigit : ∀ k : ℕ, '_' ∉ Nat.toDigits 10 k := fun k hk =>
    absurd (F64.isDigit_of_mem_toDigits hk) (by decide)
  have hlist := congrArg String.toList h
  simp only [toList_rowId, List.cons.injEq, true_and] at hlist
  have := congrArg F64.digitsValue
    ((List.append_cons_inj_of_notMem (hdigit i) (hdigit n)).mp hlist).2.2
  rwa [F64.digitsValue_toDigits, F64.digitsValue_toDigits] at this

end

/-! ## The passes over the balances -/

section

variable {toString : F64 → String} {hash : Transaction → String} {opening : Option F64}
  {raw before : List Transaction} {t u : Transaction} {a : F64}

/-- What is shown before a row and whether it is flagged are all that is added to it. -/
theorem exists_finishRow (toString : F64 → String) (opening : Option F64)
    (before : List Transaction) (t : Transaction) : ∃ shown ok,
    finishRow toString opening before t =
      { directRow (lastAnchor (deduplicateTxns toString before)) t with
        prevBalance := shown, balanceOk := ok } := by
  simp only [finishRow, directRow_stamped, checkRow]
  split
  · exact ⟨_, _, rfl⟩
  · exact ⟨_, _, rfl⟩

theorem mem_finished_iff (opening : Option F64) (raw : List Transaction) :
    u ∈ validateBalances opening (correctFrom none (deduplicateFrom toString []
        (stampPrevBalances opening raw))) ↔
      ∃ before t after, raw = before ++ t :: after ∧ isKept toString before t = true ∧
        finishRow toString opening before t = u := by
  have hseen : ∀ key, key ∈ [] ↔ HasKey toString [] key := by simp [HasKey]
  have hpasses := forall_finished_iff opening raw (· ≠ u) hseen
  rw [everyStep_iff, carriedBalance_nil] at hpasses
  simp only [run_snoc, List.nil_append] at hpasses
  have hfinal : (∀ v ∈ validateBalances opening (correctFrom none (deduplicateFrom toString []
      (stampPrevBalances opening raw))), v ≠ u) ↔
      ∀ before t after, raw = before ++ t :: after → isKept toString before t = true →
        finishRow toString opening before t ≠ u := by
    rw [← hpasses]
    simp [deduplicateTxns, deduplicateFrom, lastChecked_nil, lastAnchor]
  constructor
  · intro hu
    by_contra hnone
    exact hfinal.mpr (fun before t after hraw hkept heq =>
      hnone ⟨before, t, after, hraw, hkept, heq⟩) u hu rfl
  · rintro ⟨before, t, after, hraw, hkept, heq⟩
    by_contra hu
    exact hfinal.mp (fun v hv hvu => hu (hvu ▸ hv)) before t after hraw hkept heq

theorem mem_prepended {hash : Transaction → String} {bankName accountNo : String}
    {txns : List Transaction}
    (h : u ∈ prependOpeningBalanceRow hash opening bankName accountNo txns) :
    (∃ text : String, u.id = s!"opening_balance_{text}") ∨ u ∈ txns := by
  cases txns with
  | nil => exact Or.inr h
  | cons first txns =>
    simp only [prependOpeningBalanceRow] at h
    split at h
    · exact Or.inr h
    · rcases List.mem_cons.mp h with rfl | h
      · exact Or.inl ⟨_, rfl⟩
      · exact Or.inr h

theorem subset_prepended {hash : Transaction → String} {bankName accountNo : String}
    (txns : List Transaction) :
    txns ⊆ prependOpeningBalanceRow hash opening bankName accountNo txns := by
  cases txns with
  | nil => exact List.Subset.refl _
  | cons first txns =>
    simp only [prependOpeningBalanceRow]
    split
    · exact List.Subset.refl _
    · exact List.subset_cons_self _ _

theorem finishSheet_eq (toString : F64 → String) (hash : Transaction → String)
    (opening : Option F64) (raw : List Transaction) :
    (finishSheet toString hash opening raw).1 =
      prependOpeningBalanceRow hash (opening.or (deriveOpening raw)) "" ""
        (validateBalances (opening.or (deriveOpening raw)) (correctFrom none
          (deduplicateFrom toString []
            (stampPrevBalances (opening.or (deriveOpening raw)) raw)))) := by
  cases raw with
  | nil => rfl
  | cons first rest => rfl

/-- The opening balance row aside, the rows of a sheet are those that were read. -/
theorem mem_finishSheet (h : u ∈ (finishSheet toString hash opening raw).1) :
    (∃ text : String, u.id = s!"opening_balance_{text}") ∨
      ∃ before t after, raw = before ++ t :: after ∧
        finishRow toString (opening.or (deriveOpening raw)) before t = u := by
  rw [finishSheet_eq] at h
  refine (mem_prepended h).imp_right fun hu => ?_
  obtain ⟨before, t, after, hraw, -, heq⟩ := (mem_finished_iff _ raw).mp hu
  exact ⟨before, t, after, hraw, heq⟩

theorem finishRow_mem_finishSheet {after : List Transaction}
    (hraw : raw = before ++ t :: after) (hkept : isKept toString before t = true) :
    finishRow toString (opening.or (deriveOpening raw)) before t ∈
      (finishSheet toString hash opening raw).1 := by
  rw [finishSheet_eq]
  exact subset_prepended _ ((mem_finished_iff _ raw).mpr ⟨before, t, after, hraw, hkept, rfl⟩)

theorem id_directRow (anchor : Option F64) (t : Transaction) : (directRow anchor t).id = t.id := by
  unfold directRow
  split
  · rfl
  · split
    · unfold correctRow
      split
      · split <;> rfl
      · split <;> rfl
      · rfl
    · rfl

/-- An amount alone on the credit side is moved when the balances say so. -/
theorem sides_directRow (hmarker : t.isOpeningBalance = false)
    (hsides : (t.debit, t.credit) = (none, some a)) (anchor : Option F64) :
    ((directRow anchor t).debit, (directRow anchor t).credit) = (some a, none) ∧
      (∃ bal ∈ t.balance, ∃ pb ∈ anchor,
        F64.lt (F64.abs (F64.add (F64.round2 (F64.sub bal pb)) a)) (tolerance a) = true) ∨
    ((directRow anchor t).debit, (directRow anchor t).credit) = (none, some a) ∧
      ¬ ∃ bal ∈ t.balance, ∃ pb ∈ anchor,
        F64.lt (F64.abs (F64.add (F64.round2 (F64.sub bal pb)) a)) (tolerance a) = true := by
  obtain ⟨hdebit, hcredit⟩ := Prod.mk.inj hsides
  cases hstated : t.balance with
  | none => simp [directRow, hmarker, hstated, hdebit, hcredit]
  | some bal =>
    cases anchor with
    | none => simp [directRow, hmarker, hstated, hdebit, hcredit]
    | some pb =>
      by_cases hmoves : F64.lt (F64.abs (F64.add (F64.round2 (F64.sub bal pb)) a))
          (tolerance a) = true
      · simp [directRow, hmarker, hstated, correctRow, hdebit, hcredit, hmoves]
      · simp [directRow, hmarker, hstated, correctRow, hdebit, hcredit, hmoves]

end

/-! ## The record of a row -/

/-- **An amount with a suffix in the combined column is recorded on the side it says exactly when
that is the side its balance says, and the credit side where the balances say nothing.** -/
theorem suffix_recorded_iff (parts : TextParts) (hash : Transaction → String)
    (opening : Option F64) (colMap : ColumnMap) (grid : List (List GridCell)) (hdrIdx : ℕ)
    (before after : List (List GridCell × ℕ)) (p : List GridCell × ℕ) (side : Side) (a : F64)
    (hcolumns : colMap.CombinedOnly) (hrows : dataRows grid hdrIdx = before ++ p :: after)
    (hrow : IsTransactionRow parts colMap p.1)
    (hamount : SuffixedAmount parts colMap p.1 side a) :
    let raw := (extractRows parts colMap grid hdrIdx).txns
    let read := (run (stepRow parts colMap) .init before).txns
    let final := (finishSheet parts.displayF64 hash opening raw).1
    (∀ u ∈ final, u.id = rowId p.2 read.length →
      ((u.debit, u.credit) = side.sides a ↔
        (side = .debit ↔
          SaysDebit parts colMap (deduplicateTxns parts.displayF64 read) p.1 a))) ∧
    ∃ t ∈ raw, t.id = rowId p.2 read.length ∧
      (isKept parts.displayF64 read t = true → ∃ u ∈ final, u.id = t.id) := by
  intro raw read final
  obtain ⟨t, rest, hraw, hid, hsides, hbalance, hmarker⟩ := extractRows_split hrows hrow
  rw [finalSides_of_suffixed hcolumns hamount] at hsides
  have hnumbered : Numbered raw := numbered_extractRows grid hdrIdx
  refine ⟨fun u hu huid => ?_, t, ?_, hid, fun hkept => ?_⟩
  · rcases mem_finishSheet hu with ⟨text, hmarked⟩ | ⟨before', t', after', hraw', hfinish⟩
    · rw [hmarked] at huid
      have := congrArg String.toList huid
      simp [toList_rowId, ToString.toString] at this
    · obtain ⟨shown, ok, hrecord⟩ := exists_finishRow parts.displayF64
        (opening.or (deriveOpening raw)) before' t'
      rw [hrecord] at hfinish
      -- the number tells which row it is
      obtain ⟨rfl, rfl⟩ : before' = read ∧ t' = t := by
        have hplace : before'.length = read.length := by
          obtain ⟨i, hi⟩ := (hraw' ▸ hnumbered).id_eq
          have hsame : t'.id = rowId p.2 read.length := by
            rw [← huid, ← hfinish]
            exact (id_directRow _ t').symm
          exact rowId_inj (hi.symm.trans hsame)
        have heq := hraw'.symm.trans hraw
        obtain ⟨hbefore, hcons⟩ := List.append_inj heq hplace
        exact ⟨hbefore, (List.cons.inj hcons).1⟩
      rw [← hfinish, SaysDebit, ← hbalance]
      rcases sides_directRow hmarker hsides
          (lastAnchor (deduplicateTxns parts.displayF64 read)) with ⟨hmoved, hsays⟩ | ⟨hkept, hsays⟩
      · rw [hmoved, eq_true hsays]
        cases side <;> simp [Side.sides]
      · rw [hkept, eq_false hsays]
        cases side <;> simp [Side.sides]
  · show t ∈ (extractRows parts colMap grid hdrIdx).txns
    rw [hraw]
    exact List.mem_append_right _ List.mem_cons_self
  · refine ⟨_, finishRow_mem_finishSheet hraw hkept, ?_⟩
    obtain ⟨shown, ok, hrecord⟩ := exists_finishRow parts.displayF64
      (opening.or (deriveOpening raw)) read t
    rw [hrecord]
    exact id_directRow _ t

/-! ## A payment with its suffix -/

/-- Date, narration and the combined column. -/
def combinedColumns : ColumnMap where
  date := 0
  narration := 1
  reference := -1
  debit := -1
  credit := -1
  balance := -1
  debitCredit := 2

/-- A file with one payment. -/
def fuelRecords : List (List (List Char)) :=
  [["Date".toList, "Narration".toList, "Debit/Credit".toList],
    ["05/01/2026".toList, "FUEL".toList, "500.00 Dr".toList]]

/-- The same table in a sheet. -/
def fuelSheet : List (List GridCell) :=
  [[.text "Date", .text "Narration", .text "Debit/Credit"],
    [.text "05/01/2026", .text "FUEL", .text "500.00 Dr"]]

theorem suffixedAmount_fuel : SuffixedAmount asciiParts combinedColumns
    [.text "05/01/2026", .text "FUEL", .text "500.00 Dr"] .debit (.finite 500) where
  cell := ⟨"500.00 Dr", rfl, by decide +kernel, by decide +kernel, by decide +kernel⟩
  unsigned := by decide +kernel

theorem isTransactionRow_fuel : IsTransactionRow asciiParts combinedColumns
    [.text "05/01/2026", .text "FUEL", .text "500.00 Dr"] :=
  ⟨by decide +kernel, ⟨.finite 500, .text "500.00 Dr", by decide, by decide +kernel⟩,
    by decide +kernel⟩

theorem fuel_suffix_recorded_iff :
    let raw := (extractRows asciiParts combinedColumns fuelSheet 0).txns
    let read := (run (stepRow asciiParts combinedColumns) .init []).txns
    let final := (finishSheet asciiParts.displayF64 Transaction.id none raw).1
    (∀ u ∈ final, u.id = rowId 1 read.length →
      ((u.debit, u.credit) = Side.debit.sides (.finite 500) ↔
        (Side.debit = .debit ↔ SaysDebit asciiParts combinedColumns
          (deduplicateTxns asciiParts.displayF64 read)
          [.text "05/01/2026", .text "FUEL", .text "500.00 Dr"] (.finite 500)))) ∧
    ∃ t ∈ raw, t.id = rowId 1 read.length ∧
      (isKept asciiParts.displayF64 read t = true → ∃ u ∈ final, u.id = t.id) :=
  suffix_recorded_iff asciiParts Transaction.id none combinedColumns fuelSheet 0 [] []
    ([.text "05/01/2026", .text "FUEL", .text "500.00 Dr"], 1) .debit (.finite 500)
    ⟨by decide, by decide⟩ (by decide) isTransactionRow_fuel suffixedAmount_fuel

/-- Every unsigned amount with a suffix is recorded on the side that the suffix says. -/
def RecordsSuffixes (parts : TextParts) (hash : Transaction → String) (opening : Option F64)
    (colMap : ColumnMap) (grid : List (List GridCell)) (hdrIdx : ℕ) : Prop :=
  ∀ before after p side a, dataRows grid hdrIdx = before ++ p :: after →
    IsTransactionRow parts colMap p.1 → SuffixedAmount parts colMap p.1 side a →
    ∀ u ∈ (finishSheet parts.displayF64 hash opening
      (extractRows parts colMap grid hdrIdx).txns).1,
      u.id = rowId p.2 (run (stepRow parts colMap) .init before).txns.length →
        (u.debit, u.credit) = side.sides a

/-- The payment becomes a deposit, from a sheet as well as from a file. -/
theorem fuel_payment_is_deposit :
    (¬ ∀ parts hash opening colMap grid hdrIdx, colMap.CombinedOnly →
      RecordsSuffixes parts hash opening colMap grid hdrIdx) ∧
    ¬ ∀ parts hash opening colMap records hdrIdx, colMap.CombinedOnly →
      RecordsSuffixes parts hash opening colMap (gridFromCsv records) hdrIdx := by
  have hsheet : ¬ RecordsSuffixes asciiParts Transaction.id none combinedColumns fuelSheet 0 := by
    intro h
    have hpaid := h [] [] ([.text "05/01/2026", .text "FUEL", .text "500.00 Dr"], 1) .debit
      (.finite 500) (by decide) isTransactionRow_fuel suffixedAmount_fuel
    have hfinal : (finishSheet asciiParts.displayF64 Transaction.id none
        (extractRows asciiParts combinedColumns fuelSheet 0).txns).1.map
          (fun u => (u.id, u.debit, u.credit)) = [("t_1_0", none, some (.finite 500))] := by
      decide +kernel
    obtain ⟨u, hu, hfields⟩ := List.mem_map.mp (hfinal ▸ List.mem_singleton_self _)
    obtain ⟨hid, hsides⟩ := Prod.mk.inj hfields
    have hdebit := hpaid u hu hid
    rw [hsides] at hdebit
    exact absurd hdebit (by decide)
  have hfile : gridFromCsv fuelRecords = fuelSheet := by decide +kernel
  refine ⟨fun h => hsheet (h _ _ _ _ _ _ ⟨by decide, by decide⟩), fun h => hsheet ?_⟩
  rw [← hfile]
  exact h _ _ _ _ _ _ ⟨by decide, by decide⟩

end Desktop.Parser
