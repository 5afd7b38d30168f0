import BankStatementProcessor.Desktop.Parser.PdfParser

/-!
# The transactions of a page

* `row_kept_iff` — when a row with a date and an amount has exactly one transaction
-/

namespace Desktop.Parser

open Infra

/-! ## What a row states -/

section

variable (u : Unicode) (boundaries : List ColBoundary)

/-- The cells that the amounts of a row are read from. -/
def amountTexts (cells : ColField → List Char) : List (List Char) :=
  if (cells .debitCredit).isEmpty then [cells .debit, cells .credit] else [cells .debitCredit]

/-- A cell of the row states the amount. -/
def CellsState (row : List PdfItem) (a : F64) : Prop :=
  ∃ text ∈ amountTexts (assignCells u boundaries row), parseAmountStr u text = some a

/-- The row adds one transaction to those before it, with its date and the amount, and the ones
after it follow. -/
def RowKept (s final : PdfState) (r : PageRow) (a : F64) : Prop :=
  ∃ e rest, (stepPdfRow u boundaries s r).txns.map essence = s.txns.map essence ++ [e] ∧
    final.txns.map essence = s.txns.map essence ++ e :: rest ∧
    e.1 = (readPdfRow u boundaries r).nd.display ∧
    ∃ x, OnSide e.2.2 x ∧ F64.abs x = F64.abs a

/-- The loop reaches the row, takes it for no noise, and holds no transaction of another day
back for its amount. -/
structure Reached (s : PdfState) (r : PageRow) : Prop where
  running : s.stopped = false
  noSectionEnd : isSectionEnd u r.row = false
  noNoise : isNoiseRow u (readPdfRow u boundaries r).narration = false
  noOtherDay : ∀ p ∈ s.pending, s.fullNarration (readPdfRow u boundaries r) = [] →
    p.date = (readPdfRow u boundaries r).nd.display

end

section

variable {u : Unicode} {boundaries : List ColBoundary} {s s' : PdfState} {r : PdfRow} {a : F64}
  {i : ℕ}

/-! ## The sides of a row -/

theorem exists_onSide_readSides {cells : ColField → List Char} :
    (∃ x, OnSide (readSides u cells) x ∧ F64.abs x = F64.abs a) ↔
      ∃ b, (∃ text ∈ amountTexts cells, parseAmountStr u text = some b) ∧
        F64.abs b = F64.abs a := by
  unfold readSides amountTexts
  by_cases hblank : (cells .debitCredit).isEmpty = true
  · simp [hblank, OnSide]
  · rw [if_pos (by simp [hblank]), exists_onSide_signedSides]
    simp [hblank]

theorem OnSide.isSome {sides : Sides} {x : F64} (h : OnSide sides x) :
    (sides.1.isSome || sides.2.isSome) = true := by
  rcases h with h | h
  · simp [Option.isSome_of_mem h]
  · simp [Option.isSome_of_mem h]

/-- The sides of a row with amounts are these, up to their signs. -/
theorem exists_onSide_finalPdfSides (h : r.hasAmount = true) :
    (∃ x, OnSide (finalPdfSides u boundaries r) x ∧ F64.abs x = F64.abs a) ↔
      ∃ x, OnSide (r.debit, r.credit) x ∧ F64.abs x = F64.abs a := by
  unfold finalPdfSides
  simp only [onSide_toDebit, onSide_toCredit, h, if_true]
  split
  · simp only [onSide_toCredit]
    exact exists_onSide_absAlone
  · rfl

/-! ## What one row does -/

/-- The transactions are still there, up to narrations and balances, and the loop goes on as it
did. -/
structure PdfState.Extends (s s' : PdfState) : Prop where
  txns : s.txns.map essence <+: s'.txns.map essence
  skip : s'.skip = s.skip
  stopped : s'.stopped = s.stopped

theorem PdfState.Extends.refl (s : PdfState) : s.Extends s := ⟨List.prefix_rfl, rfl, rfl⟩

theorem essence_fillLast {balance : Option F64} {txns : List Transaction} :
    (txns.modifyLast (fillBalance balance)).map essence = txns.map essence :=
  essence_modifyLast (f := fillBalance balance) (fun _ => rfl) txns

theorem prefix_snoc {txns : List Transaction} {t : Transaction} :
    txns.map essence <+: (txns ++ [t]).map essence := by
  rw [List.map_append]
  exact List.prefix_append _ _

theorem extends_takeBalance (h : s.takeBalance u r = some s') : s.Extends s' := by
  unfold PdfState.takeBalance at h
  simp only at h
  split at h
  · split at h
    · cases h
      exact ⟨List.prefix_rfl, rfl, rfl⟩
    · split at h
      · cases h
        exact ⟨essence_fillLast ▸ List.prefix_rfl, rfl, rfl⟩
      · split at h
        · cases h
          exact ⟨List.prefix_rfl, rfl, rfl⟩
        · split at h
          · cases h
            exact ⟨List.prefix_rfl, rfl, rfl⟩
          · cases h
  · cases h

theorem extends_takeUndated : s.Extends (s.takeUndated u r) := by
  unfold PdfState.takeUndated
  split
  · exact ⟨List.prefix_rfl, rfl, rfl⟩
  · split
    · exact ⟨List.prefix_rfl, rfl, rfl⟩
    · split
      · refine ⟨?_, rfl, rfl⟩
        simp only
        rw [essence_fillLast]
        split
        · exact List.prefix_rfl
        · rw [essence_continueLast]
      · exact .refl s

theorem extends_takeOwn {sides : Sides} : s.Extends (s.takeOwn r sides i) := by
  unfold PdfState.takeOwn
  simp only
  split
  · exact ⟨prefix_snoc, rfl, rfl⟩
  · split <;> exact ⟨List.prefix_rfl, rfl, rfl⟩

theorem extends_takeDated : s.Extends (s.takeDated u boundaries r i) := by
  unfold PdfState.takeDated
  simp only
  split
  · split
    · exact ⟨prefix_snoc, rfl, rfl⟩
    · exact extends_takeOwn
  · exact extends_takeOwn

theorem extends_takeRow : s.Extends (s.takeRow u boundaries r i) := by
  unfold PdfState.takeRow
  split
  · exact .refl s
  · split
    · next hbalance => exact extends_takeBalance hbalance
    · split
      · exact ⟨List.prefix_rfl, rfl, rfl⟩
      · split
        · exact extends_takeUndated
        · exact extends_takeDated

/-- **A dated row with amounts adds one transaction. It has the date of the row unless one of
another day was held back.** -/
theorem takeDated_valued {x : F64} (h : OnSide (finalPdfSides u boundaries r) x) :
    ∃ e, (s.takeDated u boundaries r i).txns.map essence = s.txns.map essence ++ [e] ∧
      e.2.2 = finalPdfSides u boundaries r ∧
      (e.1 = r.nd.display ↔
        ∀ p ∈ s.pending, s.fullNarration r = [] → p.date = r.nd.display) := by
  have hvalued := h.isSome
  unfold PdfState.takeDated PdfState.takeOwn
  simp only [hvalued]
  cases hpending : s.pending with
  | none => exact ⟨_, List.map_append, rfl, by simp [essence, PdfState.newTxn]⟩
  | some p =>
    by_cases hempty : s.fullNarration r = []
    · exact ⟨(p.date, p.dateTs, finalPdfSides u boundaries r), by
        simp [hempty, essence, fillBalance], rfl, by simp [hempty]⟩
    · exact ⟨(r.nd.display, r.nd.ts, finalPdfSides u boundaries r), by
        simp [hempty, essence, PdfState.newTxn], rfl, by simp [hempty]⟩

/-- A dated row with amounts is either noise or taken. -/
theorem takeRow_valued (hvalid : r.nd.valid = true) (hamount : r.hasAmount = true) :
    s.takeRow u boundaries r i =
      if isNoiseRow u r.narration then { s with noiseRows := s.noiseRows + 1 }
      else s.takeDated u boundaries r i := by
  have hbalance : s.takeBalance u r = none := by simp [PdfState.takeBalance, hamount]
  have hblank : r.isBlank = false := by simp [PdfRow.isBlank, hamount]
  simp [PdfState.takeRow, hblank, hbalance, hvalid]

/-! ## The loop -/

variable {r₀ r : PageRow} {rows : List PageRow}

theorem stepPdfRow_prefix :
    s.txns.map essence <+: (stepPdfRow u boundaries s r).txns.map essence := by
  unfold stepPdfRow
  split
  · exact List.prefix_rfl
  · split
    · exact List.prefix_rfl
    · split
      · exact List.prefix_rfl
      · exact (extends_takeRow (s := { s with skip := (readPdfRow u boundaries r).consumed })).txns

/-- **No row takes back what the rows before it added.** -/
theorem run_stepPdfRow_prefix :
    s.txns.map essence <+: (run (stepPdfRow u boundaries) s rows).txns.map essence := by
  induction rows generalizing s with
  | nil => exact List.prefix_rfl
  | cons r rows ih => exact stepPdfRow_prefix.trans ih

theorem stopped_stepPdfRow (h : s.stopped = true) : stepPdfRow u boundaries s r = s := by
  simp [stepPdfRow, h]

/-- A row is skipped only when the one before it was read together with it. -/
theorem consumed_of_skip (hskip : (stepPdfRow u boundaries s r).skip = true)
    (hrunning : (stepPdfRow u boundaries s r).stopped = false) :
    (readPdfRow u boundaries r).consumed = true := by
  unfold stepPdfRow at hskip hrunning
  split at hskip
  · next hstopped => simp [hstopped] at hrunning
  · split at hskip
    · cases hskip
    · next hnot =>
      split at hskip
      · next hend => simp_all
      · rwa [extends_takeRow.skip] at hskip

/-- A row read together with the one before it is a number of few digits in the date column. -/
theorem isYearRow_of_consumed (h : (readPdfRow u boundaries r).consumed = true) :
    ∃ next, r.next = some next ∧ isYearRow u (assignCells u boundaries next) = true := by
  unfold readPdfRow at h
  simp only at h
  cases hnext : r.next with
  | none => simp [hnext] at h
  | some next =>
    refine ⟨next, rfl, ?_⟩
    simp only [hnext, Option.map_some, Option.bind_some, stitchedDate] at h
    split at h
    · next hyear => exact (Bool.and_eq_true_iff.mp hyear).2
    · cases h

theorem length_le_len (cs : List Char) : cs.length ≤ len cs := by
  have hfold : ∀ n : ℕ, n + cs.length ≤ cs.foldl (fun n c => n + c.utf8Size) n := by
    induction cs with
    | nil => simp
    | cons c cs ih =>
      intro n
      have hstep := ih (n + c.utf8Size)
      have hsize := c.utf8Size_pos
      rw [List.length_cons, List.foldl_cons]
      omega
  have := hfold 0
  unfold len
  omega

theorem isShortNumber_of_isYearRow {cells : ColField → List Char}
    (h : isYearRow u cells = true) : IsShortNumber (trim (cells .date)) := by
  simp only [isYearRow, Bool.and_eq_true, decide_eq_true_eq, List.all_eq_true] at h
  exact ⟨(length_le_len _).trans h.1.1.1.1.2, h.1.1.1.2⟩

theorem next_of_withNext {pages : List (List PdfItem)} {before after : List PageRow}
    (h : withNext i pages = before ++ r₀ :: r :: after) : r₀.next = some r.row := by
  induction pages generalizing i before with
  | nil => simp [withNext] at h
  | cons row pages ih =>
    rw [withNext] at h
    cases before with
    | nil =>
      rw [List.nil_append, List.cons.injEq] at h
      obtain ⟨rfl, hrest⟩ := h
      cases pages with
      | nil => cases hrest
      | cons next pages =>
        rw [withNext, List.cons.injEq] at hrest
        obtain ⟨rfl, -⟩ := hrest
        rfl
    | cons b before =>
      rw [List.cons_append, List.cons.injEq] at h
      exact ih h.2

/-- **A row with a valid date is never skipped.** -/
theorem not_skip {pages : List (List PdfItem)} {before after : List PageRow}
    (hrows : withNext i pages = before ++ r :: after)
    (hvalid : (normalizeTransactionDate u (assignCells u boundaries r.row .date)).valid = true)
    (hrunning : (run (stepPdfRow u boundaries) .init before).stopped = false) :
    (run (stepPdfRow u boundaries) .init before).skip = false := by
  rcases List.eq_nil_or_concat before with rfl | ⟨before, r₀, rfl⟩
  · rfl
  · rw [List.concat_eq_append, List.append_assoc] at hrows
    rw [List.concat_eq_append, run_append] at hrunning ⊢
    by_contra hskip
    rw [Bool.not_eq_false] at hskip
    obtain ⟨next, hnext, hyear⟩ := isYearRow_of_consumed (consumed_of_skip hskip hrunning)
    obtain rfl := Option.some.inj (hnext.symm.trans (next_of_withNext hrows))
    rw [(isShortNumber_of_isYearRow hyear).not_valid] at hvalid
    cases hvalid

/-! ## The row of a transaction -/

theorem valid_stitchedDate {cells nextCells : ColField → List Char} {pnd : ParsedDate}
    (h : stitchedDate u cells nextCells = some pnd) : pnd.valid = true := by
  simp only [stitchedDate, Option.ite_none_right_eq_some, Option.some.injEq] at h
  obtain ⟨-, hvalid, rfl⟩ := h
  exact (Bool.and_eq_true_iff.mp hvalid).1

/-- A valid date stays one when the year is completed. -/
theorem valid_readPdfRow
    (h : (normalizeTransactionDate u (assignCells u boundaries r.row .date)).valid = true) :
    (readPdfRow u boundaries r).nd.valid = true := by
  simp only [readPdfRow]
  cases hstitched : (r.next.map (assignCells u boundaries)).bind
      (stitchedDate u (assignCells u boundaries r.row)) with
  | none =>
    rw [Option.getD_none]
    exact h
  | some pnd =>
    obtain ⟨cells, -, hpnd⟩ := Option.bind_eq_some_iff.mp hstitched
    rw [Option.getD_some]
    exact valid_stitchedDate hpnd

/-- The sides of a row that states an amount. -/
theorem exists_onSide_of_cellsState (h : CellsState u boundaries r.row a) :
    (readPdfRow u boundaries r).hasAmount = true ∧
      ∃ x, OnSide (finalPdfSides u boundaries (readPdfRow u boundaries r)) x ∧
        F64.abs x = F64.abs a := by
  obtain ⟨x, hx, habs⟩ := exists_onSide_readSides.mpr ⟨a, h, rfl⟩
  have hamount : (readPdfRow u boundaries r).hasAmount = true := hx.isSome
  exact ⟨hamount, (exists_onSide_finalPdfSides hamount).mpr ⟨x, hx, habs⟩⟩

theorem stepPdfRow_of_running (boundaries : List ColBoundary) (hrunning : s.stopped = false)
    (hskip : s.skip = false) (hend : isSectionEnd u r.row = false) :
    ∃ i, stepPdfRow u boundaries s r =
      { s with skip := (readPdfRow u boundaries r).consumed }.takeRow u boundaries
        (readPdfRow u boundaries r) i :=
  ⟨_, by simp only [stepPdfRow, hrunning, hskip, hend]; rfl⟩

/-- **One step on a row with a date and an amount.** -/
theorem stepPdfRow_valued (hskip : s.skip = false)
    (hvalid : (normalizeTransactionDate u (assignCells u boundaries r.row .date)).valid = true)
    (hstates : CellsState u boundaries r.row a) :
    (∃ e, (stepPdfRow u boundaries s r).txns.map essence = s.txns.map essence ++ [e] ∧
      e.1 = (readPdfRow u boundaries r).nd.display ∧
      ∃ x, OnSide e.2.2 x ∧ F64.abs x = F64.abs a) ↔
      Reached u boundaries s r := by
  obtain ⟨hamount, x, hx, habs⟩ := exists_onSide_of_cellsState hstates
  by_cases hstopped : s.stopped = true
  · have hnot : ¬Reached u boundaries s r := fun h => by simp [h.running] at hstopped
    simp [hnot, stepPdfRow, hstopped]
  by_cases hend : isSectionEnd u r.row = true
  · have hnot : ¬Reached u boundaries s r := fun h => by simp [h.noSectionEnd] at hend
    simp [hnot, stepPdfRow, hstopped, hskip, hend]
  rw [Bool.not_eq_true] at hstopped hend
  obtain ⟨i, hstep⟩ := stepPdfRow_of_running boundaries hstopped hskip hend
  rw [hstep, takeRow_valued (valid_readPdfRow hvalid) hamount]
  by_cases hnoise : isNoiseRow u (readPdfRow u boundaries r).narration = true
  · have hnot : ¬Reached u boundaries s r := fun h => by simp [h.noNoise] at hnoise
    simp [hnot, hnoise]
  rw [if_neg hnoise]
  rw [Bool.not_eq_true] at hnoise
  obtain ⟨e, hadded, hsides, hdate⟩ :=
    takeDated_valued (s := { s with skip := (readPdfRow u boundaries r).consumed }) (i := i) hx
  constructor
  · rintro ⟨e', hadded', hdate', -⟩
    have hsame : [e'] = [e] := List.append_cancel_left (hadded'.symm.trans hadded)
    obtain rfl := List.singleton_inj.mp hsame
    exact ⟨hstopped, hend, hnoise, hdate.mp hdate'⟩
  · intro hreached
    exact ⟨e, hadded, hdate.mpr hreached.noOtherDay, x, hsides ▸ hx, habs⟩

end

/-! ## No row is lost -/

/-- **A row with a date and an amount has exactly one transaction, in its place, exactly when the
loop reaches it, takes it for no noise and gives its amount to no other day.** -/
theorem row_kept_iff (u : Unicode) (boundaries : List ColBoundary) (rows : List (List PdfItem))
    (start : ℕ) {before after : List PageRow} {r : PageRow}
    (hrows : pageRows rows start = before ++ r :: after)
    (hvalid : (normalizeTransactionDate u (assignCells u boundaries r.row .date)).valid = true)
    {a : F64} (hstates : CellsState u boundaries r.row a) :
    RowKept u boundaries (run (stepPdfRow u boundaries) .init before)
        (parsePdfRows u boundaries rows start) r a ↔
      Reached u boundaries (run (stepPdfRow u boundaries) .init before) r := by
  have hfinal : parsePdfRows u boundaries rows start = run (stepPdfRow u boundaries)
      (stepPdfRow u boundaries (run (stepPdfRow u boundaries) .init before) r) after := by
    rw [parsePdfRows, hrows, run_append, run_cons]
  constructor
  · rintro ⟨e, rest, hadded, -, hdate, hamount⟩
    have hrunning : (run (stepPdfRow u boundaries) .init before).stopped = false := by
      by_contra hstopped
      rw [Bool.not_eq_false] at hstopped
      rw [stopped_stepPdfRow hstopped] at hadded
      simp at hadded
    exact (stepPdfRow_valued (not_skip hrows hvalid hrunning) hvalid hstates).mp
      ⟨e, hadded, hdate, hamount⟩
  · intro hreached
    obtain ⟨e, hadded, hdate, hamount⟩ :=
      (stepPdfRow_valued (not_skip hrows hvalid hreached.running) hvalid hstates).mpr hreached
    obtain ⟨rest, hrest⟩ : ((stepPdfRow u boundaries
        (run (stepPdfRow u boundaries) .init before) r).txns.map essence) <+:
        (parsePdfRows u boundaries rows start).txns.map essence :=
      hfinal ▸ run_stepPdfRow_prefix
    refine ⟨e, rest, hadded, ?_, hdate, hamount⟩
    rw [← hrest, hadded, List.append_assoc, List.singleton_append]

/-- Columns for a date, a narration and a debit. -/
def threeBoundaries : List ColBoundary :=
  [{ field := .date, xMin := .finite 0, xMax := .finite 100 },
    { field := .narration, xMin := .finite 100, xMax := .finite 300 },
    { field := .debit, xMin := .finite 300, xMax := .infinite false }]

def pageLine (date narration debit : String) : List PdfItem :=
  [{ x := .finite 20, text := date }, { x := .finite 120, text := narration },
    { x := .finite 320, text := debit }]

/-- A header and two debits. -/
def twoLinePage (narration : String) : List (List PdfItem) :=
  [pageLine "Date" "Narration" "Debit", pageLine "05/01/2026" narration "500.00",
    pageLine "06/01/2026" "RENT" "900.00"]

theorem rent_row_kept :
    RowKept .ascii threeBoundaries
      (run (stepPdfRow .ascii threeBoundaries) .init
        [⟨pageLine "05/01/2026" "FUEL" "500.00", some (pageLine "06/01/2026" "RENT" "900.00"), 1⟩])
      (parsePdfRows .ascii threeBoundaries (twoLinePage "FUEL") 1)
      ⟨pageLine "06/01/2026" "RENT" "900.00", none, 2⟩ (.finite 900) := by
  refine (row_kept_iff .ascii threeBoundaries (twoLinePage "FUEL") 1 rfl (by decide +kernel)
    ⟨"900.00".toList, by decide +kernel, by decide +kernel⟩).mpr ?_
  refine ⟨by decide +kernel, by decide +kernel, by decide +kernel, ?_⟩
  have hpending : (run (stepPdfRow .ascii threeBoundaries) .init
      [⟨pageLine "05/01/2026" "FUEL" "500.00",
        some (pageLine "06/01/2026" "RENT" "900.00"), 1⟩]).pending = none := by
    decide +kernel
  rw [hpending]
  rintro p ⟨⟩

/-- Interest on a fixed deposit is taken for the end of the statement. -/
theorem rent_row_lost :
    ¬ ∀ (u : Unicode) (boundaries : List ColBoundary) (rows : List (List PdfItem)) (start : ℕ)
      (before after : List PageRow) (r : PageRow), pageRows rows start = before ++ r :: after →
        (normalizeTransactionDate u (assignCells u boundaries r.row .date)).valid = true →
        ∀ a, a ≠ .finite 0 → CellsState u boundaries r.row a →
          RowKept u boundaries (run (stepPdfRow u boundaries) .init before)
            (parsePdfRows u boundaries rows start) r a := by
  intro hkept
  obtain ⟨e, rest, -, hfinal, -⟩ := hkept .ascii threeBoundaries
    (twoLinePage "INT ON FIXED DEPOSIT A/C 0451") 1
    [⟨pageLine "05/01/2026" "INT ON FIXED DEPOSIT A/C 0451" "500.00",
      some (pageLine "06/01/2026" "RENT" "900.00"), 1⟩] []
    ⟨pageLine "06/01/2026" "RENT" "900.00", none, 2⟩ rfl (by decide +kernel) (.finite 900)
    (by decide) ⟨"900.00".toList, by decide +kernel, by decide +kernel⟩
  have hnone : (parsePdfRows .ascii threeBoundaries
      (twoLinePage "INT ON FIXED DEPOSIT A/C 0451") 1).txns = [] := by
    decide +kernel
  simp [hnone] at hfinal

end Desktop.Parser
