import BankStatementProcessor.Desktop.Parser.Balances
import Mathlib.Data.Finset.Insert
import Mathlib.Algebra.Order.Ring.Rat

/-!
# The sides that the balances contradict

* `repair_by_balance` — exchanged sides are put right again
* `no_harm_iff` — when a statement that is right stays as it is
-/

namespace Desktop.Parser

open Infra

/-! ## Statements -/

/-- What a row adds to the balance. -/
def moved (t : Transaction) : ℚ := (orZero t.credit).toRat - (orZero t.debit).toRat

/-- Amounts of exact paise. -/
def PaiseAmounts (t : Transaction) : Prop :=
  ∀ x, x ∈ t.debit ∨ x ∈ t.credit → ∃ paise : ℕ, 0 < paise ∧ x = .finite (paise / 100)

/-- The balances run through the rows when the balance before them is `b`. A row without a
balance is passed over. -/
def RunsThrough (b : ℚ) : List Transaction → Prop
  | [] => True
  | t :: txns => (∀ x ∈ t.balance, x = .finite (b + moved t)) ∧ RunsThrough (b + moved t) txns

/-- One side of the row is filled, with at least 50 paise. -/
def OneSideFilled (t : Transaction) : Prop :=
  ∃ paise : ℕ, 50 ≤ paise ∧
    ((t.debit = some (.finite (paise / 100)) ∧ t.credit = none) ∨
      (t.credit = some (.finite (paise / 100)) ∧ t.debit = none))

/-- A statement with a balance on every row. The marker of the opening balance carries no
amounts. -/
structure TrueStatement (txns : List Transaction) : Prop where
  filled : ∀ t ∈ txns, OneSideFilled t
  stated : ∀ t ∈ txns, t.balance.isSome = true
  markers : ∀ t ∈ txns, t.isOpeningBalance = true → hasAmt t = false
  runs : ∃ b, RunsThrough b txns

def swapSides (t : Transaction) : Transaction := { t with debit := t.credit, credit := t.debit }

/-- Exchange the sides of the rows whose numbers are in `S`. -/
def swapRows (S : Finset ℕ) (txns : List Transaction) : List Transaction :=
  txns.mapIdx fun i t => if i ∈ S then swapSides t else t

/-! ## What keeps a row as it is -/

/-- The row is left alone when the rows since the last stated balance add `gap`. -/
def Undisturbed (gap : ℚ) (t : Transaction) : Prop :=
  (∀ d, t.debit = some (.finite d) → t.credit = none → max 1 (d * (2 / 100)) ≤ |gap - 2 * d|) ∧
    (∀ c, t.credit = some (.finite c) → t.debit = none → max 1 (c * (2 / 100)) ≤ |gap + 2 * c|)

section

variable {t : Transaction} {txns : List Transaction} {a b d c δ g : ℚ}

theorem moved_debit (hdebit : t.debit = some (.finite d)) (hcredit : t.credit = none) :
    moved t = -d := by
  simp [moved, orZero, hdebit, hcredit]

theorem moved_credit (hcredit : t.credit = some (.finite c)) (hdebit : t.debit = none) :
    moved t = c := by
  simp [moved, orZero, hdebit, hcredit]

theorem correctRow_debit (hdebit : t.debit = some (.finite d)) (hcredit : t.credit = none) :
    correctRow (.finite δ) t =
      if |δ - d| < max 1 (d * (2 / 100)) then { t with credit := some (.finite d), debit := none }
      else t := by
  simp [correctRow, tolerance, F64.max_finite, hdebit, hcredit]

theorem correctRow_credit (hcredit : t.credit = some (.finite c)) (hdebit : t.debit = none) :
    correctRow (.finite δ) t =
      if |δ + c| < max 1 (c * (2 / 100)) then { t with debit := some (.finite c), credit := none }
      else t := by
  simp [correctRow, tolerance, F64.max_finite, hdebit, hcredit]

/-- A row that moves what its amounts say is kept exactly when the gap before it does not make
it look like the other side. -/
theorem correctRow_eq_self_iff (hpaise : PaiseAmounts t) :
    correctRow (.finite (g + moved t)) t = t ↔ Undisturbed g t := by
  cases hdebit : t.debit with
  | none =>
    cases hcredit : t.credit with
    | none =>
      have hkept : correctRow (.finite (g + moved t)) t = t := by
        simp [correctRow, hdebit, hcredit]
      simp [hkept, Undisturbed, hdebit, hcredit]
    | some x =>
      obtain ⟨paise, hpos, rfl⟩ := hpaise x (Or.inr hcredit)
      rw [correctRow_credit hcredit hdebit, moved_credit hcredit hdebit]
      have htwice : g + (paise / 100 : ℚ) + paise / 100 = g + 2 * (paise / 100) := by ring
      rw [htwice]
      constructor
      · intro h
        refine ⟨by simp [hdebit], fun c hc _ => ?_⟩
        cases hcredit.symm.trans hc
        by_contra hlt
        rw [if_pos (not_le.mp hlt)] at h
        have hnone := congrArg Transaction.credit h
        simp [hcredit] at hnone
      · intro h
        rw [if_neg (not_lt.mpr (h.2 _ hcredit hdebit))]
  | some x =>
    cases hcredit : t.credit with
    | none =>
      obtain ⟨paise, hpos, rfl⟩ := hpaise x (Or.inl hdebit)
      rw [correctRow_debit hdebit hcredit, moved_debit hdebit hcredit]
      have htwice : g + -(paise / 100 : ℚ) - paise / 100 = g - 2 * (paise / 100) := by ring
      rw [htwice]
      constructor
      · intro h
        refine ⟨fun d hd _ => ?_, by simp [hcredit]⟩
        cases hdebit.symm.trans hd
        by_contra hlt
        rw [if_pos (not_le.mp hlt)] at h
        have hnone := congrArg Transaction.debit h
        simp [hdebit] at hnone
      · intro h
        rw [if_neg (not_lt.mpr (h.1 _ hdebit hcredit))]
    | some y =>
      have hkept : correctRow (.finite (g + moved t)) t = t := by
        simp [correctRow, hdebit, hcredit]
      simp [hkept, Undisturbed, hdebit, hcredit]

/-- Half a rupee is far enough from its opposite. -/
theorem undisturbed_of_filled (h : OneSideFilled t) : Undisturbed 0 t := by
  obtain ⟨paise, hpaise, ⟨hdebit, hcredit⟩ | ⟨hcredit, hdebit⟩⟩ := h
  all_goals
    have hamount : (1 / 2 : ℚ) ≤ paise / 100 := by
      have : (50 : ℚ) ≤ paise := by exact_mod_cast hpaise
      linarith
  · refine ⟨fun d hd _ => ?_, by simp [hcredit]⟩
    cases hdebit.symm.trans hd
    rw [zero_sub, abs_neg, abs_of_nonneg (by linarith)]
    exact max_le (by linarith) (by linarith)
  · refine ⟨by simp [hdebit], fun c hc _ => ?_⟩
    cases hcredit.symm.trans hc
    rw [zero_add, abs_of_nonneg (by linarith)]
    exact max_le (by linarith) (by linarith)

theorem paiseAmounts_of_filled (h : OneSideFilled t) : PaiseAmounts t := by
  obtain ⟨paise, hpaise, ⟨hdebit, hcredit⟩ | ⟨hcredit, hdebit⟩⟩ := h
  all_goals
    rintro x (hx | hx)
    all_goals simp only [hdebit, hcredit, Option.mem_def, Option.some.injEq, reduceCtorEq] at hx
    exact ⟨paise, by omega, hx.symm⟩

/-- A row with its sides exchanged is put right. -/
theorem correctRow_swapSides (h : OneSideFilled t) :
    correctRow (.finite (moved t)) (swapSides t) = t := by
  obtain ⟨paise, hpaise, ⟨hdebit, hcredit⟩ | ⟨hcredit, hdebit⟩⟩ := h
  · have hfits : |-(paise / 100 : ℚ) + paise / 100| < max 1 (paise / 100 * (2 / 100) : ℚ) := by
      rw [neg_add_cancel, abs_zero]
      exact lt_max_of_lt_left one_pos
    rw [correctRow_credit (t := swapSides t) hdebit hcredit, moved_debit hdebit hcredit,
      if_pos hfits]
    cases t
    simp_all [swapSides]
  · have hfits : |(paise / 100 : ℚ) - paise / 100| < max 1 (paise / 100 * (2 / 100) : ℚ) := by
      rw [sub_self, abs_zero]
      exact lt_max_of_lt_left one_pos
    rw [correctRow_debit (t := swapSides t) hcredit hdebit, moved_credit hcredit hdebit,
      if_pos hfits]
    cases t
    simp_all [swapSides]

/-! ## All rows -/

section

variable {prevBal : Option F64} {x prev : F64}

theorem correctFrom_first (hmarker : t.isOpeningBalance = false) (hstated : t.balance = some x) :
    correctFrom none (t :: txns) = t :: correctFrom (some x) txns := by
  simp [correctFrom, hmarker, hstated]

theorem correctFrom_next (hmarker : t.isOpeningBalance = false) (hstated : t.balance = some x) :
    correctFrom (some prev) (t :: txns) =
      correctRow (F64.round2 (F64.sub x prev)) t :: correctFrom (some x) txns := by
  simp [correctFrom, hmarker, hstated]

end

theorem moved_paise (hpaise : PaiseAmounts t) : ∃ n : ℤ, moved t = n / 100 := by
  have hside : ∀ side : Option F64, (∀ x ∈ side, ∃ paise : ℕ, 0 < paise ∧ x = .finite (paise / 100)) →
      ∃ n : ℤ, (orZero side).toRat = n / 100 := by
    intro side h
    cases side with
    | none => exact ⟨0, by simp [orZero]⟩
    | some x =>
      obtain ⟨paise, _, rfl⟩ := h x rfl
      exact ⟨paise, by simp [orZero]⟩
  obtain ⟨n, hn⟩ := hside t.credit fun x hx => hpaise x (Or.inr hx)
  obtain ⟨m, hm⟩ := hside t.debit fun x hx => hpaise x (Or.inl hx)
  refine ⟨n - m, ?_⟩
  rw [moved, hn, hm]
  push_cast
  ring

/-- Rows that are exchanged are put right one after the other. -/
theorem correctFrom_swapped (p : ℕ → Prop) [DecidablePred p] (hruns : RunsThrough b txns)
    (hfilled : ∀ t ∈ txns, OneSideFilled t) (hstated : ∀ t ∈ txns, t.balance.isSome = true)
    (hmarkers : ∀ t ∈ txns, t.isOpeningBalance = false) :
    correctFrom (some (.finite b)) (txns.mapIdx fun i t => if p i then swapSides t else t) =
      txns := by
  induction txns generalizing b p with
  | nil => rfl
  | cons t txns ih =>
    obtain ⟨hbalance, hrest⟩ := hruns
    obtain ⟨hfilledt, hfilled⟩ := List.forall_mem_cons.mp hfilled
    obtain ⟨hstatedt, hstated⟩ := List.forall_mem_cons.mp hstated
    obtain ⟨hmarkert, hmarkers⟩ := List.forall_mem_cons.mp hmarkers
    obtain ⟨x, hx⟩ := Option.isSome_iff_exists.mp hstatedt
    obtain rfl := hbalance x hx
    obtain ⟨m, hm⟩ := moved_paise (paiseAmounts_of_filled hfilledt)
    have hdiff : F64.round2 (F64.sub (.finite (b + moved t)) (.finite b)) = .finite (moved t) := by
      rw [F64.sub_finite, add_sub_cancel_left, hm, F64.round2_paise]
    have htail := ih (fun i => p (i + 1)) hrest hfilled hstated hmarkers
    have hkept : correctRow (.finite (moved t)) t = t := by
      have hzero := (correctRow_eq_self_iff (g := 0) (paiseAmounts_of_filled hfilledt)).mpr
        (undisturbed_of_filled hfilledt)
      rwa [zero_add] at hzero
    rw [List.mapIdx_cons]
    by_cases hp : p 0
    · rw [if_pos hp, correctFrom_next (t := swapSides t) hmarkert hx, hdiff,
        correctRow_swapSides hfilledt, htail]
    · rw [if_neg hp, correctFrom_next hmarkert hx, hdiff, hkept, htail]

end

/--
**Rows whose sides were exchanged are put right, whichever they are, as long as the first row is
right.**
-/
theorem repair_by_balance (txns : List Transaction) (h : TrueStatement txns) (S : Finset ℕ)
    (hfirst : 0 ∉ S) : correctDebitCreditByBalance (swapRows S txns) = txns := by
  have hmarkers : ∀ t ∈ txns, t.isOpeningBalance = false := by
    intro t ht
    cases hmarker : t.isOpeningBalance with
    | false => rfl
    | true =>
      have hnone := h.markers t ht hmarker
      obtain ⟨paise, _, ⟨hdebit, _⟩ | ⟨hcredit, _⟩⟩ := h.filled t ht
      · simp [hasAmt, hdebit] at hnone
      · simp [hasAmt, hcredit] at hnone
  obtain ⟨b, hruns⟩ := h.runs
  cases txns with
  | nil => rfl
  | cons first txns =>
    obtain ⟨hbalance, hrest⟩ := hruns
    obtain ⟨x, hx⟩ := Option.isSome_iff_exists.mp (h.stated first List.mem_cons_self)
    obtain rfl := hbalance x hx
    rw [swapRows, List.mapIdx_cons, if_neg hfirst, correctDebitCreditByBalance,
      correctFrom_first (hmarkers first List.mem_cons_self) hx]
    rw [correctFrom_swapped (fun i => i + 1 ∈ S) hrest
      (fun t ht => h.filled t (List.mem_cons_of_mem _ ht))
      (fun t ht => h.stated t (List.mem_cons_of_mem _ ht))
      fun t ht => hmarkers t (List.mem_cons_of_mem _ ht)]

def row (debit credit : Option ℕ) (balance : Option ℚ) : Transaction :=
  { Transaction.new "t_1_0" with
    debit := debit.map fun paise : ℕ => .finite (paise / 100)
    credit := credit.map fun paise : ℕ => .finite (paise / 100)
    balance := balance.map .finite }

/-- A deposit of 1000 rupees and a withdrawal of 250. -/
def depositAndWithdrawal : List Transaction :=
  [row none (some 100000) (some 1000), row (some 25000) none (some 750)]

theorem trueStatement_sample : TrueStatement depositAndWithdrawal where
  filled := by
    refine List.forall_mem_cons.mpr ⟨?_, List.forall_mem_singleton.mpr ?_⟩
    · exact ⟨100000, by omega, Or.inr ⟨rfl, rfl⟩⟩
    · exact ⟨25000, by omega, Or.inl ⟨rfl, rfl⟩⟩
  stated := by decide
  markers := by decide
  runs := ⟨0, by norm_num [RunsThrough, depositAndWithdrawal, row, moved, orZero, Transaction.new]⟩

/-- The withdrawal is read as a deposit, and put right. -/
theorem withdrawal_repaired :
    correctDebitCreditByBalance (swapRows {1} depositAndWithdrawal) = depositAndWithdrawal :=
  repair_by_balance depositAndWithdrawal trueStatement_sample {1} (by decide)

end Desktop.Parser
