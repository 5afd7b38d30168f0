import BankStatementProcessor.Desktop.ClosingCheck
import BankStatementProcessor.Infra.Rounding

/-!
# The closing balance is checked in whole rupees

The balance that is expected is rounded to a rupee before the stated one is compared with it. A
statement that ends on 50 paise never agrees with its own transactions.
-/

namespace Desktop

open Infra Desktop.Export

/-! ## Exact sums -/

/-- The amounts on one side of the statement. -/
def amounts (side : Transaction → Option F64) (txns : List Transaction) : List ℚ :=
  ((real txns).filterMap side).map F64.toRat

/-- The opening balance, with the credits and without the debits. -/
def expected (txns : List Transaction) (ob : ℚ) : ℚ :=
  ob + (amounts Transaction.credit txns).sum - (amounts Transaction.debit txns).sum

/-- A result that is a double is not rounded. -/
def Unrounded (fl : F64 → F64) (q : ℚ) : Prop := fl (.finite q) = .finite q

/-- The amounts are numbers, and so is every sum of them that the check needs. -/
structure ExactSums (fl : F64 → F64) (txns : List Transaction) (ob c : ℚ) : Prop where
  finite : ∀ t ∈ real txns, ∀ a, t.debit = some a ∨ t.credit = some a → a.isFinite = true
  debits : ∀ l, l <+: amounts Transaction.debit txns → Unrounded fl l.sum
  credits : ∀ l, l <+: amounts Transaction.credit txns → Unrounded fl l.sum
  received : Unrounded fl (ob + (amounts Transaction.credit txns).sum)
  expected : Unrounded fl (expected txns ob)
  difference : Unrounded fl (c - F64.roundRat (Desktop.expected txns ob))
  difference_neg : Unrounded fl (F64.roundRat (Desktop.expected txns ob) - c)

section

variable {fl : F64 → F64} {txns : List Transaction} {ob c : ℚ}

theorem foldl_exact {l : List F64} (s : ℚ) (hfinite : ∀ a ∈ l, a.isFinite = true)
    (hexact : ∀ p, p <+: l.map F64.toRat → Unrounded fl (s + p.sum)) :
    l.foldl (fun s a => fl (s.add a)) (.finite s) = .finite (s + (l.map F64.toRat).sum) := by
  induction l generalizing s with
  | nil => simp
  | cons a l ih =>
    obtain ⟨ha, hl⟩ := List.forall_mem_cons.mp hfinite
    obtain ⟨q, rfl⟩ : ∃ q, a = .finite q := by
      cases a with
      | finite q => exact ⟨q, rfl⟩
      | nan => cases ha
      | infinite negative => cases ha
    have hfirst : Unrounded fl (s + q) := by
      have := hexact [q] ⟨l.map F64.toRat, rfl⟩
      rwa [List.sum_singleton] at this
    have hrest : ∀ p, p <+: l.map F64.toRat → Unrounded fl (s + q + p.sum) := by
      intro p hp
      have := hexact (q :: p) (List.cons_prefix_cons.mpr ⟨rfl, hp⟩)
      rwa [List.sum_cons, ← add_assoc] at this
    rw [List.foldl_cons, F64.add_finite, hfirst, ih (s + q) hl hrest, List.map_cons,
      List.sum_cons, F64.toRat_finite, add_assoc]

theorem sumF64_exact {side : Transaction → Option F64}
    (hfinite : ∀ t ∈ real txns, ∀ a, side t = some a → a.isFinite = true)
    (hexact : ∀ l, l <+: amounts side txns → Unrounded fl l.sum) :
    sumF64 fl ((real txns).filterMap side) = .finite (amounts side txns).sum := by
  have hlist : ∀ a ∈ (real txns).filterMap side, a.isFinite = true := by
    intro a ha
    obtain ⟨t, ht, hside⟩ := List.mem_filterMap.mp ha
    exact hfinite t ht a hside
  have hsum := foldl_exact 0 hlist fun p hp => by
    rw [zero_add]
    exact hexact p hp
  rwa [zero_add] at hsum

theorem expectedClosing_exact (h : ExactSums fl txns ob c) :
    expectedClosing fl txns (.finite ob) = .finite (expected txns ob) := by
  have hdebits : totalDr fl txns = .finite (amounts Transaction.debit txns).sum :=
    sumF64_exact (fun t ht a ha => h.finite t ht a (Or.inl ha)) h.debits
  have hcredits : totalCr fl txns = .finite (amounts Transaction.credit txns).sum :=
    sumF64_exact (fun t ht a ha => h.finite t ht a (Or.inr ha)) h.credits
  rw [expectedClosing, hdebits, hcredits, F64.add_finite, h.received, F64.sub_finite]
  exact h.expected

/-! ## What is reported -/

theorem divNat_one (q : ℚ) : (F64.finite q).divNat 1 = .finite q := by
  rw [F64.divNat, Nat.cast_one, div_one]

theorem diffAmt_exact (h : ExactSums fl txns ob c) :
    (closingCheck fl txns (some (.finite ob)) (some (.finite c))).diffAmt =
      some (.finite |c - F64.roundRat (expected txns ob)|) := by
  have hdiff := h.difference
  rw [Unrounded] at hdiff
  simp only [closingCheck, Option.map_some, expectedClosing_exact h, F64.round, divNat_one,
    F64.sub_finite, hdiff, F64.abs_finite]

theorem hasMismatch_exact (h : ExactSums fl txns ob c) :
    (closingCheck fl txns (some (.finite ob)) (some (.finite c))).hasMismatch = false ↔
      |c - F64.roundRat (expected txns ob)| < 1 / 2 := by
  have hdiff := h.difference
  rw [Unrounded] at hdiff
  simp only [closingCheck, Option.map_some, expectedClosing_exact h, F64.round, divNat_one,
    F64.sub_finite, hdiff, F64.abs_finite]
  rw [← not_iff_not, Bool.not_eq_false, F64.le_finite, not_lt]

theorem reconXlsx_exact (h : ExactSums fl txns ob c) :
    reconXlsx fl txns (some (.finite ob)) (some (.finite c)) = "RECONCILED" ↔
      |c - F64.roundRat (expected txns ob)| < 1 / 2 := by
  have hdiff := h.difference_neg
  rw [Unrounded] at hdiff
  simp only [reconXlsx, Option.map_some, expectedClosing_exact h, F64.round, F64.sub_finite, hdiff,
    F64.abs_finite, F64.lt_finite]
  rw [abs_sub_comm]
  split
  · next hlt => exact iff_of_true rfl hlt
  · next hge => exact iff_of_false (by decide) hge

theorem reconCsv_exact (h : ExactSums fl txns ob c) :
    reconCsv fl txns (some (.finite ob)) (some (.finite c)) = "RECONCILED" ↔
      |c - F64.roundRat (expected txns ob)| < 1 / 2 := by
  have hdiff := h.difference_neg
  rw [Unrounded] at hdiff
  simp only [reconCsv, Option.map_some, expectedClosing_exact h, F64.round, divNat_one,
    F64.sub_finite, hdiff, F64.abs_finite, F64.lt_finite]
  rw [abs_sub_comm]
  split
  · next hlt => exact iff_of_true rfl hlt
  · next hge =>
    refine iff_of_false (fun heq => ?_) hge
    have hfirst := congrArg (fun s => s.toList.head?) heq
    simp at hfirst

end

/-! ## When the check is exact -/

/-- The check agrees with the exact sums, and the exports with the check. -/
structure ChecksExactly (fl : F64 → F64) (txns : List Transaction) (ob c : ℚ) : Prop where
  agrees : c = expected txns ob →
    (closingCheck fl txns (some (.finite ob)) (some (.finite c))).hasMismatch = false
  difference : (closingCheck fl txns (some (.finite ob)) (some (.finite c))).diffAmt =
    some (.finite |c - expected txns ob|)
  csv : reconCsv fl txns (some (.finite ob)) (some (.finite c)) = "RECONCILED" ↔
    (closingCheck fl txns (some (.finite ob)) (some (.finite c))).hasMismatch = false
  xlsx : reconXlsx fl txns (some (.finite ob)) (some (.finite c)) = "RECONCILED" ↔
    (closingCheck fl txns (some (.finite ob)) (some (.finite c))).hasMismatch = false

/--
**The check is exact exactly when the expected balance is a whole number of rupees, or the stated
one lies in the middle between it and its rupee.** The exports always say what the screen says.
-/
theorem checksExactly_iff (fl : F64 → F64) (txns : List Transaction) (ob c : ℚ)
    (h : ExactSums fl txns ob c) :
    ChecksExactly fl txns ob c ↔
      (∃ n : ℤ, expected txns ob = n) ∨
        2 * c = expected txns ob + F64.roundRat (expected txns ob) := by
  have hwhole : (∃ n : ℤ, expected txns ob = n) ↔
      (F64.roundRat (expected txns ob) : ℚ) = expected txns ob := by
    constructor
    · rintro ⟨n, hn⟩
      rw [hn, F64.roundRat_intCast]
    · intro hround
      exact ⟨_, hround.symm⟩
  have hexports := And.intro ((reconCsv_exact h).trans (hasMismatch_exact h).symm)
    ((reconXlsx_exact h).trans (hasMismatch_exact h).symm)
  rw [hwhole]
  constructor
  · intro hcheck
    have hdiff := hcheck.difference
    rw [diffAmt_exact h, Option.some.injEq, F64.finite.injEq, abs_eq_abs] at hdiff
    rcases hdiff with hdiff | hdiff
    · exact Or.inl (sub_right_injective hdiff)
    · right
      linarith
  · intro hcase
    refine ⟨fun hc => ?_, ?_, hexports.1, hexports.2⟩
    · rw [hasMismatch_exact h]
      have hround : (F64.roundRat (expected txns ob) : ℚ) = expected txns ob := by
        rcases hcase with hcase | hcase
        · exact hcase
        · linarith
      rw [hround, hc, sub_self, abs_zero]
      norm_num
    · rw [diffAmt_exact h, Option.some.injEq, F64.finite.injEq, abs_eq_abs]
      rcases hcase with hcase | hcase
      · left
        rw [hcase]
      · right
        linarith

/-! ## Samples -/

/-- A receipt of 250 rupees and a payment of 100. -/
def receiptAndPayment : List Transaction :=
  [{ Transaction.new "t_1_0" with credit := some (.finite 250) },
    { Transaction.new "t_1_1" with debit := some (.finite 100) }]

theorem unrounded_whole {n : ℤ} (h : |n| < 2 ^ 53) : Unrounded F64.toDouble n :=
  F64.rounds_toDouble.whole n h

theorem unrounded_half {n : ℤ} (h : |n| < 2 ^ 53) : Unrounded F64.toDouble (n / 2) := by
  have hexact := F64.toDouble_dyadic (k := 1) h (by norm_num)
  rwa [pow_one] at hexact

theorem unrounded_sum_single {n : ℤ} (h : |n| < 2 ^ 53) {l : List ℚ} (hl : l <+: [(n : ℚ)]) :
    Unrounded F64.toDouble l.sum := by
  rcases List.prefix_cons_iff.mp hl with rfl | ⟨t, rfl, ht⟩
  · rfl
  · obtain rfl := List.prefix_nil.mp ht
    rw [List.sum_singleton]
    exact unrounded_whole h

theorem exactSums_receiptAndPayment : ExactSums F64.toDouble receiptAndPayment 1000 1150 := by
  have hdebits : amounts Transaction.debit receiptAndPayment = [((100 : ℤ) : ℚ)] := rfl
  have hcredits : amounts Transaction.credit receiptAndPayment = [((250 : ℤ) : ℚ)] := rfl
  have hexpected : expected receiptAndPayment 1000 = (1150 : ℤ) := by
    rw [expected, hdebits, hcredits]
    norm_num
  have hround : (F64.roundRat (expected receiptAndPayment 1000) : ℚ) = 1150 := by
    rw [hexpected, F64.roundRat_intCast, Int.cast_ofNat]
  constructor
  · intro t ht a ha
    rcases List.mem_pair.mp ht with rfl | rfl <;> rcases ha with ha | ha <;> cases ha <;> rfl
  · rw [hdebits]
    exact fun l => unrounded_sum_single (by norm_num)
  · rw [hcredits]
    exact fun l => unrounded_sum_single (by norm_num)
  · have hreceived : (1000 : ℚ) + (amounts Transaction.credit receiptAndPayment).sum =
        (1250 : ℤ) := by
      rw [hcredits]
      norm_num
    rw [hreceived]
    exact unrounded_whole (by norm_num)
  · rw [hexpected]
    exact unrounded_whole (by norm_num)
  · rw [hround, sub_self]
    rfl
  · rw [hround, sub_self]
    rfl

theorem checksExactly_receiptAndPayment :
    ExactSums F64.toDouble receiptAndPayment 1000 1150 ∧
      (ChecksExactly F64.toDouble receiptAndPayment 1000 1150 ↔
        (∃ n : ℤ, expected receiptAndPayment 1000 = n) ∨
          2 * 1150 = expected receiptAndPayment 1000 +
            F64.roundRat (expected receiptAndPayment 1000)) :=
  ⟨exactSums_receiptAndPayment,
    checksExactly_iff F64.toDouble receiptAndPayment 1000 1150 exactSums_receiptAndPayment⟩

theorem exactSums_fiftyPaise : ExactSums F64.toDouble [] (201 / 2) (201 / 2) := by
  have hexpected : expected [] (201 / 2) = ((201 : ℤ) : ℚ) / 2 := by
    rw [expected]
    norm_num [amounts, real]
  have hround : (F64.roundRat (expected [] (201 / 2)) : ℚ) = 101 := by
    rw [hexpected]
    norm_num [F64.roundRat]
  have hempty : ∀ l, l <+: ([] : List ℚ) → Unrounded F64.toDouble l.sum := by
    intro l hl
    obtain rfl := List.prefix_nil.mp hl
    rfl
  refine ⟨fun t ht => absurd ht List.not_mem_nil, hempty, hempty, ?_, ?_, ?_, ?_⟩
  · have hreceived : 201 / 2 + (amounts Transaction.credit []).sum = ((201 : ℤ) : ℚ) / 2 := by
      norm_num [amounts, real]
    rw [hreceived]
    exact unrounded_half (by norm_num)
  · rw [hexpected]
    exact unrounded_half (by norm_num)
  · have hdiff : (201 / 2 - 101 : ℚ) = (-1 : ℤ) / 2 := by norm_num
    rw [hround, hdiff]
    exact unrounded_half (by norm_num)
  · have hdiff : (101 - 201 / 2 : ℚ) = (1 : ℤ) / 2 := by norm_num
    rw [hround, hdiff]
    exact unrounded_half (by norm_num)

/-- The statement has no transaction, and opens and closes at 100.50. -/
theorem fifty_paise_never_agree :
    ExactSums F64.toDouble [] (201 / 2) (201 / 2) ∧ (201 / 2 : ℚ) = expected [] (201 / 2) ∧
      (closingCheck F64.toDouble [] (some (.finite (201 / 2)))
        (some (.finite (201 / 2)))).hasMismatch = true ∧
      ¬ChecksExactly F64.toDouble [] (201 / 2) (201 / 2) := by
  have hexpected : (201 / 2 : ℚ) = expected [] (201 / 2) := by
    rw [expected]
    norm_num [amounts, real]
  have hround : (F64.roundRat (expected [] (201 / 2)) : ℚ) = 101 := by
    rw [← hexpected]
    norm_num [F64.roundRat]
  have hmismatch : (closingCheck F64.toDouble [] (some (.finite (201 / 2)))
      (some (.finite (201 / 2)))).hasMismatch = true := by
    rw [← Bool.not_eq_false, hasMismatch_exact exactSums_fiftyPaise, hround]
    norm_num [abs_of_neg]
  refine ⟨exactSums_fiftyPaise, hexpected, hmismatch, fun hcheck => ?_⟩
  rw [hcheck.agrees hexpected] at hmismatch
  cases hmismatch

end Desktop
