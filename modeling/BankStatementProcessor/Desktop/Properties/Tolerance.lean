import BankStatementProcessor.Desktop.Reconciliation
import BankStatementProcessor.Infra.Rounding

/-!
# The tolerances of a match

Which pairs get a score above 0. The amounts are held against twice the tolerance before
anything else. The days are graded: one day is always near enough, whatever the settings say,
and beyond it twice the configured number is the limit.
-/

namespace Desktop

open Infra Desktop.Parser

/-! ## Amounts -/

section

variable {fl : F64 → F64} {x y p m e : ℚ} {amount amount' pct : F64}

/-- What rounding may add to a tolerance of `p` percent of `m`. -/
def slack (p m : ℚ) : ℚ := m * |2 * p / 100| / 2 ^ 50 + (m + 1) * (8 * F64.halfSmallest)

/-- Twice the tolerance, up to rounding. An infinite amount has no relative difference. -/
def WithinTwice (pct amount amount' : F64) : Prop :=
  match pct, amount, amount' with
  | .finite p, .finite x, .finite y =>
    |(|x| - |y|)| ≤ (|x| ⊔ |y|) * (2 * p / 100) + slack p (|x| ⊔ |y|)
  | .infinite false, .finite _, .finite _ => True
  | _, .infinite _, .finite _ => True
  | _, .finite _, .infinite _ => True
  | _, _, _ => False

/-- What the difference of two amounts is held against, `m` being the larger one. -/
def tolerance (fl : F64 → F64) (m : ℚ) (pct : F64) : F64 :=
  fl ((F64.finite m).mul (fl (pct.divNat 100)))

theorem amountMatch_finite : amountMatch fl (.finite x) (.finite y) pct = true ↔
    (x = 0 ∧ y = 0) ∨ (x ≠ 0 ∧ y ≠ 0 ∧
      (fl (.finite (|x| - |y|))).abs.le (tolerance fl (|x| ⊔ |y|) pct) = true) := by
  have hzero : ∀ q : ℚ, (F64.finite |q|).eqv (.finite 0) = decide (q = 0) := by
    intro q
    by_cases hq : q = 0
    · simp [hq, F64.eqv]
    · simp [hq, F64.eqv]
  rw [amountMatch, F64.abs_finite, F64.abs_finite, hzero, hzero]
  by_cases hx : x = 0 <;> by_cases hy : y = 0 <;>
    simp [hx, hy, tolerance, F64.max_finite]

/-- How large the tolerance may come out, three roundings included. -/
def bound (p m : ℚ) : ℚ :=
  m * (2 * p / 100) + m * |2 * p / 100| * (5 / 2 ^ 53) + (4 * m + 1) * F64.halfSmallest

/-- Twice the percentage as a fraction. -/
theorem hundredth_cases (h : F64.Rounds fl) (p : ℚ) :
    (∃ r, fl ((fl ((F64.finite p).mul (.finite 2))).divNat 100) = .finite r ∧
      r ≤ 2 * p / 100 + |2 * p / 100| * (3 / 2 ^ 53) + 3 * F64.halfSmallest ∧
      |r| ≤ |2 * p / 100| * (1 + 3 / 2 ^ 53) + 3 * F64.halfSmallest) ∨
    (fl ((fl ((F64.finite p).mul (.finite 2))).divNat 100) = .infinite false ∧
      1 ≤ 2 * p / 100) ∨
    fl ((fl ((F64.finite p).mul (.finite 2))).divNat 100) = .infinite true := by
  have hsmall := F64.halfSmallest_pos
  have hone := F64.halfSmallest_le_one
  have hover := F64.le_overflow
  have habs : |2 * p / 100| = |p * 2| / 100 := by
    rw [abs_div, mul_comm, abs_of_pos (show (0 : ℚ) < 100 by norm_num)]
  have hnonneg := abs_nonneg (p * 2)
  have hdiv : ∀ q : ℚ, (F64.finite q).divNat 100 = .finite (q / 100) := fun q => by simp [F64.divNat]
  rw [habs, F64.mul_finite]
  rcases h.finite (p * 2) with ⟨double, hdouble, hclose⟩ | ⟨hlarge, hdouble⟩
  · obtain ⟨hupper, hmagnitude⟩ := hclose.le
    rw [hdouble, hdiv]
    rcases h.finite (double / 100) with ⟨r, hr, hclose'⟩ | ⟨hlarge, hr⟩
    · left
      obtain ⟨hupper', hmagnitude'⟩ := hclose'.le
      rw [abs_div, abs_of_pos (show (0 : ℚ) < 100 by norm_num)] at hupper' hmagnitude'
      refine ⟨r, hr, ?_, ?_⟩ <;> linarith
    · right
      rw [abs_div, abs_of_pos (show (0 : ℚ) < 100 by norm_num)] at hlarge
      by_cases hneg : double / 100 < 0
      · exact Or.inr (by rw [hr, decide_eq_true hneg])
      · refine Or.inl ⟨by rw [hr, decide_eq_false hneg], ?_⟩
        rw [abs_of_nonneg (by linarith)] at hlarge
        rcases le_total 0 (p * 2) with hp | hp
        · rw [abs_of_nonneg hp] at hupper
          linarith
        · rw [abs_of_nonpos hp] at hupper
          linarith
  · right
    rw [hdouble]
    show (fl (.infinite _) = _ ∧ _) ∨ fl (.infinite _) = _
    rw [h.infinite]
    by_cases hneg : p * 2 < 0
    · exact Or.inr (by rw [decide_eq_true hneg])
    · refine Or.inl ⟨by rw [decide_eq_false hneg], ?_⟩
      rw [abs_of_nonneg (not_lt.mp hneg)] at hlarge
      linarith

theorem tolerance_cases (h : F64.Rounds fl) (hm : 0 < m) (hlargest : m ≤ F64.largest) (p : ℚ) :
    (∃ t, tolerance fl m (fl ((F64.finite p).mul (.finite 2))) = .finite t ∧ t ≤ bound p m) ∨
    (tolerance fl m (fl ((F64.finite p).mul (.finite 2))) = .infinite false ∧ m ≤ bound p m) ∨
    tolerance fl m (fl ((F64.finite p).mul (.finite 2))) = .infinite true := by
  have hsmall := F64.halfSmallest_pos
  have hnonneg := abs_nonneg (2 * p / 100)
  have hscaled : 0 ≤ m * |2 * p / 100| := mul_nonneg hm.le hnonneg
  have hrounding : 0 ≤ m * F64.halfSmallest := (mul_pos hm hsmall).le
  have hproduct : ∀ negative, (F64.finite m).mul (.infinite negative) = .infinite negative := by
    intro negative
    simp [F64.mul, F64.isNegative, hm.ne', not_lt.mpr hm.le]
  unfold tolerance bound
  rcases hundredth_cases h p with ⟨r, hr, hupper, hmagnitude⟩ | ⟨hr, hone⟩ | hr
  · have hmupper := mul_le_mul_of_nonneg_left hupper hm.le
    have hmmagnitude := mul_le_mul_of_nonneg_left hmagnitude hm.le
    rw [hr, F64.mul_finite]
    rcases h.finite (m * r) with ⟨t, ht, hclose⟩ | ⟨hlarge, ht⟩
    · left
      have htupper := hclose.le.1
      rw [abs_mul, abs_of_pos hm] at htupper
      refine ⟨t, ht, ?_⟩
      linarith
    · right
      by_cases hneg : m * r < 0
      · exact Or.inr (by rw [ht, decide_eq_true hneg])
      · refine Or.inl ⟨by rw [ht, decide_eq_false hneg], ?_⟩
        -- What overflows is more than the larger amount.
        rw [abs_of_nonneg (not_lt.mp hneg)] at hlarge
        have hmr : m ≤ m * r := hlargest.trans (F64.largest_le_overflow.trans hlarge)
        linarith
  · right
    left
    have hmone := mul_le_mul_of_nonneg_left hone hm.le
    rw [hr, hproduct, h.infinite]
    refine ⟨rfl, ?_⟩
    linarith
  · right
    right
    rw [hr, hproduct, h.infinite]

theorem le_infinite_true {x : F64} : x.abs.le (.infinite true) = false := by
  cases x <;> rfl

theorem abs_abs_sub_abs_le (x y : ℚ) : |(|x| - |y|)| ≤ |x| ⊔ |y| := by
  have hx := abs_nonneg x
  have hy := abs_nonneg y
  rcases le_total |x| |y| with hle | hle
  · rw [max_eq_right hle, abs_of_nonpos (by linarith)]
    linarith
  · rw [max_eq_left hle, abs_of_nonneg (by linarith)]
    linarith

theorem withinTwice_of_match_finite (h : F64.Rounds fl) {p : ℚ}
    (hx : (F64.finite x).IsDouble) (hy : (F64.finite y).IsDouble)
    (hmatch : amountMatch fl (.finite x) (.finite y) (fl ((F64.finite p).mul (.finite 2))) = true) :
    (x = 0 ∧ y = 0) ∨ WithinTwice (.finite p) (.finite x) (.finite y) := by
  rcases amountMatch_finite.mp hmatch with hzero | ⟨hx0, hy0, hle⟩
  · exact Or.inl hzero
  · right
    have hm : 0 < |x| ⊔ |y| := lt_max_of_lt_left (abs_pos.mpr hx0)
    have hlargest : |x| ⊔ |y| ≤ F64.largest := max_le hx.2 hy.2
    have hfar := abs_abs_sub_abs_le x y
    have hsmall := F64.halfSmallest_pos
    have hnonneg := abs_nonneg (2 * p / 100)
    have hscaled := mul_nonneg hm.le hnonneg
    have hrounding := (mul_pos hm hsmall).le
    have hself := mul_le_mul_of_nonneg_left (le_abs_self (2 * p / 100)) hm.le
    show |(|x| - |y|)| ≤ (|x| ⊔ |y|) * (2 * p / 100) + slack p (|x| ⊔ |y|)
    generalize |x| ⊔ |y| = m at *
    -- Within the limit, or the limit is beyond the larger amount.
    have hbound : |(|x| - |y|)| - |(|x| - |y|)| / 2 ^ 53 - F64.halfSmallest ≤ bound p m ∨
        m ≤ bound p m := by
      rcases tolerance_cases h hm hlargest p with ⟨t, ht, hbound⟩ | ⟨-, hbound⟩ | ht
      · rw [ht] at hle
        rcases h.finite (|x| - |y|) with ⟨r, hr, hclose⟩ | ⟨-, hr⟩
        · left
          rw [hr, F64.abs_finite, F64.le_finite] at hle
          have hdistance := abs_sub_abs_le_abs_sub (|x| - |y|) r
          rw [F64.RoundsTo, abs_sub_comm] at hclose
          linarith
        · rw [hr] at hle
          cases hle
      · exact Or.inr hbound
      · rw [ht, le_infinite_true] at hle
        cases hle
    unfold bound at hbound
    unfold slack
    rcases hbound with hbound | hbound <;> linarith

theorem tolerance_infinite (h : F64.Rounds fl) (hm : 0 < m) (negative : Bool) :
    tolerance fl m (fl ((F64.infinite negative).mul (.finite 2))) = .infinite negative := by
  have hdouble : (F64.infinite negative).mul (.finite 2) = .infinite negative := by
    cases negative <;> rfl
  have hproduct : (F64.finite m).mul (.infinite negative) = .infinite negative := by
    simp [F64.mul, F64.isNegative, hm.ne', not_lt.mpr hm.le]
  rw [hdouble, h.infinite, tolerance]
  show fl ((F64.finite m).mul (fl (.infinite negative))) = .infinite negative
  rw [h.infinite, hproduct, h.infinite]

theorem tolerance_nan (h : F64.Rounds fl) : tolerance fl m (fl (F64.nan.mul (.finite 2))) = .nan := by
  have hdouble : F64.nan.mul (.finite 2) = .nan := rfl
  rw [hdouble, h.nan, tolerance]
  show fl ((F64.finite m).mul (fl .nan)) = .nan
  rw [h.nan]
  exact h.nan

theorem le_nan {x : F64} : x.le .nan = false := by
  cases x <;> rfl

/-- Both amounts are nothing, or their difference is held against the tolerance. -/
theorem le_of_amountMatch (hmatch : amountMatch fl amount amount' pct = true) :
    (amount.abs.eqv (.finite 0) = true ∧ amount'.abs.eqv (.finite 0) = true) ∨
    (fl (amount.abs.sub amount'.abs)).abs.le
      (fl ((amount.abs.max amount'.abs).mul (fl (pct.divNat 100)))) = true := by
  unfold amountMatch at hmatch
  simp only at hmatch
  split at hmatch
  · next hzero => exact Or.inl ((Bool.and_eq_true _ _).mp hzero)
  · split at hmatch
    · cases hmatch
    · exact Or.inr hmatch

/-- Two amounts that match are numbers, and one of them at most is infinite. -/
theorem match_numbers (h : F64.Rounds fl) (hmatch : amountMatch fl amount amount' pct = true) :
    (∃ x y, amount = .finite x ∧ amount' = .finite y) ∨
    (∃ negative y, amount = .infinite negative ∧ amount' = .finite y) ∨
    ∃ x negative, amount = .finite x ∧ amount' = .infinite negative := by
  have hnan : ∀ t, amount.abs.sub amount'.abs = .nan →
      ¬ (fl (amount.abs.sub amount'.abs)).abs.le t = true := by
    intro t hsub ht
    rw [hsub, h.nan] at ht
    cases t <;> cases ht
  rcases amount with _ | negative | x
  · rcases le_of_amountMatch hmatch with ⟨hzero, -⟩ | hle
    · cases hzero
    · exact absurd hle (hnan _ rfl)
  · rcases amount' with _ | negative' | y
    · rcases le_of_amountMatch hmatch with ⟨hzero, -⟩ | hle
      · cases hzero
      · exact absurd hle (hnan _ rfl)
    · rcases le_of_amountMatch hmatch with ⟨hzero, -⟩ | hle
      · cases hzero
      · exact absurd hle (hnan _ rfl)
    · exact Or.inr (Or.inl ⟨_, _, rfl, rfl⟩)
  · rcases amount' with _ | negative' | y
    · rcases le_of_amountMatch hmatch with ⟨-, hzero⟩ | hle
      · cases hzero
      · exact absurd hle (hnan _ rfl)
    · exact Or.inr (Or.inr ⟨_, _, rfl, rfl⟩)
    · exact Or.inl ⟨_, _, rfl, rfl⟩

/-- **What matches is within twice the tolerance, up to rounding, or nothing at all.** -/
theorem withinTwice_of_amountMatch (h : F64.Rounds fl) (hamount : amount.IsDouble)
    (hamount' : amount'.IsDouble)
    (hmatch : amountMatch fl amount amount' (fl (pct.mul (.finite 2))) = true) :
    (amount = .finite 0 ∧ amount' = .finite 0) ∨ WithinTwice pct amount amount' := by
  rcases match_numbers h hmatch with ⟨x, y, rfl, rfl⟩ | ⟨negative, y, rfl, rfl⟩ |
    ⟨x, negative, rfl, rfl⟩
  · cases pct with
    | finite p =>
      rcases withinTwice_of_match_finite h hamount hamount' hmatch with ⟨rfl, rfl⟩ | hwithin
      · exact Or.inl ⟨rfl, rfl⟩
      · exact Or.inr hwithin
    | nan =>
      rcases amountMatch_finite.mp hmatch with ⟨rfl, rfl⟩ | ⟨-, -, hle⟩
      · exact Or.inl ⟨rfl, rfl⟩
      · rw [tolerance_nan h, le_nan] at hle
        cases hle
    | infinite negative =>
      rcases amountMatch_finite.mp hmatch with ⟨rfl, rfl⟩ | ⟨hx, -, hle⟩
      · exact Or.inl ⟨rfl, rfl⟩
      · rw [tolerance_infinite h (lt_max_of_lt_left (abs_pos.mpr hx))] at hle
        cases negative with
        | false => exact Or.inr trivial
        | true =>
          rw [le_infinite_true] at hle
          cases hle
  · right
    rcases pct with _ | (_ | _) | _ <;> trivial
  · right
    rcases pct with _ | (_ | _) | _ <;> trivial

theorem eq_of_roundsTo_zero (hx : (F64.finite x).IsDouble) (hy : (F64.finite y).IsDouble)
    (h : F64.RoundsTo (|x| - |y|) 0) : |x| = |y| := by
  have hsmall := F64.halfSmallest_pos
  obtain ⟨⟨n, rfl⟩, -⟩ := hx
  obtain ⟨⟨k, rfl⟩, -⟩ := hy
  have hpos : 0 < 2 * F64.halfSmallest := by linarith
  have habs : ∀ i : ℤ, |i * (2 * F64.halfSmallest)| = |(i : ℚ)| * (2 * F64.halfSmallest) := by
    intro i
    rw [abs_mul, abs_of_pos hpos]
  have hdiff : |(n : ℚ)| * (2 * F64.halfSmallest) - |(k : ℚ)| * (2 * F64.halfSmallest) =
      ((|n| - |k| : ℤ) : ℚ) * (2 * F64.halfSmallest) := by
    push_cast
    ring
  rw [habs, habs] at h ⊢
  rw [F64.RoundsTo, zero_sub, abs_neg, hdiff, habs] at h
  -- A multiple of the smallest double that is below it is none.
  have hlt : |((|n| - |k| : ℤ) : ℚ)| < 1 := by
    by_contra hone
    have hscaled := mul_le_mul_of_nonneg_right (not_lt.mp hone) hpos.le
    linarith
  have hzero : |n| - |k| = 0 := by
    rw [← Int.cast_abs] at hlt
    exact Int.abs_lt_one_iff.mp (by exact_mod_cast hlt)
  rw [hzero, Int.cast_zero, zero_mul] at hdiff
  exact sub_eq_zero.mp hdiff

/-- Under no tolerance at all the amounts are the same. -/
theorem eq_of_amountMatch (h : F64.Rounds fl) (hamount : amount.IsDouble)
    (hamount' : amount'.IsDouble)
    (hmatch : amountMatch fl amount amount' (fl ((F64.finite 0).mul (.finite 2))) = true) :
    amount.abs = amount'.abs := by
  have hkeep : fl (.finite 0) = .finite 0 := by
    have hwhole := h.whole 0 (by norm_num)
    rwa [Int.cast_zero] at hwhole
  have hpct : fl ((F64.finite 0).mul (.finite 2)) = .finite 0 := by
    rw [F64.mul_finite, zero_mul, hkeep]
  have hfraction : fl ((F64.finite 0).divNat 100) = .finite 0 := by
    rw [F64.divNat, zero_div, hkeep]
  -- An infinite amount times no tolerance is no number.
  have hinfinite : (F64.infinite false).mul (.finite 0) = .nan := rfl
  rw [hpct] at hmatch
  rcases match_numbers h hmatch with ⟨x, y, rfl, rfl⟩ | ⟨negative, y, rfl, rfl⟩ |
    ⟨x, negative, rfl, rfl⟩
  · rcases amountMatch_finite.mp hmatch with ⟨rfl, rfl⟩ | ⟨-, -, hle⟩
    · rfl
    · rw [tolerance, hfraction, F64.mul_finite, mul_zero, hkeep] at hle
      rcases h.finite (|x| - |y|) with ⟨r, hr, hclose⟩ | ⟨-, hr⟩
      · rw [hr, F64.abs_finite, F64.le_finite, abs_nonpos_iff] at hle
        rw [hle] at hclose
        rw [F64.abs_finite, F64.abs_finite, eq_of_roundsTo_zero hamount hamount' hclose]
      · rw [hr] at hle
        cases hle
  · rcases le_of_amountMatch hmatch with ⟨hzero, -⟩ | hle
    · cases hzero
    · have hmax : (F64.infinite negative).abs.max (F64.finite y).abs = .infinite false := by
        simp [F64.max, F64.lt, F64.abs]
      rw [hmax, hfraction, hinfinite, h.nan, le_nan] at hle
      cases hle
  · rcases le_of_amountMatch hmatch with ⟨-, hzero⟩ | hle
    · cases hzero
    · have hmax : (F64.finite x).abs.max (F64.infinite negative).abs = .infinite false := by
        simp [F64.max, F64.lt, F64.abs]
      rw [hmax, hfraction, hinfinite, h.nan, le_nan] at hle
      cases hle

end

/-! ## Days -/

section

variable {u : Unicode} {fl : F64 → F64} {bank : BankEntry} {voucher : Voucher} {cfg : ReconConfig}

/-- The days between two days of the years that dates may have. -/
theorem daysDiff_eq_some (h : F64.Rounds fl) {a b : String} {days : F64}
    (hdays : daysDiff u fl a b = some days) :
    ∃ d d' : NaiveDate, normalizeTransactionDate u a.toList = .ok d ∧
      normalizeTransactionDate u b.toList = .ok d' ∧
      days = .finite (|(d.dayNumber : ℤ) - d'.dayNumber| : ℤ) := by
  unfold daysDiff at hdays
  simp only at hdays
  split at hdays
  · cases hdays
  · next hvalid =>
    rw [Bool.or_eq_true, not_or, Bool.not_eq_true, Bool.not_eq_true, Bool.not_eq_false',
      Bool.not_eq_false'] at hvalid
    obtain ⟨d, -, hyear, hd⟩ := isDay_normalizeTransactionDate hvalid.1
    obtain ⟨d', -, hyear', hd'⟩ := isDay_normalizeTransactionDate hvalid.2
    refine ⟨d, d', hd, hd', ?_⟩
    have hnumber := d.dayNumber_le
    have hnumber' := d'.dayNumber_le
    have hmillis : |d.timestampMillis - d'.timestampMillis| =
        |(d.dayNumber : ℤ) - d'.dayNumber| * 86400000 := by
      unfold NaiveDate.timestampMillis
      rw [← sub_mul, abs_mul, sub_sub_sub_cancel_right]
      rfl
    have hfew : |(d.dayNumber : ℤ) - d'.dayNumber| < 2 ^ 22 := by
      rw [abs_lt]
      omega
    have hcast : |((ParsedDate.ok d).ts : ℚ) - (ParsedDate.ok d').ts| =
        ((|(d.dayNumber : ℤ) - d'.dayNumber| * 86400000 : ℤ) : ℚ) := by
      rw [← hmillis]
      push_cast
      rfl
    have hnonneg := abs_nonneg ((d.dayNumber : ℤ) - d'.dayNumber)
    rw [hd, hd', hcast] at hdays
    generalize |(d.dayNumber : ℤ) - d'.dayNumber| = n at hfew hnonneg hdays ⊢
    have hmillisExact : fl (.finite ((n * 86400000 : ℤ) : ℚ)) = .finite ((n * 86400000 : ℤ) : ℚ) :=
      h.whole _ (by rw [abs_of_nonneg (by omega)]; omega)
    have hdaysExact : fl (.finite (n : ℚ)) = .finite (n : ℚ) :=
      h.whole _ (by rw [abs_of_nonneg hnonneg]; omega)
    have hdiv : (F64.finite ((n * 86400000 : ℤ) : ℚ)).divNat 86400000 = .finite n := by
      rw [F64.divNat]
      push_cast
      rw [mul_div_cancel_right₀ _ (by norm_num)]
    rw [hmillisExact, hdiv, hdaysExact] at hdays
    exact (Option.some.inj hdays).symm

/-- The grades of the days end at one day or at twice the configured number. -/
theorem days_le_of_dateScore (h : F64.Rounds fl) {n : ℤ} {score : F64}
    (hcfg : |cfg.dateFuzzyDays| ≤ 2 ^ 31) (hscore : dateScore fl (.finite n) cfg = some score) :
    n ≤ max 1 (2 * cfg.dateFuzzyDays) := by
  have hwrap : Int.bmod (cfg.dateFuzzyDays * 2) (2 ^ 64) = cfg.dateFuzzyDays * 2 := by
    rw [abs_le] at hcfg
    exact Int.bmod_eq_of_le (by omega) (by omega)
  have hlimit : fl (.finite cfg.dateFuzzyDays) = .finite cfg.dateFuzzyDays :=
    h.whole _ (by omega)
  have hdouble : fl (.finite ((cfg.dateFuzzyDays * 2 : ℤ) : ℚ)) =
      .finite ((cfg.dateFuzzyDays * 2 : ℤ) : ℚ) := by
    refine h.whole _ ?_
    rw [abs_mul, abs_two]
    omega
  unfold dateScore at hscore
  rw [hwrap, hlimit, hdouble] at hscore
  split at hscore
  · next hsame =>
    have hzero : n = 0 := by simpa [F64.eqv] using hsame
    omega
  · split at hscore
    · next hone =>
      rw [F64.le_finite] at hone
      have : n ≤ 1 := by exact_mod_cast hone
      omega
    · split at hscore
      · next hdays =>
        rw [F64.le_finite] at hdays
        have : n ≤ cfg.dateFuzzyDays := by exact_mod_cast hdays
        omega
      · split at hscore
        · next hdays =>
          rw [F64.le_finite] at hdays
          have : n ≤ cfg.dateFuzzyDays * 2 := by exact_mod_cast hdays
          omega
        · cases hscore

end

/-! ## The law -/

/-- Two rows that the tolerances allow to match. -/
structure Tolerated (u : Unicode) (cfg : ReconConfig) (bank : BankEntry) (voucher : Voucher) :
    Prop where
  amounts : (bank.amount = .finite 0 ∧ voucher.amount = .finite 0) ∨
    WithinTwice cfg.amountFuzzyPct bank.amount voucher.amount
  sameAmount : cfg.amountFuzzyPct = .finite 0 → bank.amount.abs = voucher.amount.abs
  days : ∃ d d' : NaiveDate, normalizeTransactionDate u bank.date.toList = .ok d ∧
    normalizeTransactionDate u voucher.date.toList = .ok d' ∧
    |(d.dayNumber : ℤ) - d'.dayNumber| ≤ max 1 (2 * cfg.dateFuzzyDays)

theorem abs_dateFuzzyDays_le (fl : F64 → F64) (get : String → String) :
    |(Settings.reconConfig fl get).dateFuzzyDays| ≤ 2 ^ 31 := by
  show |(parseI32 (get "recon_days").toList).getD 3| ≤ 2 ^ 31
  cases hdays : parseI32 (get "recon_days").toList with
  | none => decide
  | some n => exact abs_le_of_parseI32 hdays

/-- A score above 0 has passed the amounts and the days. -/
theorem passed_of_scoreMatch {u : Unicode} {fl : F64 → F64} {bank : BankEntry} {voucher : Voucher}
    {cfg : ReconConfig} (hscore : F64.lt (.finite 0) (scoreMatch u fl bank voucher cfg) = true) :
    amountMatch fl bank.amount voucher.amount (fl (cfg.amountFuzzyPct.mul (.finite 2))) = true ∧
    ∃ days score, daysDiff u fl bank.date voucher.date = some days ∧
      dateScore fl days cfg = some score := by
  unfold scoreMatch at hscore
  split at hscore
  · simp at hscore
  · next hamount =>
    rw [Bool.not_eq_true, Bool.not_eq_false'] at hamount
    refine ⟨hamount, ?_⟩
    cases hdate : (daysDiff u fl bank.date voucher.date).bind (dateScore fl · cfg) with
    | none =>
      rw [hdate] at hscore
      simp at hscore
    | some score =>
      obtain ⟨days, hdays, hgrade⟩ := Option.bind_eq_some_iff.mp hdate
      exact ⟨days, score, hdays, hgrade⟩

/-- **Only tolerated pairs get a score above 0**, whatever texts the two settings hold. -/
theorem tolerated_of_scoreMatch {u : Unicode} {get : String → String} {bank : BankEntry}
    {voucher : Voucher} (hbank : bank.amount.IsDouble) (hvoucher : voucher.amount.IsDouble)
    (hscore : F64.lt (.finite 0)
      (scoreMatch u F64.toDouble bank voucher (Settings.reconConfig F64.toDouble get)) = true) :
    Tolerated u (Settings.reconConfig F64.toDouble get) bank voucher := by
  obtain ⟨hamount, days, score, hdays, hgrade⟩ := passed_of_scoreMatch hscore
  constructor
  · exact withinTwice_of_amountMatch F64.rounds_toDouble hbank hvoucher hamount
  · intro hzero
    rw [hzero] at hamount
    exact eq_of_amountMatch F64.rounds_toDouble hbank hvoucher hamount
  · obtain ⟨d, d', hd, hd', rfl⟩ := daysDiff_eq_some F64.rounds_toDouble hdays
    exact ⟨d, d', hd, hd', days_le_of_dateScore F64.rounds_toDouble
      (abs_dateFuzzyDays_le F64.toDouble get) hgrade⟩

/-- A thousand of the first and of the second of April. -/
def rentPaid : BankEntry := ⟨"01/04/2026", .finite 1000, "RENT PAYMENT", ""⟩
def rentBooked : Voucher := ⟨"02/04/2026", .finite 1000, "RENT PAYMENT", ""⟩

theorem tolerated_next_day :
    Tolerated Unicode.ascii (Settings.reconConfig F64.toDouble fun _ => "1") rentPaid rentBooked :=
  have hdouble : (F64.finite 1000).IsDouble := F64.isDouble_intCast (n := 1000) (by norm_num)
  tolerated_of_scoreMatch hdouble hdouble (by decide +kernel)

/-- The next day matches although no day of difference is allowed. -/
theorem next_day_matches_without_tolerance :
    ¬ ∀ (u : Unicode) (get : String → String) (bank : BankEntry) (voucher : Voucher),
      F64.lt (.finite 0)
        (scoreMatch u F64.toDouble bank voucher (Settings.reconConfig F64.toDouble get)) = true →
      ∃ days, daysDiff u F64.toDouble bank.date voucher.date = some days ∧
        days.le (.finite (2 * (Settings.reconConfig F64.toDouble get).dateFuzzyDays)) = true := by
  intro h
  obtain ⟨days, hdays, hle⟩ := h Unicode.ascii (fun _ => "0") rentPaid rentBooked (by decide +kernel)
  have hday : daysDiff Unicode.ascii F64.toDouble rentPaid.date rentBooked.date =
      some (.finite 1) := by decide +kernel
  rw [hday] at hdays
  cases hdays
  revert hle
  decide +kernel

end Desktop
