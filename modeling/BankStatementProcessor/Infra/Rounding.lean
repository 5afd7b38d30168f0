import BankStatementProcessor.Infra.Display
import Mathlib.Algebra.Order.Field.Power
import Mathlib.Tactic.FieldSimp
import Mathlib.Tactic.Positivity

/-!
# Rounding to a double

`toDouble` takes the exact result of an operation to the double that the operation gives, the
nearest one. `Rounds` is what of it an error analysis needs: how far the rounded result may be
from the exact one, when it overflows, and that a whole number of less than 53 bits is kept.
-/

namespace Infra

namespace F64

/-- Half of the smallest double above 0, the largest one, and what is halfway beyond it. -/
def halfSmallest : ℚ := 1 / 2 ^ 1075
def largest : ℚ := 2 ^ 1024 - 2 ^ 971
def overflow : ℚ := 2 ^ 1024 - 2 ^ 970

/-- A finite double is a multiple of the smallest one and at most the largest one. -/
def IsDouble : F64 → Prop
  | finite q => (∃ n : ℤ, q = n * (2 * halfSmallest)) ∧ |q| ≤ largest
  | _ => True

/-- The double nearest to an exact result. -/
def toDouble : F64 → F64
  | finite q =>
    if q = 0 then finite 0
    else if 2 ^ 1024 ≤ nearest |q| then infinite (q < 0)
    else finite (if q < 0 then -nearest |q| else nearest |q|)
  | x => x

/-- How far a rounded result is from the exact one, at most. -/
def RoundsTo (q r : ℚ) : Prop := |r - q| ≤ |q| / 2 ^ 53 + halfSmallest

structure Rounds (fl : F64 → F64) : Prop where
  nan : fl .nan = .nan
  infinite : ∀ negative, fl (.infinite negative) = .infinite negative
  finite : ∀ q, (∃ r, fl (.finite q) = .finite r ∧ RoundsTo q r) ∨
    (overflow ≤ |q| ∧ fl (.finite q) = .infinite (q < 0))
  whole : ∀ n : ℤ, |n| < 2 ^ 53 → fl (.finite n) = .finite n

theorem halfSmallest_pos : 0 < halfSmallest := by
  unfold halfSmallest
  positivity

theorem halfSmallest_le_one : halfSmallest ≤ 1 :=
  div_le_one_of_le₀ (one_le_pow₀ one_le_two) (by positivity)

theorem largest_le_overflow : largest ≤ overflow :=
  sub_le_sub_left (pow_le_pow_right₀ one_le_two (by norm_num)) _

theorem le_overflow : 2 ^ 53 ≤ overflow := by
  have hhalf : (2 : ℚ) ^ 1023 + 2 ^ 1023 = 2 ^ 1024 := by rw [← two_mul, ← pow_succ']
  have hlow : (2 : ℚ) ^ 970 ≤ 2 ^ 1023 := pow_le_pow_right₀ one_le_two (by norm_num)
  have hhigh : (2 : ℚ) ^ 53 ≤ 2 ^ 1023 := pow_le_pow_right₀ one_le_two (by norm_num)
  rw [overflow, ← hhalf, le_sub_iff_add_le]
  exact add_le_add hhigh hlow

theorem isDouble_intCast {n : ℤ} (h : |n| ≤ 2 ^ 53) : IsDouble (finite n) := by
  have hunit : 2 ^ 1074 * (2 * halfSmallest) = 1 := by
    rw [halfSmallest, ← mul_assoc, ← pow_succ]
    exact mul_one_div_cancel (by positivity)
  constructor
  · refine ⟨n * 2 ^ 1074, ?_⟩
    rw [Int.cast_mul, Int.cast_pow, Int.cast_ofNat, mul_assoc, hunit, mul_one]
  · have hsum : (2 : ℚ) ^ 1023 + 2 ^ 1023 = 2 ^ 1024 := by rw [← two_mul, ← pow_succ']
    have hlow : (2 : ℚ) ^ 971 ≤ 2 ^ 1023 := pow_le_pow_right₀ one_le_two (by norm_num)
    have hhigh : (2 : ℚ) ^ 53 ≤ 2 ^ 1023 := pow_le_pow_right₀ one_le_two (by norm_num)
    have hn : |(n : ℚ)| ≤ 2 ^ 53 := by exact_mod_cast h
    rw [largest, ← hsum, le_sub_iff_add_le]
    exact add_le_add (hn.trans hhigh) hlow

theorem RoundsTo.le {q r : ℚ} (h : RoundsTo q r) :
    r ≤ q + |q| / 2 ^ 53 + halfSmallest ∧ |r| ≤ |q| + |q| / 2 ^ 53 + halfSmallest := by
  have hupper := (abs_le.mp h).2
  have habs := abs_sub_abs_le_abs_sub r q
  rw [RoundsTo] at h
  constructor <;> linarith

/-! ## The nearest double -/

section

variable {q : ℚ}

theorem scale_two (q : ℚ) (e : ℤ) : scale q 2 e = q * 2 ^ e := by
  unfold scale
  split
  · next h =>
    obtain ⟨n, rfl⟩ := Int.eq_ofNat_of_zero_le h
    simp
  · next h =>
    obtain ⟨n, rfl⟩ : ∃ n : ℕ, e = -n := ⟨(-e).toNat, by omega⟩
    simp [div_eq_mul_inv]

theorem abs_roundTiesEven_sub_le (q : ℚ) : |(roundTiesEven q : ℚ) - q| ≤ 1 / 2 := by
  have hfloor : (⌊q⌋ : ℚ) ≤ q := Int.floor_le q
  have hceil : q < ⌊q⌋ + 1 := Int.lt_floor_add_one q
  rw [abs_le]
  unfold roundTiesEven
  simp only
  split
  · next hlow => constructor <;> linarith
  · split
    · push_cast
      constructor <;> linarith
    · split
      · constructor <;> linarith
      · push_cast
        constructor <;> linarith

theorem roundTiesEven_intCast (n : ℤ) : roundTiesEven n = n := by
  unfold roundTiesEven
  rw [Int.floor_intCast, if_pos (by norm_num)]

/-- The place of the last of 53 bits. -/
def lastBit (q : ℚ) : ℤ :=
  let top : ℤ := (Nat.log2 q.num.natAbs : ℤ) - Nat.log2 q.den
  if scale q 2 (52 - top) < (2 ^ 52 : ℕ) then top - 53 else top - 52

/-- A fraction lies around the power of two that its logarithms give. -/
theorem zpow_lt_div_and_lt {n d : ℕ} (hn : n ≠ 0) (hd : d ≠ 0) :
    (2 : ℚ) ^ ((Nat.log2 n : ℤ) - Nat.log2 d - 1) < (n : ℚ) / d ∧
      (n : ℚ) / d < 2 ^ ((Nat.log2 n : ℤ) - Nat.log2 d + 1) := by
  have hnlow : (2 : ℚ) ^ (Nat.log2 n) ≤ n := by exact_mod_cast Nat.log2_self_le hn
  have hnhigh : (n : ℚ) < 2 ^ (Nat.log2 n + 1) := by exact_mod_cast Nat.lt_log2_self
  have hdlow : (2 : ℚ) ^ (Nat.log2 d) ≤ d := by exact_mod_cast Nat.log2_self_le hd
  have hdhigh : (d : ℚ) < 2 ^ (Nat.log2 d + 1) := by exact_mod_cast Nat.lt_log2_self
  have hden : (0 : ℚ) < d := by exact_mod_cast Nat.pos_of_ne_zero hd
  have hnpos : (0 : ℚ) < 2 ^ (Nat.log2 n) := by positivity
  have hdpos : (0 : ℚ) < 2 ^ (Nat.log2 d) := by positivity
  constructor
  · rw [zpow_sub₀ two_ne_zero, zpow_sub₀ two_ne_zero, zpow_natCast, zpow_natCast, zpow_one,
      div_div, ← pow_succ, div_lt_div_iff₀ (by positivity) hden]
    calc (2 : ℚ) ^ (Nat.log2 n) * d
        < 2 ^ (Nat.log2 n) * 2 ^ (Nat.log2 d + 1) := mul_lt_mul_of_pos_left hdhigh hnpos
      _ ≤ n * 2 ^ (Nat.log2 d + 1) := mul_le_mul_of_nonneg_right hnlow (by positivity)
  · rw [zpow_add₀ two_ne_zero, zpow_sub₀ two_ne_zero, zpow_natCast, zpow_natCast, zpow_one,
      div_mul_eq_mul_div, ← pow_succ, div_lt_div_iff₀ hden hdpos]
    calc (n : ℚ) * 2 ^ (Nat.log2 d)
        < 2 ^ (Nat.log2 n + 1) * 2 ^ (Nat.log2 d) := mul_lt_mul_of_pos_right hnhigh hdpos
      _ ≤ 2 ^ (Nat.log2 n + 1) * d := mul_le_mul_of_nonneg_left hdlow (by positivity)

theorem natAbs_num_div_den (h : 0 < q) : (q.num.natAbs : ℚ) / q.den = q := by
  have hnum : 0 < q.num := Rat.num_pos.mpr h
  have hcast : ((q.num.natAbs : ℤ) : ℚ) = q.num := by rw [Int.natAbs_of_nonneg hnum.le]
  rw [← Int.cast_natCast q.num.natAbs, hcast, Rat.num_div_den]

/-- A number has 53 bits down to its last one. -/
theorem lastBit_bounds (h : 0 < q) :
    (2 : ℚ) ^ 52 * 2 ^ lastBit q ≤ q ∧ q < 2 ^ 53 * 2 ^ lastBit q := by
  have hnum : q.num.natAbs ≠ 0 := by
    have : 0 < q.num := Rat.num_pos.mpr h
    omega
  obtain ⟨hlow, hhigh⟩ := zpow_lt_div_and_lt hnum q.den_nz
  rw [natAbs_num_div_den h] at hlow hhigh
  unfold lastBit
  generalize (Nat.log2 q.num.natAbs : ℤ) - Nat.log2 q.den = top at hlow hhigh ⊢
  have hcut : scale q 2 (52 - top) < (2 ^ 52 : ℕ) ↔ q < 2 ^ top := by
    have hbits : ((2 ^ 52 : ℕ) : ℚ) = 2 ^ (52 : ℤ) := by norm_cast
    rw [scale_two, zpow_sub₀ two_ne_zero, ← mul_div_assoc, div_lt_iff₀ (by positivity), hbits,
      mul_comm]
    exact mul_lt_mul_iff_right₀ (by positivity)
  have hplace : ∀ k : ℕ, ∀ e : ℤ, (2 : ℚ) ^ k * 2 ^ (top + e) = 2 ^ (top + (e + k)) := by
    intro k e
    rw [← zpow_natCast, ← zpow_add₀ two_ne_zero]
    congr 1
    omega
  simp only [hcut]
  split
  · next hlt =>
    rw [sub_eq_add_neg top 53, hplace, hplace]
    norm_num
    exact ⟨by rw [← sub_eq_add_neg]; exact hlow.le, hlt⟩
  · next hge =>
    rw [sub_eq_add_neg top 52, hplace, hplace]
    norm_num
    exact ⟨not_lt.mp hge, hhigh⟩

theorem nearest_eq (q : ℚ) :
    nearest q = roundTiesEven (q * 2 ^ (-Max.max (lastBit q) (-1074))) *
      2 ^ Max.max (lastBit q) (-1074) := by
  rw [← scale_two, ← scale_two]
  rfl

theorem abs_nearest_sub_le (q : ℚ) :
    |nearest q - q| ≤ 2 ^ Max.max (lastBit q) (-1074) / 2 := by
  rw [nearest_eq]
  generalize Max.max (lastBit q) (-1074) = e
  have hpos : (0 : ℚ) < 2 ^ e := by positivity
  have hscale : (roundTiesEven (q * 2 ^ (-e)) : ℚ) * 2 ^ e - q =
      (roundTiesEven (q * 2 ^ (-e)) - q * 2 ^ (-e)) * 2 ^ e := by
    rw [sub_mul, mul_assoc q, ← zpow_add₀ two_ne_zero, neg_add_cancel, zpow_zero, mul_one]
  rw [hscale, abs_mul, abs_of_pos hpos]
  have hround := abs_roundTiesEven_sub_le (q * 2 ^ (-e))
  nlinarith

theorem roundsTo_nearest (h : 0 < q) : RoundsTo q (nearest q) := by
  have herror := abs_nearest_sub_le q
  have hsmall : 0 < halfSmallest := halfSmallest_pos
  rw [RoundsTo, abs_of_pos h]
  rcases le_total (lastBit q) (-1074) with hle | hle
  · rw [max_eq_right hle] at herror
    have hplace : (2 : ℚ) ^ (-1074 : ℤ) / 2 = halfSmallest := by
      rw [halfSmallest, pow_succ, ← div_div, one_div, ← zpow_natCast, ← zpow_neg]
      rfl
    rw [hplace] at herror
    have : 0 < q / 2 ^ 53 := by positivity
    linarith
  · rw [max_eq_left hle] at herror
    have hlow := (lastBit_bounds h).1
    have hbits : (2 : ℚ) ^ lastBit q / 2 ≤ q / 2 ^ 53 := by
      rw [div_le_div_iff₀ two_pos (by positivity)]
      calc (2 : ℚ) ^ lastBit q * 2 ^ 53 = 2 ^ 52 * 2 ^ lastBit q * 2 := by ring
        _ ≤ q * 2 := mul_le_mul_of_nonneg_right hlow two_pos.le
    linarith

/-- Only what is halfway beyond the largest double, or more, overflows. -/
theorem le_of_overflow (h : 0 < q) (hover : 2 ^ 1024 ≤ nearest q) : overflow ≤ q := by
  have hpower : (0 : ℚ) < 2 ^ 970 := by positivity
  by_cases hlarge : (2 : ℚ) ^ 1024 ≤ q
  · exact (sub_le_self _ hpower.le).trans hlarge
  · have hbit : lastBit q ≤ 971 := by
      have hlow := (lastBit_bounds h).1.trans_lt (not_le.mp hlarge)
      have hexp : (2 : ℚ) ^ (52 + lastBit q) < 2 ^ (1024 : ℤ) := by
        rw [zpow_add₀ two_ne_zero]
        exact_mod_cast hlow
      have := (zpow_lt_zpow_iff_right₀ one_lt_two).mp hexp
      omega
    have hplace : (2 : ℚ) ^ Max.max (lastBit q) (-1074) ≤ 2 ^ (971 : ℤ) :=
      zpow_le_zpow_right₀ one_le_two (by omega)
    have hhalf : (2 : ℚ) ^ (971 : ℤ) / 2 = 2 ^ 970 := by
      have hsucc : (2 : ℚ) ^ (971 : ℤ) = 2 ^ 970 * 2 := by rw [← pow_succ]; rfl
      rw [hsucc, mul_div_cancel_right₀ _ two_ne_zero]
    have herror := (abs_le.mp (abs_nearest_sub_le q)).2
    have hfar : nearest q ≤ q + 2 ^ 970 := by
      rw [← hhalf]
      linarith
    exact sub_le_iff_le_add.mpr (hover.trans hfar)

theorem floor_le_roundTiesEven (q : ℚ) : ⌊q⌋ ≤ roundTiesEven q := by
  unfold roundTiesEven
  simp only
  split
  · rfl
  · split
    · omega
    · split <;> omega

theorem roundTiesEven_of_le_half (hnonneg : 0 ≤ q) (h : q ≤ 1 / 2) :
    roundTiesEven q = 0 := by
  have hfloor : ⌊q⌋ = 0 := Int.floor_eq_zero_iff.mpr ⟨hnonneg, by linarith⟩
  unfold roundTiesEven
  simp only [hfloor, Int.cast_zero, sub_zero]
  split
  · rfl
  · rw [if_neg (not_lt.mpr h), if_pos (by norm_num)]

/-- What is at most half of the smallest double is rounded to zero. -/
theorem nearest_of_le_halfSmallest (hpos : 0 < q) (h : q ≤ halfSmallest) :
    nearest q = 0 := by
  have hsmall : halfSmallest = 2 ^ (-1075 : ℤ) := by
    rw [halfSmallest, one_div, ← zpow_natCast, ← zpow_neg]
    rfl
  have hbit : lastBit q ≤ -1074 := by
    have hlow := (lastBit_bounds hpos).1.trans h
    have hexp : (2 : ℚ) ^ (52 + lastBit q) ≤ 2 ^ (-1075 : ℤ) := by
      rw [zpow_add₀ two_ne_zero, ← hsmall]
      exact_mod_cast hlow
    have := (zpow_le_zpow_iff_right₀ one_lt_two).mp hexp
    omega
  have hhalf : q * 2 ^ (-(-1074 : ℤ)) ≤ 1 / 2 := by
    calc q * 2 ^ (-(-1074 : ℤ)) ≤ 2 ^ (-1075 : ℤ) * 2 ^ (-(-1074 : ℤ)) :=
          mul_le_mul_of_nonneg_right (h.trans_eq hsmall) (by positivity)
      _ = 2 ^ (-1 : ℤ) := by rw [← zpow_add₀ two_ne_zero]; rfl
      _ = 1 / 2 := by norm_num
  rw [nearest_eq, max_eq_right hbit, roundTiesEven_of_le_half (by positivity) hhalf,
    Int.cast_zero, zero_mul]

/-- What is halfway beyond the largest double, or more, overflows. -/
theorem overflow_of_le (h : overflow ≤ q) : 2 ^ 1024 ≤ nearest q := by
  have hpos : 0 < q := (lt_of_lt_of_le (by positivity) le_overflow).trans_le h
  obtain ⟨hlow, hhigh⟩ := lastBit_bounds hpos
  rw [overflow] at h
  have hbit : 971 ≤ lastBit q := by
    have hfar : (2 : ℚ) ^ (1023 : ℤ) < 2 ^ (53 + lastBit q) := by
      have hsplit : (2 : ℚ) ^ 1024 - 2 ^ 970 = 2 ^ (1023 : ℤ) + (2 ^ 53 - 1) * 2 ^ 970 := by
        have hdouble : (2 : ℚ) ^ (1023 : ℤ) = 2 ^ 53 * 2 ^ 970 := by rw [← pow_add]; rfl
        have htop : (2 : ℚ) ^ 1024 = 2 * (2 ^ 53 * 2 ^ 970) := by rw [← pow_add, ← pow_succ']
        rw [hdouble, htop]
        ring
      have hmore : (0 : ℚ) < (2 ^ 53 - 1) * 2 ^ 970 := by
        have : (0 : ℚ) < 2 ^ 970 := by positivity
        exact mul_pos (by norm_num) this
      rw [zpow_add₀ two_ne_zero]
      calc (2 : ℚ) ^ (1023 : ℤ) < 2 ^ 1024 - 2 ^ 970 := by rw [hsplit]; exact lt_add_of_pos_right _ hmore
        _ ≤ q := h
        _ < 2 ^ (53 : ℤ) * 2 ^ lastBit q := by exact_mod_cast hhigh
    have := (zpow_lt_zpow_iff_right₀ one_lt_two).mp hfar
    omega
  have hplace : Max.max (lastBit q) (-1074) = lastBit q := max_eq_left (by omega)
  rw [nearest_eq, hplace]
  generalize lastBit q = e at hlow hhigh hbit ⊢
  have hpow : (0 : ℚ) < 2 ^ e := by positivity
  have hscale : q * 2 ^ (-e) = q / 2 ^ e := by rw [zpow_neg, div_eq_mul_inv]
  rw [hscale]
  rcases hbit.eq_or_lt with rfl | hbit
  · -- the last bit of the largest double: from half a bit below the next power on
    have hge : ((2 ^ 53 : ℤ) : ℚ) ≤ roundTiesEven (q / 2 ^ (971 : ℤ)) := by
      have hhalf : (2 : ℚ) ^ 53 - 1 / 2 ≤ q / 2 ^ (971 : ℤ) := by
        rw [le_div_iff₀ hpow]
        have hsplit : (2 : ℚ) ^ (971 : ℤ) = 2 * 2 ^ 970 := by rw [← pow_succ']; rfl
        have htop : (2 : ℚ) ^ 1024 = 2 ^ 53 * (2 * 2 ^ 970) := by rw [← pow_succ', ← pow_add]
        rw [hsplit]
        rw [htop] at h
        linarith
      generalize q / 2 ^ (971 : ℤ) = x at hhalf
      have hfloor : 2 ^ 53 - 1 ≤ ⌊x⌋ := by
        rw [Int.le_floor]
        push_cast
        linarith
      exact_mod_cast (by
        rcases hfloor.eq_or_lt with heq | hlt
        · unfold roundTiesEven
          have hfrac : 1 / 2 ≤ x - ⌊x⌋ := by
            rw [← heq]
            push_cast
            linarith
          simp only
          rw [if_neg (not_lt.mpr hfrac)]
          split
          · omega
          · rw [if_neg (by omega)]
            omega
        · exact le_trans (by omega) (floor_le_roundTiesEven x) : (2 ^ 53 : ℤ) ≤ roundTiesEven x)
    have htop : (2 : ℚ) ^ 1024 = ((2 ^ 53 : ℤ) : ℚ) * 2 ^ (971 : ℤ) := by
      rw [Int.cast_pow, Int.cast_ofNat, ← zpow_natCast, ← zpow_natCast, ← zpow_add₀ two_ne_zero]
      rfl
    rw [htop]
    exact mul_le_mul_of_nonneg_right hge hpow.le
  · have hge : ((2 ^ 52 : ℤ) : ℚ) ≤ roundTiesEven (q / 2 ^ e) := by
      have hfloor : 2 ^ 52 ≤ ⌊q / 2 ^ e⌋ := by
        rw [Int.le_floor, le_div_iff₀ hpow]
        push_cast
        exact hlow
      exact_mod_cast hfloor.trans (floor_le_roundTiesEven _)
    calc (2 : ℚ) ^ 1024 = 2 ^ (1024 : ℤ) := rfl
      _ ≤ 2 ^ (52 + e) := zpow_le_zpow_right₀ one_le_two (by omega)
      _ = ((2 ^ 52 : ℤ) : ℚ) * 2 ^ e := by rw [zpow_add₀ two_ne_zero]; push_cast; rfl
      _ ≤ _ := mul_le_mul_of_nonneg_right hge hpow.le

/-- A number of less than 53 bits is kept, with some of its bits after the point. -/
theorem nearest_dyadic {n k : ℕ} (hpos : 0 < n) (hlt : n < 2 ^ 53) (hk : k ≤ 1074) :
    nearest ((n : ℚ) / 2 ^ k) = n / 2 ^ k := by
  have hq : (0 : ℚ) < n / 2 ^ k := by
    have : (0 : ℚ) < n := by exact_mod_cast hpos
    positivity
  have hbit : lastBit ((n : ℚ) / 2 ^ k) ≤ -k := by
    have hlow := (lastBit_bounds hq).1
    rw [le_div_iff₀ (by positivity)] at hlow
    have hexp : (2 : ℚ) ^ (52 + lastBit ((n : ℚ) / 2 ^ k) + k) < 2 ^ (53 : ℤ) := by
      rw [zpow_add₀ two_ne_zero, zpow_add₀ two_ne_zero, zpow_natCast]
      refine lt_of_le_of_lt (by exact_mod_cast hlow) ?_
      exact_mod_cast hlt
    have := (zpow_lt_zpow_iff_right₀ one_lt_two).mp hexp
    omega
  rw [nearest_eq]
  obtain ⟨j, hj⟩ : ∃ j : ℕ, Max.max (lastBit ((n : ℚ) / 2 ^ k)) (-1074) = -(j + k : ℕ) :=
    ⟨(-Max.max (lastBit ((n : ℚ) / 2 ^ k)) (-1074)).toNat - k, by omega⟩
  have hwhole : (n : ℚ) / 2 ^ k * 2 ^ (- -((j + k : ℕ) : ℤ)) = ((n * 2 ^ j : ℤ) : ℚ) := by
    rw [neg_neg, zpow_natCast, pow_add, mul_comm ((2 : ℚ) ^ j), ← mul_assoc,
      div_mul_cancel₀ _ (by positivity)]
    push_cast
    rfl
  rw [hj, hwhole, roundTiesEven_intCast, ← hwhole, mul_assoc, ← zpow_add₀ two_ne_zero,
    neg_add_cancel, zpow_zero, mul_one]

end

/-! ## Rounding an exact result -/

theorem toDouble_dyadic {n : ℤ} {k : ℕ} (hn : |n| < 2 ^ 53) (hk : k ≤ 1074) :
    toDouble (.finite (n / 2 ^ k)) = .finite (n / 2 ^ k) := by
  by_cases hzero : n = 0
  · rw [hzero, Int.cast_zero, zero_div]
    rfl
  · have habs : |(n : ℚ) / 2 ^ k| = (n.natAbs : ℚ) / 2 ^ k := by
      rw [abs_div, abs_of_pos (show (0 : ℚ) < 2 ^ k by positivity), ← Int.cast_abs,
        Int.abs_eq_natAbs, Int.cast_natCast]
    have hnear : nearest |(n : ℚ) / 2 ^ k| = |(n : ℚ) / 2 ^ k| := by
      rw [habs]
      rw [Int.abs_eq_natAbs] at hn
      exact nearest_dyadic (by omega) (by omega) hk
    have hsmall : ¬ (2 : ℚ) ^ 1024 ≤ |(n : ℚ) / 2 ^ k| := by
      have hle : |(n : ℚ) / 2 ^ k| ≤ |(n : ℚ)| := by
        rw [abs_div, abs_of_pos (show (0 : ℚ) < 2 ^ k by positivity)]
        exact div_le_self (abs_nonneg _) (one_le_pow₀ one_le_two)
      have hlt : |(n : ℚ)| < 2 ^ 53 := by exact_mod_cast hn
      exact not_le.mpr ((hle.trans_lt hlt).trans_le (pow_le_pow_right₀ one_le_two (by norm_num)))
    have hq : (n : ℚ) / 2 ^ k ≠ 0 := div_ne_zero (by exact_mod_cast hzero) (by positivity)
    rw [toDouble, if_neg hq, hnear, if_neg hsmall]
    split
    · next hneg => rw [abs_of_neg hneg, neg_neg]
    · next hnonneg => rw [abs_of_nonneg (not_lt.mp hnonneg)]

theorem rounds_toDouble : Rounds toDouble where
  nan := rfl
  infinite := fun _ => rfl
  finite := by
    intro q
    by_cases hzero : q = 0
    · left
      refine ⟨0, if_pos hzero, ?_⟩
      rw [RoundsTo, hzero, sub_zero, abs_zero, zero_div, zero_add]
      exact halfSmallest_pos.le
    · have hpos : 0 < |q| := abs_pos.mpr hzero
      have hdef : toDouble (.finite q) = if 2 ^ 1024 ≤ nearest |q| then .infinite (q < 0)
          else .finite (if q < 0 then -nearest |q| else nearest |q|) := if_neg hzero
      rw [hdef]
      by_cases hover : 2 ^ 1024 ≤ nearest |q|
      · right
        exact ⟨le_of_overflow hpos hover, if_pos hover⟩
      · left
        refine ⟨_, if_neg hover, ?_⟩
        have hclose := roundsTo_nearest hpos
        rw [RoundsTo, abs_abs] at hclose
        split
        · next hneg =>
          rw [abs_of_neg hneg] at hclose ⊢
          rwa [RoundsTo, abs_of_neg hneg, abs_sub_comm, sub_neg_eq_add, add_comm, ← sub_neg_eq_add]
        · next hnonneg =>
          rw [abs_of_nonneg (not_lt.mp hnonneg)] at hclose ⊢
          rwa [RoundsTo, abs_of_nonneg (not_lt.mp hnonneg)]
  whole := by
    intro n hn
    have hkept := toDouble_dyadic (k := 0) hn (by norm_num)
    rwa [pow_zero, div_one] at hkept

/-- To read a number and round it is to round it. -/
theorem toDouble_ofRat (q : ℚ) : toDouble (ofRat q) = toDouble (finite q) := by
  unfold ofRat
  split
  · next hsmall =>
    by_cases hq : q = 0
    · rw [hq]
    · have hzero := nearest_of_le_halfSmallest (abs_pos.mpr hq) hsmall
      simp only [toDouble, if_neg hq, hzero]
      rw [if_neg (not_le.mpr (pow_pos two_pos 1024))]
      simp
  · split
    · next hlarge =>
      have hq : q ≠ 0 := by
        rintro rfl
        rw [abs_zero] at hlarge
        exact absurd (hlarge.trans_lt' (lt_of_lt_of_le (by positivity) le_overflow)) (lt_irrefl _)
      simp only [toDouble, if_neg hq, if_pos (overflow_of_le hlarge)]
    · rfl

end F64

end Infra
