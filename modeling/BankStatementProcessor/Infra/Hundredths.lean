import BankStatementProcessor.Infra.Rounding

/-!
# Hundredths

A number of hundredths is no double. `hundredths` is the double next to it, and what an operation
on such doubles gives is near to what it gives on the exact numbers. Rounding to two decimals gives
the double again.
-/

namespace Infra

namespace F64

section

variable {fl : F64 → F64} {x y : F64} {q q' e e' b : ℚ}

/-- The double next to `n` hundredths. -/
def hundredths (fl : F64 → F64) (n : ℤ) : F64 := fl (.finite (n / 100))

/-- A finite number that is at most `e` away from `q`. -/
def IsNear (x : F64) (q e : ℚ) : Prop := ∃ r, x = .finite r ∧ |r - q| ≤ e

theorem IsNear.mono (h : IsNear x q e) (he : e ≤ e') : IsNear x q e' := by
  obtain ⟨r, hr, hclose⟩ := h
  exact ⟨r, hr, hclose.trans he⟩

theorem halfSmallest_le : halfSmallest ≤ 1 / 2 ^ 53 :=
  one_div_le_one_div_of_le (by positivity) (pow_le_pow_right₀ one_le_two (by norm_num))

/-- Below a bound an operation is off by no more than the last bit of the bound. -/
theorem Rounds.isNear (h : Rounds fl) (hq : |q| ≤ b) (hone : 1 ≤ b) (hb : b ≤ 2 ^ 40) :
    IsNear (fl (.finite q)) q (b / 2 ^ 52) := by
  have hsmall := halfSmallest_le
  rcases h.finite q with ⟨r, hr, hclose⟩ | ⟨hover, -⟩
  · refine ⟨r, hr, hclose.trans ?_⟩
    have hbits : (2 : ℚ) ^ 52 * 2 = 2 ^ 53 := by norm_num
    rw [← hbits] at hsmall ⊢
    have hhalf : b / 2 ^ 52 = b / (2 ^ 52 * 2) + b / (2 ^ 52 * 2) := by ring
    rw [hhalf]
    refine add_le_add ?_ (hsmall.trans ?_)
    · exact div_le_div_of_nonneg_right hq (by positivity)
    · exact div_le_div_of_nonneg_right hone (by positivity)
  · have hlarge : (2 : ℚ) ^ 40 < 2 ^ 53 := by norm_num
    linarith [le_overflow]

theorem Rounds.isNear_of (h : Rounds fl) {r : ℚ} (hr : |r - q| ≤ e) (hq : |q| + e ≤ b)
    (hone : 1 ≤ b) (hb : b ≤ 2 ^ 40) : IsNear (fl (.finite r)) q (e + b / 2 ^ 52) := by
  have habs := abs_sub_abs_le_abs_sub r q
  obtain ⟨r', hr', hclose⟩ := h.isNear (q := r) (b := b) (by linarith) hone hb
  refine ⟨r', hr', ?_⟩
  have htriangle := abs_sub_le r' r q
  linarith

theorem IsNear.sub (h : Rounds fl) (hx : IsNear x q e) (hy : IsNear y q' e')
    (hq : |q - q'| + (e + e') ≤ b) (hone : 1 ≤ b) (hb : b ≤ 2 ^ 40) :
    IsNear (fl (F64.sub x y)) (q - q') (e + e' + b / 2 ^ 52) := by
  obtain ⟨r, rfl, hr⟩ := hx
  obtain ⟨r', rfl, hr'⟩ := hy
  rw [sub_finite]
  refine h.isNear_of ?_ hq hone hb
  have hsplit : r - r' - (q - q') = (r - q) - (r' - q') := by ring
  rw [hsplit]
  exact (abs_sub _ _).trans (add_le_add hr hr')

theorem IsNear.add (h : Rounds fl) (hx : IsNear x q e) (hy : IsNear y q' e')
    (hq : |q + q'| + (e + e') ≤ b) (hone : 1 ≤ b) (hb : b ≤ 2 ^ 40) :
    IsNear (fl (F64.add x y)) (q + q') (e + e' + b / 2 ^ 52) := by
  obtain ⟨r, rfl, hr⟩ := hx
  obtain ⟨r', rfl, hr'⟩ := hy
  rw [add_finite]
  refine h.isNear_of ?_ hq hone hb
  have hsplit : r + r' - (q + q') = (r - q) + (r' - q') := by ring
  rw [hsplit]
  exact (abs_add_le _ _).trans (add_le_add hr hr')

theorem IsNear.abs (hx : IsNear x q e) : IsNear (F64.abs x) |q| e := by
  obtain ⟨r, rfl, hr⟩ := hx
  exact ⟨|r|, abs_finite, (abs_abs_sub_abs_le_abs_sub r q).trans hr⟩

/-- What is far apart is told apart. -/
theorem IsNear.lt_of (hx : IsNear x q e) (hy : IsNear y q' e') (h : q + e + e' < q') :
    lt x y = true := by
  obtain ⟨r, rfl, hr⟩ := hx
  obtain ⟨r', rfl, hr'⟩ := hy
  rw [lt_finite]
  have hupper := (abs_le.mp hr).2
  have hlower := (abs_le.mp hr').1
  linarith

theorem IsNear.not_lt_of (hx : IsNear x q e) (hy : IsNear y q' e') (h : q' + e' + e ≤ q) :
    lt x y = false := by
  obtain ⟨r, rfl, hr⟩ := hx
  obtain ⟨r', rfl, hr'⟩ := hy
  refine eq_false_of_ne_true fun hlt => ?_
  rw [lt_finite] at hlt
  have hupper := (abs_le.mp hr).1
  have hlower := (abs_le.mp hr').2
  linarith

theorem isNear_zero : IsNear (.finite 0) 0 0 := ⟨0, rfl, by simp⟩

/-! ## Rounding to two decimals -/

theorem roundRat_eq {n : ℤ} (h : |q - n| < 1 / 2) : roundRat q = n := by
  obtain ⟨hlow, hhigh⟩ := abs_lt.mp h
  unfold roundRat
  split
  · have hfloor : ⌊-q + 1 / 2⌋ = -n := by
      rw [Int.floor_eq_iff]
      push_cast
      constructor <;> linarith
    rw [hfloor, neg_neg]
  · rw [Int.floor_eq_iff]
    constructor <;> linarith

/-- Up to ten thousand millions of hundredths. -/
theorem Rounds.hundredths_isNear (h : Rounds fl) {n : ℤ} (hn : |n| ≤ 10 ^ 10) :
    IsNear (hundredths fl n) (n / 100) (1 / 10 ^ 7) := by
  have hcast : |(n : ℚ)| ≤ 10 ^ 10 := by exact_mod_cast hn
  have hbound : |(n : ℚ) / 100| ≤ 10 ^ 8 := by
    rw [abs_div, abs_of_pos (show (0 : ℚ) < 100 by norm_num), div_le_iff₀ (by norm_num)]
    norm_num at hcast ⊢
    exact hcast
  exact (h.isNear hbound (by norm_num) (by norm_num)).mono (by norm_num)

/-- Different hundredths have different doubles. -/
theorem Rounds.hundredths_inj (h : Rounds fl) {n m : ℤ} (hn : |n| ≤ 10 ^ 10) (hm : |m| ≤ 10 ^ 10)
    (heq : hundredths fl n = hundredths fl m) : n = m := by
  obtain ⟨r, hr, hclose⟩ := h.hundredths_isNear hn
  obtain ⟨r', hr', hclose'⟩ := h.hundredths_isNear hm
  rw [hr, hr', finite.injEq] at heq
  subst heq
  obtain ⟨hlow, hhigh⟩ := abs_le.mp hclose
  obtain ⟨hlow', hhigh'⟩ := abs_le.mp hclose'
  have hlt : (n : ℚ) < m + 1 := by linarith
  have hlt' : (m : ℚ) < n + 1 := by linarith
  have hint : n < m + 1 := by exact_mod_cast hlt
  have hint' : m < n + 1 := by exact_mod_cast hlt'
  omega

/-- The double of hundredths is rounded to itself. -/
theorem Rounds.round_hundredths (h : Rounds fl) {n : ℤ} (hn : |n| ≤ 10 ^ 10) :
    fl ((round (fl ((hundredths fl n).mul (.finite 100)))).divNat 100) = hundredths fl n := by
  obtain ⟨r, hr, hclose⟩ := h.hundredths_isNear hn
  have hcast : |(n : ℚ)| ≤ 10 ^ 10 := by exact_mod_cast hn
  have hnear : IsNear (fl (.finite (r * 100))) n (1 / 10 ^ 5 + (10 ^ 10 + 1) / 2 ^ 52) := by
    refine h.isNear_of ?_ (by linarith) (by norm_num) (by norm_num)
    have hsplit : r * 100 - n = (r - n / 100) * 100 := by ring
    rw [hsplit, abs_mul, abs_of_pos (show (0 : ℚ) < 100 by norm_num)]
    linarith
  obtain ⟨r', hr', hclose'⟩ := hnear
  have hround : roundRat r' = n := roundRat_eq (hclose'.trans_lt (by norm_num))
  rw [hr, mul_finite, hr']
  show fl (F64.divNat (.finite (roundRat r')) 100) = _
  rw [hround, ← hr]
  rfl

end

end F64

end Infra
