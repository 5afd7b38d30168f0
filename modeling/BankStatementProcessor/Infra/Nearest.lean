import BankStatementProcessor.Infra.DisplayText

/-!
# Rounding keeps the order

The nearest double grows with the number, and a number of 53 bits is its own. So a rounded
result stays between two doubles that the exact one is between.
-/

namespace Infra

namespace F64

variable {q q' low high : ℚ}

/-- A number of 53 bits above the last place. -/
def HasBits (q : ℚ) : Prop := ∃ n e : ℤ, |n| < 2 ^ 53 ∧ -1074 ≤ e ∧ q = n * 2 ^ e

theorem roundTiesEven_mono (h : q ≤ q') : roundTiesEven q ≤ roundTiesEven q' := by
  have hfloor : ⌊q⌋ ≤ ⌊q'⌋ := Int.floor_le_floor h
  have hupper : roundTiesEven q ≤ ⌊q⌋ + 1 := by
    unfold roundTiesEven
    simp only
    split
    · omega
    · split
      · omega
      · split <;> omega
  have hlower : ⌊q'⌋ ≤ roundTiesEven q' := by
    unfold roundTiesEven
    simp only
    split
    · omega
    · split
      · omega
      · split <;> omega
  rcases hfloor.lt_or_eq with hlt | heq
  · omega
  · have hhigh : ∀ p : ℚ, ⌊p⌋ = ⌊q⌋ → 1 / 2 < p - ⌊q⌋ → roundTiesEven p = ⌊q⌋ + 1 := by
      intro p hp hlt
      unfold roundTiesEven
      simp only [hp]
      rw [if_neg (not_lt.mpr hlt.le), if_pos hlt]
    rcases lt_trichotomy (q - ⌊q⌋) (1 / 2) with hlow | htie | hlt
    · have : roundTiesEven q = ⌊q⌋ := if_pos hlow
      omega
    · rcases (show 1 / 2 ≤ q' - ⌊q⌋ by linarith).lt_or_eq with hlt' | htie'
      · rw [hhigh q' heq.symm hlt']
        exact hupper
      · have : q = q' := by linarith
        rw [this]
    · rw [hhigh q rfl hlt, hhigh q' heq.symm (by linarith)]

/-! ## The last place -/

theorem lastBit_mono (hq : 0 < q) (h : q ≤ q') : lastBit q ≤ lastBit q' := by
  have hlow := (lastBit_bounds hq).1
  have hhigh := (lastBit_bounds (hq.trans_le h)).2
  have hlt : (2 : ℚ) ^ (52 + lastBit q) < 2 ^ (53 + lastBit q') := by
    rw [zpow_add₀ two_ne_zero, zpow_add₀ two_ne_zero]
    exact hlow.trans_lt (h.trans_lt hhigh)
  have := (zpow_lt_zpow_iff_right₀ one_lt_two).mp hlt
  omega

/-- The number in units of its last place. -/
theorem scaled_lt (hq : 0 < q) : q * 2 ^ (-Max.max (lastBit q) (-1074)) < 2 ^ 53 := by
  have hhigh := (lastBit_bounds hq).2
  have hpos : (0 : ℚ) < 2 ^ Max.max (lastBit q) (-1074) := by positivity
  have hle : (2 : ℚ) ^ lastBit q ≤ 2 ^ Max.max (lastBit q) (-1074) :=
    zpow_le_zpow_right₀ one_le_two (le_max_left _ _)
  rw [zpow_neg, ← div_eq_mul_inv, div_lt_iff₀ hpos]
  exact hhigh.trans_le (mul_le_mul_of_nonneg_left hle (by positivity))

theorem nearest_mono (hq : 0 < q) (h : q ≤ q') : nearest q ≤ nearest q' := by
  have hplace : Max.max (lastBit q) (-1074) ≤ Max.max (lastBit q') (-1074) :=
    max_le_max_right _ (lastBit_mono hq h)
  have hscaled := (scaled_lt hq).le
  rw [nearest_eq, nearest_eq]
  rcases hplace.lt_or_eq with hlt | heq
  · -- The larger number has all its bits, and they begin above those of the smaller one.
    have hlast : Max.max (lastBit q') (-1074) = lastBit q' := max_eq_left (by omega)
    have hq' := hq.trans_le h
    rw [hlast] at hlt ⊢
    generalize Max.max (lastBit q) (-1074) = e at hscaled hlt ⊢
    have hupper : roundTiesEven (q * 2 ^ (-e)) ≤ 2 ^ 53 := by
      have hbits : q * 2 ^ (-e) ≤ ((2 ^ 53 : ℤ) : ℚ) := by exact_mod_cast hscaled
      have := roundTiesEven_mono hbits
      rwa [roundTiesEven_intCast] at this
    have hlower : 2 ^ 52 ≤ roundTiesEven (q' * 2 ^ (-lastBit q')) := by
      have hbits : ((2 ^ 52 : ℤ) : ℚ) ≤ q' * 2 ^ (-lastBit q') := by
        have hpos : (0 : ℚ) < 2 ^ lastBit q' := by positivity
        rw [zpow_neg, ← div_eq_mul_inv, le_div_iff₀ hpos]
        exact_mod_cast (lastBit_bounds hq').1
      have := roundTiesEven_mono hbits
      rwa [roundTiesEven_intCast] at this
    have hupper' : (roundTiesEven (q * 2 ^ (-e)) : ℚ) ≤ 2 ^ 53 := by exact_mod_cast hupper
    have hlower' : (2 : ℚ) ^ 52 ≤ roundTiesEven (q' * 2 ^ (-lastBit q')) := by
      exact_mod_cast hlower
    have hnext : (2 : ℚ) ^ (e + 1) ≤ 2 ^ lastBit q' :=
      zpow_le_zpow_right₀ one_le_two (by omega)
    calc (roundTiesEven (q * 2 ^ (-e)) : ℚ) * 2 ^ e
        ≤ 2 ^ 53 * 2 ^ e := mul_le_mul_of_nonneg_right hupper' (by positivity)
      _ = 2 ^ 52 * 2 ^ (e + 1) := by
        rw [zpow_add₀ two_ne_zero]
        ring
      _ ≤ 2 ^ 52 * 2 ^ lastBit q' := mul_le_mul_of_nonneg_left hnext (by positivity)
      _ ≤ roundTiesEven (q' * 2 ^ (-lastBit q')) * 2 ^ lastBit q' :=
        mul_le_mul_of_nonneg_right hlower' (by positivity)
  · rw [heq]
    have hle : q * 2 ^ (-Max.max (lastBit q') (-1074)) ≤
        q' * 2 ^ (-Max.max (lastBit q') (-1074)) :=
      mul_le_mul_of_nonneg_right h (by positivity)
    have hround : (roundTiesEven (q * 2 ^ (-Max.max (lastBit q') (-1074))) : ℚ) ≤
        roundTiesEven (q' * 2 ^ (-Max.max (lastBit q') (-1074))) := by
      exact_mod_cast roundTiesEven_mono hle
    exact mul_le_mul_of_nonneg_right hround (by positivity)

theorem HasBits.nearest_eq_self (h : HasBits q) (hq : 0 < q) : nearest q = q := by
  obtain ⟨n, k, hn, hk, rfl⟩ := h
  have hplace : Max.max (lastBit ((n : ℚ) * 2 ^ k)) (-1074) ≤ k := by
    refine max_le ?_ hk
    have hlow := (lastBit_bounds hq).1
    have hlt : (2 : ℚ) ^ (52 + lastBit ((n : ℚ) * 2 ^ k)) < 2 ^ (53 + k) := by
      have hn' : (n : ℚ) < 2 ^ 53 := by exact_mod_cast (abs_lt.mp hn).2
      rw [zpow_add₀ two_ne_zero, zpow_add₀ two_ne_zero]
      exact hlow.trans_lt (mul_lt_mul_of_pos_right hn' (by positivity))
    have := (zpow_lt_zpow_iff_right₀ one_lt_two).mp hlt
    omega
  rw [nearest_eq]
  obtain ⟨i, hi⟩ := Int.le.dest hplace
  generalize Max.max (lastBit ((n : ℚ) * 2 ^ k)) (-1074) = e at hi ⊢
  subst hi
  have hwhole : (n : ℚ) * 2 ^ (e + (i : ℤ)) * 2 ^ (-e) = ((n * 2 ^ i : ℤ) : ℚ) := by
    rw [mul_assoc, ← zpow_add₀ two_ne_zero, add_neg_cancel_comm, zpow_natCast]
    push_cast
    rfl
  rw [hwhole, roundTiesEven_intCast, ← hwhole, mul_assoc, ← zpow_add₀ two_ne_zero,
    neg_add_cancel, zpow_zero, mul_one]

theorem IsExact.hasBits (h : IsExact (finite q)) (hq : 0 < q) : HasBits q := by
  have hnear : nearest q = q := by
    have := h.nearest_eq hq.ne'
    rwa [abs_of_pos hq] at this
  have hscaled := scaled_lt hq
  rw [F64.nearest_eq] at hnear
  have hplace : -1074 ≤ Max.max (lastBit q) (-1074) := le_max_right _ _
  generalize Max.max (lastBit q) (-1074) = e at hnear hscaled hplace
  have hpos : (0 : ℚ) < 2 ^ e := by positivity
  have hwhole : (roundTiesEven (q * 2 ^ (-e)) : ℚ) = q * 2 ^ (-e) := by
    rw [zpow_neg, ← div_eq_mul_inv] at hnear ⊢
    exact (eq_div_iff hpos.ne').mpr hnear
  have hnonneg : (0 : ℚ) ≤ roundTiesEven (q * 2 ^ (-e)) := by
    rw [hwhole]
    positivity
  refine ⟨roundTiesEven (q * 2 ^ (-e)), e, ?_, hplace, hnear.symm⟩
  rw [← hwhole] at hscaled
  rw [abs_of_nonneg (by exact_mod_cast hnonneg)]
  exact_mod_cast hscaled

/-! ## A rounded result between two doubles -/

theorem toDouble_between (hlow : HasBits low) (hhigh : HasBits high) (hpos : 0 < low)
    (hle : low ≤ q) (hle' : q ≤ high) (hfinite : high < 2 ^ 1024) :
    ∃ r, toDouble (finite q) = finite r ∧ low ≤ r ∧ r ≤ high := by
  have hq : 0 < q := hpos.trans_le hle
  have hlower : low ≤ nearest q := by
    rw [← hlow.nearest_eq_self hpos]
    exact nearest_mono hpos hle
  have hupper : nearest q ≤ high := by
    rw [← hhigh.nearest_eq_self (hq.trans_le hle')]
    exact nearest_mono hq hle'
  refine ⟨nearest q, ?_, hlower, hupper⟩
  rw [toDouble, if_neg hq.ne', abs_of_pos hq, if_neg (not_le.mpr (hupper.trans_lt hfinite)),
    if_neg (not_lt.mpr hq.le)]

theorem hasBits_half {n : ℤ} (h : |n| < 2 ^ 53) : HasBits n ∧ HasBits (n / 2) := by
  refine ⟨⟨n, 0, h, by norm_num, by simp⟩, ⟨n, -1, h, by norm_num, ?_⟩⟩
  rw [zpow_neg_one, div_eq_mul_inv]

end F64

end Infra
