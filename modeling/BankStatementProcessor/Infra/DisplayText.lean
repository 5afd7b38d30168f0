import BankStatementProcessor.Infra.Rounding

/-!
# The text of a double can be read back

The decimal that `display` writes is nearest to the double it is written for, and to no other.
So two doubles with one text are the same, and no text is that of two numbers.
-/

namespace Infra

namespace F64

/-! ## Digits -/

theorem isDigit_of_mem_zeros {n : ℕ} {c : Char} (h : c ∈ List.replicate n '0') :
    c.isDigit = true := by
  rw [List.eq_of_mem_replicate h]
  decide

theorem digitsValue_zeros (n : ℕ) (cs : List Char) :
    digitsValue (List.replicate n '0' ++ cs) = digitsValue cs := by
  have hzero : digitsValue (List.replicate n '0') = 10 ^ n * 0 := Nat.ofDigitChars_replicate_zero
  rw [digitsValue_append, hzero]
  omega

theorem parseMagnitude_digits {cs : List Char} (hne : cs ≠ [])
    (h : ∀ c ∈ cs, c.isDigit = true) : parseMagnitude cs = some (digitsValue cs : ℚ) := by
  have hempty : cs.isEmpty = false := List.isEmpty_eq_false_iff.mpr hne
  unfold parseMagnitude
  rw [span_all_digits h]
  simp [hempty, parseExponent]

/-! ## Decimals -/

theorem scale_eq (q : ℚ) (b : ℕ) (e : ℤ) : scale q b e = q * (b : ℚ) ^ e := by
  unfold scale
  split
  · next h =>
    obtain ⟨n, rfl⟩ := Int.eq_ofNat_of_zero_le h
    simp
  · next h =>
    obtain ⟨n, rfl⟩ : ∃ n : ℕ, e = -n := ⟨(-e).toNat, by omega⟩
    simp [div_eq_mul_inv]

/-- Where a decimal has a point: the digits before it and as many behind it as it was asked for. -/
theorem decimal_parts (m : ℕ) {k : ℕ} (hk : 0 < k) : ∃ whole fraction,
    (decimal m k).toList = whole ++ '.' :: fraction ∧ whole ≠ [] ∧ fraction.length = k ∧
      (∀ c ∈ whole, c.isDigit = true) ∧ (∀ c ∈ fraction, c.isDigit = true) ∧
      10 ^ k * digitsValue whole + digitsValue fraction = m := by
  have hmod : m % 10 ^ k < 10 ^ k := Nat.mod_lt _ (by positivity)
  have hlen := (Nat.length_toDigits_le_iff (n := m % 10 ^ k) (b := 10) (by norm_num) hk).mpr hmod
  refine ⟨Nat.toDigits 10 (m / 10 ^ k),
    List.replicate (k - (Nat.toDigits 10 (m % 10 ^ k)).length) '0' ++ Nat.toDigits 10 (m % 10 ^ k),
    ?_, Nat.toDigits_ne_nil, ?_, fun c hc => isDigit_of_mem_toDigits hc, ?_, ?_⟩
  · rw [decimal, if_neg (by omega)]
    simp [← String.length_toList]
  · rw [List.length_append, List.length_replicate]
    omega
  · intro c hc
    rcases List.mem_append.mp hc with hc | hc
    · exact isDigit_of_mem_zeros hc
    · exact isDigit_of_mem_toDigits hc
  · rw [digitsValue_toDigits, digitsValue_zeros, digitsValue_toDigits, Nat.div_add_mod]

/-- The digits of `m / 10 ^ p` start with a digit and state it. -/
theorem decimal_reads (m : ℕ) (p : ℤ) :
    (∃ c cs, c.isDigit = true ∧ (decimal m p).toList = c :: cs) ∧
      parseMagnitude (decimal m p).toList = some (scale m 10 (-p)) := by
  by_cases hp : p ≤ 0
  · have htext : (decimal m p).toList = Nat.toDigits 10 (m * 10 ^ (-p).toNat) := by
      rw [decimal, if_pos hp]
      simp
    rw [htext]
    refine ⟨?_, ?_⟩
    · obtain ⟨c, cs, hdigits⟩ := List.exists_cons_of_ne_nil
        (Nat.toDigits_ne_nil (n := m * 10 ^ (-p).toNat) (b := 10))
      exact ⟨c, cs, isDigit_of_mem_toDigits (hdigits ▸ List.mem_cons_self), hdigits⟩
    · rw [parseMagnitude_digits Nat.toDigits_ne_nil (fun c hc => isDigit_of_mem_toDigits hc),
        digitsValue_toDigits, scale, if_pos (by omega)]
      push_cast
      rfl
  · obtain ⟨k, rfl⟩ : ∃ k : ℕ, p = k := ⟨p.toNat, by omega⟩
    obtain ⟨whole, fraction, htext, hne, hlen, hwhole, hfraction, hvalue⟩ :=
      decimal_parts m (k := k) (by omega)
    rw [htext]
    refine ⟨?_, ?_⟩
    · obtain ⟨c, cs, rfl⟩ := List.exists_cons_of_ne_nil hne
      exact ⟨c, cs ++ '.' :: fraction, hwhole c List.mem_cons_self, rfl⟩
    · rw [parseMagnitude_point hne hwhole hfraction, hlen, digitsValue_append, hlen, hvalue,
        scale_eq, zpow_neg, zpow_natCast, div_eq_mul_inv]
      push_cast
      rfl

/-! ## The shortest one -/

theorem roundTiesEven_nonneg {q : ℚ} (h : 0 ≤ q) : 0 ≤ roundTiesEven q := by
  have hfloor : 0 ≤ ⌊q⌋ := Int.floor_nonneg.mpr h
  unfold roundTiesEven
  simp only
  split
  · exact hfloor
  · split
    · omega
    · split <;> omega

/-- A double is a whole number at the last place that a double can have. -/
theorem nearest_whole {q : ℚ} (h : nearest q = q) {p : ℤ} (hp : 1074 ≤ p) :
    ∃ n : ℤ, scale q 10 p = n := by
  rw [nearest_eq] at h
  obtain ⟨k, hk⟩ : ∃ k : ℕ, Max.max (lastBit q) (-1074) + p = k :=
    ⟨(Max.max (lastBit q) (-1074) + p).toNat, by omega⟩
  obtain ⟨l, rfl⟩ : ∃ l : ℕ, p = l := ⟨p.toNat, by omega⟩
  refine ⟨roundTiesEven (q * 2 ^ (-Max.max (lastBit q) (-1074))) * (2 ^ k * 5 ^ l), ?_⟩
  have hten : ((10 : ℕ) : ℚ) ^ (l : ℤ) = 2 ^ (l : ℤ) * 5 ^ l := by
    rw [zpow_natCast, zpow_natCast, ← mul_pow]
    norm_num
  have htwo : (2 : ℚ) ^ Max.max (lastBit q) (-1074) * 2 ^ (l : ℤ) = 2 ^ k := by
    rw [← zpow_add₀ two_ne_zero, hk, zpow_natCast]
  rw [scale_eq, hten]
  conv_lhs => rw [← h]
  push_cast
  rw [← htwo]
  ring

/-- The decimal that is found lies next to the double, and is not below zero. -/
theorem shortest_spec {q : ℚ} (hpos : 0 < q) (h : nearest q = q) (fuel : ℕ) (p : ℤ)
    (hfuel : 1074 ≤ p + fuel) :
    0 ≤ (shortest q fuel p).1 ∧
      nearest (scale (shortest q fuel p).1 10 (-(shortest q fuel p).2)) = q := by
  have hnonneg : ∀ p, 0 ≤ roundTiesEven (scale q 10 p) := by
    intro p
    rw [scale_eq]
    exact roundTiesEven_nonneg (by positivity)
  induction fuel generalizing p with
  | zero =>
    obtain ⟨n, hn⟩ := nearest_whole h (p := p) (by omega)
    refine ⟨hnonneg p, ?_⟩
    show nearest (scale (roundTiesEven (scale q 10 p)) 10 (-p)) = q
    rw [hn, roundTiesEven_intCast, ← hn, scale_eq, scale_eq, mul_assoc,
      ← zpow_add₀ (by norm_num), add_neg_cancel, zpow_zero, mul_one, h]
  | succ fuel ih =>
    unfold shortest
    simp only
    split
    · next hfound => exact ⟨hnonneg p, hfound⟩
    · exact ih (p + 1) (by omega)

/-! ## Reading a text back -/

/-- What a double can be. -/
def IsExact (x : F64) : Prop := toDouble x = x

theorem IsExact.nearest_eq {q : ℚ} (h : IsExact (finite q)) (hq : q ≠ 0) :
    nearest |q| = |q| := by
  rw [IsExact, toDouble, if_neg hq] at h
  split at h
  · cases h
  · have hvalue := F64.finite.inj h
    split at hvalue
    · next hneg => rw [abs_of_neg hneg] at hvalue ⊢; linarith
    · next hnonneg =>
      rw [abs_of_nonneg (not_lt.mp hnonneg)] at hvalue ⊢
      exact hvalue

/-- The sign and the decimal in the text of a number. -/
structure ReadsBack (text : List Char) (q : ℚ) : Prop where
  sign : (splitSign text).1 = decide (q < 0)
  magnitude : ∃ r, parseMagnitude (splitSign text).2 = some r ∧ nearest r = |q|

theorem readsBack_display {q : ℚ} (h : IsExact (finite q)) :
    ReadsBack (display (finite q)).toList q := by
  by_cases hq : q = 0
  · subst hq
    exact ⟨by decide +kernel, 0, by decide +kernel, by decide +kernel⟩
  · have hpos : 0 < |q| := abs_pos.mpr hq
    have hnear := h.nearest_eq hq
    rw [display, if_neg hq]
    simp only [hnear]
    obtain ⟨hnonneg, hshort⟩ := shortest_spec hpos hnear
      ((toString ⌊|q|⌋.toNat).length + 1074) (-(toString ⌊|q|⌋.toNat).length) (by omega)
    generalize shortest |q| ((toString ⌊|q|⌋.toNat).length + 1074)
      (-(toString ⌊|q|⌋.toNat).length) = found at hnonneg hshort
    obtain ⟨m, p⟩ := found
    obtain ⟨m, rfl⟩ := Int.eq_ofNat_of_zero_le hnonneg
    obtain ⟨⟨c, cs, hc, htext⟩, hmagnitude⟩ := decimal_reads m p
    rw [String.toList_append, Int.toNat_natCast]
    by_cases hneg : q < 0
    · rw [if_pos hneg]
      exact ⟨(decide_eq_true hneg).symm, _, hmagnitude, hshort⟩
    · have hsplit : splitSign ("".toList ++ (decimal m p).toList) =
          (false, (decimal m p).toList) := by
        rw [htext]
        exact splitSign_of_digit hc
      rw [if_neg hneg]
      exact ⟨by rw [hsplit, decide_eq_false hneg], _, by rw [hsplit]; exact hmagnitude, hshort⟩

theorem ReadsBack.eq {text : List Char} {q q' : ℚ} (h : ReadsBack text q)
    (h' : ReadsBack text q') : q = q' := by
  obtain ⟨r, hr, habs⟩ := h.magnitude
  obtain ⟨r', hr', habs'⟩ := h'.magnitude
  have hsame : |q| = |q'| := by
    rw [← habs, ← habs', Option.some.inj (hr.symm.trans hr')]
  have hsign : (q < 0) ↔ (q' < 0) := by
    rw [← decide_eq_decide, ← h.sign, h'.sign]
  by_cases hneg : q < 0
  · rw [abs_of_neg hneg, abs_of_neg (hsign.mp hneg)] at hsame
    linarith
  · rw [abs_of_nonneg (not_lt.mp hneg), abs_of_nonneg (not_lt.mp (mt hsign.mpr hneg))] at hsame
    exact hsame

/-- The texts of what is no finite number are not read. -/
theorem not_readsBack {text : List Char} {q : ℚ}
    (h : parseMagnitude (splitSign text).2 = none) : ¬ReadsBack text q := by
  rintro ⟨-, r, hr, -⟩
  rw [h] at hr
  cases hr

theorem parseMagnitude_display_nan :
    parseMagnitude (splitSign (display nan).toList).2 = none := by decide +kernel

theorem parseMagnitude_display_infinite (negative : Bool) :
    parseMagnitude (splitSign (display (infinite negative)).toList).2 = none := by
  cases negative <;> decide +kernel

/-- **Two doubles with one text are the same.** -/
theorem display_inj {x y : F64} (hx : IsExact x) (hy : IsExact y)
    (h : display x = display y) : x = y := by
  cases x with
  | nan =>
    cases y with
    | nan => rfl
    | infinite negative => cases negative <;> exact absurd h (by decide +kernel)
    | finite q =>
      exact absurd (h ▸ readsBack_display hy) (not_readsBack parseMagnitude_display_nan)
  | infinite negative =>
    cases y with
    | nan => cases negative <;> exact absurd h (by decide +kernel)
    | infinite negative' =>
      cases negative <;> cases negative' <;> first | rfl | exact absurd h (by decide +kernel)
    | finite q =>
      exact absurd (h ▸ readsBack_display hy)
        (not_readsBack (parseMagnitude_display_infinite negative))
  | finite q =>
    cases y with
    | nan =>
      exact absurd (h ▸ readsBack_display hx) (not_readsBack parseMagnitude_display_nan)
    | infinite negative =>
      exact absurd (h ▸ readsBack_display hx)
        (not_readsBack (parseMagnitude_display_infinite negative))
    | finite q' => rw [(readsBack_display hx).eq (h ▸ readsBack_display hy)]

theorem parseMagnitude_nonneg {cs : List Char} {r : ℚ} (h : parseMagnitude cs = some r) :
    0 ≤ r := by
  have hvalue : ∀ (m k : ℕ) (o : Option ℤ),
      (o.map fun e : ℤ => (m : ℚ) * 10 ^ (e - k)) = some r → 0 ≤ r := by
    intro m k o ho
    obtain ⟨e, -, rfl⟩ := Option.map_eq_some_iff.mp ho
    positivity
  unfold parseMagnitude at h
  dsimp only at h
  split at h
  · split at h
    · cases h
    · exact hvalue _ _ _ h
  · dsimp only at h
    split at h
    · cases h
    · exact hvalue _ _ _ h

/-- **A double is what its text is read as.** -/
theorem parse_display {q : ℚ} (h : IsExact (finite q)) :
    (parse (display (finite q)).toList).map toDouble = some (finite q) := by
  obtain ⟨hsign, r, hr, hnear⟩ := readsBack_display h
  have hnonneg := parseMagnitude_nonneg hr
  unfold parse
  generalize splitSign (display (finite q)).toList = split at hsign hr
  obtain ⟨negative, body⟩ := split
  simp only at hsign hr
  simp only [hr, Option.map_some, toDouble_ofRat, hsign, decide_eq_true_eq]
  congr 1
  by_cases hq : q = 0
  · subst hq
    rw [abs_zero] at hnear
    rw [if_neg (lt_irrefl _)]
    by_cases hzero : r = 0
    · rw [hzero]
      rfl
    · have hpos : ¬r < 0 := not_lt.mpr hnonneg
      rw [toDouble, if_neg hzero, abs_of_nonneg hnonneg, hnear,
        if_neg (not_le.mpr (pow_pos two_pos 1024)), if_neg hpos]
  · have hpos : 0 < |q| := abs_pos.mpr hq
    have hfits : ¬2 ^ 1024 ≤ |q| := by
      intro hover
      have hdouble : toDouble (finite q) = finite q := h
      rw [toDouble, if_neg hq, h.nearest_eq hq, if_pos hover] at hdouble
      cases hdouble
    have hzero : r ≠ 0 := by
      rintro rfl
      rw [show nearest 0 = 0 by decide +kernel] at hnear
      exact hpos.ne hnear
    have hr : 0 < r := lt_of_le_of_ne hnonneg hzero.symm
    by_cases hneg : q < 0
    · rw [if_pos hneg, toDouble, if_neg (neg_ne_zero.mpr hzero), abs_neg, abs_of_pos hr, hnear,
        if_neg hfits, if_pos (neg_lt_zero.mpr hr), abs_of_neg hneg, neg_neg]
    · rw [if_neg hneg, toDouble, if_neg hzero, abs_of_pos hr, hnear, if_neg hfits,
        if_neg (not_lt.mpr hnonneg), abs_of_nonneg (not_lt.mp hneg)]

/-! ## The characters of a text -/

theorem mem_decimal {m : ℕ} {p : ℤ} {c : Char} (h : c ∈ (decimal m p).toList) :
    c.isDigit = true ∨ c = '.' := by
  unfold decimal at h
  split at h
  · exact Or.inl (isDigit_of_mem_toDigits (by simpa using h))
  · simp only [String.toList_append, String.toList_ofList, List.mem_append] at h
    rcases h with ((h | h) | h) | h
    · exact Or.inl (isDigit_of_mem_toDigits (by simpa using h))
    · exact Or.inr (by simpa using h)
    · exact Or.inl (isDigit_of_mem_zeros h)
    · exact Or.inl (isDigit_of_mem_toDigits (by simpa using h))

theorem mem_display_finite {q : ℚ} {c : Char} (h : c ∈ (display (finite q)).toList) :
    c.isDigit = true ∨ c = '.' ∨ c = '-' := by
  rw [display] at h
  split at h
  · rw [show c = '0' by simpa using h]
    exact Or.inl (by decide)
  · simp only [String.toList_append, List.mem_append] at h
    rcases h with h | h
    · split at h
      · exact Or.inr (Or.inr (by simpa using h))
      · cases h
    · exact (mem_decimal h).imp_right Or.inl

theorem bar_not_mem_display (x : F64) : '|' ∉ (display x).toList := by
  cases x with
  | nan => decide +kernel
  | infinite negative => cases negative <;> decide +kernel
  | finite q =>
    intro h
    rcases mem_display_finite h with hdigit | hpoint | hminus
    · exact absurd hdigit (by decide)
    · exact absurd hpoint (by decide)
    · exact absurd hminus (by decide)

theorem bar_not_mem_fixed (p : ℕ) (x : F64) : '|' ∉ (fixed p x).toList := by
  cases x with
  | nan => exact bar_not_mem_display .nan
  | infinite negative => exact bar_not_mem_display (.infinite negative)
  | finite q =>
    intro h
    rw [fixed, String.toList_append, List.mem_append] at h
    rcases h with h | h
    · split at h
      · exact absurd (List.mem_singleton.mp h) (by decide)
      · cases h
    · rcases mem_decimal h with hdigit | hpoint
      · exact absurd hdigit (by decide)
      · exact absurd hpoint (by decide)

theorem display_ne_empty (x : F64) : (display x).toList ≠ [] := by
  cases x with
  | nan => decide +kernel
  | infinite negative => cases negative <;> decide +kernel
  | finite q =>
    rw [display]
    split
    · decide +kernel
    · rw [String.toList_append]
      generalize shortest _ _ _ = found
      obtain ⟨⟨c, cs, -, htext⟩, -⟩ := decimal_reads found.1.toNat found.2
      simp [htext]

end F64

end Infra
