import BankStatementProcessor.Desktop.Parser.AmountFormat

/-!
# Money that is shown can be read again

An amount is shown with two decimals. Below 10 crore it has at most ten digits and is read back
as it was; from there on it has more, and the parser takes it for a reference.
-/

namespace Desktop.Parser

open Infra

section

variable {u : Unicode}

/-! ## The text -/

theorem twoDigits_spec {k : ℕ} (h : k < 100) :
    len (twoDigits k).toList = 2 ∧ (twoDigits k).toList.length = 2 ∧
      (∀ c ∈ (twoDigits k).toList, c.isDigit = true) ∧
      F64.digitsValue (twoDigits k).toList = k := by
  have hall : ∀ i ∈ List.range 100, len (twoDigits i).toList = 2 ∧
      (twoDigits i).toList.length = 2 ∧ (twoDigits i).toList.all Char.isDigit = true ∧
      F64.digitsValue (twoDigits i).toList = i := by decide +kernel
  obtain ⟨hbytes, hlen, hdigits, hvalue⟩ := hall k (List.mem_range.mpr h)
  exact ⟨hbytes, hlen, List.all_eq_true.mp hdigits, hvalue⟩

/-- The minus of an amount below 0. -/
def signOf (n : ℤ) : List Char := if n < 0 then ['-'] else []

/-- The text of so many paise. -/
def moneyText (n : ℤ) : List Char :=
  signOf n ++ formatIndianInt (n.natAbs / 100) ++ '.' :: (twoDigits (n.natAbs % 100)).toList

theorem asU64_abs {n : ℤ} (h : |n| ≤ 200000000000) :
    asU64 (F64.mul (F64.abs (.finite (n / 100))) (.finite 100)).round = n.natAbs := by
  have habs : |(n : ℚ) / 100| * 100 = (n.natAbs : ℤ) := by
    rw [abs_div, abs_of_pos (show (0 : ℚ) < 100 by norm_num), div_mul_cancel₀ _ (by norm_num),
      Int.natCast_natAbs, Int.cast_abs]
  rw [F64.abs_finite, F64.mul_finite, habs, F64.round, F64.roundRat_intCast, asU64,
    Int.floor_intCast, Int.toNat_natCast]
  obtain ⟨hlower, hupper⟩ := abs_le.mp h
  omega

theorem toList_fmtAmount {n : ℤ} (h : |n| ≤ 200000000000) :
    (fmtAmount (some (.finite (n / 100)))).toList = moneyText n := by
  have hneg : F64.lt (.finite (n / 100)) (.finite 0) = decide (n < 0) := by
    rw [Bool.eq_iff_iff, F64.lt_finite, decide_eq_true_eq, div_neg_iff]
    norm_num
  rw [fmtAmount, formatIndian, asU64_abs h, hneg, moneyText, signOf]
  by_cases hn : n < 0
  · simp [hn, ToString.toString]
  · simp [hn, ToString.toString]

theorem mem_amountChars_of_mem_moneyText {n : ℤ} {c : Char} (h : c ∈ moneyText n) :
    c ∈ amountChars := by
  obtain ⟨-, -, hdigits, -⟩ := twoDigits_spec (Nat.mod_lt n.natAbs (show 0 < 100 by norm_num))
  rw [moneyText, List.append_assoc, List.mem_append, List.mem_append, List.mem_cons] at h
  rcases h with hsign | hint | rfl | hfrac
  · rw [signOf] at hsign
    split at hsign
    · rw [List.mem_singleton.mp hsign]
      decide +kernel
    · cases hsign
  · rcases mem_formatIndianInt hint with hdigit | rfl
    · exact mem_amountChars_of_isDigit hdigit
    · decide +kernel
  · decide +kernel
  · exact mem_amountChars_of_isDigit (hdigits c hfrac)

/-- The text without its commas. -/
def plainText (n : ℤ) : List Char :=
  signOf n ++ Nat.toDigits 10 (n.natAbs / 100) ++ '.' :: (twoDigits (n.natAbs % 100)).toList

theorem filter_moneyText (n : ℤ) : (moneyText n).filter (· != ',') = plainText n := by
  obtain ⟨-, -, hdigits, -⟩ := twoDigits_spec (Nat.mod_lt n.natAbs (show 0 < 100 by norm_num))
  have hsign : (signOf n).filter (· != ',') = signOf n := by
    rw [signOf]
    split <;> rfl
  have hfrac : ((twoDigits (n.natAbs % 100)).toList).filter (· != ',') =
      (twoDigits (n.natAbs % 100)).toList := by
    rw [List.filter_eq_self]
    intro c hc
    have hdigit := hdigits c hc
    rw [bne_iff_ne]
    rintro rfl
    cases hdigit
  rw [moneyText, List.filter_append, List.filter_append, hsign, filter_formatIndianInt,
    List.filter_cons_of_pos (by decide), hfrac, plainText]

/-! ## What is read -/

theorem parse_plainText {n : ℤ} (hne : n ≠ 0) (hmax : |n| ≤ 200000000000) :
    F64.parse (plainText n) = some (.finite (n / 100)) := by
  obtain ⟨-, hlen, hdigits, hvalue⟩ :=
    twoDigits_spec (Nat.mod_lt n.natAbs (show 0 < 100 by norm_num))
  have hmagnitude : F64.parseMagnitude (Nat.toDigits 10 (n.natAbs / 100) ++
      '.' :: (twoDigits (n.natAbs % 100)).toList) = some ((n.natAbs : ℚ) / 100) := by
    have hdivMod : 100 * (n.natAbs / 100) + n.natAbs % 100 = n.natAbs := Nat.div_add_mod _ _
    rw [F64.parseMagnitude_point Nat.toDigits_ne_nil (fun c hc => F64.isDigit_of_mem_toDigits hc)
      hdigits, F64.digitsValue_append, F64.digitsValue_toDigits, hvalue, hlen]
    norm_num [hdivMod]
  have hofRat : F64.ofRat ((n : ℚ) / 100) = .finite (n / 100) := by
    have habs : |(n : ℚ) / 100| = |(n : ℚ)| / 100 := by
      rw [abs_div, abs_of_pos (show (0 : ℚ) < 100 by norm_num)]
    have hone : (1 : ℚ) ≤ |(n : ℚ)| := by exact_mod_cast Int.one_le_abs hne
    have hle : |(n : ℚ)| ≤ 200000000000 := by exact_mod_cast hmax
    refine F64.ofRat_of_bounds ?_ ?_
    · rw [habs]
      norm_num
      linarith
    · rw [habs]
      norm_num
      linarith
  unfold F64.parse
  rw [plainText, signOf]
  by_cases hneg : n < 0
  · have hcast : (n.natAbs : ℚ) = -n := by
      rw [← Int.cast_natCast, Int.natCast_natAbs, abs_of_neg hneg, Int.cast_neg]
    have hsplit : F64.splitSign (['-'] ++ Nat.toDigits 10 (n.natAbs / 100) ++
        '.' :: (twoDigits (n.natAbs % 100)).toList) =
          (true, Nat.toDigits 10 (n.natAbs / 100) ++
            '.' :: (twoDigits (n.natAbs % 100)).toList) := rfl
    rw [if_pos hneg, hsplit]
    simp only [hmagnitude, hcast, if_true]
    rw [neg_div, neg_neg, hofRat]
  · have hcast : (n.natAbs : ℚ) = n := by
      rw [← Int.cast_natCast, Int.natCast_natAbs, abs_of_nonneg (not_lt.mp hneg)]
    have hsplit : F64.splitSign ([] ++ Nat.toDigits 10 (n.natAbs / 100) ++
        '.' :: (twoDigits (n.natAbs % 100)).toList) =
          (false, Nat.toDigits 10 (n.natAbs / 100) ++
            '.' :: (twoDigits (n.natAbs % 100)).toList) := by
      obtain ⟨c, cs, hdigitsText⟩ :=
        List.exists_cons_of_ne_nil (Nat.toDigits_ne_nil (n := n.natAbs / 100) (b := 10))
      have hc : c.isDigit = true := F64.isDigit_of_mem_toDigits (hdigitsText ▸ List.mem_cons_self)
      rw [List.nil_append, hdigitsText, List.cons_append, F64.splitSign_of_digit hc]
    rw [if_neg hneg, hsplit]
    simp only [hmagnitude, hcast, Bool.false_eq_true, if_false]
    rw [hofRat]

/-- The number of digits decides. -/
theorem readAmount_moneyText {n : ℤ} (hne : n ≠ 0) (hmax : |n| ≤ 200000000000) :
    readAmount u (moneyText n) =
      if |n| < 10000000000 then some (.finite (n / 100)) else none := by
  obtain ⟨hbytes, hlen, hdigits, -⟩ :=
    twoDigits_spec (Nat.mod_lt n.natAbs (show 0 < 100 by norm_num))
  have hspace : ∀ c ∈ moneyText n, isWhitespace c = false := by
    have hall : ∀ c ∈ amountChars, isWhitespace c = false := forall_mem_of_all (by decide +kernel)
    exact fun c hc => hall c (mem_amountChars_of_mem_moneyText hc)
  have hpoint : '.' ∈ moneyText n := List.mem_append_right _ List.mem_cons_self
  have hplainPoint : '.' ∈ plainText n := List.mem_append_right _ List.mem_cons_self
  have hnoRef : reRefId.isMatch u (moneyText n) = false :=
    not_isMatch_reRefId hpoint (u.isDigit_ascii '.' (by decide))
  have hnotEmpty : (plainText n).isEmpty = false :=
    List.isEmpty_eq_false_iff.mpr (List.ne_nil_of_mem hplainPoint)
  have hnotMinus : (plainText n == ['-']) = false := by
    rw [beq_eq_false_iff_ne]
    intro heq
    rw [heq] at hplainPoint
    exact absurd hplainPoint (by decide)
  have hword : ∀ word : List Char, '.' ∉ word →
      ((plainText n).map Char.toLower == word) = false := by
    intro word hword
    rw [beq_eq_false_iff_ne]
    rintro rfl
    exact hword (List.mem_map.mpr ⟨'.', hplainPoint, rfl⟩)
  have hjunk : stripJunk 2 (plainText n) = plainText n := by
    rw [stripJunk, parse_plainText hne hmax]
    rfl
  have hsignDigits : (signOf n).countP Char.isDigit = 0 := by
    rw [signOf]
    split <;> rfl
  have hcount : (plainText n).countP Char.isDigit =
      (Nat.toDigits 10 (n.natAbs / 100)).length + 2 := by
    rw [plainText, List.countP_append, List.countP_append, hsignDigits,
      List.countP_eq_length.mpr fun c hc => F64.isDigit_of_mem_toDigits hc,
      List.countP_cons_of_neg (by decide), List.countP_eq_length.mpr hdigits, hlen, zero_add]
  have hfraction : hasLongFraction (plainText n) = false := by
    have hbefore : ∀ c ∈ signOf n ++ Nat.toDigits 10 (n.natAbs / 100), (c != '.') = true := by
      intro c hc
      rcases List.mem_append.mp hc with hsign | hdigit
      · rw [signOf] at hsign
        split at hsign
        · rw [List.mem_singleton.mp hsign]
          rfl
        · cases hsign
      · have hisDigit := F64.isDigit_of_mem_toDigits hdigit
        rw [bne_iff_ne]
        rintro rfl
        cases hisDigit
    rw [hasLongFraction, plainText, List.dropWhile_append_of_pos hbefore,
      List.dropWhile_cons_of_neg (by decide), List.drop_one, List.tail_cons, hbytes]
    rfl
  have hmany : (10 < (plainText n).countP Char.isDigit) ↔ ¬|n| < 10000000000 := by
    have hlength := Nat.length_toDigits_le_iff (n := n.natAbs / 100) (b := 10) (k := 8)
      (by norm_num) (by norm_num)
    rw [hcount, Int.abs_eq_natAbs]
    omega
  rw [readAmount, trim_eq_self hspace, hnoRef,
    cleanAmount_of_amountChars fun c hc => mem_amountChars_of_mem_moneyText hc, filter_moneyText]
  simp only [hnotEmpty, hnotMinus, hword _ (show '.' ∉ "nil".toList by decide),
    hword _ (show '.' ∉ "n/a".toList by decide), hjunk, hfraction, parse_plainText hne hmax,
    Bool.or_self, Bool.false_eq_true, if_false, hmany]
  by_cases hsmall : |n| < 10000000000
  · rw [if_pos hsmall, if_neg (not_not.mpr hsmall)]
  · rw [if_neg hsmall, if_pos hsmall]

/-- **An amount that is shown is read back as it was below 10 crore, and is not read from there
up to 200 crore.** -/
theorem parse_fmtAmount (u : Unicode) {n : ℤ} (hne : n ≠ 0) (hmax : |n| ≤ 200000000000) :
    parseAmountStr u (fmtAmount (some (.finite (n / 100)))).toList =
      if |n| < 10000000000 then some (.finite (n / 100)) else none := by
  have hspace : ∀ c ∈ moneyText n, isWhitespace c = false := by
    have hall : ∀ c ∈ amountChars, isWhitespace c = false := forall_mem_of_all (by decide +kernel)
    exact fun c hc => hall c (mem_amountChars_of_mem_moneyText hc)
  have hnotEmpty : (moneyText n).isEmpty = false := by
    rw [List.isEmpty_eq_false_iff]
    exact List.ne_nil_of_mem (List.mem_append_right _ List.mem_cons_self)
  have hnotZero : F64.eqv (.finite (n / 100)) (.finite 0) = false := by
    simpa [F64.eqv] using hne
  have hnotAbove : F64.lt maxAmount (F64.abs (.finite (n / 100))) = false := by
    have hle : |(n : ℚ)| ≤ 200000000000 := by exact_mod_cast hmax
    rw [← Bool.not_eq_true, maxAmount, F64.abs_finite, F64.lt_finite, not_lt, abs_div,
      abs_of_pos (show (0 : ℚ) < 100 by norm_num)]
    linarith
  rw [toList_fmtAmount hmax, parseAmountStr, trim_eq_self hspace, hnotEmpty, parseStr,
    readAmount_moneyText hne hmax]
  by_cases hsmall : |n| < 10000000000
  · rw [if_pos hsmall, Option.bind_some, hnotZero, hnotAbove, F64.round2_paise]
    rfl
  · rw [if_neg hsmall]
    rfl

/-- The largest amount that is read back. -/
theorem parse_fmtAmount_largest :
    parseAmountStr .ascii (fmtAmount (some (.finite ((-9999999999 : ℤ) / 100)))).toList =
      if |(-9999999999 : ℤ)| < 10000000000 then some (.finite ((-9999999999 : ℤ) / 100))
      else none :=
  parse_fmtAmount .ascii (by norm_num) (by norm_num)

/-- 10 crore is taken for a reference. -/
theorem ten_crore_not_read :
    ¬∀ n : ℤ, n ≠ 0 → |n| ≤ 200000000000 →
      parseAmountStr .ascii (fmtAmount (some (.finite (n / 100)))).toList =
        some (.finite (n / 100)) := by
  intro h
  have hnone : parseAmountStr .ascii
      (fmtAmount (some (.finite ((10000000000 : ℤ) / 100)))).toList = none := by decide +kernel
  have hread := h 10000000000 (by norm_num) (by norm_num)
  rw [hnone] at hread
  cases hread

end

end Desktop.Parser
