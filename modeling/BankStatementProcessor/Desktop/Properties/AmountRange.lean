import BankStatementProcessor.Desktop.Parser.AmountParser

/-!
# What comes out of the amount parser

A number is checked before it is rounded, and the word for what is no number passes every
check. So the parser returns an amount of paise unless the number is nearer to zero than half a
paisa, or no number.
-/

namespace Infra.F64

/-- A letter in lower case comes from no digit and no point. -/
theorem not_isDigit_of_toLower {c d : Char} (h : c.toLower = d) (hd : d.isDigit = false) :
    c.isDigit = false := by
  rw [← Bool.not_eq_true]
  intro hc
  have hall : ∀ n ∈ List.range 10, (Char.ofNat (48 + n)).toLower.isDigit = true := by
    decide +kernel
  have hbounds := hc
  simp only [Char.isDigit, ge_iff_le, Bool.and_eq_true, decide_eq_true_eq,
    UInt32.le_iff_toNat_le] at hbounds
  have hlower : 48 ≤ c.toNat := hbounds.1
  have hupper : c.toNat ≤ 57 := hbounds.2
  have hdigit := hall (c.toNat - 48) (List.mem_range.mpr (by omega))
  rw [show 48 + (c.toNat - 48) = c.toNat by omega, Char.ofNat_toNat, h, hd] at hdigit
  cases hdigit

theorem ofRat_ne_nan (q : ℚ) : ofRat q ≠ nan := by
  unfold ofRat
  split
  · simp
  · split <;> simp

theorem parseMagnitude_nan {cs : List Char} (h : cs.map Char.toLower = "nan".toList) :
    parseMagnitude cs = none := by
  cases cs with
  | nil => cases h
  | cons c cs =>
    have hc : c.toLower = 'n' := (List.cons.inj h).1
    have hdigit := not_isDigit_of_toLower hc (by decide)
    have hpoint : c ≠ '.' := by
      rintro rfl
      cases hc
    have hspan : (c :: cs).span Char.isDigit = ([], c :: cs) := by
      simp [List.span_eq_takeWhile_dropWhile, hdigit]
    unfold parseMagnitude
    simp only [hspan]
    split
    · next heq => exact absurd (List.cons.inj heq).1 hpoint
    · rfl

/-- The word for what is no number, in any case and with any sign. -/
theorem parse_eq_nan_iff {cs : List Char} :
    parse cs = some nan ↔ (splitSign cs).2.map Char.toLower = "nan".toList := by
  unfold parse
  constructor
  · intro h
    simp only at h
    split at h
    · exact absurd (Option.some.inj h) (ofRat_ne_nan _)
    · split at h
      · next hword => exact hword
      · split at h <;> cases h
  · intro h
    simp only [parseMagnitude_nan h, h, if_true]

end Infra.F64

namespace Desktop.Parser

open Infra

section

variable {u : Unicode} {raw : List Char} {x : F64}

/-! ## What is read -/

/-- The text that is read as a number. -/
def numberText (u : Unicode) (raw : List Char) : List Char := stripJunk 2 (cleanAmount u raw)

/-- A text that is not set aside before its number is read. -/
structure PassesGuards (u : Unicode) (raw : List Char) : Prop where
  noReference : reRefId.isMatch u (trim raw) = false
  notEmpty : cleanAmount u raw ≠ [] ∧ cleanAmount u raw ≠ ['-']
  notNil : (cleanAmount u raw).map Char.toLower ≠ "nil".toList ∧
    (cleanAmount u raw).map Char.toLower ≠ "n/a".toList
  fewDigits : (numberText u raw).countP Char.isDigit ≤ 10
  shortFraction : hasLongFraction (numberText u raw) = false

theorem readAmount_eq_some_iff :
    readAmount u raw = some x ↔ PassesGuards u raw ∧ F64.parse (numberText u raw) = some x := by
  constructor
  · intro h
    simp only [readAmount] at h
    split at h
    · cases h
    · next hreference =>
      split at h
      · cases h
      · next hempty =>
        split at h
        · cases h
        · next hnil =>
          split at h
          · cases h
          · next hdigits =>
            split at h
            · cases h
            · next hfraction =>
              simp only [Bool.or_eq_true, not_or, beq_iff_eq, List.isEmpty_iff] at hempty hnil
              exact ⟨⟨Bool.not_eq_true _ ▸ hreference, hempty, hnil, not_lt.mp hdigits,
                Bool.not_eq_true _ ▸ hfraction⟩, h⟩
  · rintro ⟨h, hparse⟩
    have hempty : ((cleanAmount u raw).isEmpty || cleanAmount u raw == ['-']) = false := by
      simpa using h.notEmpty
    have hnil : ((cleanAmount u raw).map Char.toLower == "nil".toList ||
        (cleanAmount u raw).map Char.toLower == "n/a".toList) = false := by
      simpa using h.notNil
    have hdigits : ¬10 < (stripJunk 2 (cleanAmount u raw)).countP Char.isDigit :=
      not_lt.mpr h.fewDigits
    have hfraction : hasLongFraction (stripJunk 2 (cleanAmount u raw)) = false :=
      h.shortFraction
    simp only [readAmount, h.noReference, hempty, hnil, hdigits, hfraction, Bool.false_eq_true,
      if_false]
    exact hparse

/-! ## What comes out -/

/-- A whole number of paise, at most 200 crore and not zero. -/
def IsProper (x : F64) : Prop := ∃ n : ℤ, n ≠ 0 ∧ |n| ≤ 200000000000 ∧ x = .finite (n / 100)

/-- Nearer to zero than half a paisa, but not zero. -/
def IsTiny (q : ℚ) : Prop := q ≠ 0 ∧ |q| < 1 / 200

theorem isProper_round2_iff {q : ℚ} (hzero : q ≠ 0) (hmax : |q| ≤ 2000000000) :
    IsProper (F64.round2 (.finite q)) ↔ ¬IsTiny q := by
  have habs : |F64.roundRat (q * 100)| = F64.roundRat (|q| * 100) := by
    rw [← F64.roundRat_abs, abs_mul, abs_of_pos (show (0 : ℚ) < 100 by norm_num)]
  have hpos : F64.roundRat (q * 100) ≠ 0 ↔ ¬IsTiny q := by
    rw [← abs_pos, habs, F64.roundRat_pos_iff, IsTiny, not_and, not_lt]
    constructor
    · intro h _
      linarith
    · intro h
      have := h hzero
      linarith
  rw [F64.round2_finite, ← hpos]
  constructor
  · rintro ⟨n, hn, -, heq⟩ hround
    rw [F64.finite.injEq, hround, div_left_inj' (by norm_num)] at heq
    exact hn (by exact_mod_cast heq.symm)
  · intro h
    refine ⟨_, h, ?_, rfl⟩
    rw [habs]
    refine F64.roundRat_le ?_
    push_cast
    linarith

theorem not_isProper_nan : ¬IsProper (F64.round2 .nan) := by
  rintro ⟨n, -, -, heq⟩
  cases heq

/-- The text of a number that has no amount of paise. -/
def IsStray (cs : List Char) : Prop :=
  (F64.splitSign cs).2.map Char.toLower = "nan".toList ∨
    ∃ q, F64.parse cs = some (.finite q) ∧ IsTiny q

/-- Where the number of a cell is an amount of paise, or is set aside. -/
def CellValue.IsSound (u : Unicode) : CellValue → Prop
  | .empty => True
  | .number f => ∀ q, f = .finite q → ¬IsTiny q
  | .text s => PassesGuards u s → ¬IsStray (numberText u s)

/-- A tiny number passes the two checks. -/
theorem IsTiny.checked {q : ℚ} (h : IsTiny q) :
    F64.eqv (.finite q) (.finite 0) = false ∧
      F64.lt maxAmount (F64.abs (.finite q)) = false := by
  constructor
  · simpa [F64.eqv] using h.1
  · rw [← Bool.not_eq_true, maxAmount, F64.abs_finite, F64.lt_finite, not_lt]
    linarith [h.2]

theorem IsTiny.not_proper {q : ℚ} (h : IsTiny q) : ¬IsProper (F64.round2 (.finite q)) := by
  rw [isProper_round2_iff h.1 (by linarith [h.2]), not_not]
  exact h

theorem parseFloat_proper_iff {f : F64} :
    (∀ v, parseFloat f = some v → IsProper v) ↔ (CellValue.number f).IsSound u := by
  constructor
  · rintro h q rfl htiny
    have hparse : parseFloat (.finite q) = some (F64.round2 (.finite q)) := by
      rw [parseFloat, htiny.checked.1, htiny.checked.2]
      rfl
    exact htiny.not_proper (h _ hparse)
  · intro h v hv
    obtain ⟨hamount, hnan, rfl⟩ := parseFloat_eq_some hv
    rcases hamount with rfl | ⟨q, rfl, hzero, hmax⟩
    · exact absurd rfl hnan
    · exact (isProper_round2_iff hzero hmax).mpr (h q rfl)

theorem parseStr_of_checked (hread : readAmount u raw = some x)
    (hzero : F64.eqv x (.finite 0) = false) (hmax : F64.lt maxAmount (F64.abs x) = false) :
    parseStr u raw = some (F64.round2 x) := by
  rw [parseStr, hread, Option.bind_some, hzero, hmax]
  rfl

theorem parseStr_proper_iff :
    (∀ v, parseStr u raw = some v → IsProper v) ↔ (CellValue.text raw).IsSound u := by
  constructor
  · intro h hguards hstray
    rcases hstray with hnan | ⟨q, hq, htiny⟩
    · have hread := readAmount_eq_some_iff.mpr ⟨hguards, F64.parse_eq_nan_iff.mpr hnan⟩
      exact not_isProper_nan (h _ (parseStr_of_checked hread rfl rfl))
    · have hread := readAmount_eq_some_iff.mpr ⟨hguards, hq⟩
      exact htiny.not_proper
        (h _ (parseStr_of_checked hread htiny.checked.1 htiny.checked.2))
  · intro h v hv
    obtain ⟨n, hread, hamount, rfl⟩ := parseStr_eq_some hv
    obtain ⟨hguards, hparse⟩ := readAmount_eq_some_iff.mp hread
    have hsound := h hguards
    rw [IsStray, not_or] at hsound
    rcases hamount with rfl | ⟨q, rfl, hzero, hmax⟩
    · exact absurd (F64.parse_eq_nan_iff.mp hparse) hsound.1
    · exact (isProper_round2_iff hzero hmax).mpr fun htiny => hsound.2 ⟨q, hparse, htiny⟩

/-- A blank text has no amount without being looked at for one. -/
theorem parseAmountStr_eq : parseAmountStr u raw = parseStr u raw := by
  rw [parseAmountStr]
  split
  · next hblank =>
    have hclean : cleanAmount u raw = [] := by
      have hbefore : reCrDrSuffix.beforeMatch u [] = [] := by
        rw [Regex.beforeMatch]
        split <;> simp
      rw [cleanAmount, List.isEmpty_iff.mp hblank]
      simp only [hbefore]
      rfl
    cases hread : readAmount u raw with
    | none => rw [parseStr, hread]; rfl
    | some n =>
      obtain ⟨hguards, -⟩ := readAmount_eq_some_iff.mp hread
      exact absurd hclean hguards.notEmpty.1
  · rfl

/-- **What comes out of the parser is an amount of paise, not zero and at most 200 crore, exactly
when the cell states no number nearer to zero than half a paisa, and not the word for what is no
number.** -/
theorem amounts_proper_iff (u : Unicode) (cell : CellValue) :
    ((∀ v, parseAmount u cell = some v → IsProper v) ↔ cell.IsSound u) ∧
      ∀ s, (∀ v, parseAmountStr u s = some v → IsProper v) ↔ (CellValue.text s).IsSound u := by
  refine ⟨?_, fun s => ?_⟩
  · cases cell with
    | empty => exact iff_of_true (fun v hv => by cases hv) trivial
    | number f => exact parseFloat_proper_iff
    | text s => exact parseStr_proper_iff
  · rw [parseAmountStr_eq]
    exact parseStr_proper_iff

end

/-- The word for what is no number, and a number that is rounded to zero. -/
theorem stray_amounts :
    parseAmount .ascii (.text "nan".toList) = some .nan ∧
      parseAmount .ascii (.text "1e-5".toList) = some (.finite 0) ∧
      parseAmount .ascii (.number (.finite (1 / 1000))) = some (.finite 0) ∧
      ¬∀ cell v, parseAmount .ascii cell = some v → IsProper v := by
  refine ⟨by decide +kernel, by decide +kernel, by decide +kernel, fun h => ?_⟩
  obtain ⟨n, -, -, heq⟩ := h (.text "nan".toList) .nan (by decide +kernel)
  cases heq

end Desktop.Parser
