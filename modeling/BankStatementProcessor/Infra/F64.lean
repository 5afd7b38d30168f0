import Mathlib.Data.List.TakeWhile
import Mathlib.Data.Rat.Floor
import Mathlib.Tactic.Linarith

/-!
# Double-precision numbers

`F64` is an IEEE 754 double as comparisons see it: a finite one is the rational it denotes,
and the two zeros are the same. Arithmetic is exact.
-/

namespace Infra

inductive F64 where
  | nan
  | infinite (negative : Bool)
  | finite (value : ℚ)
deriving DecidableEq, Repr

namespace F64

/-- `f64::is_finite`. -/
def isFinite : F64 → Bool
  | finite _ => true
  | _ => false

/-- `f64::abs`. -/
def abs : F64 → F64
  | nan => nan
  | infinite _ => infinite false
  | finite q => finite (if q < 0 then -q else q)

/-- `x < y`, false as soon as one side is not a number. -/
def lt : F64 → F64 → Bool
  | nan, _ => false
  | _, nan => false
  | infinite negative, infinite negative' => negative && !negative'
  | infinite negative, finite _ => negative
  | finite _, infinite negative' => !negative'
  | finite q, finite q' => q < q'

/-- `x <= y`. -/
def le (x y : F64) : Bool :=
  lt x y || (x == y && x != nan)

/-- `x == y`, false when both are not a number. -/
def eqv (x y : F64) : Bool := x == y && x != nan

/-! ## Arithmetic -/

/-- The value of a finite number. -/
def toRat : F64 → ℚ
  | finite q => q
  | _ => 0

def neg : F64 → F64
  | nan => nan
  | infinite negative => infinite !negative
  | finite q => finite (-q)

def add : F64 → F64 → F64
  | nan, _ => nan
  | _, nan => nan
  | infinite negative, infinite negative' =>
    if negative = negative' then infinite negative else nan
  | infinite negative, finite _ => infinite negative
  | finite _, infinite negative => infinite negative
  | finite q, finite q' => finite (q + q')

def sub (x y : F64) : F64 := add x (neg y)

def isNegative : F64 → Bool
  | nan => false
  | infinite negative => negative
  | finite q => q < 0

def mul : F64 → F64 → F64
  | nan, _ => nan
  | _, nan => nan
  | finite q, finite q' => finite (q * q')
  | x, y =>
    if x = finite 0 ∨ y = finite 0 then nan else infinite (x.isNegative ^^ y.isNegative)

/-- The integer nearest to a rational, a half away from zero. -/
def roundRat (q : ℚ) : ℤ := if q < 0 then -⌊-q + 1 / 2⌋ else ⌊q + 1 / 2⌋

/-- `f64::round`. -/
def round : F64 → F64
  | finite q => finite (roundRat q)
  | x => x

/-- `f64::floor`. -/
def floor : F64 → F64
  | finite q => finite ⌊q⌋
  | x => x

/-- `f64::max`, which ignores what is not a number. -/
def max (x y : F64) : F64 :=
  if x = nan then y else if y = nan then x else if lt x y then y else x

/-- `f64::min`, which ignores what is not a number. -/
def min (x y : F64) : F64 :=
  if x = nan then y else if y = nan then x else if lt y x then y else x

/-- The quotient by a whole number above 0. -/
def divNat (x : F64) (n : ℕ) : F64 :=
  match x with
  | finite q => finite (q / n)
  | x => x

/-- `(f * 100.0).round() / 100.0`. -/
def round2 : F64 → F64
  | finite q => finite (roundRat (q * 100) / 100)
  | x => x

/-! ## Reading -/

/-- The value of a run of digits. -/
def digitsValue (cs : List Char) : ℕ := cs.foldl (fun n c => 10 * n + (c.toNat - '0'.toNat)) 0

/-- A rational too small for a double is zero, and one too large infinite. -/
def ofRat (q : ℚ) : F64 :=
  if |q| ≤ 1 / 2 ^ 1075 then finite 0
  else if 2 ^ 1024 - 2 ^ 970 ≤ |q| then infinite (q < 0)
  else finite q

def splitSign : List Char → Bool × List Char
  | '-' :: cs => (true, cs)
  | '+' :: cs => (false, cs)
  | cs => (false, cs)

/-- An exponent, or nothing. -/
def parseExponent : List Char → Option ℤ
  | [] => some 0
  | e :: cs =>
    let (negative, digits) := splitSign cs
    if (e == 'e' || e == 'E') && !digits.isEmpty && digits.all Char.isDigit then
      some (if negative then -(digitsValue digits : ℤ) else digitsValue digits)
    else none

/-- Digits with at most one point among them, and an exponent. -/
def parseMagnitude (cs : List Char) : Option ℚ :=
  let (whole, rest) := cs.span Char.isDigit
  let (decimals, rest) := match rest with
    | '.' :: rest => rest.span Char.isDigit
    | rest => ([], rest)
  if whole.isEmpty && decimals.isEmpty then none
  else
    (parseExponent rest).map fun e : ℤ =>
      (digitsValue (whole ++ decimals) : ℚ) * 10 ^ (e - decimals.length)

/-- `str::parse::<f64>`. -/
def parse (cs : List Char) : Option F64 :=
  let (negative, body) := splitSign cs
  match parseMagnitude body with
  | some q => some (ofRat (if negative then -q else q))
  | none =>
    let word := body.map Char.toLower
    if word = "nan".toList then some nan
    else if word = "inf".toList ∨ word = "infinity".toList then some (infinite negative)
    else none

/-! ## Reading decimals -/

theorem digitsValue_append (cs ds : List Char) :
    digitsValue (cs ++ ds) = 10 ^ ds.length * digitsValue cs + digitsValue ds :=
  (Nat.ofDigitChars_append 0).trans (Nat.ofDigitChars_eq_ofDigitChars_zero)

theorem digitsValue_toDigits (n : ℕ) : digitsValue (Nat.toDigits 10 n) = n :=
  Nat.ofDigitChars_ten_toDigits

theorem isDigit_of_mem_toDigits {n : ℕ} {c : Char} (h : c ∈ Nat.toDigits 10 n) :
    c.isDigit = true := Nat.isDigit_of_mem_toDigits (by decide) (by decide) h

theorem ofRat_of_bounds {q : ℚ} (hlower : 1 / 2 ^ 8 ≤ |q|) (hupper : |q| ≤ 2 ^ 64) :
    ofRat q = finite q := by
  have hsmall : (1 : ℚ) / 2 ^ 1075 < 1 / 2 ^ 8 :=
    one_div_lt_one_div_of_lt (by positivity) (pow_lt_pow_right₀ (by norm_num) (by norm_num))
  have hlarge : (2 : ℚ) ^ 64 < 2 ^ 1024 - 2 ^ 970 := by
    have hpow : (2 : ℚ) ^ 1024 = 2 ^ 970 * 2 ^ 54 := by rw [← pow_add]
    have hmono : (2 : ℚ) ^ 64 < 2 ^ 970 := pow_lt_pow_right₀ (by norm_num) (by norm_num)
    rw [hpow]
    generalize (2 : ℚ) ^ 970 = x at hmono ⊢
    norm_num at hmono ⊢
    linarith
  rw [ofRat, if_neg (not_le.mpr (hsmall.trans_le hlower)),
    if_neg (not_le.mpr (hupper.trans_lt hlarge))]

section

variable {whole decimals cs : List Char}

theorem span_digits (h : ∀ c ∈ whole, c.isDigit = true) {c : Char} (hc : c.isDigit = false) :
    (whole ++ c :: cs).span Char.isDigit = (whole, c :: cs) := by
  rw [List.span_eq_takeWhile_dropWhile, List.takeWhile_append_of_pos h,
    List.dropWhile_append_of_pos h]
  simp [hc]

theorem span_all_digits (h : ∀ c ∈ whole, c.isDigit = true) :
    whole.span Char.isDigit = (whole, []) := by
  rw [List.span_eq_takeWhile_dropWhile, List.takeWhile_eq_self_iff.mpr h,
    List.dropWhile_eq_nil_iff.mpr h]

/-- Digits with a point among them state the number without it, so many places lower. -/
theorem parseMagnitude_point (hne : whole ≠ []) (hwhole : ∀ c ∈ whole, c.isDigit = true)
    (hdecimals : ∀ c ∈ decimals, c.isDigit = true) :
    parseMagnitude (whole ++ '.' :: decimals) =
      some ((digitsValue (whole ++ decimals) : ℚ) / 10 ^ decimals.length) := by
  have hempty : whole.isEmpty = false := List.isEmpty_eq_false_iff.mpr hne
  unfold parseMagnitude
  rw [span_digits hwhole (show '.'.isDigit = false by decide)]
  simp only [span_all_digits hdecimals, hempty, parseExponent]
  simp [div_eq_mul_inv]

theorem splitSign_of_digit {c : Char} (hc : c.isDigit = true) :
    splitSign (c :: cs) = (false, c :: cs) := by
  unfold splitSign
  split
  · next h => cases h; cases hc
  · next h => cases h; cases hc
  · rfl

end

/-! ## Order -/

/-- What is above 0 is a number, and among numbers `not less` goes on. -/
theorem not_lt_trans {x y z : F64} (hy : lt (finite 0) y = true) (hxy : lt x y = false)
    (hyz : lt y z = false) : lt x z = false := by
  cases y with
  | nan => cases hy
  | infinite negative =>
    cases x <;> cases z <;> simp_all [lt]
  | finite q =>
    cases x with
    | nan => rfl
    | infinite negative => cases z <;> simp_all [lt]
    | finite p =>
      cases z with
      | nan => rfl
      | infinite negative => simp_all [lt]
      | finite r =>
        simp only [lt, decide_eq_false_iff_not, not_lt] at hxy hyz ⊢
        exact hyz.trans hxy

theorem ne_nan_of_lt {x y : F64} (h : lt x y = true) : y ≠ nan := by
  rintro rfl
  cases x <;> cases h

/-- Among numbers, what is not less is at least as much. -/
theorem le_of_not_lt {x y : F64} (hx : x ≠ nan) (hy : y ≠ nan) (h : lt y x = false) :
    le x y = true := by
  cases x with
  | nan => exact absurd rfl hx
  | infinite negative =>
    cases y with
    | nan => exact absurd rfl hy
    | infinite negative' => cases negative <;> cases negative' <;> simp_all [lt, le]
    | finite q => cases negative <;> simp_all [lt, le]
  | finite p =>
    cases y with
    | nan => exact absurd rfl hy
    | infinite negative => cases negative <;> simp_all [lt, le]
    | finite q =>
      simp only [lt, decide_eq_false_iff_not, not_lt] at h
      rcases h.lt_or_eq with hlt | rfl
      · simp [le, lt, hlt]
      · simp [le]

theorem lt_asymm {x y : F64} (h : lt x y = true) : lt y x = false := by
  cases x <;> cases y <;> simp_all [lt]
  next p q => exact h.le

/-! ## Finite numbers -/

section

variable {q q' : ℚ}

@[simp] theorem isFinite_finite : (finite q).isFinite = true := rfl

@[simp] theorem toRat_finite : (finite q).toRat = q := rfl

@[simp] theorem neg_finite : neg (finite q) = finite (-q) := rfl

@[simp] theorem add_finite : add (finite q) (finite q') = finite (q + q') := rfl

@[simp] theorem sub_finite : sub (finite q) (finite q') = finite (q - q') := by
  rw [sub, neg_finite, add_finite, sub_eq_add_neg]

@[simp] theorem mul_finite : mul (finite q) (finite q') = finite (q * q') := rfl

@[simp] theorem abs_finite : F64.abs (finite q) = finite |q| := by
  rw [F64.abs]
  split
  · next h => rw [abs_of_neg h]
  · next h => rw [abs_of_nonneg (not_lt.mp h)]

theorem abs_idem (x : F64) : F64.abs (F64.abs x) = F64.abs x := by
  cases x with
  | nan => rfl
  | infinite negative => rfl
  | finite q => simp

@[simp] theorem lt_finite : lt (finite q) (finite q') = true ↔ q < q' := by
  simp [lt]

@[simp] theorem le_finite : le (finite q) (finite q') = true ↔ q ≤ q' := by
  simp [le, le_iff_lt_or_eq]

@[simp] theorem round2_finite : round2 (finite q) = finite (roundRat (q * 100) / 100) := rfl

theorem max_finite : max (finite q) (finite q') = finite (q ⊔ q') := by
  by_cases h : q < q'
  · simp [max, h, h.le]
  · simp [max, h, not_lt.mp h]

theorem roundRat_intCast (n : ℤ) : roundRat n = n := by
  have hfloor : ∀ m : ℤ, ⌊(m : ℚ) + 1 / 2⌋ = m := by
    intro m
    rw [Int.floor_eq_iff]
    constructor <;> linarith
  unfold roundRat
  split
  · rw [← Int.cast_neg, hfloor, neg_neg]
  · exact hfloor n

theorem roundRat_neg (q : ℚ) : roundRat (-q) = -roundRat q := by
  have hzero : roundRat 0 = 0 := roundRat_intCast 0
  rcases lt_trichotomy q 0 with h | rfl | h
  · rw [roundRat, roundRat, if_neg (by linarith), if_pos h, neg_neg]
  · rw [neg_zero, hzero, neg_zero]
  · rw [roundRat, roundRat, if_pos (by linarith), if_neg (by linarith), neg_neg]

theorem roundRat_pos_iff : 0 < roundRat q ↔ 1 / 2 ≤ q := by
  unfold roundRat
  split
  · next hneg =>
    refine iff_of_false ?_ (by linarith)
    have hfloor : 0 ≤ ⌊-q + 1 / 2⌋ := Int.floor_nonneg.mpr (by linarith)
    omega
  · rw [Int.lt_iff_add_one_le, zero_add, Int.le_floor]
    push_cast
    constructor <;> intro <;> linarith

theorem roundRat_nonneg (h : 0 ≤ q) : 0 ≤ roundRat q := by
  rw [roundRat, if_neg (not_lt.mpr h)]
  exact Int.floor_nonneg.mpr (by linarith)

theorem roundRat_abs (q : ℚ) : roundRat |q| = |roundRat q| := by
  rcases le_total 0 q with h | h
  · rw [abs_of_nonneg h, abs_of_nonneg (roundRat_nonneg h)]
  · have hneg := roundRat_nonneg (neg_nonneg.mpr h)
    rw [abs_of_nonpos h]
    rw [roundRat_neg] at hneg ⊢
    rw [abs_of_nonpos (by omega)]

/-- Rounding does not go beyond a whole number. -/
theorem roundRat_le {n : ℤ} (h : q ≤ n) : roundRat q ≤ n := by
  unfold roundRat
  split
  · next hneg =>
    by_contra hlt
    have hfloor : ⌊-q + 1 / 2⌋ < -n := by omega
    rw [Int.floor_lt] at hfloor
    push_cast at hfloor
    have hn : n < 0 := by
      have : 0 ≤ ⌊-q + 1 / 2⌋ := Int.floor_nonneg.mpr (by linarith)
      omega
    linarith
  · have hfloor : ⌊q + 1 / 2⌋ < n + 1 := by
      rw [Int.floor_lt]
      push_cast
      linarith
    omega

theorem abs_round2_finite : abs (round2 (finite q)) = round2 (finite |q|) := by
  have hround : |(roundRat (q * 100) : ℚ)| = roundRat (|q| * 100) := by
    rw [← abs_of_pos (show (0 : ℚ) < 100 by norm_num), ← abs_mul, roundRat_abs, Int.cast_abs]
    norm_num
  rw [round2_finite, abs_finite, round2_finite, abs_div, hround]
  norm_num

/-- Rounding keeps what is exact paise. -/
theorem round2_paise (n : ℤ) : round2 (finite (n / 100)) = finite (n / 100) := by
  rw [round2_finite, div_mul_cancel₀ _ (by norm_num), roundRat_intCast]

end

end F64

end Infra
