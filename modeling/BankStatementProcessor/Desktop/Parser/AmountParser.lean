import BankStatementProcessor.Desktop.Analytics
import BankStatementProcessor.Infra.Regex

/-!
# Amounts

`parse_amount`. The number that stands in a cell is read first and then rounded to paise.
-/

namespace Desktop.Parser

open Infra

/-- 200 crore. -/
def maxAmount : F64 := .finite 2000000000

/-! ## Numbers -/

/-- `parse_float`. -/
def parseFloat (f : F64) : Option F64 :=
  if !f.isFinite || F64.eqv f (.finite 0) then none
  else if F64.lt maxAmount (F64.abs f) then none
  else some (F64.round2 f)

/-! ## Texts -/

/-- `^\d{10,}$` -/
def reRefId : Regex := .seqs [.start, .atLeast 10 .digit, .stop]

/-- `(?i)\s*(CR|DR)\b.*$` -/
def reCrDrSuffix : Regex :=
  .seqs [.spaces, .alts [.litIgnoreCase "CR", .litIgnoreCase "DR"], .boundary, .star .any, .stop]

/-- Without what `(?i)^Rs\.?` matches. -/
def stripRsPrefix : List Char → List Char
  | r :: s :: cs =>
    if r.toLower == 'r' && (s.toLower == 's' || s == 'ſ') then
      match cs with
      | '.' :: cs => cs
      | cs => cs
    else r :: s :: cs
  | cs => cs

/-- `(-)` before an amount is a minus. -/
def minusPrefix : List Char → List Char
  | '(' :: '-' :: ')' :: cs => '-' :: cs
  | cs => cs

/-- The first `\(([^)]+)\)` with a minus for the brackets. -/
def negativeParens : List Char → List Char
  | [] => []
  | c :: cs =>
    if c == '(' then
      match cs.span (· != ')') with
      | (d :: inner, ')' :: rest) => '-' :: d :: inner ++ rest
      | _ => c :: negativeParens cs
    else c :: negativeParens cs

/-- At most `n` characters at the end that are no digits, as long as the text is no number. -/
def stripJunk : ℕ → List Char → List Char
  | 0, cs => cs
  | n + 1, cs =>
    if (F64.parse cs).isNone && cs.getLast?.any (!·.isDigit) then stripJunk n cs.dropLast else cs

/-- More than two decimals follow the first point. -/
def hasLongFraction (cs : List Char) : Bool := 2 < len ((cs.dropWhile (· != '.')).drop 1)

section

variable (u : Unicode)

/-- The steps before the number is read. -/
def cleanAmount (raw : List Char) : List Char :=
  let s := reCrDrSuffix.beforeMatch u (trim raw)
  let s := s.filter fun c => c != '₹' && !isWhitespace c
  let s := (stripRsPrefix s).filter (· != ',')
  trim (negativeParens (minusPrefix s))

/-- The number that a text states, before it is rounded. -/
def readAmount (raw : List Char) : Option F64 :=
  if reRefId.isMatch u (trim raw) then none
  else
    let s := cleanAmount u raw
    if s.isEmpty || s == ['-'] then none
    else if s.map Char.toLower == "nil".toList || s.map Char.toLower == "n/a".toList then none
    else
      let s := stripJunk 2 s
      if 10 < s.countP Char.isDigit then none
      else if hasLongFraction s then none
      else F64.parse s

/-- `parse_str`. -/
def parseStr (raw : List Char) : Option F64 :=
  (readAmount u raw).bind fun n =>
    if F64.eqv n (.finite 0) then none
    else if F64.lt maxAmount (F64.abs n) then none
    else some (F64.round2 n)

def parseAmountStr (s : List Char) : Option F64 := if (trim s).isEmpty then none else parseStr u s

end

/-! ## Cells -/

inductive CellValue where
  | empty
  | number (f : F64)
  | text (s : List Char)
deriving DecidableEq, Repr

def parseAmount (u : Unicode) : CellValue → Option F64
  | .empty => none
  | .number f => parseFloat f
  | .text s => parseStr u s

/-! ## What an amount can be -/

/-- An amount that is not a number, or a number of at most 200 crore that is not zero. -/
def IsAmount (n : F64) : Prop :=
  n = .nan ∨ ∃ q : ℚ, n = .finite q ∧ q ≠ 0 ∧ |q| ≤ 2000000000

theorem isAmount_of_checked {n : F64} (hzero : F64.eqv n (.finite 0) = false)
    (hmax : F64.lt maxAmount (F64.abs n) = false) : IsAmount n := by
  cases n with
  | nan => exact Or.inl rfl
  | infinite negative => simp [F64.abs, F64.lt, maxAmount] at hmax
  | finite q =>
    refine Or.inr ⟨q, rfl, ?_, ?_⟩
    · rintro rfl
      simp [F64.eqv] at hzero
    · rw [F64.abs_finite, ← Bool.not_eq_true, maxAmount, F64.lt_finite, not_lt] at hmax
      exact hmax

theorem parseFloat_eq_some {f x : F64} (h : parseFloat f = some x) :
    IsAmount f ∧ f ≠ .nan ∧ x = F64.round2 f := by
  unfold parseFloat at h
  split at h
  · cases h
  · next hchecked =>
    split at h
    · cases h
    · next hmax =>
      simp only [Bool.or_eq_true, Bool.not_eq_true', not_or, Bool.not_eq_false, Bool.not_eq_true]
        at hchecked hmax
      refine ⟨isAmount_of_checked hchecked.2 hmax, ?_, (Option.some.inj h).symm⟩
      rintro rfl
      simp [F64.isFinite] at hchecked

theorem parseStr_eq_some {u : Unicode} {raw : List Char} {x : F64}
    (h : parseStr u raw = some x) :
    ∃ n, readAmount u raw = some n ∧ IsAmount n ∧ x = F64.round2 n := by
  obtain ⟨n, hread, hn⟩ := Option.bind_eq_some_iff.mp h
  split at hn
  · cases hn
  · next hzero =>
    split at hn
    · cases hn
    · next hmax =>
      rw [Bool.not_eq_true] at hzero hmax
      exact ⟨n, hread, isAmount_of_checked hzero hmax, (Option.some.inj hn).symm⟩

end Desktop.Parser
