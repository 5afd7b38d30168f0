import BankStatementProcessor.Desktop.Parser.PdfParser
import BankStatementProcessor.Infra.Fences
import BankStatementProcessor.Infra.Nearest

/-!
# Column boundaries

`calc_col_boundaries`: the range of a column ends halfway to the next item of the header row,
or to the next column when there is no header row.
-/

namespace Desktop.Parser

open Infra

/-! ## Column positions -/

/-- Where the columns were detected. -/
structure PdfColX where
  date : Option F64
  narration : Option F64
  reference : Option F64
  debit : Option F64
  credit : Option F64
  balance : Option F64
  debitCredit : Option F64
deriving DecidableEq, Repr

/-- `ColField::all` -/
def ColField.all : List ColField :=
  [date, narration, reference, debit, credit, balance, debitCredit]

theorem ColField.nodup_all : all.Nodup := by decide

namespace PdfColX

def get (colX : PdfColX) : ColField → Option F64
  | .date => colX.date
  | .narration => colX.narration
  | .reference => colX.reference
  | .debit => colX.debit
  | .credit => colX.credit
  | .balance => colX.balance
  | .debitCredit => colX.debitCredit

def detected (colX : PdfColX) : List (ColField × F64) :=
  ColField.all.filterMap fun f => (colX.get f).map (f, ·)

theorem nodup_fields_detected (colX : PdfColX) : (colX.detected.map (·.1)).Nodup := by
  refine List.Nodup.sublist ?_ ColField.nodup_all
  unfold detected
  induction ColField.all with
  | nil => exact List.Sublist.slnil
  | cons f rest ih =>
    cases hx : colX.get f with
    | none => simpa [hx] using ih.cons f
    | some x => simpa [hx] using ih

end PdfColX

/-! ## Fences -/

/-- `partial_cmp` does not say greater. -/
def notAfter (x y : F64) : Bool := !y.lt x

/-- The difference is less than `0.001`. -/
def isClose (x y : F64) : Bool :=
  (F64.toDouble (x.sub y)).abs.lt (.finite (1152921504606847 / 1152921504606846976))

/-- `dedup_by`: an item close to the last one that was kept is dropped. -/
def dropClose : Option F64 → List F64 → List F64
  | _, [] => []
  | none, x :: rest => x :: dropClose (some x) rest
  | some last, x :: rest =>
    if isClose x last then dropClose (some last) rest else x :: dropClose (some x) rest

def rawFences (colX : PdfColX) (hdrRow : List PdfItem) : List F64 :=
  if hdrRow.isEmpty then colX.detected.map (·.2) else hdrRow.map (·.x)

def sortedFences (raw : List F64) : List F64 := dropClose none (raw.mergeSort notAfter)

/-! ## Boundaries -/

/-- `((left + right) / 2.0).round()` -/
def midpoint (left right : F64) : F64 :=
  (F64.toDouble ((F64.toDouble (left.add right)).divNat 2)).round

/-- The range from the last fence before the column to the first one after it. -/
def boundaryOf (fences : List F64) (column : ColField × F64) : ColBoundary where
  field := column.1
  xMin := (((fences.filter (·.lt column.2)).getLast?).map (midpoint · column.2)).getD (.finite 0)
  xMax := ((fences.find? (column.2.lt ·)).map (midpoint column.2 ·)).getD (.infinite false)

/-- `calc_col_boundaries`. Comparing a position that is not a number panics. -/
def calcColBoundaries (colX : PdfColX) (hdrRow : List PdfItem) : Option (List ColBoundary) :=
  if 1 < colX.detected.length && colX.detected.any (·.2 == .nan) then none
  else
    let sorted := colX.detected.mergeSort fun a b => notAfter a.2 b.2
    some (sorted.map (boundaryOf (sortedFences (rawFences colX hdrRow))))

/-- The condition on which `assign_cells` puts an item into a column. -/
def ColBoundary.covers (b : ColBoundary) (x : F64) : Bool := b.xMin.le x && x.lt b.xMax

/-! ## A cut between two fences -/

section

variable {a b : ℚ}

/-- The double `b` and half a point before it have no more bits than `b`. -/
theorem hasBits_before (hb : F64.IsExact (.finite b)) (hone : 1 ≤ b) (hle : b ≤ 2 ^ 52) :
    F64.HasBits (2 * b - 1) ∧ F64.HasBits (b - 1 / 2) := by
  obtain ⟨n, e, hn, he, rfl⟩ := hb.hasBits (by linarith)
  rcases le_or_gt 0 e with hnonneg | hneg
  · obtain ⟨k, rfl⟩ := Int.eq_ofNat_of_zero_le hnonneg
    have hwhole : (n : ℚ) * 2 ^ (k : ℤ) = ((n * 2 ^ k : ℤ) : ℚ) := by
      rw [zpow_natCast]
      push_cast
      rfl
    rw [hwhole] at hone hle ⊢
    generalize n * 2 ^ k = m at hone hle ⊢
    have hm : 1 ≤ m := by exact_mod_cast hone
    have hm' : m ≤ 2 ^ 52 := by exact_mod_cast hle
    have hodd : |2 * m - 1| < 2 ^ 53 := by
      rw [abs_lt]
      constructor <;> omega
    have hbits := F64.hasBits_half hodd
    have hhalf : (m : ℚ) - 1 / 2 = (2 * m - 1) / 2 := by ring
    rw [hhalf]
    exact_mod_cast hbits
  · obtain ⟨k, rfl⟩ : ∃ k : ℕ, e = -(k + 1 : ℕ) := ⟨(-e).toNat - 1, by omega⟩
    -- Below the point `b` has a place for the half.
    have hpos : (0 : ℚ) < 2 ^ (k + 1) := by positivity
    have hunit : (2 : ℚ) ^ (-((k + 1 : ℕ) : ℤ)) = (2 ^ (k + 1))⁻¹ := by
      rw [zpow_neg, zpow_natCast]
    have hnlow : 2 ^ (k + 1) ≤ n := by
      rw [hunit, ← div_eq_mul_inv, le_div_iff₀ hpos, one_mul] at hone
      exact_mod_cast hone
    have hk : (0 : ℤ) < 2 ^ k := by positivity
    have hsucc : (2 : ℤ) ^ (k + 1) = 2 * 2 ^ k := pow_succ' 2 k
    have hbits : |n - 2 ^ k| < 2 ^ 53 := by
      rw [abs_lt] at hn ⊢
      constructor <;> omega
    have hhalf : (n : ℚ) * 2 ^ (-((k + 1 : ℕ) : ℤ)) - 1 / 2 =
        ((n - 2 ^ k : ℤ) : ℚ) * 2 ^ (-((k + 1 : ℕ) : ℤ)) := by
      rw [hunit]
      push_cast
      field_simp
      ring
    have hdouble : 2 * ((n : ℚ) * 2 ^ (-((k + 1 : ℕ) : ℤ))) - 1 =
        ((n - 2 ^ k : ℤ) : ℚ) * 2 ^ (-(k : ℤ)) := by
      rw [hunit, zpow_neg, zpow_natCast]
      push_cast
      field_simp
      ring
    exact ⟨⟨_, _, hbits, by omega, hdouble⟩, ⟨_, _, hbits, he, hhalf⟩⟩

/-- A cut comes after the left fence and not after the right one. -/
theorem midpoint_between (ha : 0 ≤ a) (hb : F64.IsExact (.finite b)) (hle : b ≤ 2 ^ 52)
    (hab : a + 1 ≤ b) :
    ∃ m, midpoint (.finite a) (.finite b) = .finite m ∧ a < m ∧ m ≤ b := by
  obtain ⟨hbits, hbits'⟩ := hasBits_before hb (by linarith) hle
  have hfloor : (⌊a⌋ : ℚ) ≤ a := Int.floor_le a
  have hfloor' : a < ⌊a⌋ + 1 := Int.lt_floor_add_one a
  have hnonneg : 0 ≤ ⌊a⌋ := Int.floor_nonneg.mpr ha
  have hodd : |2 * ⌊a⌋ + 1| < 2 ^ 53 := by
    have : ⌊a⌋ < 2 ^ 52 := by
      rw [Int.floor_lt]
      push_cast
      linarith
    rw [abs_lt]
    constructor <;> omega
  obtain ⟨hlow, hlow'⟩ := F64.hasBits_half hodd
  push_cast at hlow hlow'
  have hnonneg' : (0 : ℚ) ≤ ⌊a⌋ := by exact_mod_cast hnonneg
  have hlarge : ∀ q : ℚ, q < 2 ^ 53 → q < 2 ^ 1024 := fun q hq =>
    hq.trans_le (pow_le_pow_right₀ one_le_two (by norm_num))
  obtain ⟨sum, hsum, hsumLow, hsumHigh⟩ := F64.toDouble_between (q := a + b) hlow hbits
    (by linarith) (by linarith) (by linarith) (hlarge _ (by linarith))
  obtain ⟨half, hhalf, hhalfLow, hhalfHigh⟩ := F64.toDouble_between (q := sum / 2) hlow' hbits'
    (by linarith) (by linarith) (by linarith) (hlarge _ (by linarith))
  refine ⟨F64.roundRat half, ?_, ?_, ?_⟩
  · rw [midpoint, F64.add_finite, hsum]
    have hdiv : (F64.finite sum).divNat 2 = .finite (sum / 2) := by simp [F64.divNat]
    rw [hdiv, hhalf]
    rfl
  · have hround : ⌊a⌋ + 1 ≤ F64.roundRat half := by
      rw [F64.roundRat, if_neg (by linarith), Int.le_floor]
      push_cast
      linarith
    have : ((⌊a⌋ + 1 : ℤ) : ℚ) ≤ F64.roundRat half := by exact_mod_cast hround
    push_cast at this
    linarith
  · rw [F64.roundRat, if_neg (by linarith)]
    exact (Int.floor_le _).trans (by linarith)

end

end Desktop.Parser
