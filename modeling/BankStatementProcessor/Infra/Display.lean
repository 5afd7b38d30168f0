import BankStatementProcessor.Infra.F64

/-!
# How a double is written

`{}` writes the shortest decimal that reads back as the same double, and never an exponent.
-/

namespace Infra

namespace F64

/-- The integer nearest to a rational, a half to the even one. -/
def roundTiesEven (q : ℚ) : ℤ :=
  let n := ⌊q⌋
  if q - n < 1 / 2 then n
  else if 1 / 2 < q - n then n + 1
  else if n % 2 = 0 then n
  else n + 1

/-- `q * b ^ e` -/
def scale (q : ℚ) (b : ℕ) (e : ℤ) : ℚ :=
  if 0 ≤ e then q * (b ^ e.toNat : ℕ) else q / (b ^ (-e).toNat : ℕ)

/-- The double nearest to a rational above 0, with 53 bits or down to the 1074th place. -/
def nearest (q : ℚ) : ℚ :=
  let top : ℤ := (Nat.log2 q.num.natAbs : ℤ) - Nat.log2 q.den
  let last := if scale q 2 (52 - top) < (2 ^ 52 : ℕ) then top - 53 else top - 52
  let last := Max.max last (-1074)
  scale (roundTiesEven (scale q 2 (-last))) 2 last

/-- The first place from `p` on where the decimal `m / 10 ^ p` next to `q` is the same double. -/
def shortest (q : ℚ) : ℕ → ℤ → ℤ × ℤ
  | 0, p => (roundTiesEven (scale q 10 p), p)
  | fuel + 1, p =>
    let m := roundTiesEven (scale q 10 p)
    if nearest (scale m 10 (-p)) = q then (m, p) else shortest q fuel (p + 1)

/-- The digits of `m / 10 ^ p`. -/
def decimal (m : ℕ) (p : ℤ) : String :=
  if p ≤ 0 then toString (m * 10 ^ (-p).toNat)
  else
    let whole := toString (m / 10 ^ p.toNat)
    let fraction := toString (m % 10 ^ p.toNat)
    whole ++ "." ++ String.ofList (List.replicate (p.toNat - fraction.length) '0') ++ fraction

/-- `impl Display for f64`. A double has at most 1074 digits after the point. -/
def display : F64 → String
  | nan => "NaN"
  | infinite negative => if negative then "-inf" else "inf"
  | finite q =>
    if q = 0 then "0"
    else
      let x := nearest |q|
      let whole := (toString ⌊x⌋.toNat).length
      let (m, p) := shortest x (whole + 1074) (-whole)
      (if q < 0 then "-" else "") ++ decimal m.toNat p

/-- `{:.p}`, with a fixed number of digits after the point. -/
def fixed (p : ℕ) : F64 → String
  | nan => "NaN"
  | infinite negative => if negative then "-inf" else "inf"
  | finite q => (if q < 0 then "-" else "") ++ decimal (roundTiesEven (|q| * 10 ^ p)).toNat p

example : display (finite 50000) = "50000" := by decide +kernel
example : display (finite (1 / 10)) = "0.1" := by decide +kernel
example : fixed 2 (finite (-50001 / 10)) = "-5000.10" := by decide +kernel
example : fixed 0 (finite (185 / 2)) = "92" := by decide +kernel

end F64

end Infra
