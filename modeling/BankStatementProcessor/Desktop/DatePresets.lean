import BankStatementProcessor.Desktop.Parser.DateParser

/-!
# The date presets

`preset_range` and `fy_range` read the clock and write the first and the last day of a period.
`now` is the clock, in seconds since 1970.
-/

namespace Desktop.DatePresets

/-- `as i32` -/
def asI32 (n : ℤ) : ℤ := n.bmod 4294967296

/-- `as u32` -/
def asU32 (n : ℤ) : ℕ := (n % 4294967296).toNat

/-- `{:02}` of an `i64` -/
def twoPlaces (n : ℤ) : String := if 0 ≤ n ∧ n < 10 then s!"0{n}" else toString n

def daysInMonth (month : ℕ) (year : ℤ) : ℕ :=
  match month with
  | 1 | 3 | 5 | 7 | 8 | 10 | 12 => 31
  | 4 | 6 | 9 | 11 => 30
  | 2 => if year.tmod 4 == 0 && (year.tmod 100 != 0 || year.tmod 400 == 0) then 29 else 28
  | _ => 30

def fyRange (now : ℕ) (current : Bool) : String × String :=
  let days : ℤ := (now / 86400 : ℕ)
  let year := 1970 + days.tdiv 365
  let dayOfYear := days.tmod 365
  let (fyStartYear, fyEndYear) := if dayOfYear ≥ 90 then (year, year + 1) else (year - 1, year)
  if current then (s!"01/04/{fyStartYear}", s!"31/03/{fyEndYear}")
  else (s!"01/04/{fyStartYear - 1}", s!"31/03/{fyStartYear}")

/-- The year, the month and the day that `preset_range` computes. -/
def gregorian (daysSinceEpoch : ℤ) : ℤ × ℤ × ℤ :=
  let z := daysSinceEpoch + 719468
  let era := (if z ≥ 0 then z else z - 146096).tdiv 146097
  let doe := z - era * 146097
  let yoe := (doe - doe.tdiv 1460 + doe.tdiv 36524 - doe.tdiv 146096).tdiv 365
  let y := yoe + era * 400
  let doy := doe - (365 * yoe + yoe.tdiv 4 - yoe.tdiv 100)
  let mp := (5 * doy + 2).tdiv 153
  let d := doy - (153 * mp + 2).tdiv 5 + 1
  let m := if mp < 10 then mp + 3 else mp - 9
  (if m ≤ 2 then y + 1 else y, m, d)

def presetRange (now : ℕ) (preset : String) : String × String :=
  let (y, m, d) := gregorian (now / 86400 : ℕ)
  match preset with
  | "today" =>
    let today := s!"{twoPlaces d}/{twoPlaces m}/{y}"
    (today, today)
  | "this_month" =>
    let lastDay := daysInMonth (asU32 m) (asI32 y)
    (s!"01/{twoPlaces m}/{y}", s!"{Parser.twoDigits lastDay}/{twoPlaces m}/{y}")
  | "last_month" =>
    let (pm, py) := if m = 1 then (12, y - 1) else (m - 1, y)
    let lastDay := daysInMonth (asU32 pm) (asI32 py)
    (s!"01/{twoPlaces pm}/{py}", s!"{Parser.twoDigits lastDay}/{twoPlaces pm}/{py}")
  | "current_fy" => fyRange now true
  | "prev_fy" => fyRange now false
  | _ => ("", "")

example : presetRange 1709251200 "last_month" = ("01/02/2024", "29/02/2024") := by decide +kernel

end Desktop.DatePresets
