import Mathlib.Tactic.IntervalCases

/-!
# The calendar

Days of the Gregorian calendar. A `NaiveDate` carries the proof that its month has the day.
-/

namespace Infra

def isLeapYear (year : ℕ) : Bool := (year % 4 == 0 && year % 100 != 0) || year % 400 == 0

/-- The days of a month. A number that is no month has none. -/
def daysInMonth (year : ℕ) : ℕ → ℕ
  | 1 | 3 | 5 | 7 | 8 | 10 | 12 => 31
  | 4 | 6 | 9 | 11 => 30
  | 2 => if isLeapYear year then 29 else 28
  | _ => 0

structure NaiveDate where
  year : ℕ
  month : ℕ
  day : ℕ
  valid : 1 ≤ day ∧ day ≤ daysInMonth year month
deriving DecidableEq, Repr

namespace NaiveDate

def fromYmdOpt (year month day : ℕ) : Option NaiveDate :=
  if h : 1 ≤ day ∧ day ≤ daysInMonth year month then some ⟨year, month, day, h⟩ else none

/-- January has a first day, and so has every other month. -/
theorem valid_first {year month : ℕ} (h : 1 ≤ month ∧ month ≤ 12) :
    1 ≤ 1 ∧ 1 ≤ daysInMonth year month := by
  refine ⟨le_rfl, ?_⟩
  obtain ⟨hlower, hupper⟩ := h
  interval_cases month <;> simp only [daysInMonth] <;> first | omega | (split <;> omega)

/-- The next day. -/
def succ (d : NaiveDate) : NaiveDate :=
  if h : d.day + 1 ≤ daysInMonth d.year d.month then ⟨d.year, d.month, d.day + 1, by omega, h⟩
  else if h : 1 ≤ d.month + 1 ∧ d.month + 1 ≤ 12 then ⟨d.year, d.month + 1, 1, valid_first h⟩
  else ⟨d.year + 1, 1, 1, valid_first (by omega)⟩

/-- `checked_add_days`. -/
def addDays (d : NaiveDate) : ℕ → NaiveDate
  | 0 => d
  | n + 1 => (d.addDays n).succ

/-- The number of the day, counted from the first day of the year 1. -/
def dayNumber (d : NaiveDate) : ℕ :=
  let years := d.year - 1
  365 * years + years / 4 - years / 100 + years / 400 +
    ((List.range (d.month - 1)).map fun m => daysInMonth d.year (m + 1)).sum + d.day

/-- `timestamp_millis` at midnight. The first of January 1970 has the number 719163. -/
def timestampMillis (d : NaiveDate) : ℤ := ((d.dayNumber : ℤ) - 719163) * 86400000

theorem daysInMonth_le (year month : ℕ) : daysInMonth year month ≤ 31 := by
  unfold daysInMonth
  split <;> first | omega | (split <;> omega)

theorem month_le (d : NaiveDate) : d.month ≤ 12 := by
  by_contra hmonth
  have hzero : daysInMonth d.year d.month = 0 := by
    unfold daysInMonth
    split <;> omega
  have := d.valid
  omega

theorem dayNumber_le (d : NaiveDate) : d.dayNumber ≤ 366 * d.year + 372 := by
  have hsum : ∀ k, ((List.range k).map fun m => daysInMonth d.year (m + 1)).sum ≤ 31 * k := by
    intro k
    induction k with
    | zero => simp
    | succ k ih =>
      rw [List.range_succ, List.map_append, List.sum_append, List.map_singleton,
        List.sum_singleton]
      have := daysInMonth_le d.year (k + 1)
      omega
  have hmonths := hsum (d.month - 1)
  have hmonth := d.month_le
  have hday := d.valid.2.trans (daysInMonth_le d.year d.month)
  unfold dayNumber
  simp only
  omega

end NaiveDate

end Infra
