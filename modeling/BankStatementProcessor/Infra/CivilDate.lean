import BankStatementProcessor.Infra.Calendar

/-!
# Days and years counted from March

Counted from March, a leap day is the last of its year, and the number of a day gives back its
year and its month. `dayNumber_addDays` says how far `addDays` goes.
-/

namespace Infra

/-! ## The days of a year -/

/-- The leap days up to a year are those up to the year before and its own. -/
theorem daysInMonth_february {year : ℕ} (h : 1 ≤ year) :
    daysInMonth year 2 + (year - 1) / 4 + year / 100 + (year - 1) / 400 =
      28 + year / 4 + (year - 1) / 100 + year / 400 := by
  rw [daysInMonth]
  cases hleap : isLeapYear year with
  | true =>
    simp only [isLeapYear, Bool.or_eq_true, Bool.and_eq_true, beq_iff_eq, bne_iff_ne] at hleap
    rw [if_pos rfl]
    omega
  | false =>
    simp only [isLeapYear, Bool.or_eq_false_iff, Bool.and_eq_false_iff, beq_eq_false_iff_ne,
      bne_eq_false_iff_eq] at hleap
    rw [if_neg (by decide)]
    omega

/-- The days of a year before a month. -/
theorem daysBefore_eq (year : ℕ) {month : ℕ} (hlower : 1 ≤ month) (hupper : month ≤ 12) :
    ((List.range (month - 1)).map fun m => daysInMonth year (m + 1)).sum =
      if month ≤ 2 then 31 * (month - 1)
      else 31 + daysInMonth year 2 + (153 * (month - 3) + 2) / 5 := by
  have hmonths : ((List.range 11).map fun m => daysInMonth year (m + 1)) =
      [31, daysInMonth year 2, 31, 30, 31, 30, 31, 31, 30, 31, 30] := rfl
  have hrange : List.range (month - 1) = (List.range 11).take (month - 1) := by
    rw [List.take_range, Nat.min_eq_left (by omega)]
  rw [hrange, List.map_take, hmonths]
  interval_cases month <;> simp <;> omega

/-- The year of an era, from the number of the day in the era. -/
theorem yearOfEra_eq {yoe doy doe : ℤ} (hlower : 0 ≤ yoe) (hupper : yoe < 400) (hdoy : 0 ≤ doy)
    (hlong : doy ≤ 364 ∨ doy = 365 ∧ ((yoe + 1) % 4 = 0 ∧ (yoe + 1) % 100 ≠ 0 ∨ yoe = 399))
    (hdoe : doe = 365 * yoe + yoe / 4 - yoe / 100 + doy) :
    (doe - doe / 1460 + doe / 36524 - doe / 146096) / 365 = yoe := by
  obtain ⟨c, q, r, hyoe, hc, hq, hr⟩ : ∃ c q r : ℤ, yoe = 100 * c + 4 * q + r ∧
      (0 ≤ c ∧ c ≤ 3) ∧ (0 ≤ q ∧ q ≤ 24) ∧ 0 ≤ r ∧ r ≤ 3 :=
    ⟨yoe / 100, yoe % 100 / 4, yoe % 4, by omega, by omega, by omega, by omega⟩
  have hdays : doe = 36524 * c + 1461 * q + 365 * r + doy := by omega
  clear hdoe
  have hquads : doe / 1460 = 25 * c + q + (24 * c + q + 365 * r + doy) / 1460 := by
    have hsplit : doe = 24 * c + q + 365 * r + doy + 1460 * (25 * c + q) := by omega
    rw [hsplit, Int.add_mul_ediv_left _ _ (by decide)]
    exact Int.add_comm _ _
  rcases hlong with hshort | ⟨rfl, hleap | rfl⟩
  · have hcentury : doe / 36524 = c := by omega
    have hera : doe / 146096 = 0 := Int.ediv_eq_zero_of_lt (by omega) (by omega)
    have hone : 0 ≤ (24 * c + q + 365 * r + doy) / 1460 ∧
        (24 * c + q + 365 * r + doy) / 1460 ≤ 1 := ⟨by omega, by omega⟩
    rw [hquads, hcentury, hera]
    clear hquads hcentury hera
    omega
  · have hlast : r = 3 := by omega
    have hinner : q ≤ 23 := by omega
    have hcentury : doe / 36524 = c := by omega
    have hera : doe / 146096 = 0 := Int.ediv_eq_zero_of_lt (by omega) (by omega)
    rw [hquads, hcentury, hera]
    clear hquads hcentury hera
    omega
  · have hlast : doe = 146096 := by omega
    subst hlast
    decide

/-- The month of a year that starts in March, from the number of the day in the year. -/
theorem monthOfYear_eq {mp day doy : ℤ} (hlower : 0 ≤ mp) (hupper : mp < 12) (hday : 1 ≤ day)
    (hlong : day ≤ 31) (hshort : mp = 1 ∨ mp = 3 ∨ mp = 6 ∨ mp = 8 → day ≤ 30)
    (hfeb : mp = 11 → day ≤ 29) (hdoy : doy + 1 = (153 * mp + 2) / 5 + day) :
    (5 * doy + 2) / 153 = mp := by
  interval_cases mp <;> simp at hshort hfeb <;> omega

namespace NaiveDate

variable {d : NaiveDate}

theorem month_pos (d : NaiveDate) : 1 ≤ d.month := by
  have hvalid := d.valid
  by_contra hmonth
  have hzero : d.month = 0 := by omega
  have hnone : daysInMonth d.year 0 = 0 := rfl
  rw [hzero, hnone] at hvalid
  omega

/-! ## The year that starts in March -/

/-- The year whose March the day follows. -/
def marchYear (d : NaiveDate) : ℕ := if d.month ≤ 2 then d.year - 1 else d.year

/-- The months since March. -/
def marchMonth (d : NaiveDate) : ℕ := if d.month ≤ 2 then d.month + 9 else d.month - 3

theorem dayNumber_march (h : 1 ≤ d.year) :
    d.dayNumber + 306 + d.marchYear / 100 = 365 * d.marchYear + d.marchYear / 4 +
      d.marchYear / 400 + (153 * d.marchMonth + 2) / 5 + d.day := by
  have hpos := d.month_pos
  have hle := d.month_le
  have hfeb := daysInMonth_february h
  simp only [dayNumber, marchYear, marchMonth, daysBefore_eq d.year hpos hle]
  split
  · omega
  · omega

/-- The last month of such a year has a 29th day in a leap year only. -/
theorem day_le_marchMonth (h : 1 ≤ d.year) : d.day ≤ 31 ∧
    (d.marchMonth = 1 ∨ d.marchMonth = 3 ∨ d.marchMonth = 6 ∨ d.marchMonth = 8 → d.day ≤ 30) ∧
    (d.marchMonth = 11 → d.day ≤ 28 ∨ d.day = 29 ∧ isLeapYear (d.marchYear + 1) = true) := by
  have hpos := d.month_pos
  have hle := d.month_le
  have hday := d.valid.2
  refine ⟨hday.trans (daysInMonth_le _ _), ?_, ?_⟩
  · intro hshort
    have hmonth : d.month = 4 ∨ d.month = 6 ∨ d.month = 9 ∨ d.month = 11 := by
      rw [marchMonth] at hshort
      split at hshort <;> omega
    rcases hmonth with hm | hm | hm | hm <;> rw [hm] at hday <;> exact hday
  · intro hlast
    have hmonth : d.month = 2 := by
      rw [marchMonth] at hlast
      split at hlast <;> omega
    have hyear : d.marchYear + 1 = d.year := by
      rw [marchYear, if_pos (show d.month ≤ 2 by omega)]
      omega
    rw [hmonth, daysInMonth] at hday
    rw [hyear]
    cases hleap : isLeapYear d.year with
    | true =>
      rw [hleap, if_pos rfl] at hday
      have hlast : d.day ≤ 28 ∨ d.day = 29 := by omega
      exact hlast.imp_right fun h29 => ⟨h29, rfl⟩
    | false =>
      rw [hleap, if_neg (by decide)] at hday
      exact Or.inl hday

/-! ## Counting days -/

theorem dayNumber_succ (h : 1 ≤ d.year) : d.succ.dayNumber = d.dayNumber + 1 := by
  have hle := d.month_le
  have hpos := d.month_pos
  have hvalid := d.valid
  rw [succ]
  split
  · next hday =>
    simp only [dayNumber]
    omega
  · next hday =>
    split
    · next hmonth =>
      have hrange : List.range d.month = List.range (d.month - 1) ++ [d.month - 1] := by
        rw [← List.range_succ]
        congr 1
        omega
      have hmonths : d.month - 1 + 1 = d.month := by omega
      simp only [dayNumber, Nat.add_sub_cancel]
      rw [hrange, List.map_append, List.sum_append, List.map_singleton, List.sum_singleton,
        hmonths]
      omega
    · next hmonth =>
      have hlast : d.month = 12 := by omega
      have hdays : daysInMonth d.year 12 = 31 := rfl
      have hfeb := daysInMonth_february h
      have hbefore := daysBefore_eq d.year hpos hle
      rw [hlast, if_neg (by decide)] at hbefore
      rw [hlast, hdays] at hvalid hday
      simp only [dayNumber, Nat.add_sub_cancel, Nat.sub_self, hlast, hbefore, List.range_zero,
        List.map_nil, List.sum_nil]
      omega

theorem year_le_succ (d : NaiveDate) : d.year ≤ d.succ.year := by
  rw [succ]
  split
  · exact Nat.le_refl _
  · split
    · exact Nat.le_refl _
    · exact Nat.le_succ _

theorem year_le_addDays (d : NaiveDate) (n : ℕ) : d.year ≤ (d.addDays n).year := by
  induction n with
  | zero => exact Nat.le_refl _
  | succ n ih => exact ih.trans (year_le_succ _)

theorem dayNumber_addDays (h : 1 ≤ d.year) (n : ℕ) :
    (d.addDays n).dayNumber = d.dayNumber + n := by
  induction n with
  | zero => rfl
  | succ n ih =>
    rw [addDays, dayNumber_succ (h.trans (year_le_addDays d n)), ih, Nat.add_assoc]

/-! ## Months and financial years -/

def firstOfMonth (d : NaiveDate) : NaiveDate :=
  ⟨d.year, d.month, 1, valid_first ⟨d.month_pos, d.month_le⟩⟩

def lastOfMonth (d : NaiveDate) : NaiveDate :=
  ⟨d.year, d.month, daysInMonth d.year d.month, d.valid.1.trans d.valid.2, Nat.le_refl _⟩

/-- The first day of the month before. -/
def previousMonth (d : NaiveDate) : NaiveDate :=
  if h : 1 < d.month then
    ⟨d.year, d.month - 1, 1, valid_first ⟨by omega, (Nat.sub_le _ _).trans d.month_le⟩⟩
  else ⟨d.year - 1, 12, 1, valid_first (by omega)⟩

def firstOfApril (year : ℕ) : NaiveDate := ⟨year, 4, 1, valid_first (by omega)⟩

def lastOfMarch (year : ℕ) : NaiveDate := ⟨year, 3, 31, by omega, Nat.le_refl 31⟩

/-- The year in which the financial year of a day starts. -/
def financialYear (d : NaiveDate) : ℕ := if 4 ≤ d.month then d.year else d.year - 1

theorem dayNumber_firstOfApril {year : ℕ} (h : 1 ≤ year) :
    (firstOfApril year).dayNumber + 274 + year / 100 = 365 * year + year / 4 + year / 400 := by
  have hmarch := dayNumber_march (d := firstOfApril year) h
  have hyear : (firstOfApril year).marchYear = year := rfl
  have hmonth : (firstOfApril year).marchMonth = 1 := rfl
  have hday : (firstOfApril year).day = 1 := rfl
  rw [hyear, hmonth, hday] at hmarch
  omega

theorem dayNumber_firstOfApril_mono {y y' : ℕ} (hpos : 1 ≤ y) (hle : y ≤ y') :
    (firstOfApril y).dayNumber ≤ (firstOfApril y').dayNumber := by
  have hy := dayNumber_firstOfApril hpos
  have hy' := dayNumber_firstOfApril (hpos.trans hle)
  have hquads : y / 4 ≤ y' / 4 := Nat.div_le_div_right hle
  have heras : y / 400 ≤ y' / 400 := Nat.div_le_div_right hle
  have hcenturies : y' / 100 - y / 100 ≤ y' - y := by omega
  omega

/-- A day is in its financial year. -/
theorem dayNumber_financialYear (h : 2 ≤ d.year) :
    (firstOfApril d.financialYear).dayNumber ≤ d.dayNumber ∧
      d.dayNumber < (firstOfApril (d.financialYear + 1)).dayNumber := by
  have hpos := d.month_pos
  have hle := d.month_le
  have hday := d.valid.1
  have hlong := d.valid.2.trans (daysInMonth_le _ _)
  have hmarch := dayNumber_march (d := d) (by omega)
  have hstart := dayNumber_firstOfApril (show 1 ≤ d.financialYear by
    rw [financialYear]
    split <;> omega)
  have hend := dayNumber_firstOfApril (Nat.le_add_left 1 d.financialYear)
  by_cases hspring : 4 ≤ d.month
  · rw [financialYear, if_pos hspring] at *
    rw [marchYear, marchMonth, if_neg (by omega), if_neg (by omega)] at hmarch
    have hmonths : 1 ≤ d.month - 3 ∧ d.month - 3 ≤ 9 := by omega
    generalize d.month - 3 = m at hmarch hmonths
    constructor
    · clear hend
      omega
    · clear hstart
      omega
  · rw [financialYear, if_neg hspring] at *
    by_cases hmonth : d.month ≤ 2
    · rw [marchYear, marchMonth, if_pos hmonth, if_pos hmonth] at hmarch
      constructor
      · clear hend
        omega
      · clear hstart
        omega
    · rw [marchYear, marchMonth, if_neg hmonth, if_neg hmonth] at hmarch
      have hthree : d.month = 3 :=
        Nat.le_antisymm (Nat.le_of_lt_succ (Nat.lt_of_not_le hspring)) (Nat.lt_of_not_le hmonth)
      rw [hthree] at hmarch
      constructor
      · clear hend
        omega
      · clear hstart
        omega

/-- A financial year runs from one first of April to the next. -/
theorem financialYear_eq_iff (h : 2 ≤ d.year) {year : ℕ} (hyear : 1 ≤ year) :
    d.financialYear = year ↔ (firstOfApril year).dayNumber ≤ d.dayNumber ∧
      d.dayNumber < (firstOfApril (year + 1)).dayNumber := by
  obtain ⟨hstart, hend⟩ := dayNumber_financialYear h
  have hpos : 1 ≤ d.financialYear := by
    rw [financialYear]
    split <;> omega
  constructor
  · rintro rfl
    exact ⟨hstart, hend⟩
  · rintro ⟨hfirst, hnext⟩
    rcases Nat.lt_trichotomy d.financialYear year with hlt | heq | hgt
    · have hmono := dayNumber_firstOfApril_mono (Nat.le_add_left 1 d.financialYear) hlt
      omega
    · exact heq
    · have hmono := dayNumber_firstOfApril_mono (Nat.le_add_left 1 year) hgt
      omega

end NaiveDate

end Infra
