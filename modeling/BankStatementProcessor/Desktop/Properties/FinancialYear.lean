import BankStatementProcessor.Desktop.DatePresets
import BankStatementProcessor.Desktop.RowId
import BankStatementProcessor.Infra.CivilDate

/-!
# The presets and the calendar

Today and the months are those of the calendar. The financial year counts years of 365 days, and
is right where the leap days since 1970 have not carried it over the first of April.
-/

namespace Desktop.DatePresets

open Infra Desktop.Parser

def epoch : NaiveDate := ⟨1970, 1, 1, by decide⟩

/-- The day of the clock. -/
def today (now : ℕ) : NaiveDate := epoch.addDays (now / 86400)

/-- Each preset is the period of the calendar that it names. -/
structure PresetsRight (now : ℕ) : Prop where
  today : presetRange now "today" = (fmtDisplay (today now), fmtDisplay (today now))
  thisMonth : presetRange now "this_month" =
    (fmtDisplay (DatePresets.today now).firstOfMonth, fmtDisplay (DatePresets.today now).lastOfMonth)
  lastMonth : presetRange now "last_month" =
    (fmtDisplay (DatePresets.today now).previousMonth.firstOfMonth,
      fmtDisplay (DatePresets.today now).previousMonth.lastOfMonth)
  currentFy : presetRange now "current_fy" =
    (fmtDisplay (.firstOfApril (DatePresets.today now).financialYear),
      fmtDisplay (.lastOfMarch ((DatePresets.today now).financialYear + 1)))
  prevFy : presetRange now "prev_fy" =
    (fmtDisplay (.firstOfApril ((DatePresets.today now).financialYear - 1)),
      fmtDisplay (.lastOfMarch (DatePresets.today now).financialYear))

/-- The leap days from 1970 to the end of a year. -/
def leapDays (year : ℕ) : ℕ :=
  (List.range (year - 1969)).countP fun k => isLeapYear (1970 + k)

section

variable {d : NaiveDate} {now n : ℕ}

/-! ## The day -/

/-- The era, the year of the era and the day of the year are read off one after the other. -/
theorem gregorian_of_parts {z era yoe doe doy mp day : ℤ} (hera : 0 ≤ era) (hlower : 0 ≤ yoe)
    (hupper : yoe < 400) (hdoy : 0 ≤ doy)
    (hlong : doy ≤ 364 ∨ doy = 365 ∧ ((yoe + 1) % 4 = 0 ∧ (yoe + 1) % 100 ≠ 0 ∨ yoe = 399))
    (hdoe : doe = 365 * yoe + yoe / 4 - yoe / 100 + doy) (hz : z + 719468 = era * 146097 + doe)
    (hmonth : 0 ≤ mp) (hmp : (5 * doy + 2) / 153 = mp) (hday : doy + 1 = (153 * mp + 2) / 5 + day) :
    gregorian z =
      (if (if mp < 10 then mp + 3 else mp - 9) ≤ 2 then yoe + era * 400 + 1 else yoe + era * 400,
        if mp < 10 then mp + 3 else mp - 9, day) := by
  have hnonneg : z + 719468 ≥ 0 := by omega
  have hdoeNonneg : 0 ≤ doe := by omega
  have hyear := yearOfEra_eq hlower hupper hdoy hlong hdoe
  simp only [gregorian]
  have hera' : (z + 719468).tdiv 146097 = era := by
    rw [Int.tdiv_eq_ediv_of_nonneg hnonneg]
    omega
  have hdoe' : z + 719468 - era * 146097 = doe := by omega
  rw [if_pos hnonneg, hera', hdoe', Int.tdiv_eq_ediv_of_nonneg hdoeNonneg,
    Int.tdiv_eq_ediv_of_nonneg hdoeNonneg, Int.tdiv_eq_ediv_of_nonneg hdoeNonneg]
  have hyoe : (doe - doe / 1460 + doe / 36524 - doe / 146096).tdiv 365 = yoe := by
    rw [Int.tdiv_eq_ediv_of_nonneg (by omega)]
    exact hyear
  have hdoy' : doe - (365 * yoe + yoe / 4 - yoe / 100) = doy := by omega
  rw [hyoe, Int.tdiv_eq_ediv_of_nonneg hlower, Int.tdiv_eq_ediv_of_nonneg hlower, hdoy',
    Int.tdiv_eq_ediv_of_nonneg (show 0 ≤ 5 * doy + 2 by omega), hmp,
    Int.tdiv_eq_ediv_of_nonneg (show 0 ≤ 153 * mp + 2 by omega)]
  have hday' : doy - (153 * mp + 2) / 5 + 1 = day := by omega
  rw [hday']

/-- What `preset_range` computes is the date of the day. -/
theorem gregorian_eq (hyear : 1 ≤ d.year) (hnumber : d.dayNumber = 719163 + n) :
    gregorian n = ((d.year : ℤ), (d.month : ℤ), (d.day : ℤ)) := by
  have hmarch := NaiveDate.dayNumber_march hyear
  obtain ⟨hlong, hshort, hfeb⟩ := NaiveDate.day_le_marchMonth hyear
  have hday := d.valid.1
  have hpos := d.month_pos
  have hle := d.month_le
  have hmonths : d.marchMonth < 12 := by
    rw [NaiveDate.marchMonth]
    split <;> omega
  obtain ⟨doy, hdoy⟩ : ∃ doy : ℤ, doy + 1 = (153 * (d.marchMonth : ℤ) + 2) / 5 + d.day :=
    ⟨(153 * (d.marchMonth : ℤ) + 2) / 5 + d.day - 1, by omega⟩
  have hmp : (5 * doy + 2) / 153 = d.marchMonth :=
    monthOfYear_eq (by omega) (by omega) (by omega) (by omega) (by omega) (by omega) hdoy
  have hlast : doy ≤ 364 ∨ doy = 365 ∧ isLeapYear (d.marchYear + 1) = true := by
    by_cases hfebruary : d.marchMonth = 11
    · rcases hfeb hfebruary with h28 | ⟨h29, hleap⟩
      · exact Or.inl (by omega)
      · exact Or.inr ⟨by omega, hleap⟩
    · exact Or.inl (by omega)
  have hleap : doy ≤ 364 ∨ doy = 365 ∧
      (((d.marchYear : ℤ) % 400 + 1) % 4 = 0 ∧ ((d.marchYear : ℤ) % 400 + 1) % 100 ≠ 0 ∨
        (d.marchYear : ℤ) % 400 = 399) := by
    refine hlast.imp_right fun h => ⟨h.1, ?_⟩
    have hleap := h.2
    simp only [isLeapYear, Bool.or_eq_true, Bool.and_eq_true, beq_iff_eq, bne_iff_ne] at hleap
    omega
  rw [gregorian_of_parts (show 0 ≤ (d.marchYear : ℤ) / 400 by omega)
    (show 0 ≤ (d.marchYear : ℤ) % 400 by omega) (by omega) (by omega) hleap rfl (by omega)
    (by omega) hmp hdoy]
  simp only [NaiveDate.marchMonth, NaiveDate.marchYear, Prod.mk.injEq, and_true]
  split
  · split_ifs <;> omega
  · split_ifs <;> omega

/-! ## How it is written -/

theorem twoPlaces_natCast (n : ℕ) : twoPlaces (n : ℤ) = twoDigits n := by
  rw [twoPlaces, twoDigits]
  by_cases h : n < 10
  · rw [if_pos h, if_pos (by omega)]
    rfl
  · rw [if_neg h, if_neg (by omega)]
    rfl

theorem daysInMonth_eq {month : ℕ} (hpos : 1 ≤ month) (hle : month ≤ 12) (year : ℕ) :
    daysInMonth month (year : ℤ) = Infra.daysInMonth year month := by
  have hleap : ((year : ℤ).tmod 4 == 0 && ((year : ℤ).tmod 100 != 0 || (year : ℤ).tmod 400 == 0)) =
      isLeapYear year := by
    rw [Int.tmod_eq_emod_of_nonneg (by omega), Int.tmod_eq_emod_of_nonneg (by omega),
      Int.tmod_eq_emod_of_nonneg (by omega), Bool.eq_iff_iff, isLeapYear]
    simp only [Bool.and_eq_true, Bool.or_eq_true, beq_iff_eq, bne_iff_ne]
    omega
  interval_cases month <;> first | rfl | (simp only [daysInMonth, Infra.daysInMonth, hleap])

theorem asI32_natCast {year : ℕ} (h : year < 2147483648) : asI32 (year : ℤ) = year :=
  Int.bmod_eq_of_le (by omega) (by omega)

theorem asU32_natCast {month : ℕ} (h : month ≤ 12) : asU32 (month : ℤ) = month := by
  unfold asU32
  omega

section

variable {y m : ℤ}

theorem fmtDisplay_eq (d : NaiveDate) :
    fmtDisplay d = s!"{twoDigits d.day}/{twoPlaces (d.month : ℤ)}/{(d.year : ℤ)}" := by
  rw [fmtDisplay, twoPlaces_natCast]
  rfl

theorem fmtDisplay_firstOfMonth (hm : m = d.month) (hy : y = d.year) :
    fmtDisplay d.firstOfMonth = s!"01/{twoPlaces m}/{y}" := by
  have hday : toString (twoDigits 1) ++ toString "/" = "01/" := by decide +kernel
  rw [fmtDisplay_eq, hm, hy]
  exact congrArg (fun s => s ++ toString (twoPlaces (d.month : ℤ)) ++ toString "/" ++
    toString (d.year : ℤ)) hday

theorem fmtDisplay_lastOfMonth (hm : m = d.month) (hy : y = d.year) (hfit : d.year < 2147483648) :
    fmtDisplay d.lastOfMonth =
      s!"{twoDigits (daysInMonth (asU32 m) (asI32 y))}/{twoPlaces m}/{y}" := by
  rw [fmtDisplay_eq, hm, hy, asI32_natCast hfit, asU32_natCast d.month_le,
    daysInMonth_eq d.month_pos d.month_le]
  rfl

end

/-! ## Today and the months -/

theorem presetRange_today (hyear : 1 ≤ d.year) (hnumber : d.dayNumber = 719163 + now / 86400) :
    presetRange now "today" = (fmtDisplay d, fmtDisplay d) := by
  rw [presetRange, gregorian_eq hyear hnumber, fmtDisplay_eq, ← twoPlaces_natCast]
  rfl

theorem presetRange_thisMonth (hyear : 1 ≤ d.year) (hnumber : d.dayNumber = 719163 + now / 86400)
    (hfit : d.year < 2147483648) :
    presetRange now "this_month" = (fmtDisplay d.firstOfMonth, fmtDisplay d.lastOfMonth) := by
  rw [presetRange, gregorian_eq hyear hnumber, fmtDisplay_firstOfMonth rfl rfl,
    fmtDisplay_lastOfMonth rfl rfl hfit]
  rfl

theorem presetRange_lastMonth (hyear : 1 ≤ d.year) (hnumber : d.dayNumber = 719163 + now / 86400)
    (hfit : d.year < 2147483648) :
    presetRange now "last_month" =
      (fmtDisplay d.previousMonth.firstOfMonth, fmtDisplay d.previousMonth.lastOfMonth) := by
  have hpos := d.month_pos
  have hbefore : (if (d.month : ℤ) = 1 then ((12 : ℤ), (d.year : ℤ) - 1)
      else ((d.month : ℤ) - 1, (d.year : ℤ))) =
      ((d.previousMonth.month : ℤ), (d.previousMonth.year : ℤ)) := by
    rw [NaiveDate.previousMonth]
    split
    · next hjanuary =>
      rw [dif_neg (show ¬ 1 < d.month by omega)]
      simp only [Prod.mk.injEq]
      omega
    · next hlater =>
      rw [dif_pos (show 1 < d.month by omega)]
      exact Prod.ext (Int.natCast_pred_of_pos hpos).symm rfl
  have hyear' : d.previousMonth.year ≤ d.year := by
    rw [NaiveDate.previousMonth]
    split
    · exact Nat.le_refl _
    · exact Nat.sub_le _ _
  rw [presetRange, gregorian_eq hyear hnumber, fmtDisplay_firstOfMonth rfl rfl,
    fmtDisplay_lastOfMonth rfl rfl (by omega)]
  dsimp only
  rw [hbefore]
  rfl

/-! ## The financial year -/

theorem leapDays_add (k : ℕ) : leapDays (1969 + k) + 477 + (1969 + k) / 100 =
    (1969 + k) / 4 + (1969 + k) / 400 := by
  rw [leapDays, Nat.add_sub_cancel_left]
  induction k with
  | zero => rfl
  | succ k ih =>
    rw [List.range_succ, List.countP_append, List.countP_singleton]
    cases hleap : isLeapYear (1970 + k) with
    | true =>
      simp only [isLeapYear, Bool.or_eq_true, Bool.and_eq_true, beq_iff_eq, bne_iff_ne] at hleap
      rw [if_pos rfl]
      omega
    | false =>
      simp only [isLeapYear, Bool.or_eq_false_iff, Bool.and_eq_false_iff, beq_eq_false_iff_ne,
        bne_eq_false_iff_eq] at hleap
      rw [if_neg (by decide)]
      omega

/-- Years of 365 days lead into the financial year while the leap days have not passed its first
of April. -/
theorem financialYear_eq_approx_iff (hyear : 2 ≤ d.year) (hnumber : d.dayNumber = 719163 + n) :
    d.financialYear = 1969 + (n + 275) / 365 ↔
      leapDays (1969 + (n + 275) / 365) ≤ (n + 275) % 365 := by
  have hleap := leapDays_add ((n + 275) / 365)
  have hnext := leapDays_add ((n + 275) / 365 + 1)
  have hstart := NaiveDate.dayNumber_firstOfApril (show 1 ≤ 1969 + (n + 275) / 365 by omega)
  have hend := NaiveDate.dayNumber_firstOfApril (Nat.le_add_left 1 (1969 + (n + 275) / 365))
  rw [NaiveDate.financialYear_eq_iff hyear (by omega), hnumber]
  omega

/-- The years that `fy_range` starts from. -/
theorem fyYears_eq (n : ℕ) {y : ℕ} (hy : y = 1969 + (n + 275) / 365) :
    (if (n : ℤ).tmod 365 ≥ 90 then (1970 + (n : ℤ).tdiv 365, 1970 + (n : ℤ).tdiv 365 + 1)
      else (1970 + (n : ℤ).tdiv 365 - 1, 1970 + (n : ℤ).tdiv 365)) =
      ((y : ℤ), ((y + 1 : ℕ) : ℤ)) := by
  rw [Int.tmod_eq_emod_of_nonneg (Int.natCast_nonneg n),
    Int.tdiv_eq_ediv_of_nonneg (Int.natCast_nonneg n)]
  split
  · exact Prod.ext (by dsimp only; omega) (by dsimp only; omega)
  · exact Prod.ext (by dsimp only; omega) (by dsimp only; omega)

theorem fyRange_true {y : ℕ} (hy : y = 1969 + (now / 86400 + 275) / 365) :
    fyRange now true = (s!"01/04/{y}", s!"31/03/{y + 1}") := by
  rw [fyRange]
  dsimp only
  rw [fyYears_eq _ hy]
  rfl

theorem fyRange_false {y : ℕ} (hy : y = 1969 + (now / 86400 + 275) / 365) :
    fyRange now false = (s!"01/04/{y - 1}", s!"31/03/{y}") := by
  rw [fyRange]
  dsimp only
  rw [fyYears_eq _ hy]
  have hbefore : (y : ℤ) - 1 = ((y - 1 : ℕ) : ℤ) := (Int.natCast_pred_of_pos (by omega)).symm
  dsimp only
  rw [if_neg (by decide), hbefore]
  rfl

theorem fmtDisplay_firstOfApril (y : ℕ) : fmtDisplay (.firstOfApril y) = s!"01/04/{y}" := by
  have hday : toString (twoDigits 1) ++ toString "/" ++ toString (twoDigits 4) ++ toString "/" =
      "01/04/" := by decide +kernel
  exact congrArg (· ++ toString y) hday

theorem fmtDisplay_lastOfMarch (y : ℕ) : fmtDisplay (.lastOfMarch y) = s!"31/03/{y}" := by
  have hday : toString (twoDigits 31) ++ toString "/" ++ toString (twoDigits 3) ++ toString "/" =
      "31/03/" := by decide +kernel
  exact congrArg (· ++ toString y) hday

theorem dayNumber_today (now : ℕ) : (today now).dayNumber = 719163 + now / 86400 :=
  NaiveDate.dayNumber_addDays (by decide) _

theorem year_today (now : ℕ) : 1970 ≤ (today now).year := NaiveDate.year_le_addDays epoch _

theorem firstOfApril_text_inj {y z : ℕ} (h : s!"01/04/{y}" = s!"01/04/{z}") : y = z := by
  have hlist := congrArg String.toList h
  rw [String.toList_append, String.toList_append, List.append_cancel_left_eq] at hlist
  have hdigits : ∀ k : ℕ, (toString k).toList = Nat.toDigits 10 k := fun _ => String.toList_ofList
  rw [hdigits, hdigits] at hlist
  exact toDigits_inj.mp hlist

/-- **The presets are those of the calendar exactly when the leap days since 1970 are no more than
the days since the first of April of years of 365 days.** -/
theorem presetsRight_iff (now : ℕ) :
    PresetsRight now ↔
      leapDays (1969 + (now / 86400 + 275) / 365) ≤ (now / 86400 + 275) % 365 := by
  have hnumber := dayNumber_today now
  have hyear := year_today now
  have happrox := financialYear_eq_approx_iff (by omega) hnumber
  rw [← happrox]
  constructor
  · intro h
    have htext := h.currentFy
    rw [fmtDisplay_firstOfApril] at htext
    have hrange : presetRange now "current_fy" = fyRange now true := rfl
    rw [hrange, fyRange_true rfl] at htext
    exact (firstOfApril_text_inj (congrArg Prod.fst htext)).symm
  · intro h
    -- so many leap days are not past for long
    have hfit : (today now).year < 2147483648 := by
      have hfew := happrox.mp h
      have hleap := leapDays_add ((now / 86400 + 275) / 365)
      have hle : (today now).year ≤ (today now).financialYear + 1 := by
        rw [NaiveDate.financialYear]
        split <;> omega
      omega
    refine ⟨presetRange_today (by omega) hnumber, presetRange_thisMonth (by omega) hnumber hfit,
      presetRange_lastMonth (by omega) hnumber hfit, ?_, ?_⟩
    · rw [fmtDisplay_firstOfApril, fmtDisplay_lastOfMarch]
      exact fyRange_true h
    · rw [fmtDisplay_firstOfApril, fmtDisplay_lastOfMarch]
      exact fyRange_false h

/-- On 20 March 2024 the financial year is taken to be the one that is to come. -/
theorem march_in_next_year :
    ¬ PresetsRight (19802 * 86400) ∧
      presetRange (19802 * 86400) "current_fy" = ("01/04/2024", "31/03/2025") ∧
      (today (19802 * 86400)).financialYear = 2023 := by
  have hnumber := dayNumber_today (19802 * 86400)
  have hyear := year_today (19802 * 86400)
  have hstart := NaiveDate.dayNumber_firstOfApril (show 1 ≤ 2023 by decide)
  have hend := NaiveDate.dayNumber_firstOfApril (show 1 ≤ 2023 + 1 by decide)
  have hfinancial : (today (19802 * 86400)).financialYear = 2023 := by
    rw [NaiveDate.financialYear_eq_iff (by omega) (by decide), hnumber]
    omega
  have hcode : presetRange (19802 * 86400) "current_fy" = ("01/04/2024", "31/03/2025") := by
    decide +kernel
  refine ⟨fun h => ?_, hcode, hfinancial⟩
  have htext := h.currentFy
  rw [hfinancial, hcode] at htext
  revert htext
  decide +kernel

end

end Desktop.DatePresets
