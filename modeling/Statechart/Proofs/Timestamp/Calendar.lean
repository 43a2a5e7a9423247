import Mathlib.Tactic.IntervalCases
import Statechart.Timestamp.Date

/-!
# Days and dates

The date of a day is a date of the calendar, and counting up to it gives the day back. A day is
split into cycles of four centuries, centuries, spans of four years, years and days; a leap day ends
the last year of a span, unless the span ends a century that is not the last of its cycle.
-/

namespace Statechart.Date

/-- The day lies that many whole cycles, centuries, spans, years and days after the origin. -/
structure IsSplit (days cycle : Int) (century span year day : Nat) : Prop where
  days_eq : days = origin + cycle * daysPerCycle +
    (36524 * century + 1461 * span + 365 * year + day : Nat)
  century_le : century ≤ 3
  span_le : span ≤ 24
  year_le : year ≤ 3
  day_le : day ≤ 364 ∨ day = 365 ∧ year = 3 ∧ (span = 24 → century = 3)

theorem exists_isSplit (days : Int) :
    ∃ cycle century span year day, IsSplit days cycle century span year day := by
  obtain ⟨cycle, dayOfCycle, hCycle, hDayOfCycle⟩ :
      ∃ (cycle : Int) (dayOfCycle : Nat), dayOfCycle < 146097 ∧
        days = origin + cycle * daysPerCycle + dayOfCycle := by
    refine ⟨(days - origin) / 146097, ((days - origin) % 146097).toNat, by omega, ?_⟩
    rw [daysPerCycle]
    omega
  obtain ⟨century, dayOfCentury, hCentury, hEnd, hDayOfCentury⟩ :
      ∃ century dayOfCentury, century ≤ 3 ∧
        (dayOfCentury < 36524 ∨ dayOfCentury = 36524 ∧ century = 3) ∧
        dayOfCycle = 36524 * century + dayOfCentury := by
    by_cases hLast : dayOfCycle = 146096
    · exact ⟨3, 36524, by omega, by omega, by omega⟩
    · exact ⟨dayOfCycle / 36524, dayOfCycle % 36524, by omega, by omega, by omega⟩
  obtain ⟨year, day, hYear, hDay, hDayOfSpan⟩ :
      ∃ year day, year ≤ 3 ∧ (day ≤ 364 ∨ day = 365 ∧ year = 3) ∧
        dayOfCentury % 1461 = 365 * year + day := by
    by_cases hLast : dayOfCentury % 1461 = 1460
    · exact ⟨3, 365, by omega, by omega, by omega⟩
    · exact ⟨dayOfCentury % 1461 / 365, dayOfCentury % 1461 % 365, by omega, by omega,
        by omega⟩
  refine ⟨cycle, century, dayOfCentury / 1461, year, day, ?_, hCentury, by omega, hYear,
    by omega⟩
  rw [hDayOfCycle]
  omega

/-- The date in a year and a month that are counted from March. -/
def ofMarch (year : Int) (month day : Nat) : Date :=
  if month < 10 then ⟨year, month + 3, day⟩ else ⟨year + 1, month - 9, day⟩

theorem toDays_ofMarch (cycle : Int) {yearOfCycle month day : Nat} (hYear : yearOfCycle < 400)
    (hMonth : month < 12) :
    (ofMarch (cycle * 400 + yearOfCycle) month (day + 1)).toDays =
      origin + cycle * daysPerCycle +
        (yearOfCycle * 365 + yearOfCycle / 4 - yearOfCycle / 100 + (153 * month + 2) / 5 + day :
          Nat) := by
  have hCycle : (cycle * 400 + yearOfCycle : Int).fdiv 400 = cycle := by
    rw [Int.fdiv_eq_ediv_of_nonneg _ (by decide)]
    omega
  have hRest : (cycle * 400 + yearOfCycle : Int).fmod 400 = yearOfCycle := by
    rw [Int.fmod_eq_emod_of_nonneg _ (by decide)]
    omega
  rw [ofMarch]
  split
  · have hCount : (month + 3 + 9) % 12 = month := by omega
    simp only [toDays, if_neg (show ¬ month + 3 ≤ 2 by omega), hCycle, hRest, hCount]
    omega
  · have hCount : (month - 9 + 9) % 12 = month := by omega
    simp only [toDays, if_pos (show month - 9 ≤ 2 by omega), Int.add_sub_cancel, hCycle, hRest,
      hCount]
    omega

section Split

variable {days cycle : Int} {century span year day : Nat}

theorem IsSplit.yearOfCycle (hSplit : IsSplit days cycle century span year day) {dayOfCycle : Nat}
    (hDayOfCycle : dayOfCycle = 36524 * century + 1461 * span + 365 * year + day) :
    (dayOfCycle - dayOfCycle / 1460 + dayOfCycle / 36524 - dayOfCycle / 146096) / 365 =
      100 * century + 4 * span + year := by
  obtain ⟨_, hCentury, hSpan, hYear, hDay⟩ := hSplit
  have hEnd : 1461 * span + 365 * year + day < 36524 ∨
      1461 * span + 365 * year + day = 36524 ∧ century = 3 := by omega
  have hCenturies : dayOfCycle / 36524 = century + dayOfCycle / 146096 := by
    clear hDay
    omega
  -- A leap day counts as passed a little before it comes, and at the latest when it is there.
  have hSpans : dayOfCycle / 1460 = 25 * century + span ∧ day ≤ 364 ∨
      dayOfCycle / 1460 = 25 * century + span + 1 ∧ 1 ≤ day := by omega
  omega

theorem IsSplit.ofDays_eq (hSplit : IsSplit days cycle century span year day) :
    ofDays days = ofMarch (cycle * 400 + (100 * century + 4 * span + year : Nat))
      ((5 * day + 2) / 153) (day - (153 * ((5 * day + 2) / 153) + 2) / 5 + 1) := by
  have hCycle : (days - origin).fdiv daysPerCycle = cycle := by
    obtain ⟨hDays, hCentury, hSpan, hYear, hDay⟩ := hSplit
    rw [Int.fdiv_eq_ediv_of_nonneg _ (by decide), hDays, daysPerCycle]
    omega
  have hRest : ((days - origin).fmod daysPerCycle).toNat =
      36524 * century + 1461 * span + 365 * year + day := by
    obtain ⟨hDays, hCentury, hSpan, hYear, hDay⟩ := hSplit
    rw [Int.fmod_eq_emod_of_nonneg _ (by decide), hDays, daysPerCycle]
    omega
  have hDayOfYear : 36524 * century + 1461 * span + 365 * year + day -
      (365 * (100 * century + 4 * span + year) + (100 * century + 4 * span + year) / 4 -
        (100 * century + 4 * span + year) / 100) = day := by
    obtain ⟨hDays, hCentury, hSpan, hYear, hDay⟩ := hSplit
    omega
  rw [ofDays, hCycle, hRest, hSplit.yearOfCycle rfl, hDayOfYear]
  rfl

theorem IsSplit.isLeapYear (hSplit : IsSplit days cycle century span year day)
    (hDay : day = 365) :
    isLeapYear (cycle * 400 + (100 * century + 4 * span + year : Nat) + 1) = true := by
  obtain ⟨_, _, _, _, hLast⟩ := hSplit
  rw [Date.isLeapYear, decide_eq_true_eq]
  omega

end Split

theorem toDays_ofDays (days : Int) : (ofDays days).toDays = days := by
  obtain ⟨cycle, century, span, year, day, hSplit⟩ := exists_isSplit days
  rw [hSplit.ofDays_eq]
  obtain ⟨hDays, hCentury, hSpan, hYear, hDay⟩ := hSplit
  rw [toDays_ofMarch cycle (by omega) (by omega), hDays]
  omega

/-- Every day of a year that starts in March has its place in a month. -/
theorem ofMarch_bounds {year : Int} {day : Nat} (hDay : day ≤ 365)
    (hLeap : day = 365 → isLeapYear (year + 1) = true) {date : Date}
    (hDate : date = ofMarch year ((5 * day + 2) / 153)
      (day - (153 * ((5 * day + 2) / 153) + 2) / 5 + 1)) :
    1 ≤ date.month ∧ date.month ≤ 12 ∧ 1 ≤ date.day ∧
      date.day ≤ daysInMonth date.year date.month := by
  generalize hMonth : (5 * day + 2) / 153 = month at hDate
  subst hDate
  by_cases hFebruary : month = 11
  · subst hFebruary
    rw [ofMarch, if_neg (by decide)]
    by_cases hLast : day = 365
    · simp [daysInMonth, hLeap hLast, hLast]
    · have hLength : 28 ≤ daysInMonth (year + 1) 2 := by
        rw [daysInMonth, if_pos rfl]
        split <;> decide
      have hDays : day - (153 * 11 + 2) / 5 + 1 ≤ 28 := by omega
      exact ⟨Nat.le_add_left 1 1, by simp, Nat.le_add_left _ _, Nat.le_trans hDays hLength⟩
  · have hMonths : month ≤ 10 := by omega
    interval_cases month <;> simp [ofMarch, daysInMonth] <;> omega

theorem isValid_ofDays {days : Int} (hFirst : firstYear ≤ (ofDays days).year)
    (hLast : (ofDays days).year ≤ lastYear) : (ofDays days).isValid = true := by
  obtain ⟨cycle, century, span, year, day, hSplit⟩ := exists_isSplit days
  have hDay : day ≤ 365 := by
    obtain hDay | ⟨hDay, _⟩ := hSplit.day_le <;> omega
  obtain ⟨hMonth, hMonths, hDate, hDates⟩ :=
    ofMarch_bounds hDay hSplit.isLeapYear hSplit.ofDays_eq
  simp [isValid, hFirst, hLast, hMonth, hMonths, hDate, hDates]

theorem bounds_of_isValid {date : Date} (hDate : date.isValid = true) :
    1 ≤ date.month ∧ date.month ≤ 12 ∧ 1 ≤ date.day ∧ date.day ≤ 31 := by
  simp only [isValid, Bool.and_eq_true, decide_eq_true_eq] at hDate
  obtain ⟨⟨⟨⟨_, hMonth⟩, hMonths⟩, hDay⟩, hDays⟩ := hDate
  have hLongest : daysInMonth date.year date.month ≤ 31 := by
    rw [daysInMonth]
    split_ifs <;> decide
  exact ⟨hMonth, hMonths, hDay, Nat.le_trans hDays hLongest⟩

end Statechart.Date
