import Statechart.Timestamp

/-!
# Dates

The calendar of leap years every four years except in three of four centuries, carried on before
its introduction and before the year one. A day is counted from the first of January 1970; years
are taken to start in March, so that the leap day is the last of its year.
-/

namespace Statechart

structure Date where
  year : Int
  month : Nat
  day : Nat
  deriving DecidableEq, Repr

namespace Date

def isLeapYear (year : Int) : Bool :=
  year % 4 = 0 ∧ (year % 100 ≠ 0 ∨ year % 400 = 0)

def daysInMonth (year : Int) (month : Nat) : Nat :=
  if month = 2 then if isLeapYear year then 29 else 28
  else if month = 4 ∨ month = 6 ∨ month = 9 ∨ month = 11 then 30
  else 31

def firstYear : Int := -262143

def lastYear : Int := 262142

def isValid (date : Date) : Bool :=
  firstYear ≤ date.year && date.year ≤ lastYear && 1 ≤ date.month && date.month ≤ 12 &&
    1 ≤ date.day && date.day ≤ daysInMonth date.year date.month

def daysPerCycle : Int := 146097

/-- The first of March of the year zero, counted from the first of January 1970. -/
def origin : Int := -719468

def toDays (date : Date) : Int :=
  let year := if date.month ≤ 2 then date.year - 1 else date.year
  let cycle := year.fdiv 400
  let yearOfCycle := year.fmod 400
  let month := (date.month + 9) % 12
  let dayOfYear := (153 * month + 2) / 5 + date.day - 1
  origin + cycle * daysPerCycle + yearOfCycle * 365 + yearOfCycle / 4 - yearOfCycle / 100 +
    dayOfYear

def ofDays (days : Int) : Date :=
  let cycle := (days - origin).fdiv daysPerCycle
  let dayOfCycle := ((days - origin).fmod daysPerCycle).toNat
  let yearOfCycle :=
    (dayOfCycle - dayOfCycle / 1460 + dayOfCycle / 36524 - dayOfCycle / 146096) / 365
  let dayOfYear := dayOfCycle - (365 * yearOfCycle + yearOfCycle / 4 - yearOfCycle / 100)
  let month := (5 * dayOfYear + 2) / 153
  let day := dayOfYear - (153 * month + 2) / 5 + 1
  let year := cycle * 400 + yearOfCycle
  if month < 10 then ⟨year, month + 3, day⟩ else ⟨year + 1, month - 9, day⟩

end Date

def Timestamp.ofDate (date : Date) (secondOfDay : Int) (nano : Nat) : Timestamp :=
  ⟨date.toDays * Timestamp.secondsPerDay + secondOfDay, nano⟩

def Timestamp.date (timestamp : Timestamp) : Date :=
  .ofDays timestamp.day

end Statechart
