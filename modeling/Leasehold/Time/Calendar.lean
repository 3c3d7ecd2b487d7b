/-!
# The calendar

Days are counted from 1970-01-01 in the proleptic Gregorian calendar, with a year
zero and negative years before it.

* `Date`: a year, a month and a day of the month.
* `Date.ofDay`: the date of a day count.
* `Date.toDay`: the day count of a date.
* `Date.isValid`: the dates that exist within the supported years.
-/

namespace Leasehold

/-- A date of the calendar. -/
structure Date where
  year : Int
  month : Nat
  day : Nat
  deriving Repr, DecidableEq, Inhabited

namespace Date

/-- Days from the first of March of year zero to 1970-01-01. -/
def epochOffset : Int := 719468

/-- Days in four hundred years, after which the calendar repeats. -/
def daysPerEra : Int := 146097

/-- The date of a day counted from 1970-01-01.  Years are taken to begin in March,
so that a leap day is the last day of its year. -/
def ofDay (day : Int) : Date :=
  let shifted := day + epochOffset
  let era := shifted.fdiv daysPerEra
  let dayOfEra := (shifted - era * daysPerEra).toNat
  let yearOfEra :=
    (dayOfEra - dayOfEra / 1460 + dayOfEra / 36524 - dayOfEra / 146096) / 365
  let dayOfYear := dayOfEra - (365 * yearOfEra + yearOfEra / 4 - yearOfEra / 100)
  let monthFromMarch := (5 * dayOfYear + 2) / 153
  -- January and February belong to the year that began in the March before them.
  let month := if monthFromMarch < 10 then monthFromMarch + 3 else monthFromMarch - 9
  { year := yearOfEra + era * 400 + (if month ≤ 2 then 1 else 0)
    month := month
    day := dayOfYear - (153 * monthFromMarch + 2) / 5 + 1 }

/-- The day of a date, counted from 1970-01-01. -/
def toDay (date : Date) : Int :=
  let year := if date.month ≤ 2 then date.year - 1 else date.year
  let era := year.fdiv 400
  let yearOfEra := (year - era * 400).toNat
  let monthFromMarch := if 2 < date.month then date.month - 3 else date.month + 9
  let dayOfYear := (153 * monthFromMarch + 2) / 5 + date.day - 1
  let dayOfEra := yearOfEra * 365 + yearOfEra / 4 - yearOfEra / 100 + dayOfYear
  era * daysPerEra + dayOfEra - epochOffset

/-- Whether a year has a 29th of February. -/
def isLeapYear (year : Int) : Bool :=
  year % 4 = 0 && (year % 100 != 0 || year % 400 = 0)

/-- Number of days in a month. -/
def daysInMonth (year : Int) (month : Nat) : Nat :=
  if month = 2 then if isLeapYear year then 29 else 28
  else if month = 4 || month = 6 || month = 9 || month = 11 then 30
  else 31

/-- The first supported year. -/
def firstYear : Int := -262143

/-- The last supported year. -/
def lastYear : Int := 262142

/-- Whether a date exists and lies within the supported years. -/
def isValid (date : Date) : Bool :=
  firstYear ≤ date.year && date.year ≤ lastYear
    && 1 ≤ date.month && date.month ≤ 12
    && 1 ≤ date.day && date.day ≤ daysInMonth date.year date.month

/-- The first supported day. -/
def firstDay : Int := toDay ⟨firstYear, 1, 1⟩

/-- The last supported day. -/
def lastDay : Int := toDay ⟨lastYear, 12, 31⟩

example : toDay ⟨1970, 1, 1⟩ = 0 := by decide

example : ofDay (toDay ⟨2024, 2, 29⟩) = ⟨2024, 2, 29⟩ := by decide

end Date

end Leasehold
