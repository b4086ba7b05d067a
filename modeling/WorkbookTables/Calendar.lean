/-!
# The proleptic Gregorian calendar

Days are counted from 1970-01-01, which is day 0, and named by year, month and day of the month.
The calendar is extended without end in both directions and has a year 0.

A year is taken to begin in March, so that the leap day is its last; months then follow one
another in a regular pattern of lengths, and a cycle of 400 years has 146097 days.

The calendar itself is total. The bounds of what can be written as a date are a separate range of
day numbers.

## Main definitions

* `Date` — year, month and day, with `Date.IsValid`
* `Date.ofDayNumber`, `Date.dayNumber` — between dates and day numbers
* `Date.text` — the written form
* `Calendar.firstDay`, `Calendar.lastDay` — the range of days that have a written form
-/

namespace WorkbookTables

/-- A day of the calendar. -/
structure Date where
  /-- The year; year 0 comes before year 1. -/
  year : Int
  /-- The month, from 1 to 12. -/
  month : Nat
  /-- The day of the month, from 1. -/
  day : Nat
  deriving DecidableEq, Repr

namespace Date

/-- Holds of the years with a leap day. -/
def isLeapYear (year : Int) : Bool :=
  year % 4 == 0 && (year % 100 != 0 || year % 400 == 0)

/-- How many days a month has. -/
def daysInMonth (year : Int) (month : Nat) : Nat :=
  if month = 2 then (if isLeapYear year then 29 else 28)
  else if month = 4 ∨ month = 6 ∨ month = 9 ∨ month = 11 then 30
  else 31

/-- Holds of the dates that exist. -/
def IsValid (d : Date) : Prop :=
  1 ≤ d.month ∧ d.month ≤ 12 ∧ 1 ≤ d.day ∧ d.day ≤ daysInMonth d.year d.month

instance (d : Date) : Decidable d.IsValid := by unfold IsValid; infer_instance

/-- How many days a cycle of 400 years has. -/
def daysPerCycle : Nat := 146097

/-- The day number of 0000-03-01, where a cycle begins. -/
def cycleStart : Int := -719468

/-- The date of a day number. -/
def ofDayNumber (n : Int) : Date :=
  let sinceStart := n - cycleStart
  let cycle := sinceStart / daysPerCycle
  let dayOfCycle := (sinceStart % daysPerCycle).toNat
  let yearOfCycle :=
    (dayOfCycle - dayOfCycle / 1460 + dayOfCycle / 36524 - dayOfCycle / 146096) / 365
  let dayOfYear := dayOfCycle - (365 * yearOfCycle + yearOfCycle / 4 - yearOfCycle / 100)
  let monthFromMarch := (5 * dayOfYear + 2) / 153
  let month := if monthFromMarch < 10 then monthFromMarch + 3 else monthFromMarch - 9
  { year := cycle * 400 + yearOfCycle + (if month ≤ 2 then 1 else 0)
    month := month
    day := dayOfYear - (153 * monthFromMarch + 2) / 5 + 1 }

/-- The day number of a date. -/
def dayNumber (d : Date) : Int :=
  let year := if d.month ≤ 2 then d.year - 1 else d.year
  let monthFromMarch := if d.month ≤ 2 then d.month + 9 else d.month - 3
  let dayOfYear := (153 * monthFromMarch + 2) / 5 + d.day - 1
  cycleStart + 365 * year + year / 4 - year / 100 + year / 400 + dayOfYear

end Date

/-- A number with zeros before it, so that there are at least `width` digits. -/
def padded (width n : Nat) : String :=
  let digits := Nat.toDigits 10 n
  String.ofList (List.replicate (width - digits.length) '0' ++ digits)

namespace Date

/-- The year in four digits; outside 0 to 9999 a sign comes first and there may be more digits. -/
def yearText (year : Int) : String :=
  if 0 ≤ year ∧ year ≤ 9999 then padded 4 year.toNat
  else (if year < 0 then "-" else "+") ++ padded 4 year.natAbs

/-- Year, month and day, with hyphens between. -/
def text (d : Date) : String :=
  yearText d.year ++ "-" ++ padded 2 d.month ++ "-" ++ padded 2 d.day

end Date

namespace Calendar

/-- The first day with a written form, 1 January of the year -262143. -/
def firstDay : Int := Date.dayNumber ⟨-262143, 1, 1⟩

/-- The last day with a written form, 31 December of the year 262142. -/
def lastDay : Int := Date.dayNumber ⟨262142, 12, 31⟩

/-- Holds of the days that have a written form. -/
def covers (day : Int) : Bool :=
  firstDay ≤ day && day ≤ lastDay

end Calendar

example : Date.ofDayNumber 0 = ⟨1970, 1, 1⟩ := by decide

example : Date.ofDayNumber 11016 = ⟨2000, 2, 29⟩ ∧ Date.dayNumber ⟨2000, 2, 29⟩ = 11016 := by decide

example : Date.ofDayNumber (-719529) = ⟨-1, 12, 31⟩ := by decide

example : (Date.ofDayNumber Calendar.firstDay, Date.ofDayNumber Calendar.lastDay) =
    (⟨-262143, 1, 1⟩, ⟨262142, 12, 31⟩) := by decide

example : Date.text ⟨-1, 12, 31⟩ = "-0001-12-31" ∧ Date.text ⟨10000, 1, 1⟩ = "+10000-01-01" := by
  decide +kernel

end WorkbookTables
