import WorkbookTables.Calendar
import WorkbookTables.Error
import WorkbookTables.Text.Blank

/-!
# Serial numbers of dates

A date is stored as a number of days, with the time of day as its fraction. In one system day 1 is
1900-01-01 and the day after 1900-02-28 counts twice, once for a 29 February that never was; in the
other day 0 is 1904-01-01.

The whole part is taken toward zero and the fraction keeps the sign, so that a negative serial
number goes back from its whole part. The time of day is rounded to a millisecond, which may be the
next midnight.

## Main definitions

* `DateSystem` — the two systems
* `Serial.moment` — the day and the millisecond of the day that a serial number names
* `Serial.dateText`, `Serial.timeText`, `Serial.dateTimeText` — the written forms
-/

namespace WorkbookTables

/-- What the days of a workbook are counted from. -/
inductive DateSystem where
  /-- Day 1 is 1900-01-01. -/
  | from1900
  /-- Day 0 is 1904-01-01. -/
  | from1904
  deriving DecidableEq, Repr

/-- A time of a day. -/
structure Moment where
  /-- The number of the day. -/
  day : Int
  /-- The milliseconds since midnight. -/
  millisecond : Nat
  deriving DecidableEq, Repr

/-- How many milliseconds a day has. -/
def millisecondsPerDay : Nat := 86400000

namespace Serial

/-- The number of the day 1899-12-30, from which the days after 1900-02-28 are counted. -/
def epochDay : Int := -25569

/-- What is added to the whole part of a serial number. -/
def offset (system : DateSystem) (days : Int) : Int :=
  match system with
  | .from1904 => 1462
  | .from1900 => if days < 60 then 1 else 0

/-- The moment that a finite serial number names, none outside the calendar. -/
def momentOf? (system : DateSystem) (serial : Binary64) : Option Moment :=
  let days := serial.truncated
  let day := days + offset system days + epochDay
  let milliseconds := serial.scaledFraction millisecondsPerDay
  let moved := day + milliseconds / (millisecondsPerDay : Int)
  if Calendar.covers day && Calendar.covers moved then
    some ⟨moved, (milliseconds % (millisecondsPerDay : Int)).toNat⟩
  else none

/-- The moment that a stored value names. -/
def moment (system : DateSystem) (value : String) : Except Error Moment :=
  match Decimal.read (Text.trim value) with
  | .error fault => .error (.decimal fault)
  | .ok (.finite serial) =>
    match momentOf? system serial with
    | some m => .ok m
    | none => .error (.serialRange value)
  | .ok _ => .error (.serialRange value)

end Serial

namespace Moment

/-- Hours, minutes and seconds, with milliseconds if there are any. -/
def timeText (m : Moment) : String :=
  let seconds := m.millisecond / 1000
  let rest := m.millisecond % 1000
  padded 2 (seconds / 3600) ++ ":" ++ padded 2 (seconds / 60 % 60) ++ ":" ++
    padded 2 (seconds % 60) ++ (if rest = 0 then "" else "." ++ padded 3 rest)

/-- The date. -/
def dateText (m : Moment) : String :=
  (Date.ofDayNumber m.day).text

end Moment

namespace Serial

/-- The date that a stored value names. -/
def dateText (system : DateSystem) (value : String) : Except Error String :=
  (moment system value).map Moment.dateText

/-- The time of day that a stored value names, which no date system changes. -/
def timeText (value : String) : Except Error String :=
  (moment .from1900 value).map Moment.timeText

/-- The date and the time of day that a stored value names. -/
def dateTimeText (system : DateSystem) (value : String) : Except Error String :=
  (moment system value).map fun m => m.dateText ++ " " ++ m.timeText

example : (dateText .from1900 "45000.75").toOption = some "2023-03-15" := by decide +kernel

example : (dateText .from1900 "59").toOption = some "1900-02-28" ∧
    (dateText .from1900 "60").toOption = some "1900-02-28" := by decide +kernel

example : (dateTimeText .from1904 "-0.5").toOption = some "1903-12-31 12:00:00" := by decide +kernel

end Serial

end WorkbookTables
