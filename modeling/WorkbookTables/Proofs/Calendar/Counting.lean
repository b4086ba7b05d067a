import Mathlib.Tactic.IntervalCases
import WorkbookTables.Calendar

/-!
# Counting days

What the number of a day ought to be is said without arithmetic: 1970-01-01 has the number 0, and
the date after a date has the next number, in both directions. `Date.next` is the calendar as it is
taught, by the lengths of the months and the leap years. That the formulas of the calendar count in
this way is shown here.

## Years that begin in March

Both formulas go through the year that begins in March, because the leap day is the last day of it.
A date is a year with a day of that year, and a day of the year is a month with a day of the month;
each of the two splits is unique, since a day lies before the end of its year and of its month. The
formula that finds the year is not the split itself: it corrects the day of the cycle by the leap
days before it and then divides by 365. What it gives is worked out once, for a day of which one
knows the century, the four years and the day in them.

## Main definitions

* `Date.next` — the date after a date
* `Date.Counts` — the number of a date, counted from 1970-01-01
* `Date.ofMarch` — the date of a day in a year that begins in March

## Main results

* `Date.dayNumber_next` — the next date has the next number
* `Date.ofDayNumber_dayNumber`, `Date.dayNumber_ofDayNumber` — dates and day numbers correspond
* `Date.counts_iff` — day numbers count days
-/

namespace WorkbookTables.Date

/-! ### Counting -/

/-- The date after a date. -/
def next (d : Date) : Date :=
  if d.day < daysInMonth d.year d.month then { d with day := d.day + 1 }
  else if d.month < 12 then ⟨d.year, d.month + 1, 1⟩
  else ⟨d.year + 1, 1, 1⟩

/-- The number of a date, counted from 1970-01-01. -/
inductive Counts : Date → Int → Prop where
  /-- The date at which the count begins. -/
  | epoch : Counts ⟨1970, 1, 1⟩ 0
  /-- One day later. -/
  | next {d : Date} {n : Int} (h : Counts d n) : Counts d.next (n + 1)
  /-- One day earlier. -/
  | previous {d : Date} {n : Int} (hvalid : d.IsValid) (h : Counts d.next (n + 1)) : Counts d n

/-! ### Years that begin in March -/

/-- The day on which the year begins that begins in March of `year`, counted from the beginning of
a cycle. -/
def yearStart (year : Int) : Int := 365 * year + year / 4 - year / 100 + year / 400

/-- How many days that year has. Its leap day stands in the calendar year after it. -/
def yearLength (year : Int) : Nat := if isLeapYear (year + 1) then 366 else 365

/-- How many days of such a year lie before a month, counted from March. -/
def monthStart (month : Nat) : Nat := (153 * month + 2) / 5

/-- How many days of the year that begins in March of `year` lie before the end of a month. -/
def monthEnd (year : Int) (month : Nat) : Nat :=
  if month = 11 then yearLength year else monthStart (month + 1)

/-- The number in the calendar year of a month counted from March. -/
def monthOf (month : Nat) : Nat := if month < 10 then month + 3 else month - 9

/-- The date of a day, counted from 0, of the year that begins in March of `year`. -/
def ofMarch (year : Int) (day : Nat) : Date :=
  let month := (5 * day + 2) / 153
  ⟨year + (if monthOf month ≤ 2 then 1 else 0), monthOf month, day - monthStart month + 1⟩

/-- The year that begins in March and has the date in it. -/
def marchYear (d : Date) : Int := if d.month ≤ 2 then d.year - 1 else d.year

/-- The month of a date, counted from March. -/
def marchMonth (d : Date) : Nat := if d.month ≤ 2 then d.month + 9 else d.month - 3

/-- The day of a date in its year, counted from 0. -/
def marchDay (d : Date) : Nat := monthStart d.marchMonth + d.day - 1

theorem isLeapYear_iff {year : Int} :
    isLeapYear year = true ↔ year % 4 = 0 ∧ (year % 100 ≠ 0 ∨ year % 400 = 0) := by
  simp [isLeapYear]

theorem dayNumber_eq (d : Date) :
    d.dayNumber = cycleStart + yearStart d.marchYear + d.marchDay := by
  simp only [dayNumber, yearStart, marchYear, marchDay, marchMonth, monthStart]
  omega

/-! ### Months of a year -/

variable {year : Int} {day month : Nat}

theorem yearLength_eq (year : Int) : yearLength year = 365 ∨ yearLength year = 366 := by
  rw [yearLength]
  split
  · exact .inr rfl
  · exact .inl rfl

/-- The division finds the month in which a day lies. -/
theorem month_eq_iff :
    (5 * day + 2) / 153 = month ↔ monthStart month ≤ day ∧ day < monthStart (month + 1) := by
  simp only [monthStart]
  omega

/-- A month is as long as the calendar says, February as long as its year lets it be. -/
theorem monthStart_add_daysInMonth (year : Int) (h : month ≤ 11) :
    monthStart month + daysInMonth (year + (if monthOf month ≤ 2 then 1 else 0)) (monthOf month) =
      monthEnd year month := by
  by_cases hlast : month = 11
  · subst hlast
    simp only [monthEnd, yearLength, daysInMonth, monthOf, monthStart]
    by_cases hleap : isLeapYear (year + 1) = true
    · simp [hleap]
    · simp [hleap]
  · have hlt : month < 11 := by omega
    rw [monthEnd, if_neg hlast]
    interval_cases month <;> rfl

/-- Every month ends before the end of the year. -/
theorem monthEnd_le (year : Int) (h : month ≤ 11) :
    monthStart month < monthEnd year month ∧ monthEnd year month ≤ monthStart (month + 1) ∧
      monthEnd year month ≤ yearLength year := by
  have hlength := yearLength_eq year
  simp only [monthEnd, monthStart]
  split
  · omega
  · omega

theorem monthOf_marchMonth {d : Date} (h : d.IsValid) :
    d.marchMonth ≤ 11 ∧ monthOf d.marchMonth = d.month ∧
      d.marchYear + (if d.month ≤ 2 then 1 else 0) = d.year := by
  obtain ⟨hfirst, hlast, -, -⟩ := h
  rw [marchMonth, marchYear, monthOf]
  by_cases hearly : d.month ≤ 2
  · have hmonth : ¬d.month + 9 < 10 := by omega
    simp only [if_pos hearly, if_neg hmonth]
    omega
  · have hmonth : d.month - 3 < 10 := by omega
    simp only [if_neg hearly, if_pos hmonth]
    omega

/-- **A date is a day of a year that begins in March.** It lies in its month, and so in its year. -/
theorem marchDay_lt {d : Date} (h : d.IsValid) :
    monthStart d.marchMonth ≤ d.marchDay ∧ d.marchDay < monthEnd d.marchYear d.marchMonth ∧
      d.marchDay < yearLength d.marchYear := by
  obtain ⟨hmonth, hname, hyear⟩ := monthOf_marchMonth h
  have hlength := monthStart_add_daysInMonth d.marchYear hmonth
  have hend := monthEnd_le d.marchYear hmonth
  obtain ⟨-, -, hfirst, hlast⟩ := h
  rw [hname, hyear] at hlength
  simp only [marchDay]
  omega

theorem ofMarch_marchDay {d : Date} (h : d.IsValid) : ofMarch d.marchYear d.marchDay = d := by
  obtain ⟨hmonth, hname, hyear⟩ := monthOf_marchMonth h
  obtain ⟨hlow, hhigh, -⟩ := marchDay_lt h
  have hend := monthEnd_le d.marchYear hmonth
  have hfound : (5 * d.marchDay + 2) / 153 = d.marchMonth := month_eq_iff.2 (by omega)
  have hday : d.marchDay - monthStart d.marchMonth + 1 = d.day := by
    have hfirst := h.2.2.1
    simp only [marchDay]
    omega
  simp only [ofMarch, hfound, hname, hyear, hday]

theorem marchMonth_monthOf (h : month ≤ 11) (year : Int) (day : Nat) :
    1 ≤ monthOf month ∧ monthOf month ≤ 12 ∧
      marchMonth ⟨year + (if monthOf month ≤ 2 then 1 else 0), monthOf month, day⟩ = month ∧
        marchYear ⟨year + (if monthOf month ≤ 2 then 1 else 0), monthOf month, day⟩ = year := by
  rw [marchMonth, marchYear]
  by_cases hlate : month < 10
  · have hname : monthOf month = month + 3 := if_pos hlate
    have hearly : ¬month + 3 ≤ 2 := by omega
    simp only [hname, if_neg hearly]
    omega
  · have hname : monthOf month = month - 9 := if_neg hlate
    have hearly : month - 9 ≤ 2 := by omega
    simp only [hname, if_pos hearly]
    omega

/-- The other way round: a day that lies in its year is the day of a date. -/
theorem isValid_ofMarch (h : day < yearLength year) :
    (ofMarch year day).IsValid ∧ (ofMarch year day).marchYear = year ∧
      (ofMarch year day).marchDay = day := by
  have hlength := yearLength_eq year
  obtain ⟨month, hfound⟩ : ∃ month, (5 * day + 2) / 153 = month := ⟨_, rfl⟩
  obtain ⟨hlow, hhigh⟩ := month_eq_iff.1 hfound
  have hmonth : month ≤ 11 := by omega
  have hbefore : day < monthEnd year month := by
    rw [monthEnd]
    split <;> omega
  have hdays := monthStart_add_daysInMonth year hmonth
  obtain ⟨hfirst, hlast, hmarch, hyear⟩ :=
    marchMonth_monthOf hmonth year (day - monthStart month + 1)
  simp only [ofMarch, hfound, IsValid, marchDay, hmarch, hyear]
  exact ⟨⟨hfirst, hlast, by omega, by omega⟩, trivial, by omega⟩

/-! ### Years of the calendar -/

theorem yearStart_succ (year : Int) : yearStart (year + 1) = yearStart year + yearLength year := by
  simp only [yearStart, yearLength, isLeapYear_iff]
  split <;> omega

/-! ### The formula for the year -/

/-- The year of a cycle in which a day of the cycle lies, as the calendar computes it. -/
def yearOfCycle (day : Nat) : Nat := (day - day / 1460 + day / 36524 - day / 146096) / 365

/-- The formula on a day of which one knows the century, the four years and the day in them. The
last day of the cycle is left out. -/
theorem yearOfCycle_eq {century four rest : Nat} (hcentury : century ≤ 3) (hfour : four ≤ 24)
    (hrest : rest ≤ 1460) (hlast : four = 24 → rest ≤ 1459)
    (hday : day = 36524 * century + 1461 * four + rest) :
    yearOfCycle day = 100 * century + 4 * four + min (rest / 365) 3 := by
  have hcenturies : day / 36524 = century := by omega
  have hcycles : day / 146096 = 0 := by omega
  rw [yearOfCycle, hcenturies, hcycles]
  -- The quotient by 1460 is one too large on the last days of four years, which changes no year.
  by_cases hlate : 24 * century + four + rest < 1460
  · have hfours : day / 1460 = 25 * century + four := by omega
    omega
  · have hfours : day / 1460 = 25 * century + four + 1 := by omega
    omega

/-- **The formula finds the year** in which a day of a cycle lies. -/
theorem yearOfCycle_yearStart {first : Nat} (hfirst : first < 400)
    (hday : day < yearLength first) {dayOfCycle : Nat}
    (h : (dayOfCycle : Int) = yearStart first + day) :
    yearOfCycle dayOfCycle = first ∧ dayOfCycle < 146097 := by
  have hlength : day < 365 ∨ day = 365 ∧
      ((first + 1) % 4 = 0 ∧ ((first + 1) % 100 ≠ 0 ∨ (first + 1) % 400 = 0)) := by
    simp only [yearLength, isLeapYear_iff] at hday
    split at hday <;> omega
  have hsplit : dayOfCycle = 36524 * (first / 100) + 1461 * (first % 100 / 4) +
      (365 * (first % 4) + day) := by
    simp only [yearStart] at h
    omega
  by_cases hend : dayOfCycle = 146096
  · subst hend
    refine ⟨?_, by decide⟩
    have hlast : yearOfCycle 146096 = 399 := by decide
    omega
  · have hinside : first % 100 / 4 = 24 → 365 * (first % 4) + day ≤ 1459 := by
      intro hfour
      omega
    rw [yearOfCycle_eq (by omega) (by omega) (by omega) hinside hsplit]
    omega

/-- A day number is split into a cycle and a day of the cycle first. -/
theorem ofDayNumber_cycle (n : Int) {cycle : Int} {dayOfCycle : Nat} (hlt : dayOfCycle < 146097)
    (h : n = cycleStart + 146097 * cycle + dayOfCycle) :
    ofDayNumber n = ofMarch (cycle * 400 + yearOfCycle dayOfCycle)
      (dayOfCycle - (365 * yearOfCycle dayOfCycle + yearOfCycle dayOfCycle / 4 -
        yearOfCycle dayOfCycle / 100)) := by
  have hdays : (daysPerCycle : Int) = 146097 := rfl
  have hcycle : (n - cycleStart) / daysPerCycle = cycle := by
    rw [hdays]
    omega
  have hday : ((n - cycleStart) % daysPerCycle).toNat = dayOfCycle := by
    rw [hdays]
    omega
  rw [← hcycle, ← hday]
  rfl

/-- **The date of a day number**, given by a year that begins in March and a day of it. -/
theorem ofDayNumber_eq (h : day < yearLength year) :
    ofDayNumber (cycleStart + yearStart year + day) = ofMarch year day := by
  obtain ⟨first, hfirst⟩ := Int.eq_ofNat_of_zero_le (Int.emod_nonneg year (b := 400) (by decide))
  have hyear : year = 400 * (year / 400) + first := by omega
  have hstart : yearStart year = 146097 * (year / 400) + yearStart first := by
    simp only [yearStart]
    omega
  have hlength : yearLength year = yearLength first := by
    simp only [yearLength, isLeapYear_iff]
    split <;> split <;> omega
  have hpositive : 0 ≤ yearStart first := by
    simp only [yearStart]
    omega
  obtain ⟨dayOfCycle, hday⟩ := Int.eq_ofNat_of_zero_le (a := yearStart first + day) (by omega)
  obtain ⟨hfound, hlt⟩ := yearOfCycle_yearStart (by omega) (hlength ▸ h) hday.symm
  have hn : cycleStart + yearStart year + day =
      cycleStart + 146097 * (year / 400) + dayOfCycle := by omega
  rw [ofDayNumber_cycle _ hlt hn, hfound]
  have hrest : dayOfCycle - (365 * first + first / 4 - first / 100) = day := by
    simp only [yearStart] at hday
    omega
  rw [hrest, Int.mul_comm, ← hyear]

/-- Every day lies in a year. -/
theorem exists_year (n : Int) :
    ∃ year day, day < yearLength year ∧ n = yearStart year + day := by
  induction n using Int.induction_on with
  | zero => exact ⟨0, 0, by decide, rfl⟩
  | succ n ih =>
    obtain ⟨year, day, hday, hn⟩ := ih
    have hsucc := yearStart_succ year
    have hlength := yearLength_eq (year + 1)
    by_cases hlast : day + 1 < yearLength year
    · exact ⟨year, day + 1, hlast, by omega⟩
    · exact ⟨year + 1, 0, by omega, by omega⟩
  | pred n ih =>
    obtain ⟨year, day, hday, hn⟩ := ih
    have hsucc := yearStart_succ (year - 1)
    have hlength := yearLength_eq (year - 1)
    rw [Int.sub_add_cancel] at hsucc
    by_cases hfirst : 0 < day
    · exact ⟨year, day - 1, by omega, by omega⟩
    · exact ⟨year - 1, yearLength (year - 1) - 1, by omega, by omega⟩

/-! ### Dates and day numbers -/

/-- **Every day number is that of a date.** -/
theorem dayNumber_ofDayNumber (n : Int) :
    (ofDayNumber n).IsValid ∧ (ofDayNumber n).dayNumber = n := by
  obtain ⟨year, day, hday, hn⟩ := exists_year (n - cycleStart)
  have hsplit : n = cycleStart + yearStart year + day := by omega
  obtain ⟨hvalid, hyear, hmarch⟩ := isValid_ofMarch hday
  rw [hsplit, ofDayNumber_eq hday]
  exact ⟨hvalid, by rw [dayNumber_eq, hyear, hmarch]⟩

/-- **Every date is that of its day number.** -/
theorem ofDayNumber_dayNumber {d : Date} (h : d.IsValid) : ofDayNumber d.dayNumber = d := by
  rw [dayNumber_eq, ofDayNumber_eq (marchDay_lt h).2.2, ofMarch_marchDay h]

/-! ### The next date -/

theorem isValid_next {d : Date} (h : d.IsValid) : d.next.IsValid := by
  obtain ⟨hfirst, hlast, hday, -⟩ := h
  rw [next]
  split
  next hinside => exact ⟨hfirst, hlast, Nat.le_add_left 1 d.day, hinside⟩
  next =>
    have hpositive : ∀ (year : Int) (month : Nat), 1 ≤ daysInMonth year month := by
      intro year month
      rw [daysInMonth]
      split
      · split <;> decide
      · split <;> decide
    split
    next hmonth => exact ⟨Nat.le_add_left 1 d.month, hmonth, Nat.le_refl 1, hpositive _ _⟩
    next => exact ⟨Nat.le_refl 1, Nat.le_add_left 1 11, Nat.le_refl 1, hpositive _ _⟩

/-- Behind the last day of a month comes the first of the next one, in the same year that begins in
March unless February has ended. -/
theorem next_of_last {d : Date} (h : d.IsValid) (hlast : ¬d.day < daysInMonth d.year d.month) :
    d.next.day = 1 ∧
      (d.marchMonth = 11 ∧ d.next.marchMonth = 0 ∧ d.next.marchYear = d.marchYear + 1 ∨
        d.marchMonth ≠ 11 ∧ d.next.marchMonth = d.marchMonth + 1 ∧
          d.next.marchYear = d.marchYear) := by
  obtain ⟨hfirst, hmonth, -, -⟩ := h
  rw [next, if_neg hlast]
  simp only [marchMonth, marchYear]
  by_cases hdecember : d.month < 12
  · simp only [if_pos hdecember]
    by_cases hearly : d.month ≤ 2
    · by_cases hfebruary : d.month = 2
      · simp [hfebruary]
      · have hjanuary : d.month + 1 ≤ 2 := by omega
        simp only [if_pos hearly, if_pos hjanuary, true_and, and_true]
        omega
    · have hlate : ¬d.month + 1 ≤ 2 := by omega
      simp only [if_neg hearly, if_neg hlate, true_and, and_true]
      omega
  · have heq : d.month = 12 := by omega
    simp [heq]

/-- **The next date has the next number.** -/
theorem dayNumber_next {d : Date} (h : d.IsValid) : d.next.dayNumber = d.dayNumber + 1 := by
  have hday := h.2.2.1
  rw [dayNumber_eq, dayNumber_eq]
  by_cases hinside : d.day < daysInMonth d.year d.month
  · have hnext : d.next = { d with day := d.day + 1 } := if_pos hinside
    rw [hnext]
    simp only [marchYear, marchMonth, marchDay]
    omega
  · obtain ⟨hmonth, hname, hyear⟩ := monthOf_marchMonth h
    have hdays := monthStart_add_daysInMonth d.marchYear hmonth
    rw [hname, hyear] at hdays
    have hend : d.marchDay + 1 = monthEnd d.marchYear d.marchMonth := by
      have hlast := h.2.2.2
      simp only [marchDay]
      omega
    have hzero : monthStart 0 = 0 := rfl
    obtain ⟨hone, ⟨heleven, hmarch, hnewYear⟩ | ⟨hother, hmarch, hsameYear⟩⟩ :=
      next_of_last h hinside
    · rw [monthEnd, if_pos heleven] at hend
      have hbegins : d.next.marchDay = 0 := by simp only [marchDay, hmarch, hone, hzero]
      rw [hnewYear, hbegins, yearStart_succ]
      omega
    · rw [monthEnd, if_neg hother] at hend
      have hbegins : d.next.marchDay = monthStart (d.marchMonth + 1) := by
        simp only [marchDay, hmarch, hone]
        omega
      rw [hsameYear, hbegins, ← hend]
      omega

theorem ofDayNumber_succ (n : Int) : ofDayNumber (n + 1) = (ofDayNumber n).next := by
  obtain ⟨hvalid, hnumber⟩ := dayNumber_ofDayNumber n
  rw [← ofDayNumber_dayNumber (isValid_next hvalid), dayNumber_next hvalid, hnumber]

/-! ### Counting again -/

theorem counts_ofDayNumber (n : Int) : Counts (ofDayNumber n) n := by
  induction n using Int.induction_on with
  | zero => exact .epoch
  | succ n ih =>
    rw [ofDayNumber_succ]
    exact ih.next
  | pred n ih =>
    refine .previous (dayNumber_ofDayNumber _).1 ?_
    rwa [← ofDayNumber_succ, Int.sub_add_cancel]

/-- **Day numbers count days.** -/
theorem counts_iff {d : Date} {n : Int} : Counts d n ↔ d.IsValid ∧ d.dayNumber = n := by
  constructor
  · intro h
    induction h with
    | epoch => exact ⟨by decide, rfl⟩
    | next _ ih =>
      obtain ⟨hvalid, rfl⟩ := ih
      exact ⟨isValid_next hvalid, dayNumber_next hvalid⟩
    | previous hvalid _ ih =>
      have hnext := dayNumber_next hvalid
      exact ⟨hvalid, by omega⟩
  · rintro ⟨hvalid, rfl⟩
    have hcounts := counts_ofDayNumber d.dayNumber
    rwa [ofDayNumber_dayNumber hvalid] at hcounts

end WorkbookTables.Date
