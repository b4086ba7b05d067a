import WorkbookTables.Cell.Serial
import WorkbookTables.Proofs.Calendar.Counting
import WorkbookTables.Proofs.Number.WholeNumbers

/-!
# Whole serial numbers

A serial number without a fraction names a day. Which day that is, is said by counting days and not
by the calendar's formulas: the day of serial number `n` is numbered `n - 25569`, and then moved on
by what the system adds. In the system that begins in 1900 that is one day before serial number 60,
which therefore repeats the day of 59; from then on it is nothing.

A year from 0 to 9999 has four digits, and only such a date is written as it is here. The bound also
keeps the serial number so small that reading it as a double-precision number is exact.

## Main definitions

* `Date.IsWritten` — a date with four, two and two digits
* `Serial.wholeDay` — the number of the day that a whole serial number names
* `Serial.NamesDay` — what a whole serial number shows, and how it is related to others

## Main results

* `Serial.dateText_eq` — the date that a whole serial number shows
* `Serial.exists_namesDay` — every whole serial number names a day
-/

namespace WorkbookTables

/-! ### Written dates -/

/-- Digits, just as many as `width`, with the value `n`. -/
structure IsFixed (width : Nat) (n : Int) (digits : List Char) : Prop where
  /-- There are so many. -/
  length : digits.length = width
  /-- They are digits. -/
  isDigit : ∀ c ∈ digits, c.isDigit = true
  /-- They have the value. -/
  value : (Nat.ofDigitChars 10 digits 0 : Int) = n

/-- The text is the date: four digits of the year, two of the month and two of the day, with
hyphens between. -/
def Date.IsWritten (d : Date) (text : String) : Prop :=
  ∃ year month day, text = String.ofList (year ++ '-' :: month ++ '-' :: day) ∧
    IsFixed 4 d.year year ∧ IsFixed 2 d.month month ∧ IsFixed 2 d.day day

/-- A number that has room is padded to the width. -/
theorem isFixed_padded {width n : Nat} (hwidth : 0 < width) (h : n < 10 ^ width) :
    IsFixed width n (padded width n).toList := by
  have hlength : (Nat.toDigits 10 n).length ≤ width :=
    (Nat.length_toDigits_le_iff (by decide) hwidth).2 h
  rw [padded, String.toList_ofList]
  refine ⟨?_, ?_, ?_⟩
  · rw [List.length_append, List.length_replicate, Nat.sub_add_cancel hlength]
  · intro c hc
    obtain hzero | hdigit := List.mem_append.1 hc
    · rw [List.eq_of_mem_replicate hzero]
      rfl
    · exact Nat.isDigit_of_mem_toDigits (by decide) (by decide) hdigit
  · rw [Nat.ofDigitChars_append, Nat.ofDigitChars_replicate_zero, Nat.mul_zero,
      Nat.ofDigitChars_ten_toDigits]

theorem Date.isWritten_text {d : Date} (h : d.IsValid) (hfirst : 0 ≤ d.year)
    (hlast : d.year ≤ 9999) : d.IsWritten d.text := by
  obtain ⟨-, hmonth, -, hday⟩ := h
  have hdays : daysInMonth d.year d.month ≤ 31 := by
    rw [daysInMonth]
    split
    · split <;> decide
    · split <;> decide
  have hyearText : yearText d.year = padded 4 d.year.toNat := if_pos ⟨hfirst, hlast⟩
  refine ⟨(padded 4 d.year.toNat).toList, (padded 2 d.month).toList, (padded 2 d.day).toList,
    ?_, ?_, isFixed_padded (by decide) (by omega), isFixed_padded (by decide) (by omega)⟩
  · rw [Date.text, hyearText, ← String.toList_inj]
    simp
  · have hyear : IsFixed 4 d.year.toNat (padded 4 d.year.toNat).toList :=
      isFixed_padded (by decide) (by omega)
    rwa [Int.toNat_of_nonneg hfirst] at hyear

namespace Serial

/-! ### Days of serial numbers -/

variable {system : DateSystem} {n : Int} {d : Date} {numeral : String}

/-- The number of the day that a whole serial number names, counted from 1970-01-01. -/
def wholeDay (system : DateSystem) (n : Int) : Int :=
  n - 25569 + match system with
    | .from1904 => 1462
    | .from1900 => if n < 60 then 1 else 0

/-- From serial number 60 on the system that begins in 1900 adds nothing, and before it one day. -/
theorem wholeDay_from1904 (h : 60 ≤ n + 1462) :
    wholeDay .from1904 n = wholeDay .from1900 (n + 1462) := by
  have hlate : ¬n + 1462 < 60 := by omega
  simp only [wholeDay, if_neg hlate]
  omega

/-- The next serial number names the next day, or the same day as 59. -/
theorem wholeDay_succ (system : DateSystem) (n : Int) :
    wholeDay system (n + 1) =
      wholeDay system n + if system = .from1900 ∧ n = 59 then 0 else 1 := by
  cases system with
  | from1904 =>
    simp only [wholeDay]
    rw [if_neg (by simp)]
    omega
  | from1900 =>
    simp only [wholeDay, true_and]
    split <;> split <;> split <;> omega

/-- A date with a year of four digits has a small day number. -/
theorem dayNumber_bounds (h : d.IsValid) (hfirst : 0 ≤ d.year) (hlast : d.year ≤ 9999) :
    -1000000 ≤ d.dayNumber ∧ d.dayNumber ≤ 10000000 := by
  have hday := (Date.marchDay_lt h).2.2
  have hlength := Date.yearLength_eq d.marchYear
  have hstart : Date.cycleStart = -719468 := rfl
  have hyear : -1 ≤ d.marchYear ∧ d.marchYear ≤ 9999 := by
    rw [Date.marchYear]
    split <;> omega
  rw [Date.dayNumber_eq, hstart, Date.yearStart]
  omega

/-! ### Dates of whole serial numbers -/

theorem trim_of_isNumeral (h : Decimal.IsNumeral n numeral) : Text.trim numeral = numeral := by
  refine Text.trim_eq_self fun c hc => ?_
  cases h with
  | unsigned h =>
    rw [String.toList_ofList] at hc
    exact Text.isBlank_of_isDigit ((Numeral.spells_ten_iff.1 h).2.1 c hc)
  | negative h =>
    rw [String.toList_ofList] at hc
    obtain rfl | hc := List.mem_cons.1 hc
    · decide
    · exact Text.isBlank_of_isDigit ((Numeral.spells_ten_iff.1 h).2.1 c hc)

/-- A day that the calendar covers is named by the serial number with nothing after it. -/
theorem momentOf?_of_isInteger {x : Binary64} (hx : x.IsInteger n)
    (hcovers : Calendar.covers (wholeDay system n) = true) :
    momentOf? system x = some ⟨wholeDay system n, 0⟩ := by
  have hday : n + offset system n + epochDay = wholeDay system n := by
    cases system with
    | from1904 =>
      simp only [wholeDay, offset, epochDay]
      omega
    | from1900 =>
      simp only [wholeDay, offset, epochDay]
      omega
  rw [momentOf?, hx.truncated, hx.scaledFraction, hday]
  simp [hcovers]

/-- **The date that a whole serial number shows.** -/
theorem dateText_eq (hvalid : d.IsValid) (hnumber : d.dayNumber = wholeDay system n)
    (hfirst : 0 ≤ d.year) (hlast : d.year ≤ 9999) (h : Decimal.IsNumeral n numeral) :
    dateText system numeral = .ok d.text := by
  obtain ⟨hlow, hhigh⟩ := dayNumber_bounds hvalid hfirst hlast
  rw [hnumber] at hlow hhigh
  have hsmall : n.natAbs < 2 ^ 53 := by
    simp only [wholeDay] at hlow hhigh
    cases system with
    | from1904 => simp only at hlow hhigh; omega
    | from1900 => simp only at hlow hhigh; split at hlow <;> omega
  obtain ⟨x, hread, hx⟩ := h.exists_read_eq hsmall
  have hcovers : Calendar.covers (wholeDay system n) = true := by
    have hbegin : Calendar.firstDay ≤ -1000000 := by decide
    have hend : 10000000 ≤ Calendar.lastDay := by decide
    rw [Calendar.covers, Bool.and_eq_true, decide_eq_true_eq, decide_eq_true_eq]
    omega
  have hmoment : moment system numeral = .ok ⟨wholeDay system n, 0⟩ := by
    simp only [moment, trim_of_isNumeral h, hread, momentOf?_of_isInteger hx hcovers]
  rw [dateText, hmoment, ← hnumber]
  change Except.ok (Date.ofDayNumber d.dayNumber).text = Except.ok d.text
  rw [Date.ofDayNumber_dayNumber hvalid]

/-! ### Named days -/

/-- The whole serial number `n` names the day `d`. What is shown is said for every numeral of a
number. -/
structure NamesDay (system : DateSystem) (n : Int) (d : Date) : Prop where
  /-- The day exists: its month has so many days. -/
  valid : d.IsValid
  /-- Counting days leads to it. -/
  counts : d.Counts (wholeDay system n)
  /-- Counting leads to no other day. -/
  unique : ∀ d' : Date, d'.Counts (wholeDay system n) → d' = d
  /-- With a year of four digits it is what is shown. -/
  rendered : 0 ≤ d.year → d.year ≤ 9999 → ∀ numeral, Decimal.IsNumeral n numeral →
    ∃ text, dateText system numeral = .ok text ∧ d.IsWritten text
  /-- The next serial number shows the next day, but 60 shows the day of 59. -/
  following : 0 ≤ d.year → d.next.year ≤ 9999 → ∀ numeral, Decimal.IsNumeral (n + 1) numeral →
    ∃ text, dateText system numeral = .ok text ∧
      (if system = .from1900 ∧ n = 59 then d else d.next).IsWritten text
  /-- The day of 59 and 60. -/
  shared : system = .from1900 → n = 59 → d = ⟨1900, 2, 28⟩
  /-- The other system shows the same day under a number that is larger by 1462. -/
  moved : system = .from1904 → 60 ≤ n + 1462 → 0 ≤ d.year → d.year ≤ 9999 →
    ∀ numeral numeral', Decimal.IsNumeral n numeral → Decimal.IsNumeral (n + 1462) numeral' →
      dateText .from1904 numeral = dateText .from1900 numeral'

/-- A day is at most as late as the next one in the count of years. -/
theorem year_le_next (d : Date) : d.year ≤ d.next.year := by
  rw [Date.next]
  split
  · exact Int.le_refl _
  · split
    · exact Int.le_refl _
    · exact Int.le_add_one (Int.le_refl _)

theorem exists_isWritten (hvalid : d.IsValid) (hnumber : d.dayNumber = wholeDay system n)
    (hfirst : 0 ≤ d.year) (hlast : d.year ≤ 9999) (h : Decimal.IsNumeral n numeral) :
    ∃ text, dateText system numeral = .ok text ∧ d.IsWritten text :=
  ⟨d.text, dateText_eq hvalid hnumber hfirst hlast h, Date.isWritten_text hvalid hfirst hlast⟩

/-- **Every whole serial number names a day.** -/
theorem exists_namesDay (system : DateSystem) (n : Int) : ∃ d, NamesDay system n d := by
  obtain ⟨d, hd⟩ : ∃ d, d = Date.ofDayNumber (wholeDay system n) := ⟨_, rfl⟩
  obtain ⟨hvalid, hnumber⟩ := Date.dayNumber_ofDayNumber (wholeDay system n)
  rw [← hd] at hvalid hnumber
  refine ⟨d, hvalid, Date.counts_iff.2 ⟨hvalid, hnumber⟩, ?unique, ?rendered, ?following, ?shared,
    ?moved⟩
  case unique =>
    intro d' hcounts
    obtain ⟨hvalid', hnumber'⟩ := Date.counts_iff.1 hcounts
    rw [← Date.ofDayNumber_dayNumber hvalid', hnumber', hd]
  case rendered =>
    exact fun hfirst hlast _ => exists_isWritten hvalid hnumber hfirst hlast
  case following =>
    intro hfirst hlast numeral hnumeral
    have hle := year_le_next d
    have hsucc := wholeDay_succ system n
    split at hsucc
    next hshared =>
      rw [if_pos hshared]
      exact exists_isWritten hvalid (by omega) hfirst (by omega) hnumeral
    next hshared =>
      rw [if_neg hshared]
      have hnext := Date.dayNumber_next hvalid
      exact exists_isWritten (Date.isValid_next hvalid) (by omega) (by omega) hlast hnumeral
  case shared =>
    rintro rfl rfl
    rw [hd]
    decide
  case moved =>
    rintro rfl hlate hfirst hlast numeral numeral' hnumeral hnumeral'
    rw [dateText_eq hvalid hnumber hfirst hlast hnumeral,
      dateText_eq hvalid (hnumber.trans (wholeDay_from1904 hlate)) hfirst hlast hnumeral']

end Serial

end WorkbookTables
