import WorkbookTables.Proofs.Cell.WholeSerials

/-!
# Dates and times of serial numbers

A stored value is shown as a date, as a time of day, or as both, and each of these texts is made
from the value anew. They agree because all three come from one moment, of which the whole part of
the value and the date system move nothing but the day. The time of day is left to the fraction.

The fraction has the sign of the value, and it may round up to a whole day. So it is taken apart
into a number of days, which goes to the date, and a time of day behind a midnight. The calendar
ends in both directions, and there the systems have room for different serial numbers: the date may
be shown and the time of day not, or the other way round. Then there is nothing that could disagree.

## Main definitions

* `TimeOfDay` — hours, minutes, seconds and thousandths, with their bounds
* `TimeOfDay.IsWritten` — how a time of day is written
* `Serial.TextsAgree` — what the texts of a stored value have to do with each other

## Main results

* `Serial.momentOf?_eq_some_iff` — the moment of a serial number, taken apart
* `Serial.textsAgree` — the texts of every stored value agree
-/

namespace WorkbookTables

/-! ### Written times -/

/-- A time of day. -/
structure TimeOfDay where
  /-- The hour. -/
  hour : Nat
  /-- The minute of the hour. -/
  minute : Nat
  /-- The second of the minute. -/
  second : Nat
  /-- The thousandth of the second. -/
  thousandth : Nat
  /-- A day has 24 hours. -/
  hour_lt : hour < 24
  /-- An hour has 60 minutes. -/
  minute_lt : minute < 60
  /-- A minute has 60 seconds. -/
  second_lt : second < 60
  /-- A second has 1000 thousandths. -/
  thousandth_lt : thousandth < 1000

namespace TimeOfDay

/-- How many milliseconds it is after midnight. -/
def millisecond (t : TimeOfDay) : Nat :=
  ((t.hour * 60 + t.minute) * 60 + t.second) * 1000 + t.thousandth

/-- The text is the time of day: two digits of the hour, the minute and the second, with colons
between, and three of the thousandths behind a point, unless there are none. -/
def IsWritten (t : TimeOfDay) (text : String) : Prop :=
  ∃ hours minutes seconds rest,
    text = String.ofList (hours ++ ':' :: minutes ++ ':' :: seconds ++ rest) ∧
    IsFixed 2 t.hour hours ∧ IsFixed 2 t.minute minutes ∧ IsFixed 2 t.second seconds ∧
    (t.thousandth = 0 ∧ rest = [] ∨
      t.thousandth ≠ 0 ∧ ∃ digits, rest = '.' :: digits ∧ IsFixed 3 t.thousandth digits)

end TimeOfDay

/-- The time of day of a moment is written as such. -/
theorem Moment.exists_isWritten_timeText {m : Moment} (h : m.millisecond < millisecondsPerDay) :
    ∃ t : TimeOfDay, t.millisecond = m.millisecond ∧ t.IsWritten m.timeText := by
  have hday : millisecondsPerDay = 86400000 := rfl
  let t : TimeOfDay :=
    { hour := m.millisecond / 1000 / 3600
      minute := m.millisecond / 1000 / 60 % 60
      second := m.millisecond / 1000 % 60
      thousandth := m.millisecond % 1000
      hour_lt := by omega
      minute_lt := by omega
      second_lt := by omega
      thousandth_lt := by omega }
  refine ⟨t, ?_, ?_⟩
  · show ((m.millisecond / 1000 / 3600 * 60 + m.millisecond / 1000 / 60 % 60) * 60 +
      m.millisecond / 1000 % 60) * 1000 + m.millisecond % 1000 = m.millisecond
    omega
  · have hhour : t.hour < 10 ^ 2 := Nat.lt_trans t.hour_lt (by decide)
    have hminute : t.minute < 10 ^ 2 := Nat.lt_trans t.minute_lt (by decide)
    have hsecond : t.second < 10 ^ 2 := Nat.lt_trans t.second_lt (by decide)
    refine ⟨(padded 2 t.hour).toList, (padded 2 t.minute).toList, (padded 2 t.second).toList,
      (if t.thousandth = 0 then [] else '.' :: (padded 3 t.thousandth).toList), ?_,
      isFixed_padded (by decide) hhour, isFixed_padded (by decide) hminute,
      isFixed_padded (by decide) hsecond, ?_⟩
    · rw [← String.toList_inj]
      by_cases hrest : m.millisecond % 1000 = 0
      · simp [Moment.timeText, t, hrest]
      · simp [Moment.timeText, t, hrest]
    · by_cases hrest : t.thousandth = 0
      · exact .inl ⟨hrest, if_pos hrest⟩
      · exact .inr ⟨hrest, _, if_neg hrest, isFixed_padded (by decide) t.thousandth_lt⟩

namespace Serial

/-! ### Moments of serial numbers -/

variable {system : DateSystem} {value : String} {m : Moment}

theorem truncated_add_offset (system : DateSystem) (n : Int) :
    n + offset system n + epochDay = wholeDay system n := by
  rcases system with _ | _
  · show n + (if n < 60 then 1 else 0) + -25569 = n - 25569 + if n < 60 then 1 else 0
    omega
  · show n + 1462 + -25569 = n - 25569 + 1462
    omega

/-- **The moment of a serial number.** Its day is that of the whole part, moved on by the whole days
in the fraction, and the rest of the fraction is the time of day. Both days must be covered. -/
theorem momentOf?_eq_some_iff {x : Binary64} :
    momentOf? system x = some m ↔
      m.day = wholeDay system x.truncated +
        x.scaledFraction millisecondsPerDay / (millisecondsPerDay : Int) ∧
      (m.millisecond : Int) = x.scaledFraction millisecondsPerDay % (millisecondsPerDay : Int) ∧
      Calendar.covers (wholeDay system x.truncated) = true ∧ Calendar.covers m.day = true := by
  have hnonneg : 0 ≤ x.scaledFraction millisecondsPerDay % (millisecondsPerDay : Int) :=
    Int.emod_nonneg _ (by decide)
  simp only [momentOf?, truncated_add_offset]
  constructor
  · intro h
    split at h
    next hcovers =>
      obtain rfl := Option.some.inj h
      rw [Bool.and_eq_true] at hcovers
      exact ⟨rfl, Int.toNat_of_nonneg hnonneg, hcovers⟩
    next => cases h
  · rintro ⟨hday, hmillisecond, hwhole, hmoved⟩
    rw [← hday, ← hmillisecond, if_pos (by rw [hwhole, hmoved]; rfl)]
    rfl

/-- A stored value that names a moment is the numeral of a finite number. -/
theorem moment_eq_ok_iff :
    moment system value = .ok m ↔
      ∃ x, Decimal.read (Text.trim value) = .ok (.finite x) ∧ momentOf? system x = some m := by
  rw [moment]
  constructor
  · intro h
    split at h
    next => cases h
    next x hread =>
      split at h
      next m' hmoment =>
        obtain rfl := Except.ok.inj h
        exact ⟨x, hread, hmoment⟩
      next => cases h
    next => cases h
  · rintro ⟨x, hread, hmoment⟩
    simp only [hread, hmoment]

/-- A numeral is that of one number, so its moment is the moment of that number. -/
theorem momentOf?_of_read {x : Binary64} (hread : Decimal.read (Text.trim value) = .ok (.finite x))
    (h : moment system value = .ok m) : momentOf? system x = some m := by
  obtain ⟨x', hread', hmoment⟩ := moment_eq_ok_iff.1 h
  obtain rfl : x = x' := by simpa using hread.symm.trans hread'
  exact hmoment

theorem map_eq_error_iff {α : Type} {f : Moment → α} {e : Error} :
    (moment system value).map f = .error e ↔ moment system value = .error e := by
  rcases moment system value with e' | m
  · show Except.error e' = .error e ↔ Except.error e' = .error e
    rw [Except.error.injEq, Except.error.injEq]
  · show Except.ok (f m) = .error e ↔ Except.ok m = .error e
    simp

theorem map_eq_ok_iff {α : Type} {f : Moment → α} {a : α} :
    (moment system value).map f = .ok a ↔ ∃ m, moment system value = .ok m ∧ f m = a := by
  rcases moment system value with e | m
  · show Except.error e = .ok a ↔ ∃ m, Except.error e = .ok m ∧ f m = a
    simp
  · show Except.ok (f m) = .ok a ↔ ∃ m', Except.ok m = .ok m' ∧ f m' = a
    simp

/-! ### Texts that agree -/

/-- What the texts of a stored value have to do with each other. -/
structure TextsAgree (system : DateSystem) (value : String) : Prop where
  /-- The date fails just as the date with the time of day does, and so one of them is shown where
  the other is. -/
  error : ∀ e, dateText system value = .error e ↔ dateTimeText system value = .error e
  /-- If there are a date with a time of day and a time of day, the first is the date and the second
  with a blank between. -/
  joined : ∀ both time, dateTimeText system value = .ok both → timeText value = .ok time →
    ∃ date, dateText system value = .ok date ∧ both = date ++ " " ++ time
  /-- In the system that begins in 1900 the time of day fails with them. -/
  together : system = .from1900 → ∀ e, timeText value = .error e ↔ dateText system value = .error e
  /-- The time of day is that of the fraction behind a midnight, and the date goes to this midnight
  from the day of the whole part. -/
  clock : ∀ x, Decimal.read (Text.trim value) = .ok (.finite x) →
    ∃ (days : Int) (t : TimeOfDay),
      x.scaledFraction millisecondsPerDay = days * millisecondsPerDay + t.millisecond ∧
      (∀ time, timeText value = .ok time → t.IsWritten time) ∧
      ∀ both, dateTimeText system value = .ok both → ∃ time, t.IsWritten time ∧
        both = (Date.ofDayNumber (wholeDay system x.truncated + days)).text ++ " " ++ time
  /-- A value with the same fraction has the same time of day, whatever its whole part is and in
  whatever system it counts. -/
  unmoved : ∀ system' value' x x', Decimal.read (Text.trim value) = .ok (.finite x) →
    Decimal.read (Text.trim value') = .ok (.finite x') →
    x.scaledFraction millisecondsPerDay = x'.scaledFraction millisecondsPerDay →
    ∀ both both', dateTimeText system value = .ok both → dateTimeText system' value' = .ok both' →
      ∃ date date' time, both = date ++ " " ++ time ∧ both' = date' ++ " " ++ time

/-- Moments of one fraction have one time of day. -/
theorem timeText_eq_of_scaledFraction {system' : DateSystem} {m' : Moment} {x x' : Binary64}
    (h : momentOf? system x = some m) (h' : momentOf? system' x' = some m')
    (hfraction : x.scaledFraction millisecondsPerDay = x'.scaledFraction millisecondsPerDay) :
    m.timeText = m'.timeText := by
  obtain ⟨-, hmillisecond, -⟩ := momentOf?_eq_some_iff.1 h
  obtain ⟨-, hmillisecond', -⟩ := momentOf?_eq_some_iff.1 h'
  have hsame : m.millisecond = m'.millisecond := by
    rw [hfraction, ← hmillisecond'] at hmillisecond
    exact Int.ofNat.inj hmillisecond
  rw [Moment.timeText, Moment.timeText, hsame]

/-- The fraction of a serial number is a number of days and a time of day. -/
theorem exists_timeOfDay (x : Binary64) : ∃ (days : Int) (t : TimeOfDay),
    x.scaledFraction millisecondsPerDay = days * millisecondsPerDay + t.millisecond ∧
    ∀ {system : DateSystem} {m : Moment}, momentOf? system x = some m →
      m.day = wholeDay system x.truncated + days ∧ t.IsWritten m.timeText := by
  let fraction := x.scaledFraction millisecondsPerDay
  let midnight : Moment := ⟨0, (fraction % (millisecondsPerDay : Int)).toNat⟩
  have hpositive : (0 : Int) < (millisecondsPerDay : Int) := by decide
  have hnonneg : 0 ≤ fraction % (millisecondsPerDay : Int) := Int.emod_nonneg _ (by decide)
  have hlt : fraction % (millisecondsPerDay : Int) < (millisecondsPerDay : Int) :=
    Int.emod_lt_of_pos _ hpositive
  have hrest : (midnight.millisecond : Int) = fraction % (millisecondsPerDay : Int) :=
    Int.toNat_of_nonneg hnonneg
  obtain ⟨t, ht, hwritten⟩ := midnight.exists_isWritten_timeText (by omega)
  refine ⟨fraction / (millisecondsPerDay : Int), t, ?_, ?_⟩
  · rw [ht, hrest, Int.mul_comm]
    exact (Int.mul_ediv_add_emod fraction _).symm
  · intro system m h
    obtain ⟨hday, hmillisecond, -⟩ := momentOf?_eq_some_iff.1 h
    have hsame : m.millisecond = midnight.millisecond :=
      Int.ofNat.inj (hmillisecond.trans hrest.symm)
    refine ⟨hday, ?_⟩
    rwa [Moment.timeText, hsame]

/-- **The texts of a stored value agree.** -/
theorem textsAgree (system : DateSystem) (value : String) : TextsAgree system value where
  error e := by
    rw [dateText, dateTimeText, map_eq_error_iff, map_eq_error_iff]
  joined both time hboth htime := by
    obtain ⟨m, hm, rfl⟩ := map_eq_ok_iff.1 hboth
    obtain ⟨m', hm', rfl⟩ := map_eq_ok_iff.1 htime
    obtain ⟨x, hread, hmoment⟩ := moment_eq_ok_iff.1 hm
    refine ⟨m.dateText, map_eq_ok_iff.2 ⟨m, hm, rfl⟩, ?_⟩
    rw [timeText_eq_of_scaledFraction hmoment (momentOf?_of_read hread hm') rfl]
  together hsystem e := by
    rw [hsystem, timeText, dateText, map_eq_error_iff, map_eq_error_iff]
  clock x hread := by
    obtain ⟨days, t, hfraction, hmoments⟩ := exists_timeOfDay x
    refine ⟨days, t, hfraction, ?_, ?_⟩
    · intro time htime
      obtain ⟨m, hm, rfl⟩ := map_eq_ok_iff.1 htime
      exact (hmoments (momentOf?_of_read hread hm)).2
    · intro both hboth
      obtain ⟨m, hm, rfl⟩ := map_eq_ok_iff.1 hboth
      obtain ⟨hday, hwritten⟩ := hmoments (momentOf?_of_read hread hm)
      refine ⟨m.timeText, hwritten, ?_⟩
      rw [Moment.dateText, hday]
  unmoved system' value' x x' hread hread' hfraction both both' hboth hboth' := by
    obtain ⟨m, hm, rfl⟩ := map_eq_ok_iff.1 hboth
    obtain ⟨m', hm', rfl⟩ := map_eq_ok_iff.1 hboth'
    have hsame : m.timeText = m'.timeText := timeText_eq_of_scaledFraction
      (momentOf?_of_read hread hm) (momentOf?_of_read hread' hm') hfraction
    exact ⟨m.dateText, m'.dateText, m.timeText, rfl, by rw [hsame]⟩

example : (dateTimeText .from1900 "-0.25").toOption = some "1899-12-30 18:00:00" ∧
    (dateTimeText .from1904 "0.9999999999").toOption = some "1904-01-02 00:00:00" := by
  decide +kernel

end Serial

end WorkbookTables
