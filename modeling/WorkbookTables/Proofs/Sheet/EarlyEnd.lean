import WorkbookTables.Proofs.Sheet.Stopping

/-!
# What an observer that wants no more is spared

To stop a reading midway comes to the same as to cut its rows off: an observer is handed the rows of
the document up to the first one after which it wants no more, and that one. If there is none, the
observer has made no difference, and the document ends for it as it does for everyone. If there is
one, it is a success, whatever stands behind the tag that ends the row; a document that is malformed
there is not found to be.

The observer is arbitrary. What it wants may depend on all the rows it has been handed, since its
state is threaded through them, and this is why the rows have to be found by an induction over them
and not by a search for a row with some property.

A parser has run afterwards, however it ended, and this is all that a second run can find out.

## Main definitions

* `RowParser.Refuses` — a parser that does not run
* `RowParser.HandsOver` — what a parser makes of a document for one observer

## Main results

* `RowReading.wants_of_ne_stopped` — whoever does not stop the rows has wanted each of them
* `RowParser.parse_untilUnwanted` — the rows up to the first that is followed by no other
-/

namespace WorkbookTables

open Markup

namespace RowReading

variable {τ : Type} {onRow : τ → Row → τ × Bool} {ending : Except SheetFailure Ending}

/-- **Whoever does not stop the rows has wanted each of them**, and sees how they end. -/
theorem wants_of_ne_stopped {observer : τ} {rows : List Row}
    (h : (showAll onRow ending observer rows).2 ≠ .ok .stopped) :
    Wants onRow observer rows (showAll onRow ending observer rows).1 := by
  induction rows generalizing observer with
  | nil => exact .nil observer
  | cons row rest ih =>
    rw [showAll] at h ⊢
    rcases hrow : onRow observer row with ⟨next, wantsMore⟩
    rw [hrow] at h
    cases wantsMore with
    | true => exact .cons hrow (ih h)
    | false => exact absurd rfl h

theorem Wants.showAll_eq {observer last : τ} {rows : List Row}
    (h : Wants onRow observer rows last) : showAll onRow ending observer rows = (last, ending) := by
  simpa [showAll] using h.showAll_append ending []

theorem Wants.shown_eq {observer last : τ} {rows : List Row} (h : Wants onRow observer rows last) :
    shown onRow observer rows = rows := by
  simpa [shown] using h.shown_append []

/-- The row after which no other is wanted is the last that is shown. -/
theorem Wants.showAll_unwanted {observer next last : τ} {earlier later : List Row} {row : Row}
    (h : Wants onRow observer earlier next) (hrow : onRow next row = (last, false)) :
    showAll onRow ending observer (earlier ++ row :: later) = (last, .ok .stopped) := by
  rw [h.showAll_append, showAll, hrow]

theorem Wants.shown_unwanted {observer next last : τ} {earlier later : List Row} {row : Row}
    (h : Wants onRow observer earlier next) (hrow : onRow next row = (last, false)) :
    shown onRow observer (earlier ++ row :: later) = earlier ++ [row] := by
  rw [h.shown_append, shown, hrow]

end RowReading

namespace RowParser

open RowReading

variable {τ : Type} {context : SheetContext} {withholdBlank : Bool} {onRow : τ → Row → τ × Bool}
  {observer : τ} {octets : Octets}

/-! ### Parsers that have run -/

/-- Whatever it is asked to read, the parser stays as it is, hands over no row, and says that it
has been used. -/
def Refuses (p : RowParser) : Prop :=
  ∀ (τ : Type) (context : SheetContext) (withholdBlank : Bool) (onRow : τ → Row → τ × Bool)
    (observer : τ) (d : Document),
    p.parse context withholdBlank onRow observer d =
      (p, observer, .error (.error (.parserReused p.sheet)))

/-- A parser that has run does not run again, however it ended. -/
theorem refuses_after (sheet : String) (result : Except SheetFailure Ending) :
    Refuses ⟨sheet, .after result⟩ := by
  intro τ context withholdBlank onRow observer d
  rcases result with failure | (_ | _) <;> rfl

/-! ### One run -/

/-- What a parser that has not run makes of the octets for an observer. -/
structure HandsOver (context : SheetContext) (withholdBlank : Bool) (onRow : τ → Row → τ × Bool)
    (observer : τ) (octets : Octets) (rows : List Row) (last : τ)
    (result : Except SheetFailure Ending) : Prop where
  /-- The rows leave the observer in the state `last`, and the parser stands behind the result. -/
  parse : ∀ sheet, (new sheet).parse context withholdBlank onRow observer (.ofOctets octets) =
    (⟨sheet, .after result⟩, last, result)
  /-- The rows that it is handed are these. -/
  kept : ∀ sheet, (new sheet).parse context withholdBlank (keeping onRow) ([], observer)
      (.ofOctets octets) = (⟨sheet, .after result⟩, (rows, last), result)
  /-- The parser does not run again. -/
  once : ∀ sheet, Refuses ⟨sheet, .after result⟩

/-- An observer is handed the rows that it is shown, and is left as they leave it. -/
theorem handsOver_of_showAll {rows : List Row} {last : τ} {result : Except SheetFailure Ending}
    (hlast : showAll onRow (allRows context withholdBlank (.ofOctets octets)).2 observer
      (allRows context withholdBlank (.ofOctets octets)).1.toList = (last, result))
    (hrows : shown onRow observer (allRows context withholdBlank (.ofOctets octets)).1.toList =
      rows) :
    HandsOver context withholdBlank onRow observer octets rows last result where
  parse sheet := by
    simp only [RowParser.parse, new, deliver_eq, hlast]
  kept sheet := by
    simp only [RowParser.parse, new, deliver_eq, showAll_keeping, List.nil_append, hlast, hrows]
  once sheet := refuses_after sheet result

/-- An observer that wants all rows is handed all of them. -/
theorem handsOver_of_wants {last : τ}
    (h : Wants onRow observer (allRows context withholdBlank (.ofOctets octets)).1.toList last) :
    HandsOver context withholdBlank onRow observer octets
      (allRows context withholdBlank (.ofOctets octets)).1.toList last
      (allRows context withholdBlank (.ofOctets octets)).2 :=
  handsOver_of_showAll h.showAll_eq h.shown_eq

/-- An observer is handed no row behind the first after which it wants no more. -/
theorem handsOver_of_unwanted {next last : τ} {earlier later : List Row} {row : Row}
    (hall : (allRows context withholdBlank (.ofOctets octets)).1.toList = earlier ++ row :: later)
    (hwants : Wants onRow observer earlier next) (hrow : onRow next row = (last, false)) :
    HandsOver context withholdBlank onRow observer octets (earlier ++ [row]) last
      (.ok .stopped) := by
  apply handsOver_of_showAll
  · rw [hall, hwants.showAll_unwanted hrow]
  · rw [hall, hwants.shown_unwanted hrow]

/-- Octets that begin like those at whose end a row ends have the rows up to this one. -/
theorem exists_allRows_of_endsRow {before other : Octets} {earlier : List Row} {row : Row}
    (h : EndsRow context withholdBlank before earlier row)
    (hother : before ++ [octet '>'] <+: other) :
    ∃ later, (allRows context withholdBlank (.ofOctets other)).1.toList =
      earlier ++ row :: later := by
  have hprefix : (allRows context withholdBlank (.ofOctets (before ++ [octet '>']))).1.toList <+:
      (allRows context withholdBlank (.ofOctets other)).1.toList := allRows_isPrefix hother
  obtain ⟨later, hlater⟩ := hprefix
  rw [h.rows] at hlater
  refine ⟨later, ?_⟩
  rw [← hlater, List.append_assoc, List.singleton_append]

/-- **To stop is to cut off.** Let `rows` and `ending` be what is delivered to whoever always wants
more. Either the observer wants another row after each of them, and then it is handed all of them
and sees that ending; or there is a first row after which it wants no other, and then it is handed
the rows up to this one and has stopped. In the second case nothing behind the tag that ends the row
matters: the outcome is the same for all octets that begin with those up to the bracket of the tag,
however malformed they are behind it. In either case the parser stands where the result has left it
and does not run again. -/
theorem parse_untilUnwanted (context : SheetContext) (withholdBlank : Bool)
    (onRow : τ → Row → τ × Bool) (observer : τ) (octets : Octets) :
    ∃ rows ending, Delivers context withholdBlank octets rows ending ∧ ending ≠ .ok .stopped ∧
      ((∃ last, Wants onRow observer rows last ∧
          HandsOver context withholdBlank onRow observer octets rows last ending) ∨
        ∃ earlier row later next last, rows = earlier ++ row :: later ∧
          Wants onRow observer earlier next ∧ onRow next row = (last, false) ∧
          HandsOver context withholdBlank onRow observer octets (earlier ++ [row]) last
            (.ok .stopped) ∧
          ∃ before after, octets = before ++ octet '>' :: after ∧
            EndsRow context withholdBlank before earlier row ∧
            ∀ other, before ++ [octet '>'] <+: other →
              HandsOver context withholdBlank onRow observer other (earlier ++ [row]) last
                (.ok .stopped)) := by
  refine ⟨_, _, delivers_allRows context withholdBlank octets,
    allRows_ne_stopped context withholdBlank _, ?_⟩
  rcases hdeliver : deliver context withholdBlank onRow observer (.ofOctets octets) with
    ⟨last, result⟩
  by_cases hstopped : result = .ok .stopped
  · right
    subst hstopped
    obtain ⟨before, after, earlier, row, next, hsplit, hends, hwants, hrow, -⟩ :=
      exists_split_of_stopped hdeliver
    -- All octets with this beginning have the rows up to this one, so they are cut off alike.
    have hhands : ∀ other, before ++ [octet '>'] <+: other →
        HandsOver context withholdBlank onRow observer other (earlier ++ [row]) last
          (.ok .stopped) := by
      intro other hother
      obtain ⟨later, hlater⟩ := exists_allRows_of_endsRow hends hother
      exact handsOver_of_unwanted hlater hwants hrow
    have hbegins : before ++ [octet '>'] <+: octets := ⟨after, by simp [hsplit]⟩
    obtain ⟨later, hlater⟩ := exists_allRows_of_endsRow hends hbegins
    exact ⟨earlier, row, later, next, last, hlater, hwants, hrow, hhands octets hbegins,
      before, after, hsplit, hends, hhands⟩
  · left
    rw [deliver_eq] at hdeliver
    have hgoesOn : (showAll onRow (allRows context withholdBlank (.ofOctets octets)).2 observer
        (allRows context withholdBlank (.ofOctets octets)).1.toList).2 ≠ .ok .stopped := by
      rw [hdeliver]
      exact hstopped
    have hwants := wants_of_ne_stopped hgoesOn
    exact ⟨_, hwants, handsOver_of_wants hwants⟩

end RowParser

end WorkbookTables
