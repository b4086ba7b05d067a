import Mathlib.Data.List.Induction
import WorkbookTables.Proofs.Sheet.CheckedCounting
import WorkbookTables.Proofs.Sheet.Outline
import WorkbookTables.Proofs.Sheet.Truncation

/-!
# Cells that are left over

The end of a cell writes its value at a position that the beginning of the cell has fixed, and does
not ask whether the row still has it. Mostly the row has: it was made long enough when the cell was
begun, and it only grows. But a row that is begun starts anew without cells, and takes no notice of
a cell that is open. If this cell ends before another one is begun, its position is one that the new
row does not have, and the reading breaks off with a failure that is no error in the document.

So the order of three tags decides. A cell is left over if it was open where a row was begun and has
been neither ended nor replaced since. Nothing else can make a write go astray, whatever stray,
repeated or misplaced tags a document has, and where no row is begun in an open cell no write does.

It is enough to look at names of tags. Which position it is that is left over does not matter, since
a row without cells has none.

Numbers of rows have no part in this. They are words of 64 bits, and a sheet can count on from the
last of them, where the reader goes on or breaks off as it was built. A reader that goes on starts
again from 0. One that breaks off has written what the other one writes until then, so its writes
are inside their rows where those of the other one are.

## Main definitions

* `LeftOver` — events behind which a cell is left over
* `Writes` — where the reader of a document writes a value

## Main results

* `leftOver_of_open` — a cell that is open in a row without cells is left over
* `State.outsideRow_iff` — an event makes a value arrive outside its row
* `RowParser.parse_writesInside` — the writes of a parser
-/

namespace WorkbookTables

open Markup

namespace RowReading

/-! ### Events that leave a cell over -/

/-- Holds of the tags that begin or end a cell. -/
def Role.isOfCell : Role → Bool
  | .cellTag _ => true
  | .cellEnd => true
  | _ => false

/-- Behind the events a cell is open that was open where a row was begun, and none has been begun
or ended since. -/
inductive LeftOver : List Event → Prop where
  /-- A row is begun. -/
  | rowTag {events : List Event} {tag : Tag}
      (hopen : (Outline.start.after events).nesting.inCell = true)
      (hrole : (Outline.start.after events).nesting.role (.opening tag) = .rowTag tag) :
      LeftOver (events ++ [.opening tag])
  /-- Something else happens that is neither the beginning nor the end of a cell. -/
  | snoc {events : List Event} {e : Event} (h : LeftOver events)
      (hrole : ((Outline.start.after events).nesting.role e).isOfCell = false) :
      LeftOver (events ++ [e])

/-- Where a cell is left over, a row has been begun in an open cell. -/
theorem LeftOver.exists_rowTag {events : List Event} (h : LeftOver events) :
    ∃ earlier tag later, events = earlier ++ .opening tag :: later ∧
      (Outline.start.after earlier).nesting.inCell = true ∧
      (Outline.start.after earlier).nesting.role (.opening tag) = .rowTag tag := by
  induction h with
  | @rowTag events tag hopen hrole => exact ⟨events, tag, [], rfl, hopen, hrole⟩
  | @snoc events e _ _ ih =>
    obtain ⟨earlier, tag, later, rfl, hopen, hrole⟩ := ih
    refine ⟨earlier, tag, later ++ [e], ?_, hopen, hrole⟩
    rw [List.append_assoc, List.cons_append]

/-- **A cell that is open in a row without cells is left over.** -/
theorem leftOver_of_open {events : List Event}
    (hopen : (Outline.start.after events).nesting.inCell = true)
    (hcells : (Outline.start.after events).row.cells = []) : LeftOver events := by
  -- The induction goes back from the end: the last tag of a row is the one that took the cells
  -- away, and until it is met the cell is neither begun nor ended.
  induction events using List.reverseRecOn with
  | nil => cases hopen
  | append_singleton events e ih =>
    rw [Outline.after_append, Outline.step] at hopen hcells
    cases hrole : (Outline.start.after events).nesting.role e with
    | rowTag tag =>
      rw [hrole] at hopen
      obtain ⟨-, rfl, -⟩ := Nesting.admits_of_role hrole
      exact .rowTag hopen hrole
    | cellTag tag =>
      rw [hrole] at hcells
      exact absurd hcells (List.append_ne_nil_of_right_ne_nil _ (List.cons_ne_nil tag []))
    | cellEnd =>
      rw [hrole] at hopen
      cases hopen
    | _ =>
      rw [hrole] at hopen hcells
      exact .snoc (ih hopen hcells) (by rw [hrole]; rfl)

/-! ### Writes -/

variable {τ : Type} {context : SheetContext} {withholdBlank : Bool} {onRow : τ → Row → τ × Bool}
  {observer : τ} {d : Document}

/-- The reader of the document comes in the state `s` to the end of a cell that has a value, and is
to write it at the position `p`. -/
structure Writes (context : SheetContext) (withholdBlank : Bool) (onRow : τ → Row → τ × Bool)
    (observer : τ) (d : Document) (before : List Event) (s : State τ) (p : Nat) : Prop where
  /-- The end of the cell comes behind what has been gone through. -/
  event : ∃ after, d.events = before ++ .closing cellName :: after
  /-- The reading gets there. -/
  passes : (reading context withholdBlank onRow).Passes (.start observer) before s
  /-- It is not inside a value. -/
  item : s.item = none
  /-- The position is that of the cell that is open. -/
  position : s.position = some p
  /-- The cell has a value. -/
  value : s.value.isSome = true

/-- **A value is written inside its row, or its cell is left over.** -/
theorem Writes.lt_size_or_leftOver {before : List Event} {s : State τ} {p : Nat}
    (h : Writes context withholdBlank onRow observer d before s p) :
    p < s.row.size ∨ LeftOver before := by
  obtain ⟨rows, htracks⟩ := tracks_passes h.passes
  obtain ⟨positions, -, hspans, hmem⟩ := htracks.cells
  by_cases hcells : (Outline.start.after before).row.cells = []
  · right
    refine leftOver_of_open ?_ hcells
    rw [← htracks.nesting]
    show s.position.isSome = true
    rw [h.position, Option.isSome_some]
  · left
    exact hspans.lt_size (hmem p h.position hcells)

namespace State

/-- The end of a cell fails in this way just where its value has no place. -/
theorem closeCell_outsideRow_iff (s : State τ) (context : SheetContext) :
    (s.closeCell context).2 = .failed .outsideRow ↔
      ∃ p, s.position = some p ∧ s.value.isSome = true ∧ s.row.size ≤ p := by
  rcases hposition : s.position with _ | p
  · simp [closeCell, hposition]
  rcases hvalue : s.value with _ | raw
  · simp [closeCell, hposition, hvalue]
  by_cases hlt : p < s.row.size
  · have hplace : ¬s.row.size ≤ p := by omega
    rcases hrender : renderValue context (s.row.cell p).style.kind raw with e | ⟨text, kind⟩
    · simp [closeCell, hposition, hvalue, hlt, hrender, hplace]
    · simp [closeCell, hposition, hvalue, hlt, hrender, hplace]
  · have hplace : s.row.size ≤ p := by omega
    simp [closeCell, hposition, hvalue, hlt, hplace]

/-- No other action fails in this way. -/
theorem eq_closeCell_of_run {s : State τ} {a : Action}
    (h : (a.run context withholdBlank onRow s).2 = .failed .outsideRow) : a = .closeCell := by
  cases a with
  | closeCell => rfl
  | readValue item e =>
    simp only [Action.run, stepValue] at h
    split at h <;> cases h
  | openRow tag =>
    simp only [Action.run, openRow] at h
    split at h <;> cases h
  | openCell tag =>
    simp only [Action.run, openCell] at h
    split at h <;> cases h
  | closeRow =>
    simp only [Action.run, closeRow] at h
    split at h
    · cases h
    · split at h <;> cases h
  | openValue element isValue => cases h
  | finish => cases h
  | skip => cases h

/-- **An event makes a value arrive outside its row** just if it ends a cell whose position the row
does not have. -/
theorem outsideRow_iff (context : SheetContext) (withholdBlank : Bool)
    (onRow : τ → Row → τ × Bool) (s : State τ) (e : Event) :
    (s.step context withholdBlank onRow e).2 = .failed .outsideRow ↔
      e = .closing cellName ∧ s.item = none ∧
        ∃ p, s.position = some p ∧ s.value.isSome = true ∧ s.row.size ≤ p := by
  rw [step_eq]
  constructor
  · intro h
    have haction := eq_closeCell_of_run h
    have hrole : s.nesting.role e = .cellEnd := by rw [role_nesting, haction, Action.role]
    obtain ⟨hvalue, he⟩ := Nesting.admits_of_role hrole
    rw [haction] at h
    exact ⟨he, Option.map_eq_none_iff.1 hvalue, (s.closeCell_outsideRow_iff context).1 h⟩
  · rintro ⟨rfl, hitem, hplace⟩
    rw [s.action_closeCell hitem]
    exact (s.closeCell_outsideRow_iff context).2 hplace

end State

/-- **A value arrives outside its row** just if the reader is to write one there. -/
theorem snd_deliver_eq_outsideRow_iff (context : SheetContext) (withholdBlank : Bool)
    (onRow : τ → Row → τ × Bool) (observer : τ) (d : Document) :
    (deliver context withholdBlank onRow observer d).2 = .error .outsideRow ↔
      ∃ before s p, Writes context withholdBlank onRow observer d before s p ∧ s.row.size ≤ p := by
  constructor
  · intro h
    obtain ⟨before, e, after, s, hd, hpasses, hstep⟩ := Reading.exists_step_of_run_error
      (r := reading context withholdBlank onRow) (fun _ hend => by cases hend)
      (fun _ hfault => by cases hfault) (Prod.ext rfl h)
    obtain ⟨rfl, hitem, p, hposition, hvalue, hle⟩ :=
      (State.outsideRow_iff context withholdBlank onRow s e).1 (congrArg Prod.snd hstep)
    exact ⟨before, s, p, ⟨⟨after, hd⟩, hpasses, hitem, hposition, hvalue⟩, hle⟩
  · rintro ⟨before, s, p, hwrites, hle⟩
    obtain ⟨after, hd⟩ := hwrites.event
    have hstep := (State.outsideRow_iff context withholdBlank onRow s _).2
      ⟨rfl, hwrites.item, p, hwrites.position, hwrites.value, hle⟩
    exact snd_deliver_of_failed hd hwrites.passes (Prod.ext rfl hstep)

/-- No row is begun in an open cell, as far as the document is read. -/
def NoRowInCell (context : SheetContext) (withholdBlank : Bool) (onRow : τ → Row → τ × Bool)
    (observer : τ) (d : Document) : Prop :=
  ∀ before tag after s, d.events = before ++ .opening tag :: after →
    (reading context withholdBlank onRow).Passes (.start observer) before s →
    (Outline.start.after before).nesting.role (.opening tag) = .rowTag tag →
    (Outline.start.after before).nesting.inCell = false

/-- Where no row is begun in an open cell, no cell is left over. -/
theorem Writes.lt_size {before : List Event} {s : State τ} {p : Nat}
    (h : Writes context withholdBlank onRow observer d before s p)
    (hnone : NoRowInCell context withholdBlank onRow observer d) : p < s.row.size := by
  obtain hlt | hleft := h.lt_size_or_leftOver
  · exact hlt
  · obtain ⟨after, hd⟩ := h.event
    obtain ⟨earlier, tag, later, rfl, hopen, hrole⟩ := hleft.exists_rowTag
    obtain ⟨s₁, hpasses⟩ := h.passes.of_isPrefix (List.prefix_append earlier _)
    rw [List.append_assoc, List.cons_append] at hd
    rw [hnone earlier tag _ s₁ hd hpasses hrole] at hopen
    cases hopen

end RowReading

namespace RowParser

open RowReading

variable {τ : Type}

/-- **The writes of a parser.** A value is written inside its row unless its cell is left over, and
the parser fails with a value outside its row just where one is to be written there. So where no row
is begun in an open cell, every value is written inside its row, and the parser ends with all rows,
because it was stopped, or with an error in the document.

A parser that checks its counting breaks off just where it comes to an event with which it counts on
from the last number of 64 bits. If it does not, it ends as the other one, and it does not if the
numbers that the document gives leave room for its events. -/
theorem parse_writesInside (sheet : String) (context : SheetContext) (withholdBlank : Bool)
    (onRow : τ → Row → τ × Bool) (observer : τ) (d : Document) :
    (∀ before s p, Writes context withholdBlank onRow observer d before s p →
      p < s.row.size ∨ LeftOver before ∧ (Outline.start.after before).nesting.inCell = true ∧
        (Outline.start.after before).hasValue = true) ∧
    (((new sheet).parse context withholdBlank onRow observer d).2.2 = .error .outsideRow ↔
      ∃ before s p, Writes context withholdBlank onRow observer d before s p ∧ s.row.size ≤ p) ∧
    (NoRowInCell context withholdBlank onRow observer d →
      (∀ before s p, Writes context withholdBlank onRow observer d before s p → p < s.row.size) ∧
      ((∃ ending, ((new sheet).parse context withholdBlank onRow observer d).2.2 = .ok ending) ∨
        ∃ e, ((new sheet).parse context withholdBlank onRow observer d).2.2 =
          .error (.error e))) ∧
    (deliverChecked context withholdBlank onRow observer d = none ↔
      (reading context withholdBlank onRow).Meets State.overflows (.start observer) d.events) ∧
    (∀ outcome, deliverChecked context withholdBlank onRow observer d = some outcome →
      outcome = ((new sheet).parse context withholdBlank onRow observer d).2) ∧
    ∀ bound, (∀ e ∈ d.events, NumbersUpTo bound e) → bound + d.events.length < Nat.pow 2 64 →
      deliverChecked context withholdBlank onRow observer d =
        some ((new sheet).parse context withholdBlank onRow observer d).2 := by
  have houtside := snd_deliver_eq_outsideRow_iff context withholdBlank onRow observer d
  refine ⟨?_, houtside, ?_, deliverChecked_eq_none_iff, ?_, ?_⟩
  · intro before s p hwrites
    obtain hlt | hleft := hwrites.lt_size_or_leftOver
    · exact .inl hlt
    · right
      obtain ⟨rows, htracks⟩ := tracks_passes hwrites.passes
      refine ⟨hleft, ?_, ?_⟩
      · rw [← htracks.nesting]
        show s.position.isSome = true
        rw [hwrites.position, Option.isSome_some]
      · rw [← htracks.hasValue, hwrites.value]
  · intro hnone
    refine ⟨fun before s p hwrites => hwrites.lt_size hnone, ?_⟩
    show (∃ ending, (deliver context withholdBlank onRow observer d).2 = .ok ending) ∨
      ∃ e, (deliver context withholdBlank onRow observer d).2 = .error (.error e)
    rcases hresult : (deliver context withholdBlank onRow observer d).2 with failure | ending
    · cases failure with
      | error e => exact .inr ⟨e, rfl⟩
      | outsideRow =>
        obtain ⟨before, s, p, hwrites, hle⟩ := houtside.1 hresult
        have hlt := hwrites.lt_size hnone
        omega
    · exact .inl ⟨ending, rfl⟩
  · intro outcome houtcome
    exact eq_deliver_of_deliverChecked houtcome
  · intro bound hnumbers hroom
    exact deliverChecked_of_numbers hnumbers hroom

/-- The cell of one row is open where the next row begins, and that row has no cell yet where the
cell ends. -/
example : ((new "Data").parse ⟨#[], .empty, .from1900⟩ false collect #[]
      (.ofOctets (Text.Utf8.encode "<sheetData><row><c r='B1'><v>1</v><row></c>"))).2.2 =
    .error .outsideRow := by
  decide +kernel

end RowParser

end WorkbookTables
