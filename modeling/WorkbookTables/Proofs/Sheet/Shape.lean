import WorkbookTables.Proofs.Sheet.Outline
import WorkbookTables.Proofs.Sheet.Truncation

/-!
# The shape of the rows of a sheet

Every row that is handed over has the number of its tag and reaches as far as its last cell, and
nothing stands in it where no cell was begun. What was read before the row was begun has no part in
this, but for one thing: a row without a number follows the row that was closed before it, also if
that one was blank and has been withheld. It has one more than the number of that row, or 0 if that
is the last number of 64 bits.

The rows are compared with the outline of the part of the document that is read, which is collected
from names of tags. Rows that are begun and not closed are not in it. Where a reading fails or is
stopped the part ends there; where it comes to a good end the part is all there is in front of the
tag at which the rows end.

A sheet has room for rows and cells only so far. A tag that is read and gives a row the number 0, or
puts a cell beyond the last column, by its reference or for the lack of one, ends the reading.

## Main definitions

* `ShownOutlined` — the rows of an outline have been shown
* `Outline.CellAt` — where a tag begins a cell

## Main results

* `exists_shownOutlined`, `exists_shownOutlined_of_complete` — the rows that an observer is shown
* `RowParser.parse_outlined` — the rows of a document, and the tags that end a reading
-/

namespace WorkbookTables

open Markup

namespace RowReading

variable {τ : Type} {context : SheetContext} {withholdBlank : Bool} {onRow : τ → Row → τ × Bool}
  {observer : τ}

/-! ### Rows that are shown -/

/-- The rows are those that some events outline, and the observer has been shown the ones among them
that are handed over. -/
def ShownOutlined (withholdBlank : Bool) (onRow : τ → Row → τ × Bool) (observer : τ)
    (read : List Event) (rows : List Row) (t : τ) : Prop :=
  RowsOutlined (Outline.start.after read).closed rows ∧
    t = (handed withholdBlank rows).foldl (fun t row => (onRow t row).1) observer

theorem Tracks.shownOutlined {read : List Event} {rows : List Row} {s : State τ}
    (h : Tracks withholdBlank onRow observer (Outline.start.after read) rows s) :
    ShownOutlined withholdBlank onRow observer read rows s.observer :=
  ⟨h.closed, h.observer⟩

/-- One event more shows a row of the outline, or none. -/
theorem exists_shownOutlined_step {before : List Event} {s : State τ}
    (hpasses : (reading context withholdBlank onRow).Passes (.start observer) before s)
    (e : Event) :
    ∃ read rows, read <+: before ++ [e] ∧ ShownOutlined withholdBlank onRow observer read rows
      ((reading context withholdBlank onRow).step s e).1.observer := by
  obtain ⟨rows, htracks⟩ := tracks_passes hpasses
  rcases hstep : (reading context withholdBlank onRow).step s e with ⟨s', progress⟩
  by_cases hp : ∃ failure, progress = .failed failure
  · -- The outline would go on with an event with which the reading fails, so it is left out.
    obtain ⟨failure, rfl⟩ := hp
    refine ⟨before, rows, List.prefix_append _ _, ?_⟩
    show ShownOutlined withholdBlank onRow observer before rows s'.observer
    rw [observer_of_failed hstep]
    exact htracks.shownOutlined
  · obtain ⟨rows', htracks'⟩ := htracks.step hstep (not_exists.1 hp)
    rw [← Outline.after_append] at htracks'
    exact ⟨before ++ [e], rows', List.prefix_rfl, htracks'.shownOutlined⟩

/-- **An observer is shown rows of the outline** of a part of the document. -/
theorem exists_shownOutlined (context : SheetContext) (withholdBlank : Bool)
    (onRow : τ → Row → τ × Bool) (observer : τ) (d : Document) :
    ∃ read rows, read <+: d.events ∧ ShownOutlined withholdBlank onRow observer read rows
      (deliver context withholdBlank onRow observer d).1 := by
  have hstart : ∃ read rows, read <+: [] ∧
      ShownOutlined withholdBlank onRow observer read rows observer :=
    ⟨[], [], List.prefix_rfl, .nil, rfl⟩
  obtain ⟨first, hfirst, read, rows, hread, hshown⟩ := Reading.run_invariant
    (r := reading context withholdBlank onRow)
    (I := fun events s => ∃ read rows, read <+: events ∧
      ShownOutlined withholdBlank onRow observer read rows s.observer)
    (fun hpasses _ e => exists_shownOutlined_step hpasses e) d.fault d.events
    (.nil (State.start observer)) hstart
  exact ⟨read, rows, hread.trans hfirst, hshown⟩

/-- **A reading that is complete has shown the rows of the whole outline**, up to the tag at which
the rows end. -/
theorem exists_shownOutlined_of_complete {d : Document}
    (h : (deliver context withholdBlank onRow observer d).2 = .ok .complete) :
    ∃ read rows later, d.events = read ++ .closing sheetDataName :: later ∧
      ShownOutlined withholdBlank onRow observer read rows
        (deliver context withholdBlank onRow observer d).1 := by
  rcases hrun : (reading context withholdBlank onRow).read (.start observer) d with ⟨s', result⟩
  rw [deliver, hrun] at h ⊢
  obtain rfl : result = .ok .complete := h
  obtain ⟨read, e, later, s, hd, hpasses, hstep⟩ := Reading.exists_step_of_run_ok
    (r := reading context withholdBlank onRow) (fun _ _ hend => by cases hend) hrun
  have haction := action_of_complete hstep
  obtain ⟨rfl, -, -⟩ := eq_closing_of_action haction
  obtain ⟨rfl, -⟩ := Prod.mk.inj ((step_of_action haction).symm.trans hstep)
  obtain ⟨rows, htracks⟩ := tracks_passes hpasses
  exact ⟨read, rows, later, hd, htracks.shownOutlined⟩

theorem foldl_keeping (kept : List Row) (observer : τ) (rows : List Row) :
    (rows.foldl (fun t row => (keeping onRow t row).1) (kept, observer)).1 = kept ++ rows := by
  induction rows generalizing kept observer with
  | nil => rw [List.foldl_nil, List.append_nil]
  | cons row rest ih =>
    rw [List.foldl_cons]
    show (rest.foldl _ (kept ++ [row], (onRow observer row).1)).1 = _
    rw [ih, List.append_assoc, List.singleton_append]

/-! ### Tags that end a reading -/

/-- The tag begins a cell of the row at this position, however far to the right it lies. -/
def Outline.CellAt (o : Outline) (tag : Tag) (p : Nat) : Prop :=
  o.nesting.role (.opening tag) = .cellTag tag ∧ ∃ positions next,
    cellPositions? o.row.cells = some (positions, next) ∧ cellPosition? next tag = some p

/-- No row has the number 0. -/
theorem openRow_zero (s : State τ) {tag : Tag}
    (h : tag.numeral? referenceName = .ok (some 0)) :
    s.openRow tag = (s, .failed (.error (.rowNumber "0"))) := by
  rw [State.openRow, h]
  rfl

/-- A position beyond the last column is refused, and its reference is reported. -/
theorem positionOf_beyond (row : Nat) {next p : Nat} {tag : Tag} {reference : Option String}
    (href : tag.attribute? referenceName = .ok reference) (hp : cellPosition? next tag = some p)
    (hlimit : Cell.columnLimit ≤ p) :
    ∃ text, positionOf row next reference = .error (.cellReference text) := by
  cases hposition : positionOf row next reference with
  | ok p' =>
    obtain ⟨hp', hlt⟩ := cellPosition?_of_positionOf href hposition
    obtain rfl := Option.some.inj (hp.symm.trans hp')
    omega
  | error e =>
    simp only [positionOf] at hposition
    split at hposition
    · split at hposition <;> cases hposition
      exact ⟨_, rfl⟩
    · split at hposition <;> cases hposition
      exact ⟨_, rfl⟩

/-- No cell stands beyond the last column. -/
theorem openCell_beyond (context : SheetContext) {s : State τ} {tag : Tag} {p : Nat}
    (hp : cellPosition? s.nextPosition tag = some p) (hlimit : Cell.columnLimit ≤ p) :
    ∃ text, s.openCell context tag = (s, .failed (.error (.cellReference text))) := by
  cases href : tag.attribute? referenceName with
  | error e =>
    rw [cellPosition?, href] at hp
    cases hp
  | ok reference =>
    obtain ⟨text, hposition⟩ := positionOf_beyond s.row.number href hp hlimit
    refine ⟨text, ?_⟩
    have hdescribe : describeCell context s.row.number s.nextPosition tag =
        .error (.cellReference text) := by
      rw [describeCell, href]
      show (positionOf s.row.number s.nextPosition reference >>= _) = _
      rw [hposition]
      rfl
    rw [State.openCell, hdescribe]

end RowReading

namespace RowParser

open RowReading

variable {τ : Type}

/-- **The rows of a document have the shape that its tags outline.** The rows that are closed in
the part that is read are handed over unless they are blank and such rows are withheld, and if the
parser hands over every row this part reaches to the tag at which the rows end. A tag that is read
and begins a row with the number 0, or a cell beyond the last column, makes the parser fail. -/
theorem parse_outlined (sheet : String) (context : SheetContext) (withholdBlank : Bool)
    (onRow : τ → Row → τ × Bool) (observer : τ) (d : Document) :
    (∃ read rows, read <+: d.events ∧ RowsOutlined (Outline.start.after read).closed rows ∧
      ((new sheet).parse context withholdBlank (keeping onRow) ([], observer) d).2.1.1 =
        handed withholdBlank rows ∧
      (((new sheet).parse context withholdBlank (keeping onRow) ([], observer) d).2.2 =
        .ok .complete → ∃ later, d.events = read ++ .closing sheetDataName :: later)) ∧
    ∀ before tag after s, d.events = before ++ .opening tag :: after →
      (reading context withholdBlank onRow).Passes (.start observer) before s →
      ((Outline.start.after before).nesting.role (.opening tag) = .rowTag tag →
        tag.numeral? referenceName = .ok (some 0) →
        ((new sheet).parse context withholdBlank onRow observer d).2.2 =
          .error (.error (.rowNumber "0"))) ∧
      ∀ p, (Outline.start.after before).CellAt tag p → Cell.columnLimit ≤ p →
        ∃ reference, ((new sheet).parse context withholdBlank onRow observer d).2.2 =
          .error (.error (.cellReference reference)) := by
  constructor
  · show ∃ read rows, read <+: d.events ∧ RowsOutlined (Outline.start.after read).closed rows ∧
      (deliver context withholdBlank (keeping onRow) ([], observer) d).1.1 =
        handed withholdBlank rows ∧
      ((deliver context withholdBlank (keeping onRow) ([], observer) d).2 = .ok .complete →
        ∃ later, d.events = read ++ .closing sheetDataName :: later)
    by_cases hcomplete :
        (deliver context withholdBlank (keeping onRow) ([], observer) d).2 = .ok .complete
    · obtain ⟨read, rows, later, hd, hrows, hshown⟩ := exists_shownOutlined_of_complete hcomplete
      refine ⟨read, rows, ⟨_, hd.symm⟩, hrows, ?_, fun _ => ⟨later, hd⟩⟩
      rw [hshown, foldl_keeping, List.nil_append]
    · obtain ⟨read, rows, hread, hrows, hshown⟩ :=
        exists_shownOutlined context withholdBlank (keeping onRow) ([], observer) d
      refine ⟨read, rows, hread, hrows, ?_, fun h => absurd h hcomplete⟩
      rw [hshown, foldl_keeping, List.nil_append]
  · intro before tag after s hd hpasses
    obtain ⟨rows, htracks⟩ := tracks_passes hpasses
    constructor
    · intro hrole hzero
      rw [← htracks.nesting] at hrole
      exact snd_deliver_of_failed hd hpasses
        ((step_of_action (State.action_of_rowTag hrole)).trans (openRow_zero s hzero))
    · intro p hcell hlimit
      obtain ⟨hrole, positions, next, hpositions, hp⟩ := hcell
      obtain ⟨positions', hpositions', -⟩ := htracks.cells
      obtain ⟨rfl, rfl⟩ := Prod.mk.inj (Option.some.inj (hpositions.symm.trans hpositions'))
      rw [← htracks.nesting] at hrole
      obtain ⟨reference, hfails⟩ := openCell_beyond context hp hlimit
      exact ⟨reference, snd_deliver_of_failed hd hpasses
        ((step_of_action (State.action_of_cellTag hrole)).trans hfails)⟩

/-- A row without a number follows the blank one before it, though that one is withheld, and a cell
without a reference follows the one before it. -/
example : ((new "Data").parse ⟨#[], .empty, .from1900⟩ true (keeping collect) ([], #[])
      (.ofOctets (Text.Utf8.encode <|
        "<sheetData><row r='5'/><row><c r='C1'/><c><v>1</v></c></row></sheetData>"))).2.1.1 =
    [⟨5, #[.empty, .empty, ⟨none, ⟨none, .number⟩⟩, ⟨some "1", ⟨none, .number⟩⟩]⟩] := by
  decide +kernel

end RowParser

end WorkbookTables
