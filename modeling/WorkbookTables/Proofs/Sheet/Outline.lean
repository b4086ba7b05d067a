import WorkbookTables.Proofs.Cell.ReferenceRoundTrip
import WorkbookTables.Proofs.Markup.Failures
import WorkbookTables.Proofs.Sheet.Nesting
import WorkbookTables.Proofs.Sheet.Placing

/-!
# The rows that the tags of a sheet describe

The number of a row and the positions of its cells are given by tags: by the tag that begins the row
and by those of its cells. An outline keeps these tags, and nothing that is read of them. It says
what a row of the sheet is to look like, and `Tracks` says that the row under construction looks
like it.

Two things that the reader keeps are older than the row under construction. The number of the row
that was closed last is one of them, and the outline has it by the rows that it has closed. The cell
that is open is the other: it may be left over from an earlier row, and then its position says
nothing about this one. This is why `Tracks.open` is about rows in which a cell has been begun: the
first cell of a row puts an end to what was left over.

Positions are taken as the tags give them, however far to the right they lie. That a row is never
longer than a sheet is wide is something to be shown of the reader.

## Main definitions

* `Cell.columnOf?`, `cellPosition?`, `cellPositions?` — the positions that tags give
* `Row.Spans` — what positions make of a row
* `Outline`, `Outline.step` — the tags of the rows, collected from events
* `Tracks` — a reading is where the outline of the events is

## Main results

* `Tracks.step` — one event
* `tracks_passes` — the events of a document that have been gone through
-/

namespace WorkbookTables

open Markup

/-! ### Columns of references -/

namespace Cell

/-- The column that the letters of a reference name, counted from 0, in a sheet of any width. -/
def columnOf? (reference : String) : Option Nat :=
  match reference.toList.takeWhile (!·.isDigit) with
  | [] => none
  | letters => (lettersValue? 0 letters).map (· - 1)

example : columnOf? "B7" = some 1 ∧ columnOf? "xfe1" = some 16384 ∧ columnOf? "12" = none := by
  decide +kernel

theorem columnIndex?_takeWhile (reference : String) :
    columnIndex? (String.ofList (reference.toList.takeWhile (!·.isDigit))) =
      (columnOf? reference).filter (· < columnLimit) := by
  rw [columnIndex?, columnOf?, String.toList_ofList]
  cases reference.toList.takeWhile (!·.isDigit) with
  | nil => rfl
  | cons c letters => rfl

/-- A reference that can be read has a column, and a sheet has this column. -/
theorem columnOf?_of_position? {reference : String} {row column : Nat}
    (h : position? reference = some (row, column)) :
    columnOf? reference = some column ∧ column < columnLimit := by
  simp only [position?] at h
  split at h
  · cases h
  · rw [columnIndex?_takeWhile] at h
    split at h
    next hrow hcolumn =>
      cases h
      obtain ⟨hsome, hlt⟩ := Option.filter_eq_some_iff.1 hcolumn
      exact ⟨hsome, of_decide_eq_true hlt⟩
    next => cases h

end Cell

/-! ### Rows -/

/-- What the positions of its cells make of a row. -/
structure Row.Spans (row : Row) (positions : List Nat) : Prop where
  /-- It is as long as the largest of them wants. -/
  size : positions = [] ∧ row.size = 0 ∨
    ∃ largest ∈ positions, row.size = largest + 1 ∧ ∀ p ∈ positions, p ≤ largest
  /-- It is no longer than a sheet is wide. -/
  limit : row.size ≤ Cell.columnLimit
  /-- Nothing stands anywhere else. -/
  other : ∀ q, q ∉ positions → row.cell q = Cell.empty

namespace Row.Spans

variable {row : Row} {positions : List Nat} {p : Nat}

theorem start (number : Nat) : (Row.start number).Spans [] where
  size := .inl ⟨rfl, rfl⟩
  limit := Nat.zero_le _
  other q _ := Row.cell_start q number

theorem lt_size (h : row.Spans positions) (hp : p ∈ positions) : p < row.size := by
  obtain ⟨rfl, -⟩ | ⟨largest, -, hsize, hle⟩ := h.size
  · cases hp
  · have := hle p hp
    omega

/-- One more position makes the row as long as it wants. -/
theorem placeStyle (h : row.Spans positions) (hp : p < Cell.columnLimit) (style : Cell.Style) :
    (row.placeStyle p style).Spans (positions ++ [p]) where
  size := by
    right
    rw [size_placeStyle]
    obtain ⟨rfl, hsize⟩ | ⟨largest, hmem, hsize, hle⟩ := h.size
    · exact ⟨p, by simp, by omega, by simp⟩
    · by_cases hlt : largest < p
      · refine ⟨p, by simp, by omega, ?_⟩
        intro q hq
        obtain hq | hq := List.mem_append.1 hq
        · have := hle q hq
          omega
        · exact Nat.le_of_eq (List.mem_singleton.1 hq)
      · refine ⟨largest, List.mem_append_left _ hmem, by omega, ?_⟩
        intro q hq
        obtain hq | hq := List.mem_append.1 hq
        · exact hle q hq
        · rw [List.mem_singleton.1 hq]
          omega
  limit := by
    rw [size_placeStyle]
    have := h.limit
    omega
  other q hq := by
    obtain ⟨hq, hne⟩ := not_or.1 (mt List.mem_append.2 hq)
    rw [cell_placeStyle_of_ne _ _ _ (mt List.mem_singleton.2 hne)]
    exact h.other q hq

/-- A text at a position that was given changes nothing else. -/
theorem placeText (h : row.Spans positions) (hp : p ∈ positions) (text : Option String)
    (kind : Cell.Kind) : (row.placeText p text kind).Spans positions where
  size := by
    rw [size_placeText]
    exact h.size
  limit := by
    rw [size_placeText]
    exact h.limit
  other q hq := by
    have hne : q ≠ p := by
      rintro rfl
      exact hq hp
    rw [cell_placeText_of_ne _ _ hne]
    exact h.other q hq

end Row.Spans

namespace RowReading

/-! ### Positions and numbers that tags give -/

/-- Where the cell with this tag stands, if one without a reference stands at `next`. -/
def cellPosition? (next : Nat) (tag : Tag) : Option Nat :=
  match tag.attribute? referenceName with
  | .ok (some reference) => Cell.columnOf? reference
  | .ok none => some next
  | .error _ => none

/-- One more cell of a row: its position comes after the others, and one without a reference stands
behind it. -/
def placeCell (places : List Nat × Nat) (tag : Tag) : Option (List Nat × Nat) :=
  (cellPosition? places.2 tag).map fun p => (places.1 ++ [p], p + 1)

/-- Where the cells of a row with these tags stand, and where the next one stands if it has no
reference. -/
def cellPositions? (tags : List Tag) : Option (List Nat × Nat) := tags.foldlM placeCell ([], 0)

theorem cellPositions?_append {tags : List Tag} {positions : List Nat} {next p : Nat} {tag : Tag}
    (h : cellPositions? tags = some (positions, next)) (hp : cellPosition? next tag = some p) :
    cellPositions? (tags ++ [tag]) = some (positions ++ [p], p + 1) := by
  rw [cellPositions?] at h
  rw [cellPositions?, List.foldlM_append, h]
  simp [placeCell, hp]

variable {row next p : Nat} {tag : Tag} {reference : Option String}

/-- The reader takes a cell for where its tag puts it, and a sheet has this position. -/
theorem cellPosition?_of_positionOf (href : tag.attribute? referenceName = .ok reference)
    (h : positionOf row next reference = .ok p) :
    cellPosition? next tag = some p ∧ p < Cell.columnLimit := by
  rw [cellPosition?, href]
  cases reference with
  | some reference =>
    simp only [positionOf] at h
    split at h
    next row' p' hposition =>
      cases h
      exact Cell.columnOf?_of_position? hposition
    next => cases h
  | none =>
    simp only [positionOf] at h
    split at h
    next hlt =>
      cases h
      exact ⟨rfl, hlt⟩
    next => cases h

/-- The number of a row with this tag, if the row that was closed before it has the number
`last`. A row without one is numbered by one more, and by 0 behind the last number of 64 bits. -/
def Numbers (last : Option Nat) (tag : Tag) (number : Nat) : Prop :=
  tag.numeral? referenceName = .ok (some (number + 1)) ∨
    tag.numeral? referenceName = .ok none ∧ number = last.elim 0 Numeral.next64

/-! ### Outlines -/

/-- The tags of a row. -/
structure RowTags where
  /-- The tag that begins it. -/
  tag : Tag
  /-- The tags that begin its cells, in their order. -/
  cells : List Tag
  deriving DecidableEq, Repr

/-- The row is one with these tags, if the one that was closed before it has the number `last`. -/
structure RowTags.Describe (tags : RowTags) (last : Option Nat) (row : Row) : Prop where
  /-- It has the number of its tag. -/
  number : Numbers last tags.tag row.number
  /-- It spans the positions of its cells. -/
  spans : ∃ positions next, cellPositions? tags.cells = some (positions, next) ∧
    row.Spans positions

/-- The rows are rows with these tags, one after the other. -/
inductive RowsOutlined : List RowTags → List Row → Prop where
  /-- There are none. -/
  | nil : RowsOutlined [] []
  /-- There is one more. -/
  | snoc {outlines : List RowTags} {rows : List Row} {tags : RowTags} {row : Row}
      (h : RowsOutlined outlines rows) (hrow : tags.Describe (rows.getLast?.map (·.number)) row) :
      RowsOutlined (outlines ++ [tags]) (rows ++ [row])

/-- The tags of a sheet, and what stands open. -/
structure Outline where
  /-- What stands open. -/
  nesting : Nesting
  /-- The rows that have been closed. -/
  closed : List RowTags
  /-- The row that has been begun last. -/
  row : RowTags
  /-- Whether a value has ended since a cell was begun or ended. -/
  hasValue : Bool
  deriving DecidableEq, Repr

namespace Outline

/-- Nothing has been read. -/
def start : Outline := ⟨.start, [], ⟨⟨[]⟩, []⟩, false⟩

/-- The outline behind an event with the given role. -/
def behind (o : Outline) (role : Role) : Outline :=
  let o' := { o with nesting := o.nesting.behind role }
  match role with
  | .rowTag tag => { o' with row := ⟨tag, []⟩ }
  | .cellTag tag =>
    { o' with row := { o.row with cells := o.row.cells ++ [tag] }, hasValue := false }
  | .rowEnd => { o' with closed := o.closed ++ [o.row] }
  | .cellEnd => { o' with hasValue := false }
  | .valueEnd => { o' with hasValue := true }
  | .valueTag _ => o'
  | .other => o'

/-- The outline behind an event. -/
def step (o : Outline) (e : Event) : Outline := o.behind (o.nesting.role e)

/-- The outline behind some events. -/
def after (o : Outline) (events : List Event) : Outline := events.foldl step o

@[simp] theorem nesting_behind (o : Outline) (role : Role) :
    (o.behind role).nesting = o.nesting.behind role := by
  cases role <;> rfl

theorem nesting_step (o : Outline) (e : Event) : (o.step e).nesting = o.nesting.step e := by
  rw [step, nesting_behind, Nesting.step_eq]

theorem after_append (o : Outline) (events : List Event) (e : Event) :
    o.after (events ++ [e]) = (o.after events).step e := by
  rw [after, List.foldl_append]
  rfl

end Outline

/-! ### Readings and outlines -/

/-- The rows that are handed over, of those that have been closed. -/
def handed (withholdBlank : Bool) (rows : List Row) : List Row :=
  rows.filter fun row => !(withholdBlank && row.isBlank)

variable {τ : Type} {context : SheetContext} {withholdBlank : Bool} {onRow : τ → Row → τ × Bool}
  {observer : τ}

/-- The reading is where the outline is, and has closed these rows. -/
structure Tracks (withholdBlank : Bool) (onRow : τ → Row → τ × Bool) (observer : τ) (o : Outline)
    (rows : List Row) (s : State τ) : Prop where
  /-- The same stands open. -/
  nesting : s.nesting = o.nesting
  /-- There is a value where the outline has one. -/
  hasValue : s.value.isSome = o.hasValue
  /-- The rows are those of the outline. -/
  closed : RowsOutlined o.closed rows
  /-- The number of the last of them is known. -/
  lastRow : s.lastRow = rows.getLast?.map (·.number)
  /-- The observer has been shown those that are handed over. -/
  observer : s.observer = (handed withholdBlank rows).foldl (fun t row => (onRow t row).1) observer
  /-- A row that is open has the number of its tag. -/
  number : s.inRow = true → Numbers s.lastRow o.row.tag s.row.number
  /-- The row spans the positions of its cells, and a cell that is open is one of them, unless it
  was there before the first of them. -/
  cells : ∃ positions, cellPositions? o.row.cells = some (positions, s.nextPosition) ∧
    s.row.Spans positions ∧ ∀ p, s.position = some p → o.row.cells ≠ [] → p ∈ positions

namespace Tracks

variable {o : Outline} {rows : List Row} {s s' : State τ} {progress : Progress SheetFailure Ending}

theorem start (withholdBlank : Bool) (onRow : τ → Row → τ × Bool) (observer : τ) :
    Tracks withholdBlank onRow observer .start [] (.start observer) where
  nesting := rfl
  hasValue := rfl
  closed := .nil
  lastRow := rfl
  observer := rfl
  number h := by cases h
  cells := ⟨[], rfl, .start 0, fun p h => by cases h⟩

/-! #### Rows -/

theorem numbers_of_rowNumber {number : Nat}
    (h : tag.numeral? referenceName >>= s.rowNumber = .ok number) :
    Numbers s.lastRow tag number := by
  obtain ⟨given, hgiven, h⟩ := ok_of_bind h
  match given with
  | some 0 => cases h
  | some (n + 1) =>
    cases h
    exact .inl hgiven
  | none =>
    right
    refine ⟨hgiven, ?_⟩
    simp only [State.rowNumber] at h
    cases hlast : s.lastRow with
    | some last =>
      rw [hlast] at h
      cases h
      rfl
    | none =>
      rw [hlast] at h
      cases h
      rfl

/-- A row is begun without cells. -/
theorem openRow (h : Tracks withholdBlank onRow observer o rows s)
    (hrun : s.openRow tag = (s', progress)) (hp : ∀ failure, progress ≠ .failed failure)
    (hnesting : s'.nesting = (o.behind (.rowTag tag)).nesting) :
    Tracks withholdBlank onRow observer (o.behind (.rowTag tag)) rows s' := by
  rw [State.openRow] at hrun
  split at hrun
  next =>
    cases hrun
    exact absurd rfl (hp _)
  next number hnumber =>
    cases hrun
    exact { h with
      nesting := hnesting
      number := fun _ => numbers_of_rowNumber hnumber
      cells := ⟨[], rfl, .start number, fun _ _ hcells => absurd rfl hcells⟩ }

theorem handed_append (rows : List Row) (row : Row) :
    handed withholdBlank (rows ++ [row]) =
      handed withholdBlank rows ++ if withholdBlank ∧ row.isBlank then [] else [row] := by
  rw [handed, List.filter_append]
  cases withholdBlank <;> cases hblank : row.isBlank <;> simp [handed, hblank]

/-- A row that ends is the one that the outline says. -/
theorem closeRow (h : Tracks withholdBlank onRow observer o rows s) (hinRow : s.inRow = true)
    (hrun : s.closeRow withholdBlank onRow = (s', progress))
    (hnesting : s'.nesting = (o.behind .rowEnd).nesting) :
    Tracks withholdBlank onRow observer (o.behind .rowEnd) (rows ++ [s.row]) s' := by
  obtain ⟨positions, hpositions, hspans, hopen⟩ := h.cells
  have hnumber := h.number hinRow
  rw [h.lastRow] at hnumber
  have hclosed : RowsOutlined (o.closed ++ [o.row]) (rows ++ [s.row]) :=
    .snoc h.closed ⟨hnumber, positions, s.nextPosition, hpositions, hspans⟩
  have hlast : (rows ++ [s.row]).getLast?.map (·.number) = some s.row.number := by simp
  simp only [State.closeRow] at hrun
  split at hrun
  next hblank =>
    cases hrun
    exact { h with
      nesting := hnesting
      closed := hclosed
      lastRow := hlast.symm
      observer := by rw [handed_append, if_pos hblank, List.append_nil, h.observer]
      number := fun hfalse => by cases hfalse }
  next hblank =>
    cases hrun
    exact { h with
      nesting := hnesting
      closed := hclosed
      lastRow := hlast.symm
      observer := by
        rw [handed_append, if_neg hblank, List.foldl_append, ← h.observer]
        rfl
      number := fun hfalse => by cases hfalse }

/-! #### Cells -/

theorem positionOf_of_describeCell {row next p : Nat} {style : Cell.Style}
    (h : describeCell context row next tag = .ok (p, style)) :
    ∃ reference, tag.attribute? referenceName = .ok reference ∧
      positionOf row next reference = .ok p := by
  rw [describeCell] at h
  obtain ⟨reference, href, h⟩ := ok_of_bind h
  obtain ⟨p', hp, h⟩ := ok_of_bind h
  obtain ⟨type, -, h⟩ := ok_of_bind h
  obtain ⟨format, -, h⟩ := ok_of_bind h
  obtain ⟨index, -, h⟩ := ok_of_bind h
  cases h
  exact ⟨reference, href, hp⟩

/-- A cell is begun where its tag puts it. -/
theorem openCell (h : Tracks withholdBlank onRow observer o rows s)
    (hrun : s.openCell context tag = (s', progress)) (hp : ∀ failure, progress ≠ .failed failure)
    (hnesting : s'.nesting = (o.behind (.cellTag tag)).nesting) :
    Tracks withholdBlank onRow observer (o.behind (.cellTag tag)) rows s' := by
  obtain ⟨positions, hpositions, hspans, -⟩ := h.cells
  rw [State.openCell] at hrun
  split at hrun
  next =>
    cases hrun
    exact absurd rfl (hp _)
  next p style hdescribe =>
    cases hrun
    obtain ⟨reference, href, hp'⟩ := positionOf_of_describeCell hdescribe
    obtain ⟨hplace, hlimit⟩ := cellPosition?_of_positionOf href hp'
    refine { h with
      nesting := hnesting
      hasValue := rfl
      cells := ⟨positions ++ [p], cellPositions?_append hpositions hplace,
        hspans.placeStyle hlimit _, ?_⟩ }
    intro q hq _
    obtain rfl := Option.some.inj hq
    exact List.mem_append_right _ (List.mem_singleton_self _)

/-- A cell that the row has is one that was begun in it. -/
theorem mem_positions {positions : List Nat} {p : Nat}
    (hpositions : cellPositions? o.row.cells = some (positions, s.nextPosition))
    (hspans : s.row.Spans positions) (hopen : o.row.cells ≠ [] → p ∈ positions)
    (hlt : p < s.row.size) : p ∈ positions := by
  apply hopen
  intro hcells
  rw [hcells] at hpositions
  obtain ⟨rfl, -⟩ := Prod.mk.inj (Option.some.inj hpositions)
  obtain ⟨-, hsize⟩ | ⟨largest, hmem, -⟩ := hspans.size
  · omega
  · cases hmem

/-- The text of a cell is placed where the cell was begun. -/
theorem closeCell (h : Tracks withholdBlank onRow observer o rows s)
    (hrun : s.closeCell context = (s', progress)) (hp : ∀ failure, progress ≠ .failed failure)
    (hnesting : s'.nesting = (o.behind .cellEnd).nesting) :
    Tracks withholdBlank onRow observer (o.behind .cellEnd) rows s' := by
  obtain ⟨positions, hpositions, hspans, hopen⟩ := h.cells
  simp only [State.closeCell] at hrun
  split at hrun
  next p raw hposition _ =>
    split at hrun
    next hlt =>
      split at hrun
      next =>
        cases hrun
        exact absurd rfl (hp _)
      next text kind _ =>
        cases hrun
        have hmem := mem_positions hpositions hspans (hopen p hposition) hlt
        exact { h with
          nesting := hnesting
          hasValue := rfl
          cells := ⟨positions, hpositions, hspans.placeText hmem text kind,
            fun _ hnone => by cases hnone⟩ }
    next =>
      cases hrun
      exact absurd rfl (hp _)
  next =>
    cases hrun
    exact { h with
      nesting := hnesting
      hasValue := rfl
      cells := ⟨positions, hpositions, hspans, fun _ hnone => by cases hnone⟩ }

/-! #### Values -/

/-- A value goes on or ends, and the row stays as it is. -/
theorem readValue {item : StringItem} {e : Event}
    (h : Tracks withholdBlank onRow observer o rows s)
    (hrun : s.stepValue item e = (s', progress)) (hp : ∀ failure, progress ≠ .failed failure)
    (hnesting : s'.nesting = (o.behind (Action.readValue item e).role).nesting) :
    Tracks withholdBlank onRow observer (o.behind (Action.readValue item e).role) rows s' := by
  simp only [State.stepValue] at hrun
  split at hrun
  next item' hmore =>
    cases hrun
    rw [Action.role_of_more (congrArg Prod.snd hmore)] at hnesting ⊢
    exact { h with nesting := hnesting }
  next item' text hfinished =>
    cases hrun
    rw [Action.role_of_finished (congrArg Prod.snd hfinished)] at hnesting ⊢
    exact { h with
      nesting := hnesting
      hasValue := rfl }
  next =>
    cases hrun
    exact absurd rfl (hp _)

/-! #### Every event -/

theorem run {e : Event} {a : Action} (h : Tracks withholdBlank onRow observer o rows s)
    (ha : s.action e = a) (hrun : a.run context withholdBlank onRow s = (s', progress))
    (hp : ∀ failure, progress ≠ .failed failure)
    (hnesting : s'.nesting = (o.behind a.role).nesting) :
    ∃ rows', Tracks withholdBlank onRow observer (o.behind a.role) rows' s' := by
  have hopen : a = .closeRow → s.inRow = true := by
    rintro rfl
    have hrole : s.nesting.role e = .rowEnd := by rw [State.role_nesting, ha, Action.role]
    exact (Nesting.admits_of_role hrole).2.2
  cases a with
  | closeRow => exact ⟨_, h.closeRow (hopen rfl) hrun hnesting⟩
  | readValue item e' => exact ⟨rows, h.readValue hrun hp hnesting⟩
  | openRow tag => exact ⟨rows, h.openRow hrun hp hnesting⟩
  | openCell tag => exact ⟨rows, h.openCell hrun hp hnesting⟩
  | closeCell => exact ⟨rows, h.closeCell hrun hp hnesting⟩
  | openValue element isValue =>
    cases hrun
    exact ⟨rows, { h with nesting := hnesting }⟩
  | finish =>
    cases hrun
    exact ⟨rows, { h with nesting := hnesting }⟩
  | skip =>
    cases hrun
    exact ⟨rows, { h with nesting := hnesting }⟩

/-- **A reading stays where the outline is**, with every event with which it goes on or comes to a
good end. The event may have ended a row. -/
theorem step {e : Event} (h : Tracks withholdBlank onRow observer o rows s)
    (hstep : s.step context withholdBlank onRow e = (s', progress))
    (hp : ∀ failure, progress ≠ .failed failure) :
    ∃ rows', Tracks withholdBlank onRow observer (o.step e) rows' s' := by
  have hnesting : s'.nesting = (o.step e).nesting := by
    rw [State.nesting_step hstep hp, h.nesting, Outline.nesting_step]
  have hrole : o.nesting.role e = (s.action e).role := by rw [← h.nesting, State.role_nesting]
  rw [State.step_eq] at hstep
  rw [Outline.step, hrole] at hnesting ⊢
  exact h.run rfl hstep hp hnesting

/-- **A reading is where the outline is** of the events that it has gone through. -/
theorem passes {events : List Event} (h : Tracks withholdBlank onRow observer o rows s)
    (hpasses : (reading context withholdBlank onRow).Passes s events s') :
    ∃ rows', Tracks withholdBlank onRow observer (o.after events) rows' s' := by
  induction hpasses generalizing o rows with
  | nil s => exact ⟨rows, h⟩
  | @cons s s₁ s' e rest hstep _ ih =>
    obtain ⟨rows₁, hfirst⟩ := h.step hstep (fun _ => nofun)
    exact ih hfirst

end Tracks

theorem tracks_passes {s : State τ} {events : List Event}
    (h : (reading context withholdBlank onRow).Passes (.start observer) events s) :
    ∃ rows, Tracks withholdBlank onRow observer (Outline.start.after events) rows s :=
  (Tracks.start withholdBlank onRow observer).passes h

end RowReading

end WorkbookTables
