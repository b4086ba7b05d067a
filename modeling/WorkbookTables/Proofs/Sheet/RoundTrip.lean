import Mathlib.Data.List.Forall2
import WorkbookTables.Proofs.Markup.Lookup
import WorkbookTables.Proofs.Sheet.Actions
import WorkbookTables.Proofs.Sheet.Placing
import WorkbookTables.Proofs.Sheet.Written
import WorkbookTables.Sheet.RowParser

/-!
# Written sheets are read back

The reader of rows carries much from one event to the next, but between two cells and between two
rows no cell is open and nothing is being read. So the proof goes through the events piece by
piece, from one state of rest to the next: a cell only changes the row under construction and the
position that comes next, and a row only what was closed last and the observer. That the next row
starts without cells and at the first position is said once, by what its opening tag does, so
nothing that a row leaves behind can reach the row after it.

## Main definitions

* `State.resting` — the states of rest
* `WrittenRow.IsRead` — what a row must be for a written row to have been read

## Main results

* `passes_cell`, `exists_passes_row` — a cell and a row, from one state of rest to the next
* `RowParser.parse_writtenSheet` — a written sheet is read back
-/

namespace WorkbookTables

open Markup RowReading

/-! ### What is to be read -/

/-- The text of a written cell. -/
def WrittenCell.content (c : WrittenCell) : String := String.ofList (charsOf c.text)

/-- Holds of the row that was written: its number, as many positions as the last one needs, the
texts where they were written, and nothing anywhere else. -/
structure WrittenRow.IsRead (w : WrittenRow) (r : Row) : Prop where
  /-- It has the number. -/
  number : r.number = w.number
  /-- It is as long as the last position wants; without cells there is no position. -/
  size : r.size = (w.cells.map (·.position + 1)).foldl max 0
  /-- Every text stands at its position. -/
  written : ∀ c ∈ w.cells, r.cell c.position = ⟨some c.content, ⟨none, .inlineString⟩⟩
  /-- Nothing stands anywhere else. -/
  unwritten : ∀ q, q ∉ w.cells.map (·.position) → r.cell q = Cell.empty

/-- The texts of cells with their positions. -/
def textsOf (cells : List WrittenCell) : List (Nat × String) :=
  cells.map fun c => (c.position, c.content)

theorem textsOf_cons (c : WrittenCell) (rest : List WrittenCell) :
    textsOf (c :: rest) = (c.position, c.content) :: textsOf rest := rfl

/-- The row that is read. -/
def WrittenRow.read (w : WrittenRow) : Row := (Row.start w.number).placeAll (textsOf w.cells)

theorem WrittenRow.isRead_read (w : WrittenRow) : w.IsRead w.read := by
  have hpositions : (textsOf w.cells).map (·.1) = w.cells.map (·.position) := by
    simp [textsOf, Function.comp_def]
  refine ⟨Row.number_placeAll _, ?_, ?_, ?_⟩
  · rw [read, Row.size_placeAll]
    simp [textsOf, Function.comp_def]
  · intro c hc
    have hmem : (c.position, c.content) ∈ textsOf w.cells := List.mem_map_of_mem hc
    exact Row.cell_placeAll _ (hpositions ▸ w.nodup) hmem
  · intro q hq
    exact Row.cell_placeAll_of_not_mem _ (hpositions ▸ hq)

namespace RowReading

variable {τ : Type}

/-- The observer that always wants another row. -/
def insatiable (next : τ → Row → τ) (observer : τ) (row : Row) : τ × Bool :=
  (next observer row, true)

/-- A state in which no cell is open and nothing is being read. -/
def State.resting (inRow : Bool) (row : Row) (lastRow : Option Nat) (nextPosition : Nat)
    (observer : τ) : State τ :=
  ⟨row, lastRow, inRow, nextPosition, none, none, none, observer⟩

variable {context : SheetContext} {withholdBlank : Bool} {onRow : τ → Row → τ × Bool}

/-! ### Values -/

/-- What an item goes through, the reader of rows goes through while it reads the item. -/
theorem passes_value {s : State τ} {item item' : StringItem} {events : List Event}
    (h : StringItem.reading.Passes item events item') :
    (reading context withholdBlank onRow).Passes { s with item := some item } events
      { s with item := some item' } := by
  induction h with
  | nil => exact .nil _
  | cons hstep _ ih =>
    refine .cons ?_ ih
    have hitem : StringItem.step _ _ = (_, .more) := hstep
    simp [reading, State.step, State.stepValue, hitem]

/-! ### References -/

theorem lookup_referenceAttribute (isLeftOut : Bool) (reference : String) :
    (referenceAttribute isLeftOut reference).lookup referenceName =
      if isLeftOut then none else some (Text.Utf8.encode reference) := by
  cases isLeftOut <;> simp [referenceAttribute]

theorem lookup_referenceAttribute_of_ne {key : Octets} (h : key ≠ referenceName)
    (isLeftOut : Bool) (reference : String) :
    (referenceAttribute isLeftOut reference).lookup key = none := by
  have hkey : (key == referenceName) = false := by simpa using h
  cases isLeftOut <;> simp [referenceAttribute, hkey]

/-! ### Cells -/

/-- The position of a cell is found, whether its reference is written or left out. -/
theorem exists_reference_tag (c : WrittenCell) {row : Nat} (hlt : row + 1 < Nat.pow 2 64)
    (expected : Nat) :
    ∃ reference, (c.tag row expected).attribute? referenceName = .ok reference ∧
      positionOf row expected reference = .ok c.position := by
  have hname : IsName cellName := by decide +kernel
  have hattributes := c.areAttributes row expected
  have hother : List.lookup referenceName [(typeName, Text.Utf8.encode "inlineStr")] = none := by
    decide
  by_cases h : c.omitted ∧ c.position = expected
  · have hbelow : expected < Cell.columnLimit := h.2 ▸ c.position_lt
    refine ⟨none, attribute?_writtenTag_none hname hattributes ?_, ?_⟩
    · rw [WrittenCell.attributes, List.lookup_append, lookup_referenceAttribute,
        decide_eq_true h, hother]
      rfl
    · exact (if_pos hbelow).trans (by rw [h.2])
  · refine ⟨some (Cell.reference row c.position),
      attribute?_writtenTag hname hattributes ?_ fun hmem =>
        absurd (Cell.isAlphanum_reference row c.position _ hmem) (by decide), ?_⟩
    · rw [WrittenCell.attributes, List.lookup_append, lookup_referenceAttribute,
        decide_eq_false h]
      rfl
    · simp only [positionOf, Cell.position?_reference hlt c.position_lt]

/-- What the opening tag of a written cell gives. -/
theorem describeCell_tag (c : WrittenCell) {row : Nat} (hlt : row + 1 < Nat.pow 2 64)
    (expected : Nat) :
    describeCell context row expected (c.tag row expected) =
      .ok (c.position, ⟨none, .inlineString⟩) := by
  have hname : IsName cellName := by decide +kernel
  have hattributes := c.areAttributes row expected
  have htype : (c.tag row expected).attribute? typeName = .ok (some "inlineStr") := by
    refine attribute?_writtenTag hname hattributes ?_ (by decide)
    rw [WrittenCell.attributes, List.lookup_append, lookup_referenceAttribute_of_ne (by decide)]
    decide
  have hformat : (c.tag row expected).attribute? formatName = .ok none := by
    refine attribute?_writtenTag_none hname hattributes ?_
    rw [WrittenCell.attributes, List.lookup_append, lookup_referenceAttribute_of_ne (by decide)]
    decide
  obtain ⟨reference, hreference, hposition⟩ := exists_reference_tag c hlt expected
  rw [describeCell, hreference, htype, hformat]
  dsimp only [bind, Except.bind]
  rw [hposition]
  rfl

/-- The state in an open cell, whose value has been read or not. -/
def State.inCell (row : Row) (lastRow : Option Nat) (position : Nat) (value : Option String)
    (observer : τ) : State τ :=
  ⟨row.placeStyle position ⟨none, .inlineString⟩, lastRow, true, position + 1, some position,
    value, none, observer⟩

theorem openCell_tag {row : Row} (c : WrittenCell) (hlt : row.number + 1 < Nat.pow 2 64)
    (lastRow : Option Nat) (expected : Nat) (observer : τ) :
    (State.resting true row lastRow expected observer).openCell context
        (c.tag row.number expected) =
      (.inCell row lastRow c.position none observer, .more) := by
  simp only [State.openCell, State.resting, describeCell_tag c hlt expected]
  rfl

/-- The text that was read stands in the cell when it closes: its style does not ask for another
rendering, and its position is one of the row. -/
theorem closeCell_inCell (row : Row) (lastRow : Option Nat) (position : Nat) (text : String)
    (observer : τ) :
    (State.inCell row lastRow position (some text) observer).closeCell context =
      (.resting true (row.place position text) lastRow (position + 1) observer, .more) := by
  have hlt : position < (row.placeStyle position ⟨none, .inlineString⟩).size := by
    rw [Row.size_placeStyle]
    omega
  have hkind : ((row.placeStyle position ⟨none, .inlineString⟩).cell position).style.kind =
      .inlineString := by rw [Row.cell_placeStyle_self]
  simp only [State.closeCell, State.inCell, if_pos hlt, hkind, renderValue]
  rfl

/-- The item in which the text of a cell is read, up to its end. -/
def readItem (inText : Bool) (text : String) : StringItem :=
  ⟨inlineName, false, inText, text⟩

/-- What an item reads of the text element in a written cell. -/
theorem passes_content (c : WrittenCell) :
    StringItem.reading.Passes (readItem false "")
      (.opening ⟨writtenTag textName []⟩ :: (textEvents [] c.text ++ [.closing textName]))
      (readItem false c.content) := by
  have hname : (⟨writtenTag textName []⟩ : Tag).name = textName :=
    name_writtenTag (by decide +kernel) _
  have hopen : (readItem false "").step (.opening ⟨writtenTag textName []⟩) =
      (readItem true "", .more) := StringItem.step_opening_text rfl hname
  have hread := StringItem.passes_textEvents (readItem true "") [] [] rfl rfl (by simp) c.text
  have hextended : (readItem true "").extended ([] ++ charsOf c.text) =
      readItem true c.content := by
    simp [StringItem.extended, readItem, WrittenCell.content]
  rw [hextended] at hread
  exact .cons hopen (hread.append (.one rfl))

/-- **A written cell is read**, from one state of rest to the next. -/
theorem passes_cell {number expected : Nat} {row : Row} {lastRow : Option Nat} {observer : τ}
    (c : WrittenCell) (hnumber : row.number = number) (hlt : number + 1 < Nat.pow 2 64) :
    (reading context withholdBlank onRow).Passes (.resting true row lastRow expected observer)
      (c.events number expected)
      (.resting true (row.place c.position c.content) lastRow (c.position + 1) observer) := by
  subst hnumber
  have hcell : (c.tag row.number expected).name = cellName :=
    name_writtenTag (by decide +kernel) _
  have hinline : (⟨writtenTag inlineName []⟩ : Tag).name = inlineName :=
    name_writtenTag (by decide +kernel) _
  have hopenCell : (reading context withholdBlank onRow).step
      (.resting true row lastRow expected observer) (.opening (c.tag row.number expected)) =
        (.inCell row lastRow c.position none observer, .more) :=
    (step_of_action (State.action_openCell _ rfl rfl hcell)).trans
      (openCell_tag c hlt lastRow expected observer)
  have hopenValue : (reading context withholdBlank onRow).step
      (.inCell row lastRow c.position none observer) (.opening ⟨writtenTag inlineName []⟩) =
        ({ State.inCell row lastRow c.position none observer with
          item := some (readItem false "") }, .more) :=
    step_of_action
      (State.action_openInline (.inCell row lastRow c.position none observer) rfl rfl hinline)
  have hcloseValue : (reading context withholdBlank onRow).step
      { State.inCell row lastRow c.position none observer with
        item := some (readItem false c.content) } (.closing inlineName) =
        (.inCell row lastRow c.position (some c.content) observer, .more) := rfl
  have hcloseCell : (reading context withholdBlank onRow).step
      (.inCell row lastRow c.position (some c.content) observer) (.closing cellName) =
        (.resting true (row.place c.position c.content) lastRow (c.position + 1) observer, .more) :=
    (step_of_action (State.action_closeCell _ rfl)).trans
      (closeCell_inCell row lastRow c.position c.content observer)
  have hpieces := Reading.Passes.cons hopenCell (.cons hopenValue
    ((passes_value (passes_content c)).append (.cons hcloseValue (.one hcloseCell))))
  simpa [WrittenCell.events] using hpieces

theorem exists_passes_cells {number : Nat} {row : Row} {lastRow : Option Nat} {observer : τ}
    (cells : List WrittenCell) (hnumber : row.number = number) (hlt : number + 1 < Nat.pow 2 64)
    (expected : Nat) :
    ∃ position, (reading context withholdBlank onRow).Passes
      (.resting true row lastRow expected observer) (cellEvents number expected cells)
      (.resting true (row.placeAll (textsOf cells)) lastRow position observer) := by
  induction cells generalizing row expected with
  | nil => exact ⟨expected, .nil _⟩
  | cons c rest ih =>
    have hplace : (row.place c.position c.content).number = number :=
      (Row.number_place row c.position c.content).trans hnumber
    obtain ⟨position, hrest⟩ := ih hplace (c.position + 1)
    rw [textsOf_cons, Row.placeAll_cons]
    exact ⟨position, (passes_cell c hnumber hlt).append hrest⟩

/-! ### Rows -/

/-- The number of a row without one, after the row that was closed last. -/
def followingRow (lastRow : Option Nat) : Nat :=
  match lastRow with
  | some last => last + 1
  | none => 0

/-- The number of a row is found, whether it is written or left out. -/
theorem rowNumber_tag (s : State τ) (w : WrittenRow) :
    ((w.tag (followingRow s.lastRow)).numeral? referenceName >>= s.rowNumber) = .ok w.number := by
  have hname : IsName rowName := by decide +kernel
  have hattributes := w.areAttributes (followingRow s.lastRow)
  have hlookup := lookup_referenceAttribute (w.omitted ∧ w.number = followingRow s.lastRow)
    (String.ofList (Nat.toDigits 10 (w.number + 1)))
  by_cases h : w.omitted ∧ w.number = followingRow s.lastRow
  · have hleftOut : (w.attributes (followingRow s.lastRow)).lookup referenceName = none := by
      rw [WrittenRow.attributes, hlookup, decide_eq_true h]
      rfl
    have hlt := w.number_lt
    rw [h.2] at hlt
    have hnumber : s.rowNumber none = .ok (followingRow s.lastRow) := by
      rw [State.rowNumber]
      cases hlast : s.lastRow with
      | none => rfl
      | some last =>
        rw [hlast] at hlt
        exact congrArg Except.ok (Numeral.next64_of_lt (Nat.lt_of_succ_lt hlt))
    rw [WrittenRow.tag, numeral?_writtenTag_none hname hattributes hleftOut, h.2]
    exact hnumber
  · have hwritten : (w.attributes (followingRow s.lastRow)).lookup referenceName =
        some (Text.Utf8.encode (String.ofList (Nat.toDigits 10 (w.number + 1)))) := by
      rw [WrittenRow.attributes, hlookup, decide_eq_false h]
      rfl
    have hplain : '&' ∉ (String.ofList (Nat.toDigits 10 (w.number + 1))).toList := fun hmem =>
      absurd ((Numeral.spells_toDigits _).isAlphanum _ (by simpa using hmem)) (by decide)
    rw [WrittenRow.tag, numeral?_writtenTag hname hattributes hwritten hplain
      (Numeral.read64_toDigits w.number_lt)]
    rfl

/-- **A written row is read**, from one state of rest to the next. -/
theorem exists_passes_row {next : τ → Row → τ} (row : Row) (lastRow : Option Nat)
    (position : Nat) (observer : τ) (w : WrittenRow) :
    ∃ position', (reading context false (insatiable next)).Passes
      (.resting false row lastRow position observer) (w.events (followingRow lastRow))
      (.resting false w.read (some w.number) position' (next observer w.read)) := by
  have hname : (w.tag (followingRow lastRow)).name = rowName :=
    name_writtenTag (by decide +kernel) _
  have hstart : (Row.start w.number).number = w.number := rfl
  have hopen : (reading context false (insatiable next)).step
      (.resting false row lastRow position observer) (.opening (w.tag (followingRow lastRow))) =
        (.resting true (.start w.number) lastRow 0 observer, .more) := by
    have hnumber := rowNumber_tag (.resting false row lastRow position observer) w
    have haction := State.action_openRow (.resting false row lastRow position observer) rfl hname
    refine (step_of_action haction).trans ?_
    rw [Action.run, State.openRow]
    dsimp only [State.resting] at hnumber ⊢
    rw [hnumber]
  obtain ⟨position', hcells⟩ := exists_passes_cells w.cells hstart w.number_lt 0
  have hclose : (reading context false (insatiable next)).step
      (.resting true w.read lastRow position' observer) (.closing rowName) =
        (.resting false w.read (some w.number) position' (next observer w.read), .more) := by
    have hread : w.read.number = w.number := w.isRead_read.number
    have haction := State.action_closeRow (.resting true w.read lastRow position' observer) rfl rfl
    refine (step_of_action haction).trans ?_
    simp [Action.run, State.closeRow, State.resting, insatiable, hread]
  exact ⟨position', .cons hopen (hcells.append (.one hclose))⟩

/-- Rows are read one after the other, each after the one that was closed before it. -/
theorem exists_passes_rows {next : τ → Row → τ} (row : Row) (lastRow : Option Nat)
    (position : Nat) (observer : τ) (rows : List WrittenRow) :
    ∃ row' lastRow' position', (reading context false (insatiable next)).Passes
      (.resting false row lastRow position observer) (rowEvents (followingRow lastRow) rows)
      (.resting false row' lastRow' position'
        ((rows.map WrittenRow.read).foldl next observer)) := by
  induction rows generalizing row lastRow position observer with
  | nil => exact ⟨row, lastRow, position, .nil _⟩
  | cons w rest ih =>
    obtain ⟨position₁, hrow⟩ := exists_passes_row row lastRow position observer w
    obtain ⟨row', lastRow', position', hrest⟩ :=
      ih w.read (some w.number) position₁ (next observer w.read)
    exact ⟨row', lastRow', position', hrow.append hrest⟩

/-! ### Sheets -/

/-- A written sheet is read to its end. -/
theorem deliver_writtenSheet (context : SheetContext) (next : τ → Row → τ) (observer : τ)
    (rows : List WrittenRow) :
    deliver context false (insatiable next) observer
        (Document.ofOctets (Text.Utf8.encode (writtenSheet rows))) =
      ((rows.map WrittenRow.read).foldl next observer, .ok .complete) := by
  have hsheet : (⟨writtenTag worksheetName []⟩ : Tag).name = worksheetName :=
    name_writtenTag (by decide +kernel) _
  have hdata : (⟨writtenTag sheetDataName []⟩ : Tag).name = sheetDataName :=
    name_writtenTag (by decide +kernel) _
  have hother (name : Octets) (hname : name ≠ rowName)
      (htag : (⟨writtenTag name []⟩ : Tag).name = name) :
      (reading context false (insatiable next)).Passes (.start observer)
        [.opening ⟨writtenTag name []⟩] (.start observer) :=
    .one (step_of_action (State.action_openOther (.start observer) rfl rfl rfl (by rwa [htag])))
  obtain ⟨row, lastRow, position, hrows⟩ : ∃ row lastRow position,
      (reading context false (insatiable next)).Passes (.start observer) (rowEvents 0 rows)
        (.resting false row lastRow position ((rows.map WrittenRow.read).foldl next observer)) :=
    exists_passes_rows (.start 0) none 0 observer rows
  have hclose : (reading context false (insatiable next)).step
      (.resting false row lastRow position ((rows.map WrittenRow.read).foldl next observer))
        (.closing sheetDataName) =
      (.resting false row lastRow position ((rows.map WrittenRow.read).foldl next observer),
        .finished .complete) := step_of_action (State.action_closeSheet _ rfl rfl)
  have hpieces := (hother worksheetName (by decide) hsheet).append
    ((hother sheetDataName (by decide) hdata).append hrows)
  have hevents : sheetEvents rows =
      ([.opening ⟨writtenTag worksheetName []⟩] ++ ([.opening ⟨writtenTag sheetDataName []⟩] ++
        rowEvents 0 rows)) ++ [.closing sheetDataName, .closing worksheetName] := by
    simp [sheetEvents]
  rw [deliver, Reading.read, ofOctets_writtenSheet, hevents, hpieces.run_eq,
    Reading.run_cons_finished hclose]
  rfl

end RowReading

/-- **A written sheet is read back.** The parser ends complete, and its observer, whoever it is,
is shown the rows that were written, in their order. -/
theorem RowParser.parse_writtenSheet (sheet : String) (context : SheetContext)
    (rows : List WrittenRow) :
    ∃ read : List Row, List.Forall₂ WrittenRow.IsRead rows read ∧
      ∀ {τ : Type} (next : τ → Row → τ) (observer : τ),
        (RowParser.new sheet).parse context false (fun observer row => (next observer row, true))
            observer (Document.ofOctets (Text.Utf8.encode (writtenSheet rows))) =
          (⟨sheet, .complete⟩, read.foldl next observer, .ok .complete) := by
  refine ⟨rows.map WrittenRow.read, ?_, ?_⟩
  · rw [List.forall₂_map_right_iff]
    exact List.forall₂_same.2 fun w _ => w.isRead_read
  · intro τ next observer
    have hdeliver : deliver context false (fun observer row => (next observer row, true)) observer
        (Document.ofOctets (Text.Utf8.encode (writtenSheet rows))) =
          ((rows.map WrittenRow.read).foldl next observer, .ok .complete) :=
      deliver_writtenSheet context next observer rows
    simp only [RowParser.parse, RowParser.new, hdeliver]
    rfl

end WorkbookTables
