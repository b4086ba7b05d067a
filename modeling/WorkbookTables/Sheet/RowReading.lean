import WorkbookTables.Book.Package
import WorkbookTables.Cell.Display
import WorkbookTables.Cell.Reference
import WorkbookTables.Sheet.Row

/-!
# Reading the rows of a sheet

The rows of a sheet are handed to an observer, each as soon as its closing tag has been read. The
observer keeps a state of its own and says with every row whether it wants another; if it does not,
the reading stops there, which is no failure. Nothing but the row under construction is kept.

A row without a number follows the row that was closed before it, and a cell without a reference
stands after the cell before it. The value of a cell is only rendered when the cell closes, because
the style that its opening tag gave decides how. A value that cannot be rendered as its style wants
is kept as a text.

Numbers of rows are words of 64 bits. Behind the last of them they start again from 0, both where a
row follows it and where it is counted from 1 in a reference. Positions never get that far. Where
counting is checked the reader breaks off there instead, also with a value that can be rendered,
because the reference of its cell is written in any case.

## What is not checked

The reader looks for rows, cells and values by name and does not ask whether they are nested as
they should be. A cell stays open across rows until it is closed, and so it can happen that its
value arrives for a position that the row under construction does not have. This is a failure of
its own kind, apart from all errors in the document.

## Main definitions

* `SheetFailure` — an error, or a value outside its row
* `RowReading.State` — the row under construction and what else is remembered
* `RowReading.reading` — the reader for a context, a filter and an observer
* `RowReading.deliver`, `RowReading.allRows` — running it on a document
-/

namespace WorkbookTables

open Markup

/-- Why the rows of a sheet cannot be read further. -/
inductive SheetFailure where
  /-- There is an error in the document. -/
  | error (e : Error)
  /-- A value arrived for a position that its row does not have. -/
  | outsideRow
  deriving DecidableEq, Repr

/-- The failure with a context written before its error. -/
def SheetFailure.within (context : String) : SheetFailure → SheetFailure
  | .error e => .error (e.within context)
  | .outsideRow => .outsideRow

/-- How a reading of rows ended that did not fail. -/
inductive Ending where
  /-- Every row was handed over. -/
  | complete
  /-- The observer wanted no further row. -/
  | stopped
  deriving DecidableEq, Repr

namespace RowReading

/-! ## Names -/

/-- The element that holds the rows. -/
def sheetDataName : Octets := Text.Utf8.encode "sheetData"

/-- The element of a row. -/
def rowName : Octets := Text.Utf8.encode "row"

/-- The element of a cell. -/
def cellName : Octets := Text.Utf8.encode "c"

/-- The element of a text that stands in its cell. -/
def inlineName : Octets := Text.Utf8.encode "is"

/-- The element of a stored value. -/
def valueName : Octets := Text.Utf8.encode "v"

/-- The attribute with the number of a row or the reference of a cell. -/
def referenceName : Octets := Text.Utf8.encode "r"

/-- The attribute that says how a value is stored. -/
def typeName : Octets := Text.Utf8.encode "t"

/-- The attribute with the format index of a cell. -/
def formatName : Octets := Text.Utf8.encode "s"

/-! ## Cells -/

/-- The kind of a cell before its number format is taken into account. -/
def storedKind (type : Option String) : Cell.Kind :=
  if type = some "s" then .sharedString
  else if type = some "inlineStr" then .inlineString
  else if type = some "str" then .formulaString
  else if type = some "b" then .boolean
  else if type = some "e" then .error
  else if type = some "d" then .isoDateTime
  else .number

/-- The position of a cell with the given reference, or with none after the cells before it. -/
def positionOf (row next : Nat) (reference : Option String) : Except Error Nat :=
  match reference with
  | some reference =>
    match Cell.position? reference with
    | some (_, position) => .ok position
    | none => .error (.cellReference reference)
  | none =>
    if next < Cell.columnLimit then .ok next
    else .error (.cellReference (Cell.reference row next))

/-- The format index that an attribute gives; without a value there is none. -/
def formatIndexOf (value : Option String) : Except Error (Option Nat) :=
  match value with
  | none => .ok none
  | some text =>
    if text.isEmpty then .ok none
    else match Numeral.read64 text with
      | .ok index => .ok (some index)
      | .error fault => .error (.numeral fault)

/-- The style of a cell that is stored in the given way. Only a number has a format that
matters. -/
def styleOf (formats : FormatTable) (stored : Cell.Kind) (formatIndex : Option Nat) : Cell.Style :=
  match stored, formatIndex with
  | .number, some index => ⟨some index, formats.get index⟩
  | _, _ => ⟨formatIndex, stored⟩

/-- Position and style that the opening tag of a cell gives. -/
def describeCell (context : SheetContext) (row next : Nat) (tag : Tag) :
    Except Error (Nat × Cell.Style) := do
  let position ← positionOf row next (← tag.attribute? referenceName)
  let stored := storedKind (← tag.attribute? typeName)
  let formatIndex ← formatIndexOf (← tag.attribute? formatName)
  return (position, styleOf context.formats stored formatIndex)

/-- The shared string that a stored value refers to. -/
def sharedText (strings : StringTable) (raw : String) : Except Error String :=
  match Numeral.read64 (Text.trim raw) with
  | .error fault => .error (.numeral fault)
  | .ok index =>
    match strings[index]? with
    | some text => .ok text
    | none => .error (.sharedStringIndex index strings.size)

/-- The text that a cell shows for a stored value, if any, and its kind afterwards. -/
def renderValue (context : SheetContext) (kind : Cell.Kind) (raw : String) :
    Except Error (Option String × Cell.Kind) :=
  match kind with
  | .sharedString => (sharedText context.strings raw).map fun text => (some text, kind)
  | .inlineString | .formulaString | .error => .ok (some raw, kind)
  | _ =>
    if raw.isEmpty then .ok (none, kind)
    else match Cell.displayText kind context.system raw with
      | .ok text => .ok (some text, kind)
      | .error _ => .ok (some raw, .inlineString)

/-! ## The reader -/

/-- What is remembered between two events. -/
structure State (τ : Type) where
  /-- The row under construction. -/
  row : Row
  /-- The number of the row that was closed last. -/
  lastRow : Option Nat
  /-- Whether a row is open. -/
  inRow : Bool
  /-- Where a cell without a reference stands. -/
  nextPosition : Nat
  /-- The position of the cell that is open. -/
  position : Option Nat
  /-- The stored value of that cell. -/
  value : Option String
  /-- The value that is being read. -/
  item : Option StringItem
  /-- The state of the observer. -/
  observer : τ

namespace State

variable {τ : Type}

/-- Nothing has been read. -/
def start (observer : τ) : State τ :=
  ⟨.start 0, none, false, 0, none, none, none, observer⟩

/-- The number of a row with the given number in its tag. A row without one is counted on from the
row that was closed last, in 64 bits. -/
def rowNumber (s : State τ) (number : Option Nat) : Except Error Nat :=
  match number with
  | some 0 => .error (.rowNumber "0")
  | some (n + 1) => .ok n
  | none =>
    match s.lastRow with
    | some last => .ok (Numeral.next64 last)
    | none => .ok 0

/-- Begins a row, also where another one is open. -/
def openRow (s : State τ) (tag : Tag) : State τ × Progress SheetFailure Ending :=
  match tag.numeral? referenceName >>= s.rowNumber with
  | .error e => (s, .failed (.error e))
  | .ok number => ({ s with row := .start number, inRow := true, nextPosition := 0 }, .more)

/-- Ends the row and hands it over, unless it is blank and such rows are withheld. -/
def closeRow (withholdBlank : Bool) (onRow : τ → Row → τ × Bool) (s : State τ) :
    State τ × Progress SheetFailure Ending :=
  let closed := { s with inRow := false, lastRow := some s.row.number }
  if withholdBlank ∧ s.row.isBlank then (closed, .more)
  else
    let (observer, wantsMore) := onRow s.observer s.row
    ({ closed with observer }, if wantsMore then .more else .finished .stopped)

/-- Begins a cell. -/
def openCell (context : SheetContext) (s : State τ) (tag : Tag) :
    State τ × Progress SheetFailure Ending :=
  match describeCell context s.row.number s.nextPosition tag with
  | .error e => (s, .failed (.error e))
  | .ok (position, style) =>
    ({ s with
        row := s.row.placeStyle position style
        nextPosition := position + 1
        position := some position
        value := none }, .more)

/-- Ends the cell that is open, if there is one, and renders its value, if it has one. -/
def closeCell (context : SheetContext) (s : State τ) : State τ × Progress SheetFailure Ending :=
  let closed := { s with position := none, value := none }
  match s.position, s.value with
  | some position, some raw =>
    if position < s.row.size then
      match renderValue context (s.row.cell position).style.kind raw with
      | .error e => (closed, .failed (.error (e.within (Cell.reference s.row.number position))))
      | .ok (text, kind) => ({ closed with row := s.row.placeText position text kind }, .more)
    else (closed, .failed .outsideRow)
  | _, _ => (closed, .more)

/-- Begins a value, in which the text stands itself or in its parts. -/
def openValue (s : State τ) (element : Octets) (isValue : Bool) :
    State τ × Progress SheetFailure Ending :=
  ({ s with item := some (.start element isValue) }, .more)

/-- Reads an event inside a value. -/
def stepValue (s : State τ) (item : StringItem) (e : Event) :
    State τ × Progress SheetFailure Ending :=
  match item.step e with
  | (item, .more) => ({ s with item := some item }, .more)
  | (_, .finished text) => ({ s with item := none, value := some text }, .more)
  | (_, .failed error) => (s, .failed (.error error))

/-- Reads an event outside values. -/
def stepSheet (context : SheetContext) (withholdBlank : Bool) (onRow : τ → Row → τ × Bool)
    (s : State τ) (e : Event) : State τ × Progress SheetFailure Ending :=
  match e with
  | .opening tag =>
    if tag.name = rowName then s.openRow tag
    else if s.inRow ∧ tag.name = cellName then s.openCell context tag
    else if s.position.isSome ∧ tag.name = inlineName then s.openValue inlineName false
    else if s.position.isSome ∧ tag.name = valueName then s.openValue valueName true
    else (s, .more)
  | .closing name =>
    if s.inRow ∧ name = rowName then s.closeRow withholdBlank onRow
    else if name = cellName then s.closeCell context
    else if s.inRow = false ∧ name = sheetDataName then (s, .finished .complete)
    else (s, .more)
  | _ => (s, .more)

/-- Reads one event. -/
def step (context : SheetContext) (withholdBlank : Bool) (onRow : τ → Row → τ × Bool)
    (s : State τ) (e : Event) : State τ × Progress SheetFailure Ending :=
  match s.item with
  | some item => s.stepValue item e
  | none => s.stepSheet context withholdBlank onRow e

/-- The element in which a document ends. -/
def openElement (s : State τ) : Octets :=
  match s.item with
  | some item => item.element
  | none => if s.inRow then rowName else sheetDataName

end State

/-- The reader of rows for a context, with or without blank rows, and an observer. A document that
ends before its rows do is malformed. -/
def reading {τ : Type} (context : SheetContext) (withholdBlank : Bool)
    (onRow : τ → Row → τ × Bool) : Reading (State τ) SheetFailure Ending where
  step := State.step context withholdBlank onRow
  atEnd s := .error (.error (.documentEnd (octetsText s.openElement)))
  onFault fault := .error (.markup fault)

/-- Hands the rows of a document to an observer. -/
def deliver {τ : Type} (context : SheetContext) (withholdBlank : Bool) (onRow : τ → Row → τ × Bool)
    (observer : τ) (d : Document) : τ × Except SheetFailure Ending :=
  let (s, result) := (reading context withholdBlank onRow).read (.start observer) d
  (s.observer, result)

/-- The observer that keeps every row and always wants another. -/
def collect (rows : Array Row) (row : Row) : Array Row × Bool :=
  (rows.push row, true)

/-- All rows of a document up to its end or a failure, and which of them it is. -/
def allRows (context : SheetContext) (withholdBlank : Bool) (d : Document) :
    Array Row × Except SheetFailure Ending :=
  deliver context withholdBlank collect #[] d

end RowReading

end WorkbookTables
