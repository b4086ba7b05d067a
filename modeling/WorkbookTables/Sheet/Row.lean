import WorkbookTables.Cell.Style

/-!
# Rows

A row has a number and cells, one for each position up to the last that was named. A position that
no cell was given for holds the empty cell, which has neither text nor style.

Reading a position is total: past the end there is the empty cell.

## Main definitions

* `Cell` — a text or none, and a style
* `Row` — the number and the cells
* `Row.cell`, `Row.isEmpty`, `Row.isBlank` — what is asked of a row
* `Row.placeStyle`, `Row.placeText` — how the cells of a row come about
-/

namespace WorkbookTables

/-- What stands at a position of a row. -/
structure Cell where
  /-- The text that is shown, if there is any. -/
  text : Option String
  /-- What is known besides the text. -/
  style : Cell.Style
  deriving DecidableEq, Repr

/-- The cell at a position that none was given for. -/
def Cell.empty : Cell := ⟨none, .none⟩

/-- A row of a sheet. -/
structure Row where
  /-- Its number, counted from 0. -/
  number : Nat
  /-- Its cells by position. -/
  cells : Array Cell
  deriving DecidableEq, Repr

namespace Row

/-- A row without cells. -/
def start (number : Nat) : Row := ⟨number, #[]⟩

/-- How many positions there are. -/
def size (r : Row) : Nat := r.cells.size

/-- The cell at a position. -/
def cell (r : Row) (position : Nat) : Cell := r.cells[position]?.getD Cell.empty

/-- Holds if no cell was given at all. -/
def isEmpty (r : Row) : Bool := r.cells.isEmpty

/-- Holds if no cell has a text with at least one character. -/
def isBlank (r : Row) : Bool := r.cells.all fun c => c.text.all String.isEmpty

/-- The cells with empty ones after them, so that there is one at `position`. -/
def extend (cells : Array Cell) (position : Nat) : Array Cell :=
  cells ++ Array.replicate (position + 1 - cells.size) Cell.empty

/-- The row in which the cell at `position` has the given style. A text that stands there already
stays. -/
def placeStyle (r : Row) (position : Nat) (style : Cell.Style) : Row :=
  { r with cells := (extend r.cells position).modify position fun c => { c with style } }

/-- The row in which the cell at `position` has the given text and kind, if there is such a
position. -/
def placeText (r : Row) (position : Nat) (text : Option String) (kind : Cell.Kind) : Row :=
  { r with cells := r.cells.modify position fun c => ⟨text, { c.style with kind }⟩ }

/-- The cells at the given positions, in their order. -/
def project (r : Row) (positions : List Nat) : Row :=
  ⟨r.number, (positions.map r.cell).toArray⟩

@[simp] theorem size_start (number : Nat) : (start number).size = 0 := rfl

@[simp] theorem size_project (r : Row) (positions : List Nat) :
    (r.project positions).size = positions.length := by
  simp [project, size]

end Row

end WorkbookTables
