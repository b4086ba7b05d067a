/-!
# What kind of cell

A cell is stored as a boolean, a number, a text of one of three sorts, a date in ISO form or an
error; a number may be shown as a date, a time of day or both. The kind of a cell already takes
its number format into account.

## Main definitions

* `Cell.Kind` — the kinds
* `Cell.Style` — the kind of a cell together with its format index
-/

namespace WorkbookTables.Cell

/-- How a cell is stored and, for a number, shown. -/
inductive Kind where
  /-- There is no cell. -/
  | empty
  /-- Holds one of the two truth values. -/
  | boolean
  /-- Holds a number shown as such. -/
  | number
  /-- Holds a number shown as a date with a time of day. -/
  | numberDateTime
  /-- Holds a number shown as a date. -/
  | numberDate
  /-- Holds a number shown as a time of day. -/
  | numberTime
  /-- Holds a date or time in ISO form. -/
  | isoDateTime
  /-- Holds its text itself. -/
  | inlineString
  /-- Refers to a text that the workbook shares between cells. -/
  | sharedString
  /-- Holds the text that a formula has given. -/
  | formulaString
  /-- Holds the name of an error. -/
  | error
  deriving DecidableEq, Repr, Inhabited

/-- Holds of the kinds of numbers that are shown as a date or a time. -/
def Kind.isDateFormatted : Kind → Bool
  | .numberDateTime | .numberDate | .numberTime => true
  | _ => false

/-- What is known of a cell besides its value. -/
structure Style where
  /-- The index of its format among those of the workbook, if it has one. -/
  formatIndex : Option Nat
  /-- Its kind. -/
  kind : Kind
  deriving DecidableEq, Repr

/-- The style of a position without a cell. -/
def Style.none : Style := ⟨Option.none, .empty⟩

end WorkbookTables.Cell
