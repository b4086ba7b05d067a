import WorkbookTables.Number.Decimal
import WorkbookTables.Sheet.Row
import WorkbookTables.Text.Blank

/-!
# Types of columns

A column has the one type on which its sampled cells agree. Text absorbs every other type, and so
does a disagreement, except that whole numbers and numbers with a fraction may be counted as the
same. A cell without text, or with the empty one, counts as text.

## Main definitions

* `ColumnType` — the five types
* `ColumnType.ofCell` — the type that one cell speaks for
* `ColumnType.widen` — the type after one more cell
-/

namespace WorkbookTables

/-- The type of a column. -/
inductive ColumnType where
  /-- Whole numbers. -/
  | integer
  /-- Numbers of any sort. -/
  | double
  /-- Dates, times and both. -/
  | date
  /-- Truth values. -/
  | boolean
  /-- Texts, and everything else. -/
  | string
  deriving DecidableEq, Repr

namespace ColumnType

/-- The name of a type. -/
def name : ColumnType → String
  | .integer => "INTEGER"
  | .double => "DOUBLE"
  | .date => "DATE"
  | .boolean => "BOOLEAN"
  | .string => "STRING"

/-- Holds of the types of numbers. -/
def isNumeric : ColumnType → Bool
  | .integer | .double => true
  | _ => false

/-- The type that the text of a plain number speaks for. What is infinite or no number at all is
no whole number. -/
def ofNumber (text : String) : ColumnType :=
  match Decimal.read (Text.trim text) with
  | .ok (.finite x) => if x.isWhole then .integer else .double
  | .ok _ => .double
  | .error _ => .string

/-- The type that a cell speaks for. -/
def ofCell (c : Cell) : ColumnType :=
  match c.text with
  | none => .string
  | some text =>
    if text.isEmpty then .string
    else match c.style.kind with
      | .boolean => .boolean
      | .numberDateTime | .numberDate | .numberTime | .isoDateTime => .date
      | .number => ofNumber text
      | _ => .string

/-- The type of a column after a cell that speaks for `observed`, where `current` is its type so
far. With `numeric` the two types of numbers together make numbers of any sort. -/
def widen (numeric : Bool) (current : Option ColumnType) (observed : ColumnType) : ColumnType :=
  match current with
  | none => observed
  | some current =>
    if current = observed then current
    else if numeric ∧ current.isNumeric ∧ observed.isNumeric then .double
    else .string

/-- Text absorbs every type, on whichever side it stands. -/
@[simp] theorem widen_string_right (numeric : Bool) (t : Option ColumnType) :
    widen numeric t .string = .string := by
  rcases t with _ | t
  · rfl
  · cases t <;> simp [widen, isNumeric]

end ColumnType

end WorkbookTables
