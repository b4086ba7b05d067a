import WorkbookTables.Cell.Serial
import WorkbookTables.Cell.Style

/-!
# What a cell shows

The stored value of a cell becomes the text that is handed out: truth values are spelt out, serial
numbers become dates and times, and an ISO date and its time are set apart by a blank. Everything
else is shown as it is stored.

## Main definitions

* `Cell.displayText` — the text for a stored value
-/

namespace WorkbookTables.Cell

/-- Holds of the stored values of the truth value true: a one among blanks, or the word in any
case. -/
def isTrue (value : String) : Bool :=
  Text.trim value == "1" || value.toList.map Char.toLower == ['t', 'r', 'u', 'e']

/-- The text that a cell of the given kind shows for a stored value. -/
def displayText (kind : Kind) (system : DateSystem) (value : String) : Except Error String :=
  match kind with
  | .boolean => .ok (if isTrue value then "true" else "false")
  | .numberDate => Serial.dateText system value
  | .numberDateTime => Serial.dateTimeText system value
  | .numberTime => Serial.timeText value
  | .isoDateTime => .ok (String.ofList (value.toList.map fun c => if c = 'T' then ' ' else c))
  | _ => .ok value

end WorkbookTables.Cell
