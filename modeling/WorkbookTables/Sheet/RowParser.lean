import WorkbookTables.Sheet.RowReading

/-!
# Parsers that are used once

A row parser belongs to one sheet and runs once. Where it stands can be asked at any time; a second
run is refused, hands over no row and leaves the parser as it is.

## Main definitions

* `RowParser`, `RowParser.Stage` — a parser and where it stands
* `RowParser.parse` — a run, and the parser afterwards
-/

namespace WorkbookTables

namespace RowParser

/-- Where a parser stands. -/
inductive Stage where
  /-- It has not run. -/
  | notStarted
  /-- It has run and its observer wanted no further row. -/
  | stopped
  /-- It has run and handed over every row. -/
  | complete
  /-- It has run and failed. -/
  | failed
  deriving DecidableEq, Repr

/-- Where a parser stands after a run. -/
def Stage.after (result : Except SheetFailure Ending) : Stage :=
  match result with
  | .ok .complete => .complete
  | .ok .stopped => .stopped
  | .error _ => .failed

end RowParser

/-- A parser for the rows of one sheet. -/
structure RowParser where
  /-- The name of the sheet. -/
  sheet : String
  /-- Where the parser stands. -/
  stage : RowParser.Stage
  deriving DecidableEq, Repr

namespace RowParser

/-- A parser that has not run. -/
def new (sheet : String) : RowParser := ⟨sheet, .notStarted⟩

/-- Hands the rows of a document to an observer, unless the parser has run already. -/
def parse {τ : Type} (p : RowParser) (context : SheetContext) (withholdBlank : Bool)
    (onRow : τ → Row → τ × Bool) (observer : τ) (d : Markup.Document) :
    RowParser × τ × Except SheetFailure Ending :=
  match p.stage with
  | .notStarted =>
    let (observer, result) := RowReading.deliver context withholdBlank onRow observer d
    ({ p with stage := .after result }, observer, result)
  | _ => (p, observer, .error (.error (.parserReused p.sheet)))

end RowParser

end WorkbookTables
