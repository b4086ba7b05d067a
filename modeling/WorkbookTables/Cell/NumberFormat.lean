import WorkbookTables.Cell.Style

/-!
# Number formats

Whether a number is shown as a date or a time follows from its number format. A few formats are
built in and known by their ids. Any other is given by a code, of which only the letters count
that stand for parts of a date or a time: an escaped character, a quoted literal and a section in
square brackets are shown or interpreted otherwise.

The letter `m` stands for months and for minutes, so it decides nothing.

## Main definitions

* `Cell.builtinKind?` — the kind of a built-in format that shows dates or times
* `Cell.FormatScanner` — the machine that looks for letters that count
* `Cell.kindOfFormatCode` — the kind of a format given by its code
-/

namespace WorkbookTables.Cell

/-- The kind that a built-in format with the given id shows, none if it shows a plain number. -/
def builtinKind? (id : String) : Option Kind :=
  if id = "22" then some .numberDateTime
  else if id ∈ ["14", "15", "16", "17"] then some .numberDate
  else if id ∈ ["18", "19", "20", "21", "45", "46", "47"] then some .numberTime
  else none

/-- The machine that reads a format code. -/
structure FormatScanner where
  /-- Whether the next character is escaped. -/
  escaped : Bool := false
  /-- Whether a quoted literal is open. -/
  inLiteral : Bool := false
  /-- Whether a section in brackets is open. -/
  inBrackets : Bool := false
  /-- Whether a letter for a part of a date has been seen. -/
  seenDate : Bool := false
  /-- Whether a letter for a part of a time has been seen. -/
  seenTime : Bool := false
  deriving DecidableEq, Repr

namespace FormatScanner

/-- Holds of the letters for parts of a date. -/
def isDateLetter (c : Char) : Bool :=
  c == 'Y' || c == 'y' || c == 'D' || c == 'd'

/-- Holds of the letters for parts of a time. -/
def isTimeLetter (c : Char) : Bool :=
  c == 'H' || c == 'h' || c == 'S' || c == 's'

/-- Reads one character. A backslash or an underscore escapes the next character wherever it
stands, inside literals and brackets too. -/
def step (s : FormatScanner) (c : Char) : FormatScanner :=
  if s.escaped then { s with escaped := false }
  else if c = '_' ∨ c = '\\' then { s with escaped := true }
  else if c = '"' ∧ s.inLiteral then { s with inLiteral := false }
  else if c = '"' ∧ !s.inBrackets then { s with inLiteral := true }
  else if c = ']' ∧ s.inBrackets then { s with inBrackets := false }
  else if c = '[' ∧ !s.inLiteral then { s with inBrackets := true }
  else if s.inLiteral ∨ s.inBrackets then s
  else if isDateLetter c then { s with seenDate := true }
  else if isTimeLetter c then { s with seenTime := true }
  else s

/-- The kind that the letters seen make. -/
def kind (s : FormatScanner) : Kind :=
  match s.seenDate, s.seenTime with
  | true, true => .numberDateTime
  | true, false => .numberDate
  | false, true => .numberTime
  | false, false => .number

end FormatScanner

/-- The kind that a format with the given code shows. -/
def kindOfFormatCode (code : String) : Kind :=
  (code.toList.foldl FormatScanner.step {}).kind

example : kindOfFormatCode "[h]:mm:ss" = .numberTime ∧ kindOfFormatCode "0\"days\"" = .number := by
  decide +kernel

end WorkbookTables.Cell
