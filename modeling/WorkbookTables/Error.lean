import WorkbookTables.Markup.Fault
import WorkbookTables.Number.Decimal

/-!
# Errors

Every error says its cause, from which its kind and its wording follow. An error that has been put
into a context keeps only kind and wording: the context is written before it and what caused it can
no longer be told apart. An unknown table is never put into a context, so that callers can always
recognise it.

## Main definitions

* `ErrorKind` — the three kinds that callers distinguish
* `Error` — the causes, with `Error.kind` and `Error.message`
* `Error.within` — an error in a context
-/

namespace WorkbookTables

/-- What callers tell errors apart by. -/
inductive ErrorKind where
  /-- The container cannot be opened, or a part of it is missing. -/
  | container
  /-- The content of a part is malformed. -/
  | parse
  /-- The rows of a table are wanted that the reader has never seen. -/
  | unknownTable
  deriving DecidableEq, Repr

/-- What went wrong. -/
inductive Error where
  /-- An error with a context written before it. -/
  | inContext (kind : ErrorKind) (text : String)
  /-- The file that should hold the container does not exist. -/
  | missingFile
  /-- The container is no archive. -/
  | notAnArchive
  /-- Something is no numeral. -/
  | numeral (fault : Numeral.Fault)
  /-- Something is no decimal numeral. -/
  | decimal (fault : Decimal.Fault)
  /-- A document or a reference in a value is malformed. -/
  | markup (fault : Markup.Fault)
  /-- A text is not UTF-8. -/
  | textEncoding (fault : Text.Utf8.Fault)
  /-- The attributes of a tag are malformed. -/
  | attribute (fault : Markup.AttributeFault)
  /-- A reference in a text names an entity that is not predefined. -/
  | entity (name : String)
  /-- The value of an attribute is no numeral. -/
  | attributeNumeral (value : String)
  /-- A document ends inside an element. -/
  | documentEnd (element : String)
  /-- A package lacks a part. -/
  | missingPart (package part : String)
  /-- A package has no worksheet of a relationship id. -/
  | unknownRelationship (package id : String)
  /-- A cell has a reference that names no position of the grid. -/
  | cellReference (reference : String)
  /-- A row has a number that names no row. -/
  | rowNumber (number : String)
  /-- A cell refers to a shared string past the end of their table. -/
  | sharedStringIndex (index count : Nat)
  /-- A serial number lies outside the calendar. -/
  | serialRange (value : String)
  /-- A row parser is used a second time. -/
  | parserReused (sheet : String)
  /-- No table of a name is known. -/
  | unknownTable (table : String)
  /-- The rows of a table stopped coming for no stated reason. -/
  | publisher (table : String)
  deriving DecidableEq, Repr

namespace Error

/-- The kind of an error; one in a context keeps the kind it was built from. -/
def kind : Error → ErrorKind
  | .inContext kind _ => kind
  | .missingFile | .notAnArchive | .missingPart _ _ | .unknownRelationship _ _ | .publisher _ =>
    .container
  | .unknownTable _ => .unknownTable
  | .numeral _ | .decimal _ | .markup _ | .textEncoding _ | .attribute _ | .entity _
  | .attributeNumeral _ | .documentEnd _ | .cellReference _ | .rowNumber _
  | .sharedStringIndex _ _ | .serialRange _ | .parserReused _ => .parse

/-- The wording of an error. -/
def message : Error → String
  | .inContext _ text => text
  | .missingFile => "No such file or directory (os error 2)"
  | .notAnArchive => "invalid Zip archive: Could not find EOCD"
  | .numeral fault => fault.message
  | .decimal fault => fault.message
  | .markup fault => fault.message
  | .textEncoding fault => Markup.encodingMessage fault
  | .attribute fault => fault.message
  | .entity name => s!"Parse entity '{name}' failed"
  | .attributeNumeral value => s!"Parse attribute value '{value}' failed"
  | .documentEnd element => s!"Unexpected end of document inside <{element}>"
  | .missingPart package part => s!"Missing part '{part}' in '{package}'"
  | .unknownRelationship package id =>
    s!"No worksheet part for relationship id '{id}' in '{package}'"
  | .cellReference reference => s!"Invalid cell reference '{reference}'"
  | .rowNumber number => s!"Invalid row number '{number}'"
  | .sharedStringIndex index count =>
    s!"Shared string index {index} out of range ({count} strings)"
  | .serialRange value => s!"Serial date '{value}' is out of range"
  | .parserReused sheet => s!"Row parser for '{sheet}' has already run"
  | .unknownTable table => s!"No internal relationship id found for table '{table}'"
  | .publisher table => s!"Row publisher for table '{table}' terminated unexpectedly"

/-- The error with `context` written before it. An unknown table stays as it is. -/
def within (context : String) : Error → Error
  | .unknownTable table => .unknownTable table
  | e => .inContext e.kind (context ++ ": " ++ e.message)

/-- A context never changes the kind. -/
@[simp] theorem kind_within (context : String) (e : Error) : (e.within context).kind = e.kind := by
  cases e <;> rfl

end Error

/-- The wording that every error about a table begins with. -/
def tableContext (table : String) : String :=
  s!"Table '{table}'"

end WorkbookTables
