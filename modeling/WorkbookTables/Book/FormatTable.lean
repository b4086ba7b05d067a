import WorkbookTables.Cell.NumberFormat
import WorkbookTables.Markup.Attribute
import WorkbookTables.Markup.Reading
import Std.Data.TreeMap

/-!
# The cell formats of a workbook

The part with the styles lists the formats of cells, each by the id of a number format, and the
codes of the number formats that are not built in. The two lists may stand in either order, so the
ids are looked up after both have been read. A code that is given for a built-in id overrides it,
and of two codes for one id the later counts.

The reading ends as soon as both lists have been seen and one of them closes.

## Main definitions

* `FormatTable` — the kinds of the cell formats, with `get`
* `FormatTable.ofDocument` — the reading of the part
-/

namespace WorkbookTables

open Markup Cell

/-- The kind that each cell format of a workbook shows. -/
structure FormatTable where
  /-- The kinds in the order of the formats. -/
  kinds : Array Kind
  deriving DecidableEq, Repr

namespace FormatTable

/-- The table of a workbook without styles. -/
def empty : FormatTable := ⟨#[]⟩

/-- The kind of the format with the given index; past the end it is a plain number. -/
def get (t : FormatTable) (index : Nat) : Kind :=
  t.kinds[index]?.getD .number

/-- How many formats there are. -/
def size (t : FormatTable) : Nat := t.kinds.size

/-- The element that lists codes of number formats. -/
def codesName : Octets := Text.Utf8.encode "numFmts"

/-- The element with a code of a number format. -/
def codeName : Octets := Text.Utf8.encode "numFmt"

/-- The element that lists formats of cells. -/
def formatsName : Octets := Text.Utf8.encode "cellXfs"

/-- The element with a format of cells. -/
def formatName : Octets := Text.Utf8.encode "xf"

/-- The attribute with the id of a number format. -/
def idName : Octets := Text.Utf8.encode "numFmtId"

/-- The attribute with the code of a number format. -/
def formatCodeName : Octets := Text.Utf8.encode "formatCode"

/-- What has been read of the part. -/
structure State where
  /-- The kinds of the number formats that have a code. -/
  codes : Std.TreeMap String Kind
  /-- Whether a list of codes has been seen. -/
  seenCodes : Bool
  /-- Whether a list of codes is open. -/
  inCodes : Bool
  /-- The ids of the number formats of the cell formats. -/
  ids : Array String
  /-- Whether a list of formats has been seen. -/
  seenFormats : Bool
  /-- Whether a list of formats is open. -/
  inFormats : Bool

/-- The kind of the number format with the given id. -/
def kindOfId (codes : Std.TreeMap String Kind) (id : String) : Kind :=
  match codes[id]? with
  | some kind => kind
  | none => (builtinKind? id).getD .number

namespace State

/-- Nothing has been read. -/
def start : State := ⟨∅, false, false, #[], false, false⟩

/-- The table that the ids and codes read so far make. -/
def table (s : State) : FormatTable :=
  ⟨s.ids.map (kindOfId s.codes)⟩

/-- Goes on after a list has closed, unless both lists have been seen. -/
def afterList (s : State) : State × Progress Error FormatTable :=
  if s.seenCodes ∧ s.seenFormats then (s, .finished s.table) else (s, .more)

/-- Reads the code of a number format. Without an id or a code it counts for nothing. -/
def addCode (s : State) (tag : Tag) : State × Progress Error FormatTable :=
  match tag.attribute? idName with
  | .error e => (s, .failed e)
  | .ok id =>
    match tag.attribute? formatCodeName with
    | .error e => (s, .failed e)
    | .ok code =>
      match id, code with
      | some id, some code =>
        ({ s with codes := s.codes.insert id (kindOfFormatCode code) }, .more)
      | _, _ => (s, .more)

/-- Reads a format of cells. Without an id it has the number format 0. -/
def addFormat (s : State) (tag : Tag) : State × Progress Error FormatTable :=
  match tag.attribute? idName with
  | .error e => (s, .failed e)
  | .ok id => ({ s with ids := s.ids.push (id.getD "0") }, .more)

/-- Reads one event. -/
def step (s : State) (e : Event) : State × Progress Error FormatTable :=
  match e with
  | .opening tag =>
    if s.inCodes = false ∧ tag.name = codesName then
      ({ s with seenCodes := true, inCodes := true }, .more)
    else if s.inCodes ∧ tag.name = codeName then s.addCode tag
    else if s.inFormats = false ∧ tag.name = formatsName then
      ({ s with seenFormats := true, inFormats := true }, .more)
    else if s.inFormats ∧ tag.name = formatName then s.addFormat tag
    else (s, .more)
  | .closing name =>
    if s.inCodes ∧ name = codesName then { s with inCodes := false }.afterList
    else if s.inFormats ∧ name = formatsName then { s with inFormats := false }.afterList
    else (s, .more)
  | _ => (s, .more)

end State

/-- The reader of the part. A document may end before both lists have been seen. -/
def reading : Reading State Error FormatTable where
  step := State.step
  atEnd s := .ok s.table
  onFault := .markup

/-- The cell formats that the part with the styles lists. -/
def ofDocument (d : Document) : Except Error FormatTable :=
  (reading.read State.start d).2

end FormatTable

end WorkbookTables
