import WorkbookTables.Book.IdMap
import WorkbookTables.Cell.Serial
import WorkbookTables.Markup.Attribute
import WorkbookTables.Markup.Reading

/-!
# The manifest of a workbook

The manifest lists the sheets of a workbook in order and says which date system it uses. A sheet is
taken if it has a name and an id, if its id belongs to a worksheet, and if its name has not been
taken before; any other is passed over. Names of elements count without what stands before a colon.

Each sheet that is taken enters the map of ids at once, so that a manifest that is damaged further
on has still told the sheets before the damage.

## Main definitions

* `Manifest.Entry`, `Manifest.readCatalog` — the list of sheets
* `Manifest.readDateSystem` — the date system
-/

namespace WorkbookTables.Manifest

open Markup

/-- The element that lists the sheets. -/
def sheetsName : Octets := Text.Utf8.encode "sheets"

/-- The element that names a sheet. -/
def sheetName : Octets := Text.Utf8.encode "sheet"

/-- The element with the properties of the workbook. -/
def propertiesName : Octets := Text.Utf8.encode "workbookPr"

/-- The attribute with the name of a sheet. -/
def nameName : Octets := Text.Utf8.encode "name"

/-- The attribute with the id of a sheet. -/
def idName : Octets := Text.Utf8.encode "id"

/-- The attribute that tells the date systems apart. -/
def date1904Name : Octets := Text.Utf8.encode "date1904"

/-- A sheet that has been taken. -/
structure Entry where
  /-- The name of the sheet. -/
  name : String
  /-- The id of the worksheet behind it. -/
  internalId : String
  deriving DecidableEq, Repr

/-- What has been read of the list of sheets. -/
structure State where
  /-- The map that the sheets enter. -/
  ids : IdMap
  /-- The sheets taken, in order. -/
  entries : Array Entry

/-- Takes a sheet unless it is to be passed over. -/
def State.offer (isWorksheet : String → Bool) (s : State) (name id : Option String) : State :=
  match name, id with
  | some name, some id =>
    if isWorksheet id ∧ s.entries.all (·.name != name) then
      ⟨s.ids.insert name id, s.entries.push ⟨name, id⟩⟩
    else s
  | _, _ => s

/-- Reads one event of the list of sheets. -/
def State.step (isWorksheet : String → Bool) (s : State) (e : Event) :
    State × Progress Error (List Entry) :=
  match e with
  | .opening tag =>
    if tag.localName = sheetName then
      match tag.attribute? nameName with
      | .error error => (s, .failed error)
      | .ok name =>
        match tag.localAttribute? idName with
        | .error error => (s, .failed error)
        | .ok id => (s.offer isWorksheet name id, .more)
    else (s, .more)
  | .closing name =>
    if localPart name = sheetsName then (s, .finished s.entries.toList) else (s, .more)
  | _ => (s, .more)

/-- The reader of the list of sheets. A document that ends before the list does is malformed. -/
def catalogReading (isWorksheet : String → Bool) : Reading State Error (List Entry) where
  step := State.step isWorksheet
  atEnd _ := .error (.documentEnd (octetsText sheetsName))
  onFault := .markup

/-- The sheets of a manifest and the map of ids afterwards, whether the reading fails or not. -/
def readCatalog (isWorksheet : String → Bool) (ids : IdMap) (d : Document) :
    IdMap × Except Error (List Entry) :=
  let (s, result) := (catalogReading isWorksheet).read ⟨ids, #[]⟩ d
  (s.ids, result)

/-- The date system that the value of the attribute stands for. -/
def dateSystemOf (value : Option String) : DateSystem :=
  if value = some "1" ∨ value = some "true" then .from1904 else .from1900

/-- The reader of the date system. It is told by the properties, provided that they stand before
the list of sheets. -/
def dateSystemReading : Reading Unit Error DateSystem where
  step _ e :=
    match e with
    | .opening tag =>
      if tag.localName = propertiesName then
        match tag.attribute? date1904Name with
        | .error error => ((), .failed error)
        | .ok value => ((), .finished (dateSystemOf value))
      else if tag.localName = sheetsName then ((), .finished .from1900)
      else ((), .more)
    | _ => ((), .more)
  atEnd _ := .ok .from1900
  onFault := .markup

/-- The date system of a workbook. -/
def readDateSystem (d : Document) : Except Error DateSystem :=
  (dateSystemReading.read () d).2

end WorkbookTables.Manifest
