import WorkbookTables.Markup.StringItem

/-!
# The shared strings of a workbook

Texts that several cells have in common are stored once, in a part of their own, and referred to by
their index. Each item of the part gives one string, an item without text the empty one.

## Main definitions

* `StringTable` — the strings by index
* `StringTable.ofDocument` — the reading of the part
-/

namespace WorkbookTables

open Markup

/-- The shared strings of a workbook. -/
abbrev StringTable := Array String

namespace StringTable

/-- The element with a shared string. -/
def itemName : Octets := Text.Utf8.encode "si"

/-- What has been read of the part. -/
structure State where
  /-- The strings of the items that have ended. -/
  strings : Array String
  /-- The item that is open. -/
  item : Option StringItem
  deriving DecidableEq, Repr

/-- Reads one event. -/
def State.step (s : State) (e : Event) : State × Progress Error StringTable :=
  match s.item with
  | some item =>
    match item.step e with
    | (item, .more) => ({ s with item := some item }, .more)
    | (_, .finished text) => (⟨s.strings.push text, none⟩, .more)
    | (_, .failed error) => (s, .failed error)
  | none =>
    match e with
    | .opening tag =>
      if tag.name = itemName then ({ s with item := some (.start itemName false) }, .more)
      else (s, .more)
    | _ => (s, .more)

/-- The reader of the part. A document may end between two items but not inside one. -/
def reading : Reading State Error StringTable where
  step := State.step
  atEnd s :=
    match s.item with
    | some item => .error (.documentEnd (octetsText item.element))
    | none => .ok s.strings
  onFault := .markup

/-- The strings that the part lists. -/
def ofDocument (d : Document) : Except Error StringTable :=
  (reading.read ⟨#[], none⟩ d).2

end StringTable

end WorkbookTables
