import WorkbookTables.Markup.Attribute
import WorkbookTables.Markup.Reading
import WorkbookTables.Text.LineEnd

/-!
# The text of an element

A string item is an element whose text is spread over its parts. In a plain or rich item only the
text elements count; in a value the text stands in the element itself. Phonetic runs repeat the
text in another script, so no text element opens inside one.

A text element that is closed ends the text even where the element itself holds it, and a phonetic
run does not interrupt a text that is open: the reader keeps two switches and no stack.

## Main definitions

* `StringItem` — the state of the reading, with the text so far
* `StringItem.step` — one event
* `StringItem.reading` — the reader, which fails at the end of the document
-/

namespace WorkbookTables.Markup

/-- The element whose text counts. -/
def textName : Octets := Text.Utf8.encode "t"

/-- The element that holds a phonetic run. -/
def phoneticName : Octets := Text.Utf8.encode "rPh"

/-- The characters of a piece of text or of a reference: decoded, with uniform line ends. -/
def contentChars (content : Octets) : Except Error (List Char) :=
  match Text.Utf8.decode content with
  | .ok cs => .ok (Text.unifyLineEnds cs)
  | .error fault => .error (.textEncoding fault)

/-- The character that a numeral in a text names. A numeral that names no character stands for
nothing, and zero is a character. -/
def characterInText (radix : Nat) (digits : List Char) : Except Error (List Char) :=
  match Numeral.read32 radix digits with
  | .ok code => .ok (charOfCode? code).toList
  | .error fault => .error (.numeral fault)

/-- What a reference in a text stands for. -/
def resolveInText (name : List Char) : Except Error (List Char) :=
  match name with
  | '#' :: 'x' :: digits => characterInText 16 digits
  | '#' :: digits => characterInText 10 digits
  | _ =>
    match predefinedEntity? name with
    | some c => .ok [c]
    | none => .error (.entity (String.ofList name))

/-- A string item some of whose events have been read. -/
structure StringItem where
  /-- The element whose end ends the item. -/
  element : Octets
  /-- Whether a phonetic run is open. -/
  inPhonetic : Bool
  /-- Whether text counts. -/
  inText : Bool
  /-- The text so far. -/
  text : String
  deriving DecidableEq, Repr

namespace StringItem

/-- An item of which nothing has been read. In a value text counts at once. -/
def start (element : Octets) (isValue : Bool) : StringItem :=
  ⟨element, false, isValue, ""⟩

/-- The item with more text, or what is wrong with that text. -/
def append (item : StringItem) (piece : Except Error (List Char)) :
    StringItem × Progress Error String :=
  match piece with
  | .ok cs => ({ item with text := item.text ++ String.ofList cs }, .more)
  | .error e => (item, .failed e)

/-- Reads one event. -/
def step (item : StringItem) (e : Event) : StringItem × Progress Error String :=
  match e with
  | .closing name =>
    if name = item.element then (item, .finished item.text)
    else if name = phoneticName then ({ item with inPhonetic := false }, .more)
    else if name = textName then ({ item with inText := false }, .more)
    else (item, .more)
  | .opening tag =>
    if tag.name = phoneticName then ({ item with inPhonetic := true }, .more)
    else if item.inPhonetic = false ∧ tag.name = textName then
      ({ item with inText := true }, .more)
    else (item, .more)
  | .text content =>
    if item.inText then item.append (contentChars content) else (item, .more)
  | .characterData content =>
    if item.inText then item.append (contentChars content) else (item, .more)
  | .reference content =>
    if item.inText then item.append (contentChars content >>= resolveInText) else (item, .more)
  | .aside => (item, .more)

/-- The reader of one item. -/
def reading : Reading StringItem Error String where
  step := step
  atEnd item := .error (.documentEnd (octetsText item.element))
  onFault := .markup

/-- The text of the element that the first event of a document opens. -/
def ofDocument (element : Octets) (isValue : Bool) (d : Document) : Except Error String :=
  (reading.run d.fault (start element isValue) (d.events.drop 1)).2

end StringItem

end WorkbookTables.Markup
