import WorkbookTables.Markup.Fault

/-!
# Documents as events

A document is read octet by octet by a machine that recognises where tags, texts and references
begin and end. What it recognises is a list of events; if the document is malformed the list ends
early and the fault says why. Octets are not decoded here: whoever uses a text or a value decodes
it, so that octets nobody uses cannot be at fault.

The machine is deliberately permissive. Names are not checked, closing tags need not name what
they close, and only a closing tag with no element open is refused. An element written in one tag
gives an opening and a closing event, so that both spellings of an empty element are alike.

## Reading by steps

`Scanner.step` is total and takes one octet, so the events of a document that has only been read in
part are those of its first octets. This is what statements about truncated documents rest on.

## Main definitions

* `Event`, `Tag` — what a document consists of
* `Scanner`, `Scanner.step` — the machine
* `Document`, `Document.ofOctets` — all events of a document, with the fault that ends them

## Main results

* `Scanner.scan_append` — reading goes on where the first part left off
-/

namespace WorkbookTables.Markup

/-- A row of octets. -/
abbrev Octets := List UInt8

/-- The octet of an ASCII character. -/
def octet (c : Char) : UInt8 := c.toNat.toUInt8

/-- Holds of the octets that separate names and attributes: blank, tab, carriage return and line
feed. -/
def isSpace (b : UInt8) : Bool :=
  b == octet ' ' || b == octet '\t' || b == octet '\r' || b == octet '\n'

/-- The text that octets spell, empty if they are not UTF-8. -/
def octetsText (octets : Octets) : String :=
  match Text.Utf8.decode octets with
  | .ok cs => String.ofList cs
  | .error _ => ""

/-! ## Names and tags -/

/-- The part of a name after its first colon, the whole name if it has none. -/
def localPart (name : Octets) : Octets :=
  match name.dropWhile (· != octet ':') with
  | [] => name
  | _ :: rest => rest

/-- What stands between the angle brackets of an opening tag, without the slash that closes an
empty element. -/
structure Tag where
  /-- The octets after the opening bracket. -/
  content : Octets
  deriving DecidableEq, Repr

/-- The octets before the first space. -/
def Tag.name (t : Tag) : Octets :=
  t.content.takeWhile (!isSpace ·)

/-- The name without the part up to its first colon. -/
def Tag.localName (t : Tag) : Octets :=
  localPart t.name

/-- One thing that a document consists of. -/
inductive Event where
  /-- An element begins. -/
  | opening (tag : Tag)
  /-- An element ends. -/
  | closing (name : Octets)
  /-- Characters as they stand. -/
  | text (content : Octets)
  /-- A character data section. -/
  | characterData (content : Octets)
  /-- A reference to a character or an entity. -/
  | reference (content : Octets)
  /-- A comment, a processing instruction or a document type declaration. -/
  | aside
  deriving DecidableEq, Repr

/-! ## The machine -/

/-- What is being read. The octets held are those read so far, the last one first. -/
inductive Mode where
  /-- Text between markup. -/
  | text (held : Octets)
  /-- A reference, after its ampersand. -/
  | reference (held : Octets)
  /-- Markup, right after the opening bracket. -/
  | markup
  /-- Markup, right after an exclamation mark. -/
  | declaration
  /-- A comment, after the exclamation mark. -/
  | comment (held : Octets)
  /-- A character data section, after the exclamation mark. -/
  | characterData (held : Octets)
  /-- A document type declaration, after the exclamation mark, and how many brackets are open. -/
  | documentType (held : Octets) (nested : Nat)
  /-- A processing instruction, after its question mark. -/
  | instruction (held : Octets)
  /-- An opening tag, and the quote that is open in it. -/
  | opening (held : Octets) (quote : Option UInt8)
  /-- A closing tag, after its slash, and the quote that is open in it. -/
  | closing (held : Octets) (quote : Option UInt8)
  /-- Nothing more is read. -/
  | halted (fault : Fault)
  deriving DecidableEq, Repr

/-- The machine: what it has recognised and where it stands. -/
structure Scanner where
  /-- The events recognised so far. -/
  events : Array Event
  /-- How many elements are open. -/
  depth : Nat
  /-- What is being read. -/
  mode : Mode
  deriving DecidableEq, Repr

namespace Scanner

/-- The machine before the first octet. -/
def start : Scanner := ⟨#[], 0, .text []⟩

/-- Goes on reading the same thing. -/
def continueWith (s : Scanner) (mode : Mode) : Scanner := { s with mode }

/-- Recognises an event, after which text may follow. The depth stays as it is. -/
def emit (s : Scanner) (e : Event) : Scanner :=
  { s with events := s.events.push e, mode := .text [] }

/-- Ends the text held, which is an event unless it is empty. -/
def endText (s : Scanner) (held : Octets) (mode : Mode) : Scanner :=
  match held with
  | [] => s.continueWith mode
  | b :: earlier => (s.emit (.text (b :: earlier).reverse)).continueWith mode

/-- The quote that is open after one more octet of a tag. -/
def quoteAfter (quote : Option UInt8) (b : UInt8) : Option UInt8 :=
  match quote with
  | some q => if b = q then none else some q
  | none => if b = octet '"' ∨ b = octet '\'' then some b else none

/-- Recognises an opening tag. A slash at its end makes it an empty element. -/
def endOpening (s : Scanner) (held : Octets) : Scanner :=
  match held with
  | [] => { s.emit (.opening ⟨[]⟩) with depth := s.depth + 1 }
  | b :: earlier =>
    if b = octet '/' then
      let tag : Tag := ⟨earlier.reverse⟩
      (s.emit (.opening tag)).emit (.closing tag.name)
    else { s.emit (.opening ⟨(b :: earlier).reverse⟩) with depth := s.depth + 1 }

/-- The name in a closing tag: what is held without the space at its end. A tag with nothing but
space keeps it. -/
def closingName (held : Octets) : Octets :=
  match held.dropWhile isSpace with
  | [] => held.reverse
  | rest => rest.reverse

/-- Recognises a closing tag, for which an element must be open. -/
def endClosing (s : Scanner) (held : Octets) : Scanner :=
  let name := closingName held
  match s.depth with
  | 0 => s.continueWith (.halted (.unmatchedClosing (octetsText name)))
  | depth + 1 => { s.emit (.closing name) with depth }

/-- The words that begin a comment, a section and a declaration, after the exclamation mark. -/
def commentStart : Octets := Text.Utf8.encode "--"

@[inherit_doc commentStart]
def characterDataStart : Octets := Text.Utf8.encode "[CDATA["

@[inherit_doc commentStart]
def documentTypeStart : Octets := Text.Utf8.encode "DOCTYPE"

/-- An ASCII letter as a capital, any other octet as it stands. -/
def upper (b : UInt8) : UInt8 :=
  if octet 'a' ≤ b ∧ b ≤ octet 'z' then b - 32 else b

/-- Recognises a character data section, given what stands before its closing brackets. -/
def endCharacterData (s : Scanner) (held : Octets) : Scanner :=
  let content := held.reverse
  if characterDataStart.isPrefixOf content then
    s.emit (.characterData (content.drop characterDataStart.length))
  else s.continueWith (.halted .unclosedCharacterData)

/-- Recognises a comment, given all of it after the exclamation mark. -/
def endComment (s : Scanner) (held : Octets) : Scanner :=
  if commentStart.isPrefixOf held.reverse then s.emit .aside
  else s.continueWith (.halted .unclosedComment)

/-- Recognises a document type declaration, in which something must be named. -/
def endDocumentType (s : Scanner) (held : Octets) : Scanner :=
  let content := held.reverse
  if documentTypeStart.isPrefixOf (content.map upper) then
    if (content.drop documentTypeStart.length).all isSpace then
      s.continueWith (.halted .missingDocumentTypeName)
    else s.emit .aside
  else s.continueWith (.halted .unclosedDocumentType)

/-- Holds if the octets end, in this order, with the two octets given. -/
def endsWithTwo (held : Octets) (a b : UInt8) : Bool :=
  match held with
  | y :: x :: _ => x == a && y == b
  | _ => false

/-- Reads one octet. -/
def step (s : Scanner) (b : UInt8) : Scanner :=
  match s.mode with
  | .text held =>
    if b = octet '<' then s.endText held .markup
    else if b = octet '&' then s.endText held (.reference [])
    else s.continueWith (.text (b :: held))
  | .reference held =>
    if b = octet ';' then s.emit (.reference held.reverse)
    else if b = octet '<' ∨ b = octet '&' then s.continueWith (.halted .unclosedReference)
    else s.continueWith (.reference (b :: held))
  | .markup =>
    if b = octet '!' then s.continueWith .declaration
    else if b = octet '?' then s.continueWith (.instruction [])
    else if b = octet '/' then s.continueWith (.closing [] none)
    else if b = octet '>' then s.endOpening []
    else s.continueWith (.opening [b] (quoteAfter none b))
  | .declaration =>
    if b = octet '[' then s.continueWith (.characterData [b])
    else if b = octet '-' then s.continueWith (.comment [b])
    else if upper b = octet 'D' then s.continueWith (.documentType [b] 0)
    else s.continueWith (.halted .unknownMarkup)
  | .characterData held =>
    if b = octet '>' ∧ endsWithTwo held (octet ']') (octet ']') then
      s.endCharacterData (held.drop 2)
    else s.continueWith (.characterData (b :: held))
  | .comment held =>
    if b = octet '>' ∧ 4 ≤ held.length ∧ endsWithTwo held (octet '-') (octet '-') then
      s.endComment held
    else s.continueWith (.comment (b :: held))
  | .documentType held nested =>
    if b = octet '<' then s.continueWith (.documentType (b :: held) (nested + 1))
    else if b = octet '>' then
      match nested with
      | 0 => s.endDocumentType held
      | nested + 1 => s.continueWith (.documentType (b :: held) nested)
    else s.continueWith (.documentType (b :: held) nested)
  | .instruction held =>
    if b = octet '>' then
      match held with
      | [] => s.continueWith (.halted .unclosedInstruction)
      | last :: _ =>
        if last = octet '?' then s.emit .aside else s.continueWith (.instruction (b :: held))
    else s.continueWith (.instruction (b :: held))
  | .opening held quote =>
    if b = octet '>' ∧ quote = none then s.endOpening held
    else s.continueWith (.opening (b :: held) (quoteAfter quote b))
  | .closing held quote =>
    if b = octet '>' ∧ quote = none then s.endClosing held
    else s.continueWith (.closing (b :: held) (quoteAfter quote b))
  | .halted _ => s

/-- Reads a row of octets. -/
def scan (s : Scanner) (octets : Octets) : Scanner :=
  octets.foldl step s

/-- The fault of a document that ends where the machine stands, none between markup. -/
def faultAtEnd (mode : Mode) : Option Fault :=
  match mode with
  | .text _ => none
  | .reference _ => some .unclosedReference
  | .markup => some .unclosedTag
  | .declaration => some .unknownMarkup
  | .comment _ => some .unclosedComment
  | .characterData _ => some .unclosedCharacterData
  | .documentType _ _ => some .unclosedDocumentType
  | .instruction _ => some .unclosedInstruction
  | .opening _ _ => some .unclosedTag
  | .closing _ _ => some .unclosedTag
  | .halted fault => some fault

/-- Reading goes on where the first part left off. -/
theorem scan_append (s : Scanner) (first second : Octets) :
    s.scan (first ++ second) = (s.scan first).scan second := by
  simp [scan]

end Scanner

/-! ## Documents -/

/-- All events of a document, and the fault that ends them if it is malformed. -/
structure Document where
  /-- The events in the order in which they stand. -/
  events : List Event
  /-- Why there are no more events, none at the end of a well-formed document. -/
  fault : Option Fault
  deriving DecidableEq, Repr

/-- The document whose end the machine has reached. A text still held is its last event. -/
def Scanner.document (s : Scanner) : Document :=
  match s.mode with
  | .text (b :: earlier) => ⟨s.events.toList ++ [.text (b :: earlier).reverse], none⟩
  | mode => ⟨s.events.toList, Scanner.faultAtEnd mode⟩

/-- The octets after a byte order mark, all of them if there is none. -/
def dropByteOrderMark (octets : Octets) : Octets :=
  match octets with
  | 0xEF :: 0xBB :: 0xBF :: rest => rest
  | _ => octets

/-- The document that octets spell. -/
def Document.ofOctets (octets : Octets) : Document :=
  (Scanner.start.scan (dropByteOrderMark octets)).document

example : Document.ofOctets (Text.Utf8.encode "<a b='>'/>x<!-->-->&lt;</ >") =
    ⟨[.opening ⟨Text.Utf8.encode "a b='>'"⟩, .closing (Text.Utf8.encode "a"),
      .text (Text.Utf8.encode "x"), .aside, .reference (Text.Utf8.encode "lt")],
      some (.unmatchedClosing " ")⟩ := by decide +kernel

end WorkbookTables.Markup
