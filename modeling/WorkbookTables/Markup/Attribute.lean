import WorkbookTables.Error
import WorkbookTables.Markup.Document

/-!
# Attributes of a tag

The attributes stand after the name of a tag. They are read from left to right up to the first
thing that is wrong, and a look-up goes no further than the attribute it wants, so that damage
behind it goes unnoticed. A value that is found is decoded and its references are replaced.

A look-up by the local part of a name also refuses a key that has been given before; it does so as
soon as the equals sign is seen, before the value is looked at.

## Main definitions

* `AttributeScanner` — the machine that reads attributes octet by octet
* `Tag.attributes` — the attributes of a tag, with what ends them
* `unescape` — a value with its references replaced
* `Tag.attribute?`, `Tag.localAttribute?`, `Tag.numeral?` — the look-ups
-/

namespace WorkbookTables.Markup

/-! ## References in values -/

/-- The character of a predefined entity. -/
def predefinedEntity? (name : List Char) : Option Char :=
  if name = ['l', 't'] then some '<'
  else if name = ['g', 't'] then some '>'
  else if name = ['a', 'm', 'p'] then some '&'
  else if name = ['a', 'p', 'o', 's'] then some '\''
  else if name = ['q', 'u', 'o', 't'] then some '"'
  else none

/-- The character of a code point, none for surrogates and beyond the last one. -/
def charOfCode? (code : Nat) : Option Char :=
  if h : code.isValidChar then some (Char.ofNatAux code h) else none

/-- The character that a numeral without sign names, neither zero nor a surrogate. -/
def characterOfNumeral (radix : Nat) (digits : List Char) : Except Fault Char :=
  match digits with
  | '+' :: _ => .error .signedCharacter
  | '-' :: _ => .error .signedCharacter
  | _ =>
    match Numeral.read32 radix digits with
    | .error fault => .error (.characterNumeral fault)
    | .ok code =>
      if code = 0 then .error .zeroCharacter
      else match charOfCode? code with
        | some c => .ok c
        | none => .error (.noCharacter code)

/-- The character that a reference in a value stands for. The reference begins at `start` and its
semicolon stands at `stop`. -/
def resolveInValue (start stop : Nat) (name : List Char) : Except Fault Char :=
  match name with
  | '#' :: 'x' :: digits => characterOfNumeral 16 digits
  | '#' :: digits => characterOfNumeral 10 digits
  | _ =>
    match predefinedEntity? name with
    | some c => .ok c
    | none => .error (.unknownEntity (start + 1) stop (String.ofList name))

/-- Replaces references in the characters that stand from `position` on, inside a reference if one
is open: where it began and its characters so far, the last one first. -/
def unescapeFrom (length position : Nat) :
    Option (Nat × List Char) → List Char → Except Fault (List Char)
  | none, [] => .ok []
  | some (start, _), [] => .error (.unclosedValueReference start length)
  | none, c :: rest =>
    if c = '&' then unescapeFrom length (position + 1) (some (position, [])) rest
    else (unescapeFrom length (position + c.utf8Size) none rest).map (c :: ·)
  | some (start, held), c :: rest =>
    if c = '&' then .error (.unclosedValueReference start length)
    else if c = ';' then
      match resolveInValue start position held.reverse with
      | .ok character => (unescapeFrom length (position + 1) none rest).map (character :: ·)
      | .error fault => .error fault
    else unescapeFrom length (position + c.utf8Size) (some (start, c :: held)) rest

/-- The value with every reference replaced by the character it stands for. -/
def unescape (value : List Char) : Except Fault (List Char) :=
  unescapeFrom (String.ofList value).utf8ByteSize 0 none value

/-! ## Reading attributes -/

/-- An attribute whose equals sign has been read. -/
structure Attribute where
  /-- The key as it stands. -/
  key : Octets
  /-- Where the key begins. -/
  position : Nat
  /-- The value between its quotes, or why there is none. -/
  value : Except AttributeFault Octets

/-- What is being read. The octets held are those read so far, the last one first. -/
inductive AttributeMode where
  /-- The space before a key. -/
  | gap
  /-- A key that begins at `start`. -/
  | key (start : Nat) (held : Octets)
  /-- The space after a key. -/
  | afterKey (start : Nat) (key : Octets)
  /-- The space after an equals sign. -/
  | beforeValue (start : Nat) (key : Octets)
  /-- A value inside its quotes. -/
  | value (start : Nat) (key : Octets) (quote : UInt8) (held : Octets)
  /-- Nothing more is read. -/
  | halted (fault : Option AttributeFault)
  deriving DecidableEq, Repr

/-- The machine that reads attributes: what it has read and where it stands. -/
structure AttributeScanner where
  /-- The attributes read so far. -/
  found : Array Attribute
  /-- The place of the next octet. -/
  position : Nat
  /-- What is being read. -/
  mode : AttributeMode

namespace AttributeScanner

/-- Reads the attribute that ends with the given value. -/
def add (s : AttributeScanner) (start : Nat) (key : Octets) (value : Except AttributeFault Octets)
    (mode : AttributeMode) : AttributeScanner :=
  { s with found := s.found.push ⟨key, start, value⟩, mode }

/-- Reads one octet, whose place has been counted already. -/
def read (s : AttributeScanner) (position : Nat) (b : UInt8) : AttributeScanner :=
  match s.mode with
  | .gap => if isSpace b then s else { s with mode := .key position [b] }
  | .key start held =>
    if b = octet '=' then { s with mode := .beforeValue start held.reverse }
    else if isSpace b then { s with mode := .afterKey start held.reverse }
    else { s with mode := .key start (b :: held) }
  | .afterKey start key =>
    if b = octet '=' then { s with mode := .beforeValue start key }
    else if isSpace b then s
    else { s with mode := .halted (some (.expectedEquals position)) }
  | .beforeValue start key =>
    if b = octet '"' ∨ b = octet '\'' then { s with mode := .value start key b [] }
    else if isSpace b then s
    else s.add start key (.error (.unquotedValue position)) (.halted none)
  | .value start key quote held =>
    if b = quote then s.add start key (.ok held.reverse) .gap
    else { s with mode := .value start key quote (b :: held) }
  | .halted _ => s

/-- Reads one octet and counts it. -/
def step (s : AttributeScanner) (b : UInt8) : AttributeScanner :=
  { s.read s.position b with position := s.position + 1 }

/-- The attributes of a tag that ends where the machine stands, and the fault behind them. -/
def finish (s : AttributeScanner) : List Attribute × Option AttributeFault :=
  match s.mode with
  | .gap => (s.found.toList, none)
  | .key _ _ => (s.found.toList, some (.expectedEquals s.position))
  | .afterKey _ _ => (s.found.toList, some (.expectedEquals s.position))
  | .beforeValue start key =>
    (s.found.toList ++ [⟨key, start, .error (.expectedValue s.position)⟩], none)
  | .value start key quote _ =>
    (s.found.toList ++
      [⟨key, start, .error (.missingQuote s.position (Char.ofNat quote.toNat))⟩], none)
  | .halted fault => (s.found.toList, fault)

end AttributeScanner

/-- The attributes of a tag up to the first that has no value, and the fault behind them. -/
def Tag.attributes (t : Tag) : List Attribute × Option AttributeFault :=
  let name := t.name
  ((t.content.drop name.length).foldl AttributeScanner.step ⟨#[], name.length, .gap⟩).finish

/-! ## Look-ups -/

/-- The text of a value: decoded, with its references replaced. -/
def valueText (value : Octets) : Except Error String :=
  match Text.Utf8.decode value with
  | .error fault => .error (.markup (.encoding fault))
  | .ok cs =>
    match unescape cs with
    | .error fault => .error (.markup fault)
    | .ok cs => .ok (String.ofList cs)

/-- The value of the first attribute with the given key. -/
def findKey (key : Octets) (fault : Option AttributeFault) :
    List Attribute → Except AttributeFault (Option Octets)
  | [] => match fault with
    | some fault => .error fault
    | none => .ok none
  | a :: rest =>
    match a.value with
    | .error fault => .error fault
    | .ok value => if a.key = key then .ok (some value) else findKey key fault rest

/-- The value of the first attribute whose key has the given local part, provided that no key up
to it has been given before. -/
def findLocalPart (part : Octets) (fault : Option AttributeFault) (earlier : List Attribute) :
    List Attribute → Except AttributeFault (Option Octets)
  | [] => match fault with
    | some fault => .error fault
    | none => .ok none
  | a :: rest =>
    match earlier.find? (·.key == a.key) with
    | some previous => .error (.duplicated a.position previous.position)
    | none =>
      match a.value with
      | .error fault => .error fault
      | .ok value =>
        if localPart a.key = part then .ok (some value)
        else findLocalPart part fault (a :: earlier) rest

/-- The text of a value that a look-up has found. -/
def foundText (found : Except AttributeFault (Option Octets)) : Except Error (Option String) :=
  match found with
  | .error fault => .error (.attribute fault)
  | .ok none => .ok none
  | .ok (some value) => (valueText value).map some

/-- The text of the attribute with the given key. -/
def Tag.attribute? (t : Tag) (key : Octets) : Except Error (Option String) :=
  let (attributes, fault) := t.attributes
  foundText (findKey key fault attributes)

/-- The text of the attribute whose key has the given local part. -/
def Tag.localAttribute? (t : Tag) (part : Octets) : Except Error (Option String) :=
  let (attributes, fault) := t.attributes
  foundText (findLocalPart part fault [] attributes)

/-- The number that the attribute with the given key holds. A value that is no numeral is reported
as it stands, with its references. -/
def Tag.numeral? (t : Tag) (key : Octets) : Except Error (Option Nat) :=
  let (attributes, fault) := t.attributes
  match findKey key fault attributes with
  | .error fault => .error (.attribute fault)
  | .ok none => .ok none
  | .ok (some value) =>
    match valueText value with
    | .error e => .error e
    | .ok text =>
      match Numeral.read64 text with
      | .ok n => .ok (some n)
      | .error _ => .error (.attributeNumeral (octetsText value))

example : unescape "a&lt;&#65;&#x42;".toList = .ok ['a', '<', 'A', 'B'] := by rfl

example : unescape "é&é;".toList = .error (.unknownEntity 3 5 "é") := by rfl

example : unescape "a;&b&c;".toList = .error (.unclosedValueReference 2 7) := by rfl

end WorkbookTables.Markup
