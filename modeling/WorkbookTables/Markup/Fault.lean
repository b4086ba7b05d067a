import WorkbookTables.Number.Numeral
import WorkbookTables.Text.Utf8

/-!
# What can be wrong with markup

Three groups of faults: those of the document's shape, which end its events; those of a reference
inside an attribute value, told by the place in the value where they arise; and those of the
attributes of a tag, told by the place in the tag.

## Main definitions

* `Markup.Fault` — faults of a document's shape and of references, with their wording
* `Markup.AttributeFault` — faults of the attributes of a tag, with their wording
-/

namespace WorkbookTables.Markup

/-- Why a document, or a reference in it, is malformed. Places are counted in octets. -/
inductive Fault where
  /-- The document ends inside a tag. -/
  | unclosedTag
  /-- A comment is not closed or has the wrong shape. -/
  | unclosedComment
  /-- A character data section is not closed or has the wrong shape. -/
  | unclosedCharacterData
  /-- A document type declaration is not closed or has the wrong shape. -/
  | unclosedDocumentType
  /-- A processing instruction is not closed. -/
  | unclosedInstruction
  /-- Something unknown follows an exclamation mark. -/
  | unknownMarkup
  /-- A closing tag stands where no element is open. -/
  | unmatchedClosing (name : String)
  /-- A document type declaration names no type. -/
  | missingDocumentTypeName
  /-- A reference in the text is not closed. -/
  | unclosedReference
  /-- A reference in a value names an entity that is not predefined. -/
  | unknownEntity (start stop : Nat) (name : String)
  /-- A reference in a value is not closed. -/
  | unclosedValueReference (start stop : Nat)
  /-- A character reference has a sign. -/
  | signedCharacter
  /-- A character reference names the character zero. -/
  | zeroCharacter
  /-- A character reference names no character. -/
  | noCharacter (code : Nat)
  /-- A character reference holds no numeral. -/
  | characterNumeral (fault : Numeral.Fault)
  /-- A value is not UTF-8. -/
  | encoding (fault : Text.Utf8.Fault)
  deriving DecidableEq, Repr

/-- The wording of octets that are not UTF-8, wherever they stand. -/
def encodingMessage (fault : Text.Utf8.Fault) : String :=
  "cannot decode input using UTF-8: " ++ fault.message

/-- The wording of a fault. -/
def Fault.message : Fault → String
  | .unclosedTag => "syntax error: tag not closed: `>` not found before end of input"
  | .unclosedComment => "syntax error: comment not closed: `-->` not found before end of input"
  | .unclosedCharacterData => "syntax error: CDATA not closed: `]]>` not found before end of input"
  | .unclosedDocumentType => "syntax error: DOCTYPE not closed: `>` not found before end of input"
  | .unclosedInstruction =>
    "syntax error: processing instruction or xml declaration not closed: " ++
      "`?>` not found before end of input"
  | .unknownMarkup => "syntax error: unknown or missed symbol in markup"
  | .unmatchedClosing name =>
    "ill-formed document: close tag `</" ++ name ++ ">` does not match any open tag"
  | .missingDocumentTypeName =>
    "ill-formed document: `<!DOCTYPE>` declaration does not contain a name of a document type"
  | .unclosedReference =>
    "ill-formed document: entity or character reference not closed: " ++
      "`;` not found before end of input"
  | .unknownEntity start stop name => s!"at {start}..{stop}: unrecognized entity `{name}`"
  | .unclosedValueReference start stop =>
    s!"Error while escaping character at range {start}..{stop}: Cannot find ';' after '&'"
  | .signedCharacter => "invalid character reference: unexpected number sign"
  | .zeroCharacter => "invalid character reference: 0x0 character is not permitted in XML"
  | .noCharacter code => s!"invalid character reference: `{code}` is not a valid codepoint"
  | .characterNumeral fault => "invalid character reference: " ++ fault.message
  | .encoding fault => encodingMessage fault

/-- Why the attributes of a tag are malformed. Places are counted in octets from the start of the
tag's content. -/
inductive AttributeFault where
  /-- Something other than an equals sign follows a key. -/
  | expectedEquals (position : Nat)
  /-- Nothing follows an equals sign. -/
  | expectedValue (position : Nat)
  /-- A value stands outside quotes. -/
  | unquotedValue (position : Nat)
  /-- The quote that opens a value is not repeated. -/
  | missingQuote (position : Nat) (quote : Char)
  /-- A key has been given before. -/
  | duplicated (position previous : Nat)
  deriving DecidableEq, Repr

/-- The wording of a fault. -/
def AttributeFault.message : AttributeFault → String
  | .expectedEquals position =>
    s!"position {position}: attribute key must be directly followed by `=` or space"
  | .expectedValue position => s!"position {position}: `=` must be followed by an attribute value"
  | .unquotedValue position =>
    s!"position {position}: attribute value must be enclosed in `\"` or `'`"
  | .missingQuote position quote =>
    s!"position {position}: missing closing quote `{quote}` in attribute value"
  | .duplicated position previous =>
    s!"position {position}: duplicated attribute, previous declaration at position {previous}"

end WorkbookTables.Markup
