import WorkbookTables.Book.StringTable
import WorkbookTables.Proofs.Markup.SpelledText

/-!
# Shared strings are read back

An item of the shared strings is made of pieces: text, runs of text with properties, and phonetic
runs, which say how the text is pronounced. However the pieces follow each other, the string of the
item is the text of the first two kinds, one piece behind the other, and each item gives one string,
so that the indexes by which cells refer to them are the positions of the items.

The reader of an item keeps two switches. Between two pieces both are off, whatever the piece was:
that is the invariant which carries the reading from piece to piece, and from item to item.

## Main definitions

* `Piece` — what an item is made of
* `writtenItem`, `writtenTable` — an item and the whole part as they are written
* `itemText` — the string of an item

## Main results

* `Piece.reads` — what is read of one piece
* `StringTable.ofDocument_writtenTable` — what is read of the part
-/

namespace WorkbookTables

open Markup

/-! ### Written items -/

/-- The root of the part. -/
def tableName : Octets := Text.Utf8.encode "sst"

/-- A run of text. -/
def runName : Octets := Text.Utf8.encode "r"

/-- The properties of a run. -/
def propertiesName : Octets := Text.Utf8.encode "rPr"

/-- The names for which an item of the part waits. -/
def itemAwaited : List Octets := StringItem.awaited StringTable.itemName

/-- The properties of a run: anything in which no element has a name that an item waits for. -/
structure RunProperties where
  /-- What stands in their element. -/
  content : Content
  /-- No text, phonetic run or item is among it. -/
  lacks : content.Lacks itemAwaited

/-- What an item is made of. The text element of each piece may have attributes. -/
inductive Piece where
  /-- Text. -/
  | plain (attributes : TagRest) (text : List SpelledChar)
  /-- A run of text, with properties or without. -/
  | rich (properties : Option RunProperties) (attributes : TagRest) (text : List SpelledChar)
  /-- A phonetic run. -/
  | phonetic (about attributes : TagRest) (text : List SpelledChar)

/-- A text in its element. -/
def writtenTextElement (attributes : TagRest) (text : List SpelledChar) : Octets :=
  tagOf textName attributes ++ (Text.Utf8.encode (spelledText text) ++ closingTag textName)

namespace RunProperties

/-- How they are written. -/
def written (properties : RunProperties) : Octets :=
  tagOf propertiesName .nothing ++ (properties.content.octets ++ closingTag propertiesName)

end RunProperties

namespace Piece

/-- How it is written. -/
def written : Piece → Octets
  | plain attributes text => writtenTextElement attributes text
  | rich properties attributes text =>
    tagOf runName .nothing ++ ((properties.map RunProperties.written).getD [] ++
      (writtenTextElement attributes text ++ closingTag runName))
  | phonetic about attributes text =>
    tagOf phoneticName about ++ (writtenTextElement attributes text ++ closingTag phoneticName)

/-- The characters that it adds to the string of the item. -/
def chars : Piece → List Char
  | plain _ text => charsOfSpelled text
  | rich _ _ text => charsOfSpelled text
  | phonetic _ _ _ => []

end Piece

/-- An item as it is written. -/
def writtenItem (pieces : List Piece) : Octets :=
  tagOf StringTable.itemName .nothing ++ (pieces.flatMap Piece.written ++
    closingTag StringTable.itemName)

/-- The string of an item. -/
def itemText (pieces : List Piece) : String := String.ofList (pieces.flatMap Piece.chars)

/-- The part as it is written. -/
def writtenTable (attributes : TagRest) (items : List (List Piece)) : Octets :=
  tagOf tableName attributes ++ (items.flatMap writtenItem ++ closingTag tableName)

/-! ### Pieces of an item -/

/-- An item between two of its pieces: both switches are off. -/
def betweenPieces (cs : List Char) : StringItem :=
  ⟨StringTable.itemName, false, false, String.ofList cs⟩

section Reads

variable {cs : List Char} {depth : Nat}

theorem step_betweenPieces {e : Event} (h : e.Spares itemAwaited) :
    StringItem.reading.step (betweenPieces cs) e = (betweenPieces cs, .more) :=
  StringItem.step_of_spares rfl h

/-- An element for which the item does not wait opens. -/
theorem reads_opening_of_notMem {name : Octets} (hname : IsElementName name)
    (hnot : name ∉ itemAwaited) (rest : TagRest) :
    StringItem.reading.Reads depth (depth + 1) (tagOf name rest) (betweenPieces cs)
      (betweenPieces cs) := by
  refine .opening hname depth fun tag htag => step_betweenPieces ?_
  rwa [Event.Spares, htag]

/-- The text of a piece is added to the string. -/
theorem reads_textElement (attributes : TagRest) (text : List SpelledChar) :
    StringItem.reading.Reads depth depth (writtenTextElement attributes text) (betweenPieces cs)
      (betweenPieces (cs ++ charsOfSpelled text)) := by
  let inside : StringItem := ⟨StringTable.itemName, false, true, String.ofList cs⟩
  have hname : IsElementName textName := by decide +kernel
  have hitem : StringTable.itemName ≠ textName := by decide +kernel
  have hopen : ∀ tag : Tag, tag.name = textName →
      StringItem.reading.step (betweenPieces cs) (.opening tag) = (inside, .more) :=
    fun tag htag => StringItem.step_opening_text rfl htag
  have hclose : StringItem.reading.step (inside.extended ([] ++ charsOfSpelled text))
      (.closing textName) = (betweenPieces (cs ++ charsOfSpelled text), .more) := by
    refine (StringItem.step_closing_text (inside.extended _) hitem).trans ?_
    simp [inside, StringItem.extended, betweenPieces, String.ofList_append]
  exact .append (.opening hname depth hopen)
    (.upTo_closing hname depth (emitsUpTo_spelledText text (depth + 1) [])
      (StringItem.passes_spelledEvents inside [] [] rfl rfl (by simp) text) hclose)

/-- The properties of a run add nothing. -/
theorem RunProperties.reads (properties : RunProperties) :
    StringItem.reading.Reads depth depth properties.written (betweenPieces cs)
      (betweenPieces cs) := by
  have hname : IsElementName propertiesName := by decide +kernel
  have hnot : propertiesName ∉ itemAwaited := by decide +kernel
  have hinside : StringItem.reading.Passes (betweenPieces cs) (properties.content.events [])
      (betweenPieces cs) :=
    .of_forall fun e he => step_betweenPieces (Content.spares_of_mem_events properties.lacks he)
  exact .append (reads_opening_of_notMem hname hnot .nothing)
    (.upTo_closing hname depth
      (properties.content.emitsUpTo_events (depth + 1) []) hinside (step_betweenPieces hnot))

/-- In a phonetic run no text counts. -/
theorem reads_phonetic (about attributes : TagRest) (text : List SpelledChar) :
    StringItem.reading.Reads depth depth (Piece.phonetic about attributes text).written
      (betweenPieces cs) (betweenPieces cs) := by
  let inside : StringItem := ⟨StringTable.itemName, true, false, String.ofList cs⟩
  have hname : IsElementName phoneticName := by decide +kernel
  have htext : IsElementName textName := by decide +kernel
  have hitem : StringTable.itemName ≠ textName := by decide +kernel
  have hitem' : StringTable.itemName ≠ phoneticName := by decide +kernel
  have hopen : ∀ tag : Tag, tag.name = phoneticName →
      StringItem.reading.step (betweenPieces cs) (.opening tag) = (inside, .more) :=
    fun tag htag => StringItem.step_opening_phonetic htag
  have hopenText : ∀ tag : Tag, tag.name = textName →
      StringItem.reading.step inside (.opening tag) = (inside, .more) :=
    fun tag htag => StringItem.step_opening_text_of_phonetic rfl htag
  have hinside : StringItem.reading.Passes inside (spelledEvents [] text) inside := by
    refine .of_forall fun e he => ?_
    have hspares : e.Spares (StringItem.awaited inside.element) := spares_of_mem_spelledEvents he
    exact StringItem.step_of_spares rfl hspares
  have hcloseText : StringItem.reading.step inside (.closing textName) = (inside, .more) :=
    StringItem.step_closing_text inside hitem
  have hclose : StringItem.reading.step inside (.closing phoneticName) =
      (betweenPieces cs, .more) := StringItem.step_closing_phonetic inside hitem'
  exact .append (.opening hname depth hopen)
    (.append (.append (.opening htext (depth + 1) hopenText)
      (.upTo_closing htext (depth + 1)
        (emitsUpTo_spelledText text (depth + 2) []) hinside hcloseText))
      (.closing hname depth hclose))

/-- **What is read of one piece.** Between two pieces both switches are off. -/
theorem Piece.reads (piece : Piece) :
    StringItem.reading.Reads depth depth piece.written (betweenPieces cs)
      (betweenPieces (cs ++ piece.chars)) := by
  cases piece with
  | plain attributes text => exact reads_textElement attributes text
  | rich properties attributes text =>
    have hname : IsElementName runName := by decide +kernel
    have hnot : runName ∉ itemAwaited := by decide +kernel
    have hproperties : StringItem.reading.Reads (depth + 1) (depth + 1)
        ((properties.map RunProperties.written).getD []) (betweenPieces cs) (betweenPieces cs) := by
      cases properties with
      | none => exact .nil (depth + 1) (betweenPieces cs)
      | some properties => exact properties.reads
    exact .append (reads_opening_of_notMem hname hnot .nothing)
      (.append hproperties (.append (reads_textElement attributes text)
        (.closing hname depth (step_betweenPieces hnot))))
  | phonetic about attributes text =>
    rw [chars, List.append_nil]
    exact reads_phonetic about attributes text

theorem reads_pieces (pieces : List Piece) :
    StringItem.reading.Reads depth depth (pieces.flatMap Piece.written) (betweenPieces cs)
      (betweenPieces (cs ++ pieces.flatMap Piece.chars)) := by
  induction pieces generalizing cs with
  | nil => simpa using Reading.Reads.nil depth (betweenPieces cs)
  | cons piece rest ih =>
    rw [List.flatMap_cons, List.flatMap_cons, ← List.append_assoc]
    exact .append piece.reads ih

end Reads

/-! ### Items of the part -/

namespace StringTable

variable {strings : Array String} {depth : Nat}

/-- What is read of an item that is open. -/
theorem reads_inside {item item' : StringItem} {before after : Nat} {octets : Octets}
    (h : StringItem.reading.Reads before after octets item item') :
    reading.Reads before after octets ⟨strings, some item⟩ ⟨strings, some item'⟩ := by
  obtain ⟨events, hemits, hpasses⟩ := h
  refine ⟨events, hemits, ?_⟩
  clear hemits
  induction hpasses with
  | nil => exact .nil _
  | cons hstep _ ih =>
    refine .cons ?_ ih
    have htable : StringItem.step _ _ = _ := hstep
    simp only [reading, State.step, htable]

/-- **What is read of one item**: one string. -/
theorem reads_writtenItem (pieces : List Piece) :
    reading.Reads depth depth (writtenItem pieces) ⟨strings, none⟩
      ⟨strings.push (itemText pieces), none⟩ := by
  have hname : IsElementName itemName := by decide +kernel
  have hopen : ∀ tag : Tag, tag.name = itemName →
      reading.step ⟨strings, none⟩ (.opening tag) =
        (⟨strings, some (betweenPieces [])⟩, .more) := fun tag htag => if_pos htag
  have hclose : reading.step ⟨strings, some (betweenPieces (pieces.flatMap Piece.chars))⟩
      (.closing itemName) = (⟨strings.push (itemText pieces), none⟩, .more) := rfl
  exact .append (.opening hname depth hopen)
    (.append (reads_inside (reads_pieces pieces)) (.closing hname depth hclose))

theorem reads_writtenItems (items : List (List Piece)) :
    reading.Reads depth depth (items.flatMap writtenItem) ⟨strings, none⟩
      ⟨strings ++ (items.map itemText).toArray, none⟩ := by
  induction items generalizing strings with
  | nil => simpa using Reading.Reads.nil depth (State.mk strings none)
  | cons pieces rest ih =>
    have hstrings : strings.push (itemText pieces) ++ (rest.map itemText).toArray =
        strings ++ ((pieces :: rest).map itemText).toArray := by simp
    rw [← hstrings]
    exact .append (reads_writtenItem pieces) ih

/-- **Shared strings are read back**: one string for each item, in the order of the items, and each
is the text of the pieces that count, in their order. -/
theorem ofDocument_writtenTable (attributes : TagRest) (items : List (List Piece)) :
    ofDocument (Document.ofOctets (writtenTable attributes items)) =
      .ok (items.map itemText).toArray := by
  have hname : IsElementName tableName := by decide +kernel
  have hopen : ∀ tag : Tag, tag.name = tableName →
      reading.step ⟨#[], none⟩ (.opening tag) = (⟨#[], none⟩, .more) := by
    intro tag htag
    have hitem : tag.name ≠ itemName := htag ▸ by decide +kernel
    exact if_neg hitem
  have hitems : reading.Reads 1 1 (items.flatMap writtenItem) ⟨#[], none⟩
      ⟨#[] ++ (items.map itemText).toArray, none⟩ := reads_writtenItems items
  rw [Array.empty_append] at hitems
  have hreads : reading.Reads 0 0 (writtenTable attributes items) ⟨#[], none⟩
      ⟨(items.map itemText).toArray, none⟩ :=
    .append (.opening hname 0 hopen) (.append hitems (.closing hname 0 rfl))
  rw [ofDocument, hreads.read_eq rfl]
  rfl

example : writtenTable .nothing
      [[.rich none .nothing [.itself 'a' ⟨by decide, by decide, by decide⟩,
        .reference '<' _ (.predefined List.mem_cons_self)]], []] =
    Text.Utf8.encode "<sst><si><r><t>a&lt;</t></r></si><si></si></sst>" := by decide +kernel

end StringTable

end WorkbookTables
