import WorkbookTables.Proofs.Markup.Elements

/-!
# Texts with all references that need no declaration

A character of a text may also be written by the name of an entity. The five of them that need no
declaration are all that a reader can know, and of a numeral any spelling may be used. What is read
where text counts is the text; where it does not count, nothing is read, whatever the text.

## Main definitions

* `SpelledChar` — a character with the way in which it is written
* `spelledText`, `charsOfSpelled` — a text as it is written, and its characters
* `spelledEvents` — the events of such a text

## Main results

* `emitsUpTo_spelledText` — the events of a text, up to the bracket behind it
* `StringItem.passes_spelledEvents` — what an item reads of it where text counts
* `StringItem.step_of_spares` — where text does not count, it waits for certain tags only
-/

namespace WorkbookTables.Markup

/-- A character with the way in which it is written. -/
inductive SpelledChar where
  /-- As it stands. -/
  | itself (c : Char) (h : StandsForItself c)
  /-- As a reference, by a numeral or by the name of an entity. -/
  | reference (c : Char) (name : List Char) (h : RefersTo name c)

namespace SpelledChar

/-- The character. -/
def char : SpelledChar → Char
  | itself c _ => c
  | reference c _ _ => c

/-- How it is written. -/
def written : SpelledChar → String
  | itself c _ => String.ofList [c]
  | reference _ name _ => "&" ++ String.ofList name ++ ";"

end SpelledChar

/-- A text as it is written. -/
def spelledText : List SpelledChar → String
  | [] => ""
  | w :: rest => w.written ++ spelledText rest

/-- The characters of such a text. -/
def charsOfSpelled (text : List SpelledChar) : List Char := text.map (·.char)

/-- Its events behind characters that are held. -/
def spelledEvents (held : Octets) : List SpelledChar → List Event
  | [] => heldText held
  | .itself c _ :: rest => spelledEvents ((String.utf8EncodeChar c).reverse ++ held) rest
  | .reference _ name _ :: rest =>
    heldText held ++ [.reference (Text.Utf8.encode (String.ofList name))] ++ spelledEvents [] rest

/-- **The events of a text**, up to the bracket behind it. -/
theorem emitsUpTo_spelledText (text : List SpelledChar) (depth : Nat) (held : Octets) :
    EmitsUpTo depth held (Text.Utf8.encode (spelledText text)) (spelledEvents held text) := by
  induction text generalizing held with
  | nil => exact .nil depth held
  | cons w rest ih =>
    intro found
    rw [spelledText, encode_append, List.append_assoc, Scanner.scan_append]
    cases w with
    | itself c h => rw [SpelledChar.written, Scanner.scan_itself h, ih, spelledEvents]
    | reference c name h =>
      rw [SpelledChar.written, Scanner.scan_written_reference h, ih, spelledEvents]
      simp

/-- No event of a text is a tag. -/
theorem spares_of_mem_spelledEvents {names : List Octets} {held : Octets}
    {text : List SpelledChar} {e : Event} (h : e ∈ spelledEvents held text) : e.Spares names := by
  induction text generalizing held with
  | nil => exact Content.spares_of_mem_heldText h
  | cons w rest ih =>
    cases w with
    | itself c hc => exact ih h
    | reference c name hname =>
      obtain h | h := List.mem_append.1 h
      · obtain h | h := List.mem_append.1 h
        · exact Content.spares_of_mem_heldText h
        · obtain rfl := List.mem_singleton.1 h
          trivial
      · exact ih h

namespace StringItem

/-- **What an item reads of a text where text counts.** -/
theorem passes_spelledEvents (item : StringItem) (held : Octets) (cs : List Char)
    (hitem : item.inText = true) (hheld : held.reverse = Text.Utf8.encode (String.ofList cs))
    (hcs : ∀ c ∈ cs, Text.isForeignLineEnd c = false) (text : List SpelledChar) :
    reading.Passes item (spelledEvents held text) (item.extended (cs ++ charsOfSpelled text)) := by
  induction text generalizing item held cs with
  | nil => simpa [spelledEvents, charsOfSpelled] using passes_heldText hitem hheld hcs
  | cons w rest ih =>
    cases w with
    | itself c h =>
      obtain ⟨hmore, hplain⟩ := held_itself hheld hcs h
      simpa [spelledEvents, charsOfSpelled, SpelledChar.char] using ih item _ _ hitem hmore hplain
    | reference c name h =>
      have hempty : ([] : Octets).reverse = Text.Utf8.encode (String.ofList []) := rfl
      have hrest := (passes_heldText_reference hitem hheld hcs h).append
        (ih (item.extended (cs ++ [c])) [] [] hitem hempty (by simp))
      simpa [spelledEvents, charsOfSpelled, SpelledChar.char, extended_extended] using hrest

/-! ### Tags for which an item waits -/

/-- The names that an item waits for. -/
def awaited (element : Octets) : List Octets := [textName, phoneticName, element]

/-- Where text does not count, nothing is read of an event that is no tag for which the item
waits. -/
theorem step_of_spares {item : StringItem} (hitem : item.inText = false) {e : Event}
    (h : e.Spares (awaited item.element)) : item.step e = (item, .more) := by
  have hnot : ¬item.inText = true := by simp [hitem]
  cases e with
  | opening tag =>
    have hne : tag.name ≠ textName ∧ tag.name ≠ phoneticName ∧ tag.name ≠ item.element := by
      simpa [Event.Spares, awaited] using h
    exact (if_neg hne.2.1).trans (if_neg fun h => hne.1 h.2)
  | closing name =>
    have hne : name ≠ textName ∧ name ≠ phoneticName ∧ name ≠ item.element := by
      simpa [Event.Spares, awaited] using h
    exact (if_neg hne.2.2).trans ((if_neg hne.2.1).trans (if_neg hne.1))
  | text content => exact if_neg hnot
  | characterData content => exact if_neg hnot
  | reference content => exact if_neg hnot
  | aside => rfl

end StringItem

end WorkbookTables.Markup
