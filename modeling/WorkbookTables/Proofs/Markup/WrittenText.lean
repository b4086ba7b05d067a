import WorkbookTables.Markup.StringItem
import WorkbookTables.Proofs.Markup.Passing
import WorkbookTables.Proofs.Markup.Scanning
import WorkbookTables.Proofs.Number.Spelling

/-!
# Texts that are written character by character

Each character of a text is written as itself or as a reference to it, and a character that means
something else where it stands must be written as a reference. A reference interrupts the text, so
the events of a written text are references with runs of other characters between them; what is
read of them, one behind the other, is the text.

## Main definitions

* `WrittenChar` — a character with the way in which it is written
* `writtenText` — a text as it is written
* `textEvents` — the events of a written text
* `RefersTo` — what a reference may have in it
* `EmitsUpTo` — octets and their events, up to the bracket behind them

## Main results

* `emits_text` — a written text in front of a closing tag
* `StringItem.passes_textEvents` — what an item reads of it
-/

namespace WorkbookTables.Markup

/-- Holds of characters that mean nothing but themselves in a text. -/
def StandsForItself (c : Char) : Prop :=
  c ≠ '&' ∧ c ≠ '<' ∧ Text.isForeignLineEnd c = false

/-- A character with the way in which it is written. -/
inductive WrittenChar where
  /-- As it stands. -/
  | itself (c : Char) (h : StandsForItself c)
  /-- As a reference with decimal digits. -/
  | decimal (c : Char) (digits : List Char) (h : Numeral.Spells 10 c.toNat digits)
  /-- As a reference with hexadecimal digits. -/
  | hexadecimal (c : Char) (digits : List Char) (h : Numeral.Spells 16 c.toNat digits)

namespace WrittenChar

/-- The character. -/
def char : WrittenChar → Char
  | itself c _ => c
  | decimal c _ _ => c
  | hexadecimal c _ _ => c

/-- How it is written. -/
def written : WrittenChar → String
  | itself c _ => String.ofList [c]
  | decimal _ digits _ => "&" ++ String.ofList ('#' :: digits) ++ ";"
  | hexadecimal _ digits _ => "&" ++ String.ofList ('#' :: 'x' :: digits) ++ ";"

end WrittenChar

/-- A text as it is written. -/
def writtenText : List WrittenChar → String
  | [] => ""
  | w :: rest => w.written ++ writtenText rest

/-- The characters of a written text. -/
def charsOf (text : List WrittenChar) : List Char := text.map (·.char)

/-! ### References -/

/-- The entities that need no declaration, with their characters. -/
def predefinedEntities : List (List Char × Char) :=
  [(['l', 't'], '<'), (['g', 't'], '>'), (['a', 'm', 'p'], '&'), (['a', 'p', 'o', 's'], '\''),
    (['q', 'u', 'o', 't'], '"')]

/-- What stands in a reference to a character, between ampersand and semicolon. -/
inductive RefersTo : List Char → Char → Prop where
  /-- Decimal digits. -/
  | decimal {c : Char} {digits : List Char} (h : Numeral.Spells 10 c.toNat digits) :
    RefersTo ('#' :: digits) c
  /-- Hexadecimal digits. -/
  | hexadecimal {c : Char} {digits : List Char} (h : Numeral.Spells 16 c.toNat digits) :
    RefersTo ('#' :: 'x' :: digits) c
  /-- The name of an entity. -/
  | predefined {name : List Char} {c : Char} (h : (name, c) ∈ predefinedEntities) :
    RefersTo name c

namespace RefersTo

variable {name : List Char} {c d : Char}

theorem eq_or_isAlphanum (h : RefersTo name c) (hd : d ∈ name) :
    d = '#' ∨ d.isAlphanum = true := by
  have hentities : ∀ e ∈ predefinedEntities, e.1.all Char.isAlphanum = true := by decide
  cases h with
  | decimal h =>
    obtain rfl | hd := List.mem_cons.1 hd
    · exact .inl rfl
    · exact .inr (h.isAlphanum d hd)
  | hexadecimal h =>
    obtain rfl | rfl | hd := by simpa only [List.mem_cons] using hd
    · exact .inl rfl
    · exact .inr (by decide)
    · exact .inr (h.isAlphanum d hd)
  | predefined h => exact .inr (List.all_eq_true.1 (hentities _ h) d hd)

/-- Nothing in a reference ends it or means anything else in it. -/
theorem ne (h : RefersTo name c) (hd : d ∈ name) : d ≠ ';' ∧ d ≠ '<' ∧ d ≠ '&' := by
  refine ⟨?_, ?_, ?_⟩ <;> rintro rfl <;> exact absurd (h.eq_or_isAlphanum hd) (by decide)

theorem isForeignLineEnd (h : RefersTo name c) (hd : d ∈ name) :
    Text.isForeignLineEnd d = false := by
  have hne : d ≠ '\r' ∧ d ≠ '\u0085' ∧ d ≠ '\u2028' := by
    refine ⟨?_, ?_, ?_⟩ <;> rintro rfl <;> exact absurd (h.eq_or_isAlphanum hd) (by decide)
  simp [Text.isForeignLineEnd, hne]

end RefersTo

/-! ### Events of a text -/

/-- The event of a run of characters, whose octets are held, the last one first. -/
def heldText (held : Octets) : List Event :=
  match held with
  | [] => []
  | b :: earlier => [.text (b :: earlier).reverse]

/-- The events of a written text behind characters that are held. -/
def textEvents (held : Octets) : List WrittenChar → List Event
  | [] => heldText held
  | .itself c _ :: rest => textEvents ((String.utf8EncodeChar c).reverse ++ held) rest
  | .decimal _ digits _ :: rest =>
    heldText held ++ .reference (Text.Utf8.encode (String.ofList ('#' :: digits))) ::
      textEvents [] rest
  | .hexadecimal _ digits _ :: rest =>
    heldText held ++ .reference (Text.Utf8.encode (String.ofList ('#' :: 'x' :: digits))) ::
      textEvents [] rest

namespace Scanner

variable {found : Array Event} {depth : Nat} {held : Octets}

theorem scan_text {octets : Octets} (h : octet '<' ∉ octets) (h' : octet '&' ∉ octets) :
    scan ⟨found, depth, .text held⟩ octets = ⟨found, depth, .text (octets.reverse ++ held)⟩ := by
  refine scan_held .text ?_ held
  intro b hb held
  have hmarkup : b ≠ octet '<' := ne_of_mem_of_not_mem hb h
  have hreference : b ≠ octet '&' := ne_of_mem_of_not_mem hb h'
  simp [step, continueWith, hmarkup, hreference]

theorem endText_eq (found : Array Event) (depth : Nat) (held : Octets) (mode mode' : Mode) :
    endText ⟨found, depth, mode⟩ held mode' =
      ⟨found ++ (heldText held).toArray, depth, mode'⟩ := by
  cases held with
  | nil => simp [endText, continueWith, heldText]
  | cons b earlier => simp [endText, continueWith, emit, heldText]

theorem scan_reference {octets : Octets} (h : octet ';' ∉ octets) (h' : octet '<' ∉ octets)
    (h'' : octet '&' ∉ octets) :
    scan ⟨found, depth, .reference held⟩ octets =
      ⟨found, depth, .reference (octets.reverse ++ held)⟩ := by
  refine scan_held .reference ?_ held
  intro b hb held
  have hend : b ≠ octet ';' := ne_of_mem_of_not_mem hb h
  have hmarkup : b ≠ octet '<' := ne_of_mem_of_not_mem hb h'
  have hreference : b ≠ octet '&' := ne_of_mem_of_not_mem hb h''
  simp [step, continueWith, hend, hmarkup, hreference]

/-- A reference ends the run of characters before it. -/
theorem scan_written_reference {name : List Char} {c : Char} (h : RefersTo name c) :
    scan ⟨found, depth, .text held⟩
        (Text.Utf8.encode ("&" ++ String.ofList name ++ ";")) =
      ⟨found ++
          (heldText held ++ [Event.reference (Text.Utf8.encode (String.ofList name))]).toArray,
        depth, .text []⟩ := by
  have hnot {a : Char} (ha : a.toNat < 0x80) (hname : a ∉ name) :
      octet a ∉ Text.Utf8.encode (String.ofList name) := fun hmem =>
    hname (by simpa using mem_of_octet_mem_encode ha hmem)
  have hopen : scan ⟨found, depth, .text held⟩ (Text.Utf8.encode "&") =
      endText ⟨found, depth, .text held⟩ held (.reference []) := rfl
  have hclose : ∀ (found : Array Event) (held : Octets),
      scan ⟨found, depth, .reference held⟩ (Text.Utf8.encode ";") =
        ⟨found.push (.reference held.reverse), depth, .text []⟩ := fun _ _ => rfl
  rw [encode_append, encode_append, scan_append, scan_append, hopen, endText_eq,
    scan_reference (hnot (by decide) fun hmem => (h.ne hmem).1 rfl)
      (hnot (by decide) fun hmem => (h.ne hmem).2.1 rfl)
      (hnot (by decide) fun hmem => (h.ne hmem).2.2 rfl), hclose]
  simp

/-- A character that stands for itself is held. -/
theorem scan_itself {c : Char} (h : StandsForItself c) :
    scan ⟨found, depth, .text held⟩ (Text.Utf8.encode (String.ofList [c])) =
      ⟨found, depth, .text ((String.utf8EncodeChar c).reverse ++ held)⟩ := by
  have hc {a : Char} (ha : a.toNat < 0x80) (hne : c ≠ a) :
      octet a ∉ Text.Utf8.encode (String.ofList [c]) := fun hmem =>
    hne (by simpa [eq_comm] using mem_of_octet_mem_encode ha hmem)
  have hencode : Text.Utf8.encode (String.ofList [c]) = String.utf8EncodeChar c := by
    simp [Text.Utf8.encode]
  rw [scan_text (hc (by decide) h.2.1) (hc (by decide) h.1), hencode]

/-- A bracket ends the run of characters before it. -/
theorem scan_bracket : scan ⟨found, depth, .text held⟩ [octet '<'] =
    ⟨found ++ (heldText held).toArray, depth, .markup⟩ := by
  have hopen : scan ⟨found, depth, .text held⟩ [octet '<'] =
      endText ⟨found, depth, .text held⟩ held .markup := rfl
  rw [hopen, endText_eq]

/-- **What the machine recognises in a written text**, up to the bracket behind it. -/
theorem scan_writtenText (text : List WrittenChar) (found : Array Event) (depth : Nat)
    (held : Octets) :
    scan ⟨found, depth, .text held⟩ (Text.Utf8.encode (writtenText text) ++ [octet '<']) =
      ⟨found ++ (textEvents held text).toArray, depth, .markup⟩ := by
  induction text generalizing found held with
  | nil => exact scan_bracket
  | cons w rest ih =>
    rw [writtenText, encode_append, List.append_assoc, scan_append]
    cases w with
    | itself c h => rw [WrittenChar.written, scan_itself h, ih, textEvents]
    | decimal c digits h =>
      rw [WrittenChar.written, scan_written_reference (.decimal h), ih, textEvents]
      simp
    | hexadecimal c digits h =>
      rw [WrittenChar.written, scan_written_reference (.hexadecimal h), ih, textEvents]
      simp

end Scanner

/-! ### Up to a bracket -/

/-- Octets that make the machine recognise events behind characters that are held, up to the bracket
that follows. -/
def EmitsUpTo (depth : Nat) (held octets : Octets) (events : List Event) : Prop :=
  ∀ found : Array Event, Scanner.scan ⟨found, depth, .text held⟩ (octets ++ [octet '<']) =
    ⟨found ++ events.toArray, depth, .markup⟩

namespace EmitsUpTo

variable {depth before after : Nat} {held octets tag : Octets} {events events' : List Event}

theorem nil (depth : Nat) (held : Octets) : EmitsUpTo depth held [] (heldText held) :=
  fun _ => Scanner.scan_bracket

/-- A piece that begins with the bracket. -/
theorem append (h : EmitsUpTo before [] octets events)
    (h' : Emits before after (octet '<' :: tag) events') :
    Emits before after (octets ++ octet '<' :: tag) (events ++ events') := by
  intro found
  have hopen : ∀ found : Array Event, Scanner.scan ⟨found, before, .text []⟩ [octet '<'] =
      ⟨found, before, .markup⟩ := fun _ => rfl
  have htag := h' (found ++ events.toArray)
  rw [← List.singleton_append, Scanner.scan_append, hopen] at htag
  rw [← List.singleton_append, ← List.append_assoc, Scanner.scan_append, h, htag]
  simp

/-- Characters that are held in front of such a piece are an event before it. -/
theorem piece (h : Emits depth depth (octet '<' :: tag) events)
    (h' : EmitsUpTo depth [] octets events') :
    EmitsUpTo depth held (octet '<' :: tag ++ octets) (heldText held ++ (events ++ events')) := by
  intro found
  have hopen : ∀ found : Array Event, Scanner.scan ⟨found, depth, .text []⟩ [octet '<'] =
      ⟨found, depth, .markup⟩ := fun _ => rfl
  have htag := h (found ++ (heldText held).toArray)
  rw [← List.singleton_append, Scanner.scan_append, hopen] at htag
  rw [← List.singleton_append, List.append_assoc, List.append_assoc, Scanner.scan_append,
    Scanner.scan_bracket, Scanner.scan_append, htag, h']
  simp

end EmitsUpTo

/-- **A written text in front of a closing tag.** -/
theorem emits_text (depth : Nat) (text : List WrittenChar) {name : Octets} (h : IsName name) :
    Emits (depth + 1) depth
      (Text.Utf8.encode (writtenText text) ++ closingTag name)
      (textEvents [] text ++ [.closing name]) :=
  EmitsUpTo.append (fun found => Scanner.scan_writtenText text found (depth + 1) [])
    (emits_closing depth h)

namespace StringItem

/-! ### Tags of an item -/

variable {item : StringItem} {tag : Tag}

/-- Outside phonetic runs a text element lets text count. -/
theorem step_opening_text (hitem : item.inPhonetic = false) (h : tag.name = textName) :
    item.step (.opening tag) = ({ item with inText := true }, .more) := by
  have hphonetic : tag.name ≠ phoneticName := h ▸ by decide +kernel
  exact (if_neg hphonetic).trans (if_pos ⟨hitem, h⟩)

/-- In a phonetic run it does not. -/
theorem step_opening_text_of_phonetic (hitem : item.inPhonetic = true) (h : tag.name = textName) :
    item.step (.opening tag) = (item, .more) := by
  have hphonetic : tag.name ≠ phoneticName := h ▸ by decide +kernel
  exact (if_neg hphonetic).trans (if_neg fun hboth => by simp [hitem] at hboth)

theorem step_closing_text (item : StringItem) (hitem : item.element ≠ textName) :
    item.step (.closing textName) = ({ item with inText := false }, .more) := by
  have hphonetic : textName ≠ phoneticName := by decide +kernel
  simp only [step, if_neg hitem.symm, if_neg hphonetic, if_pos]

theorem step_opening_phonetic (h : tag.name = phoneticName) :
    item.step (.opening tag) = ({ item with inPhonetic := true }, .more) :=
  if_pos h

theorem step_closing_phonetic (item : StringItem) (hitem : item.element ≠ phoneticName) :
    item.step (.closing phoneticName) = ({ item with inPhonetic := false }, .more) := by
  simp only [step, if_neg hitem.symm, if_pos]

/-! ### Reading a written text -/

/-- The item with more text. -/
def extended (item : StringItem) (cs : List Char) : StringItem :=
  { item with text := item.text ++ String.ofList cs }

@[simp] theorem extended_nil (item : StringItem) : item.extended [] = item := by
  simp [extended]

theorem extended_extended (item : StringItem) (cs cs' : List Char) :
    (item.extended cs).extended cs' = item.extended (cs ++ cs') := by
  simp [extended, String.append_assoc, String.ofList_append]

theorem contentChars_encode {cs : List Char} (h : ∀ c ∈ cs, Text.isForeignLineEnd c = false) :
    contentChars (Text.Utf8.encode (String.ofList cs)) = .ok cs := by
  rw [contentChars, Text.Utf8.decode_encode]
  simp [Text.unifyLineEnds_of_forall_not h]

theorem passes_heldText {item : StringItem} {held : Octets} {cs : List Char}
    (hitem : item.inText = true) (hheld : held.reverse = Text.Utf8.encode (String.ofList cs))
    (hcs : ∀ c ∈ cs, Text.isForeignLineEnd c = false) :
    reading.Passes item (heldText held) (item.extended cs) := by
  cases held with
  | nil =>
    have hnil : cs = [] := by
      have hdecode := Text.Utf8.decode_encode (String.ofList cs)
      rw [← hheld, List.reverse_nil, Text.Utf8.decode_nil, String.toList_ofList] at hdecode
      exact (Except.ok.inj hdecode).symm
    rw [hnil, extended_nil]
    exact .nil item
  | cons b earlier =>
    have hstep : item.step (.text (b :: earlier).reverse) =
        item.append (contentChars (b :: earlier).reverse) := if_pos hitem
    rw [hheld, contentChars_encode hcs] at hstep
    exact .one (by rw [hheld]; exact hstep)

theorem characterInText_of_spells {radix : Nat} {c : Char} {digits : List Char}
    (hradix : 0 < radix) (h : Numeral.Spells radix c.toNat digits) :
    characterInText radix digits = .ok [c] := by
  have hvalid : c.toNat.isValidChar := c.valid
  have hlt : c.toNat < Nat.pow 2 32 := c.val.toNat_lt
  rw [characterInText, Numeral.read32, h.read hradix hlt]
  dsimp only
  rw [charOfCode?, dif_pos hvalid]
  rfl

/-- A decimal spelling is not taken for a hexadecimal one. -/
theorem resolveInText_decimal {c : Char} {digits : List Char}
    (h : Numeral.Spells 10 c.toNat digits) : resolveInText ('#' :: digits) = .ok [c] := by
  have hx : ∀ rest, digits ≠ 'x' :: rest := by
    rintro rest rfl
    have hvalue := h.value
    rw [Numeral.valueFrom?, show Numeral.digitValue? 10 'x' = none from rfl] at hvalue
    simp at hvalue
  unfold resolveInText
  split
  next rest heq => exact absurd (List.cons_eq_cons.1 heq).2 (hx rest)
  next heq =>
    obtain ⟨-, rfl⟩ := List.cons_eq_cons.1 heq
    exact characterInText_of_spells (by decide) h
  next hno => exact absurd rfl (hno digits)

/-- A reference stands for the character that it refers to. -/
theorem resolveInText_of_refersTo {name : List Char} {c : Char} (h : RefersTo name c) :
    resolveInText name = .ok [c] := by
  cases h with
  | decimal h => exact resolveInText_decimal h
  | hexadecimal h => exact characterInText_of_spells (by decide) h
  | predefined h =>
    have hentities : ∀ e ∈ predefinedEntities, (resolveInText e.1).toOption = some [e.2] := by
      decide
    have hname := hentities _ h
    cases hresolve : resolveInText name with
    | error e => simp [hresolve, Except.toOption] at hname
    | ok cs => simpa [hresolve, Except.toOption] using hname

theorem passes_reference (item : StringItem) {name : List Char} {c : Char}
    (hitem : item.inText = true) (h : RefersTo name c) :
    reading.Passes item [.reference (Text.Utf8.encode (String.ofList name))]
      (item.extended [c]) := by
  have hstep : item.step (.reference (Text.Utf8.encode (String.ofList name))) =
      item.append (contentChars (Text.Utf8.encode (String.ofList name)) >>= resolveInText) :=
    if_pos hitem
  have hbind : (Except.ok name >>= resolveInText) = .ok [c] := resolveInText_of_refersTo h
  rw [contentChars_encode fun d hd => h.isForeignLineEnd hd, hbind] at hstep
  exact .one hstep

/-- A run of characters with a reference behind it. -/
theorem passes_heldText_reference {item : StringItem} {held : Octets} {cs name : List Char}
    {c : Char} (hitem : item.inText = true)
    (hheld : held.reverse = Text.Utf8.encode (String.ofList cs))
    (hcs : ∀ c ∈ cs, Text.isForeignLineEnd c = false) (h : RefersTo name c) :
    reading.Passes item
      (heldText held ++ [.reference (Text.Utf8.encode (String.ofList name))])
      (item.extended (cs ++ [c])) := by
  rw [← extended_extended]
  exact (passes_heldText hitem hheld hcs).append (passes_reference (item.extended cs) hitem h)

/-- A character that stands for itself is held behind the others. -/
theorem held_itself {held : Octets} {cs : List Char} {c : Char}
    (hheld : held.reverse = Text.Utf8.encode (String.ofList cs))
    (hcs : ∀ c ∈ cs, Text.isForeignLineEnd c = false) (h : StandsForItself c) :
    ((String.utf8EncodeChar c).reverse ++ held).reverse =
        Text.Utf8.encode (String.ofList (cs ++ [c])) ∧
      ∀ d ∈ cs ++ [c], Text.isForeignLineEnd d = false := by
  refine ⟨by simp [hheld, Text.Utf8.encode], fun d hd => ?_⟩
  obtain hd | hd := List.mem_append.1 hd
  · exact hcs d hd
  · exact List.mem_singleton.1 hd ▸ h.2.2

/-- **What an item reads of a written text.** -/
theorem passes_textEvents (item : StringItem) (held : Octets) (cs : List Char)
    (hitem : item.inText = true) (hheld : held.reverse = Text.Utf8.encode (String.ofList cs))
    (hcs : ∀ c ∈ cs, Text.isForeignLineEnd c = false) (text : List WrittenChar) :
    reading.Passes item (textEvents held text) (item.extended (cs ++ charsOf text)) := by
  induction text generalizing item held cs with
  | nil => simpa [textEvents, charsOf] using passes_heldText hitem hheld hcs
  | cons w rest ih =>
    have hempty : ([] : Octets).reverse = Text.Utf8.encode (String.ofList []) := rfl
    cases w with
    | itself c h =>
      obtain ⟨hmore, hplain⟩ := held_itself hheld hcs h
      simpa [textEvents, charsOf, WrittenChar.char] using ih item _ _ hitem hmore hplain
    | decimal c digits h =>
      have hrest := (passes_heldText_reference hitem hheld hcs (.decimal h)).append
        (ih (item.extended (cs ++ [c])) [] [] hitem hempty (by simp))
      simpa [textEvents, charsOf, WrittenChar.char, extended_extended] using hrest
    | hexadecimal c digits h =>
      have hrest := (passes_heldText_reference hitem hheld hcs (.hexadecimal h)).append
        (ih (item.extended (cs ++ [c])) [] [] hitem hempty (by simp))
      simpa [textEvents, charsOf, WrittenChar.char, extended_extended] using hrest

end StringItem

end WorkbookTables.Markup
