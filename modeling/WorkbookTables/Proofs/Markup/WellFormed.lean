import Mathlib.Data.List.Infix
import WorkbookTables.Proofs.Markup.SpelledTags

/-!
# Well-formed documents

A document consists of elements, texts, references, character data sections, comments, processing
instructions and document type declarations. Here all of these are written, with no more demanded of
them than that each ends where it should and that every element is closed. In front of the document
there may be a byte order mark.

What a reader of a part wants to know of its document are the elements with certain names. They
divide the events of the document: those of the elements that are outermost among them, and what
stands before, between and behind them, in which no tag has one of the names.

## What is deliberately absent

Entities that a document type declaration declares are of no concern, because nothing here depends
on what a reference in a text means. The brackets of such a declaration must nest. One root element
is not asked for, and neither is it that the declarations stand in front of it.

## Main definitions

* `Forest` — what a document consists of, with `Forest.octets` and `Forest.events`
* `Element`, `Forest.outermost` — the outermost elements with some names
* `Forest.tagsNamed` — the tags with a name, at any depth
* `Parts` — events that are divided by elements

## Main results

* `Forest.ofOctets_eq` — the events of a well-formed document
* `Forest.parts_events` — the outermost elements divide them
* `Forest.openingsNamed_events` — the tags of a name among them
-/

namespace WorkbookTables.Markup

/-! ### Markup without tags -/

namespace Scanner

variable {found : Array Event} {depth : Nat}

/-- In a mode in which octets are only held as long as something has not been held, they are held
one behind the other. -/
theorem scan_held_while (mode : Octets → Mode) {octets : Octets} (held : Octets)
    (h : ∀ earlier b, earlier ++ [b] <+: octets →
      step ⟨found, depth, mode (earlier.reverse ++ held)⟩ b =
        ⟨found, depth, mode (b :: (earlier.reverse ++ held))⟩) :
    scan ⟨found, depth, mode held⟩ octets = ⟨found, depth, mode (octets.reverse ++ held)⟩ := by
  induction octets generalizing held with
  | nil => rfl
  | cons b rest ih =>
    have hfirst : step ⟨found, depth, mode held⟩ b = ⟨found, depth, mode (b :: held)⟩ :=
      h [] b (List.cons_prefix_cons.2 ⟨rfl, List.nil_prefix⟩)
    have hrest := ih (b :: held) fun earlier c hfront => by
      simpa using h (b :: earlier) c (List.cons_prefix_cons.2 ⟨rfl, hfront⟩)
    rw [scan, List.foldl_cons, hfirst]
    simpa [scan] using hrest

/-- Two octets at the end of what is held, if at least two have been held since. -/
theorem isSuffix_of_endsWithTwo {earlier held : Octets} {x y : UInt8} (hlength : 2 ≤ earlier.length)
    (h : endsWithTwo (earlier.reverse ++ held) x y = true) : [x, y] <:+ earlier := by
  generalize hreverse : earlier.reverse = reversed at h
  have hearlier : earlier = reversed.reverse := by rw [← hreverse, List.reverse_reverse]
  rw [hearlier, List.length_reverse] at hlength
  match reversed with
  | [] => simp at hlength
  | [_] => simp at hlength
  | last :: previous :: rest =>
    obtain ⟨rfl, rfl⟩ : previous = x ∧ last = y := by simpa [endsWithTwo] using h
    exact ⟨rest.reverse, by simp [hearlier]⟩

/-- A suffix with an octet behind it. -/
theorem isInfix_of_isSuffix {stop earlier octets : Octets} {b : UInt8} (h : stop <:+ earlier)
    (hfront : earlier ++ [b] <+: octets) : stop ++ [b] <:+: octets := by
  obtain ⟨before, rfl⟩ := h
  obtain ⟨behind, rfl⟩ := hfront
  exact ⟨before, behind, by simp⟩

end Scanner

open Scanner

/-- A comment. -/
def commentOf (content : Octets) : Octets :=
  octet '<' :: (Text.Utf8.encode "!--" ++ (content ++ Text.Utf8.encode "-->"))

/-- **A comment**, in which there is no second hyphen behind a hyphen. -/
theorem emits_comment {content : Octets} (h : ¬Text.Utf8.encode "--" <:+: content) (depth : Nat) :
    Emits depth depth (commentOf content) [.aside] := by
  intro found
  have hopen : scan ⟨found, depth, .text []⟩ (Text.Utf8.encode "<!--") =
      ⟨found, depth, .comment [octet '-', octet '-']⟩ := rfl
  have hcontent : scan ⟨found, depth, .comment [octet '-', octet '-']⟩ content =
      ⟨found, depth, .comment (content.reverse ++ [octet '-', octet '-'])⟩ := by
    refine scan_held_while .comment _ fun earlier b hfront => ?_
    have hnot : ¬(b = octet '>' ∧ 4 ≤ (earlier.reverse ++ [octet '-', octet '-']).length ∧
        endsWithTwo (earlier.reverse ++ [octet '-', octet '-']) (octet '-') (octet '-')) := by
      rintro ⟨-, hlength, hends⟩
      have hsuffix := isSuffix_of_endsWithTwo (by simpa using hlength) hends
      exact h (hsuffix.isInfix.trans ((List.prefix_append _ _).trans hfront).isInfix)
    rw [step]
    exact if_neg hnot
  have hclose (held : Octets) (hlength : 2 ≤ held.length) :
      scan ⟨found, depth, .comment held⟩ (Text.Utf8.encode "-->") =
        endComment ⟨found, depth, .comment (octet '-' :: octet '-' :: held)⟩
          (octet '-' :: octet '-' :: held) := by
    have hdashes : scan ⟨found, depth, .comment held⟩ [octet '-', octet '-'] =
        ⟨found, depth, .comment (octet '-' :: octet '-' :: held)⟩ := rfl
    have hsplit : Text.Utf8.encode "-->" = [octet '-', octet '-'] ++ [octet '>'] := by decide
    rw [hsplit, scan_append, hdashes]
    exact if_pos ⟨rfl, by simpa using hlength, rfl⟩
  have hstart : commentStart.isPrefixOf
      (octet '-' :: octet '-' :: (content.reverse ++ [octet '-', octet '-'])).reverse = true := by
    rw [List.isPrefixOf_iff_prefix, show commentStart = [octet '-', octet '-'] from rfl]
    exact ⟨content ++ [octet '-', octet '-'], by simp⟩
  have hsplit : commentOf content =
      Text.Utf8.encode "<!--" ++ (content ++ Text.Utf8.encode "-->") := rfl
  rw [hsplit, scan_append, hopen, scan_append, hcontent, hclose _ (by simp), endComment,
    if_pos hstart]
  simp [emit]

/-- A processing instruction. -/
def instructionOf (content : Octets) : Octets :=
  octet '<' :: (octet '?' :: (content ++ [octet '?', octet '>']))

/-- **A processing instruction**, which does not begin with a bracket and in which no bracket stands
behind a question mark. -/
theorem emits_instruction {content : Octets} (hfirst : octet '>' ∉ content.head?)
    (h : ¬[octet '?', octet '>'] <:+: content) (depth : Nat) :
    Emits depth depth (instructionOf content) [.aside] := by
  intro found
  have hopen : scan ⟨found, depth, .text []⟩ [octet '<', octet '?'] =
      ⟨found, depth, .instruction []⟩ := rfl
  have hcontent : scan ⟨found, depth, .instruction []⟩ content =
      ⟨found, depth, .instruction (content.reverse ++ [])⟩ := by
    refine scan_held_while .instruction _ fun earlier b hfront => ?_
    rw [List.append_nil, step]
    by_cases hb : b = octet '>'
    · obtain rfl | ⟨previous, last, rfl⟩ := List.eq_nil_or_concat earlier
      · obtain ⟨behind, rfl⟩ := hfront
        exact absurd (by simp [hb]) hfirst
      · have hlast : last ≠ octet '?' := by
          rintro rfl
          rw [List.concat_eq_append] at hfront
          exact h (hb ▸ isInfix_of_isSuffix (List.suffix_append _ _) hfront)
        simp [hb, hlast, continueWith]
    · exact if_neg hb
  have hclose (held : Octets) : scan ⟨found, depth, .instruction held⟩ [octet '?', octet '>'] =
      ⟨found.push .aside, depth, .text []⟩ := rfl
  have hsplit : instructionOf content =
      [octet '<', octet '?'] ++ (content ++ [octet '?', octet '>']) := rfl
  rw [hsplit, scan_append, hopen, scan_append, hcontent, hclose]
  simp

/-- A character data section. -/
def characterDataOf (content : Octets) : Octets :=
  octet '<' :: (octet '!' :: (characterDataStart ++ (content ++ Text.Utf8.encode "]]>")))

/-- **A character data section**, in which no bracket closes it. -/
theorem emits_characterData {content : Octets} (h : ¬Text.Utf8.encode "]]>" <:+: content)
    (depth : Nat) : Emits depth depth (characterDataOf content) [.characterData content] := by
  intro found
  have hopen : scan ⟨found, depth, .text []⟩ (octet '<' :: octet '!' :: characterDataStart) =
      ⟨found, depth, .characterData characterDataStart.reverse⟩ := rfl
  have hcontent : scan ⟨found, depth, .characterData characterDataStart.reverse⟩ content =
      ⟨found, depth, .characterData (content.reverse ++ characterDataStart.reverse)⟩ := by
    refine scan_held_while .characterData _ fun earlier b hfront => ?_
    have hnot : ¬(b = octet '>' ∧
        endsWithTwo (earlier.reverse ++ characterDataStart.reverse) (octet ']') (octet ']')) := by
      rintro ⟨rfl, hends⟩
      match earlier with
      | [] => exact absurd hends (by decide)
      | [b] =>
        have hboth : (octet '[' == octet ']' && b == octet ']') = true := hends
        exact absurd (Bool.and_eq_true_iff.1 hboth).1 (by decide)
      | first :: second :: rest =>
        have hsuffix := isSuffix_of_endsWithTwo (by simp) hends
        exact h (isInfix_of_isSuffix hsuffix hfront)
    rw [step]
    exact if_neg hnot
  have hclose (held : Octets) : scan ⟨found, depth, .characterData held⟩ (Text.Utf8.encode "]]>") =
      endCharacterData ⟨found, depth, .characterData (octet ']' :: octet ']' :: held)⟩ held := rfl
  have hsplit : characterDataOf content = (octet '<' :: octet '!' :: characterDataStart) ++
      (content ++ Text.Utf8.encode "]]>") := rfl
  have hreverse : (content.reverse ++ characterDataStart.reverse).reverse =
      characterDataStart ++ content := by simp
  rw [hsplit, scan_append, hopen, scan_append, hcontent, hclose, endCharacterData, hreverse,
    if_pos (List.isPrefixOf_iff_prefix.2 (List.prefix_append _ _)), List.drop_left]
  simp [emit]

/-- Octets whose angle brackets nest. -/
inductive BracketsNest : Octets → Prop where
  /-- There are none. -/
  | nil : BracketsNest []
  /-- An octet that is no bracket. -/
  | plain {b : UInt8} {rest : Octets} (hopening : b ≠ octet '<') (hclosing : b ≠ octet '>')
    (hrest : BracketsNest rest) : BracketsNest (b :: rest)
  /-- Octets between two brackets. -/
  | nested {inner rest : Octets} (hinner : BracketsNest inner) (hrest : BracketsNest rest) :
    BracketsNest (octet '<' :: (inner ++ octet '>' :: rest))

/-- A document type declaration. -/
def documentTypeOf (content : Octets) : Octets :=
  octet '<' :: (octet '!' :: (documentTypeStart ++ (content ++ [octet '>'])))

theorem scan_bracketsNest {content : Octets} (h : BracketsNest content) (found : Array Event)
    (depth : Nat) (held : Octets) (nested : Nat) :
    scan ⟨found, depth, .documentType held nested⟩ content =
      ⟨found, depth, .documentType (content.reverse ++ held) nested⟩ := by
  induction h generalizing held nested with
  | nil => rfl
  | @plain b rest hopening hclosing _ ih =>
    have hstep : step ⟨found, depth, .documentType held nested⟩ b =
        ⟨found, depth, .documentType (b :: held) nested⟩ := by
      simp [step, hopening, hclosing, continueWith]
    have hrest := ih (b :: held) nested
    rw [scan, List.foldl_cons, hstep]
    simpa [scan] using hrest
  | @nested inner rest _ _ ihInner ihRest =>
    have hopen : scan ⟨found, depth, .documentType held nested⟩ [octet '<'] =
        ⟨found, depth, .documentType (octet '<' :: held) (nested + 1)⟩ := rfl
    have hclose (held : Octets) : scan ⟨found, depth, .documentType held (nested + 1)⟩ [octet '>'] =
        ⟨found, depth, .documentType (octet '>' :: held) nested⟩ := rfl
    have hsplit : octet '<' :: (inner ++ octet '>' :: rest) =
        [octet '<'] ++ (inner ++ ([octet '>'] ++ rest)) := rfl
    rw [hsplit, scan_append, hopen, scan_append, ihInner, scan_append, hclose, ihRest]
    simp

/-- **A document type declaration**, which names something and whose brackets nest. -/
theorem emits_documentType {content : Octets} (hnamed : ∃ b ∈ content, isSpace b = false)
    (h : BracketsNest content) (depth : Nat) :
    Emits depth depth (documentTypeOf content) [.aside] := by
  intro found
  have hopen : scan ⟨found, depth, .text []⟩ (octet '<' :: octet '!' :: documentTypeStart) =
      ⟨found, depth, .documentType documentTypeStart.reverse 0⟩ := rfl
  have hclose (held : Octets) : scan ⟨found, depth, .documentType held 0⟩ [octet '>'] =
      endDocumentType ⟨found, depth, .documentType held 0⟩ held := rfl
  have hsplit : documentTypeOf content = (octet '<' :: octet '!' :: documentTypeStart) ++
      (content ++ [octet '>']) := rfl
  have hreverse : (content.reverse ++ documentTypeStart.reverse).reverse =
      documentTypeStart ++ content := by simp
  have hstart : documentTypeStart.isPrefixOf ((documentTypeStart ++ content).map upper) = true := by
    rw [List.map_append, List.isPrefixOf_iff_prefix]
    exact List.prefix_append _ _
  have hspace : ¬content.all isSpace = true := by
    obtain ⟨b, hb, hnot⟩ := hnamed
    exact fun hall => by simp [List.all_eq_true.1 hall b hb] at hnot
  rw [hsplit, scan_append, hopen, scan_append, scan_bracketsNest h, hclose, endDocumentType,
    hreverse, if_pos hstart, List.drop_left, if_neg hspace]
  simp [emit]

/-! ### References -/

/-- Octets that neither end a reference nor are refused in it. -/
def IsReferenceName (name : Octets) : Prop :=
  octet ';' ∉ name ∧ octet '<' ∉ name ∧ octet '&' ∉ name

/-- **A reference** ends the characters that are held. -/
theorem EmitsUpTo.reference {depth : Nat} {held name octets : Octets} {events : List Event}
    (h : IsReferenceName name) (h' : EmitsUpTo depth [] octets events) :
    EmitsUpTo depth held (octet '&' :: (name ++ octet ';' :: octets))
      (heldText held ++ .reference name :: events) := by
  intro found
  have hopen : scan ⟨found, depth, .text held⟩ [octet '&'] =
      endText ⟨found, depth, .text held⟩ held (.reference []) := rfl
  have hclose (found : Array Event) (held : Octets) :
      scan ⟨found, depth, .reference held⟩ [octet ';'] =
        ⟨found.push (.reference held.reverse), depth, .text []⟩ := rfl
  have hsplit : octet '&' :: (name ++ octet ';' :: octets) ++ [octet '<'] =
      [octet '&'] ++ (name ++ ([octet ';'] ++ (octets ++ [octet '<']))) := by simp
  rw [hsplit, scan_append, hopen, endText_eq, scan_append, scan_reference h.1 h.2.1 h.2.2,
    scan_append, hclose, h']
  simp

/-! ### Ends of documents -/

/-- Only behind text a bracket begins markup. -/
theorem exists_text_of_bracket {s : Scanner} (h : (s.step (octet '<')).mode = .markup) :
    ∃ held, s.mode = .text held := by
  obtain ⟨found, depth, mode⟩ := s
  cases mode with
  | text held => exact ⟨held, rfl⟩
  | opening held quote =>
    have hopen : octet '<' ≠ octet '>' := by decide
    simp [step, continueWith, hopen] at h
  | closing held quote =>
    have hopen : octet '<' ≠ octet '>' := by decide
    simp [step, continueWith, hopen] at h
  | _ => cases h

/-- **Octets up to a bracket are a document** if the bracket does not come. -/
theorem EmitsUpTo.ofOctets_eq {octets content : Octets} {events : List Event}
    (h : EmitsUpTo 0 [] content events) (hcontent : dropByteOrderMark octets = content) :
    Document.ofOctets octets = ⟨events, none⟩ := by
  have hall := h #[]
  rw [scan_append] at hall
  obtain ⟨held, hmode⟩ := exists_text_of_bracket (s := scan ⟨#[], 0, .text []⟩ content) (by
    rw [show step _ _ = scan _ [octet '<'] from rfl, hall])
  rw [Document.ofOctets, hcontent, start]
  generalize scan ⟨#[], 0, .text []⟩ content = s at hall hmode ⊢
  obtain ⟨found, depth, mode⟩ := s
  obtain rfl : mode = .text held := hmode
  rw [scan_bracket] at hall
  have hevents : found.toList ++ heldText held = events := by
    simpa using congrArg (·.events.toList) hall
  rw [← hevents]
  cases held with
  | nil => simp [document, faultAtEnd, heldText]
  | cons b earlier => rfl

/-! ### Forests -/

/-- What a document or an element consists of. -/
inductive Forest where
  /-- Nothing. -/
  | nothing
  /-- Characters, and what stands behind them. -/
  | characters (octets : Octets) (h : octet '<' ∉ octets) (h' : octet '&' ∉ octets)
    (behind : Forest)
  /-- A reference, and what stands behind it. -/
  | reference (name : Octets) (h : IsReferenceName name) (behind : Forest)
  /-- A character data section, and what stands behind it. -/
  | characterData (content : Octets) (h : ¬Text.Utf8.encode "]]>" <:+: content) (behind : Forest)
  /-- A comment, and what stands behind it. -/
  | comment (content : Octets) (h : ¬Text.Utf8.encode "--" <:+: content) (behind : Forest)
  /-- A processing instruction, and what stands behind it. -/
  | instruction (content : Octets) (hfirst : octet '>' ∉ content.head?)
    (h : ¬[octet '?', octet '>'] <:+: content) (behind : Forest)
  /-- A document type declaration, and what stands behind it. -/
  | documentType (content : Octets) (hnamed : ∃ b ∈ content, isSpace b = false)
    (h : BracketsNest content) (behind : Forest)
  /-- An element that is one tag, and what stands behind it. -/
  | single (tag : SpelledTag) (behind : Forest)
  /-- An element with a content of its own, and what stands behind it. -/
  | element (tag : SpelledTag) (inner : Forest) (space : Octets)
    (hspace : ∀ b ∈ space, isSpace b = true) (behind : Forest)

/-- An element. -/
structure Element where
  /-- The tag with which it begins. -/
  tag : SpelledTag
  /-- What stands in it. -/
  inner : Forest

namespace Forest

/-- How it is written. -/
def octets : Forest → Octets
  | nothing => []
  | characters os _ _ behind => os ++ behind.octets
  | reference name _ behind => octet '&' :: (name ++ octet ';' :: behind.octets)
  | characterData content _ behind => characterDataOf content ++ behind.octets
  | comment content _ behind => commentOf content ++ behind.octets
  | instruction content _ _ behind => instructionOf content ++ behind.octets
  | documentType content _ _ behind => documentTypeOf content ++ behind.octets
  | single tag behind => emptyTagOf tag.name tag.rest ++ behind.octets
  | element tag inner space _ behind =>
    tagOf tag.name tag.rest ++ (inner.octets ++ spacedClosing tag.name space) ++ behind.octets

/-- Its events behind characters that are held. -/
def events (held : Octets) : Forest → List Event
  | nothing => heldText held
  | characters os _ _ behind => behind.events (os.reverse ++ held)
  | reference name _ behind => heldText held ++ .reference name :: behind.events []
  | characterData content _ behind =>
    heldText held ++ ([.characterData content] ++ behind.events [])
  | comment _ _ behind => heldText held ++ ([.aside] ++ behind.events [])
  | instruction _ _ _ behind => heldText held ++ ([.aside] ++ behind.events [])
  | documentType _ _ _ behind => heldText held ++ ([.aside] ++ behind.events [])
  | single tag behind =>
    heldText held ++ ([.opening tag.tag, .closing tag.name] ++ behind.events [])
  | element tag inner _ _ behind =>
    heldText held ++ ([.opening tag.tag] ++ (inner.events [] ++ [.closing tag.name]) ++
      behind.events [])

/-- **The events of a forest**, up to the bracket behind it. -/
theorem emitsUpTo_events (forest : Forest) (depth : Nat) (held : Octets) :
    EmitsUpTo depth held forest.octets (forest.events held) := by
  induction forest generalizing depth held with
  | nothing => exact .nil depth held
  | characters os h h' behind ih =>
    intro found
    rw [octets, List.append_assoc, scan_append, scan_text h h']
    exact ih depth (os.reverse ++ held) found
  | reference name h behind ih => exact .reference h (ih depth [])
  | characterData content h behind ih => exact .piece (emits_characterData h depth) (ih depth [])
  | comment content h behind ih => exact .piece (emits_comment h depth) (ih depth [])
  | instruction content hfirst h behind ih =>
    exact .piece (emits_instruction hfirst h depth) (ih depth [])
  | documentType content hnamed h behind ih =>
    exact .piece (emits_documentType hnamed h depth) (ih depth [])
  | single tag behind ih =>
    exact .piece (emits_emptyTagOf tag.isElementName tag.rest depth) (ih depth [])
  | element tag inner space hspace behind ihInner ihBehind =>
    have hinner := EmitsUpTo.append (ihInner (depth + 1) [])
      (tag.isElementName.emits_spacedClosing hspace depth)
    exact .piece ((emits_tagOf tag.isElementName tag.rest depth).append hinner) (ihBehind depth [])

/-- **The events of a well-formed document**, with a byte order mark in front of it or without. -/
theorem ofOctets_eq {octets : Octets} {forest : Forest}
    (h : dropByteOrderMark octets = forest.octets) :
    Document.ofOctets octets = ⟨forest.events [], none⟩ :=
  (forest.emitsUpTo_events 0 []).ofOctets_eq h

/-! ### Elements with certain names -/

/-- The outermost elements with some names, in order. -/
def outermost (names : List Octets) : Forest → List Element
  | nothing => []
  | characters _ _ _ behind => behind.outermost names
  | reference _ _ behind => behind.outermost names
  | characterData _ _ behind => behind.outermost names
  | comment _ _ behind => behind.outermost names
  | instruction _ _ _ behind => behind.outermost names
  | documentType _ _ _ behind => behind.outermost names
  | single tag behind =>
    if tag.name ∈ names then ⟨tag, nothing⟩ :: behind.outermost names else behind.outermost names
  | element tag inner _ _ behind =>
    if tag.name ∈ names then ⟨tag, inner⟩ :: behind.outermost names
    else inner.outermost names ++ behind.outermost names

/-- The tags with a name, at any depth and in order. -/
def tagsNamed (name : Octets) : Forest → List SpelledTag
  | nothing => []
  | characters _ _ _ behind => behind.tagsNamed name
  | reference _ _ behind => behind.tagsNamed name
  | characterData _ _ behind => behind.tagsNamed name
  | comment _ _ behind => behind.tagsNamed name
  | instruction _ _ _ behind => behind.tagsNamed name
  | documentType _ _ _ behind => behind.tagsNamed name
  | single tag behind => (if tag.name = name then [tag] else []) ++ behind.tagsNamed name
  | element tag inner _ _ behind =>
    (if tag.name = name then [tag] else []) ++ inner.tagsNamed name ++ behind.tagsNamed name

end Forest

/-- The events of an element. -/
def Element.events (e : Element) : List Event :=
  [.opening e.tag.tag] ++ (e.inner.events [] ++ [.closing e.tag.name])

/-- The tags with a name that open an element. -/
def openingsNamed (name : Octets) (events : List Event) : List Tag :=
  events.filterMap fun
    | .opening tag => if tag.name = name then some tag else none
    | _ => none

theorem openingsNamed_append (name : Octets) (first second : List Event) :
    openingsNamed name (first ++ second) =
      openingsNamed name first ++ openingsNamed name second :=
  List.filterMap_append

theorem openingsNamed_heldText (name held : Octets) : openingsNamed name (heldText held) = [] := by
  cases held <;> rfl

theorem openingsNamed_tag (name : Octets) (tag : SpelledTag) :
    openingsNamed name [.opening tag.tag] =
      (if tag.name = name then [tag] else []).map (·.tag) := by
  by_cases hname : tag.name = name <;> simp [openingsNamed, tag.name_tag, hname]

/-- **The tags of a name among the events.** -/
theorem Forest.openingsNamed_events (name : Octets) (forest : Forest) (held : Octets) :
    openingsNamed name (forest.events held) = (forest.tagsNamed name).map (·.tag) := by
  have hpass (held : Octets) (e : Event) (behind : List Event) (h : openingsNamed name [e] = []) :
      openingsNamed name (heldText held ++ ([e] ++ behind)) = openingsNamed name behind := by
    rw [openingsNamed_append, openingsNamed_append, openingsNamed_heldText, h]
    rfl
  induction forest generalizing held with
  | nothing => exact openingsNamed_heldText name held
  | characters os h h' behind ih => exact ih (os.reverse ++ held)
  | reference _ h behind ih => exact (hpass held _ _ rfl).trans (ih [])
  | characterData content h behind ih => exact (hpass held _ _ rfl).trans (ih [])
  | comment content h behind ih => exact (hpass held _ _ rfl).trans (ih [])
  | instruction content hfirst h behind ih => exact (hpass held _ _ rfl).trans (ih [])
  | documentType content hnamed h behind ih => exact (hpass held _ _ rfl).trans (ih [])
  | single tag behind ih =>
    have hsplit : [Event.opening tag.tag, .closing tag.name] =
        [Event.opening tag.tag] ++ [.closing tag.name] := rfl
    rw [events, hsplit, openingsNamed_append, openingsNamed_append, openingsNamed_append,
      openingsNamed_heldText, openingsNamed_tag, ih, tagsNamed, List.map_append,
      show openingsNamed name [.closing tag.name] = [] from rfl, List.nil_append, List.append_nil]
  | element tag inner space hspace behind ihInner ihBehind =>
    rw [events, openingsNamed_append, openingsNamed_append, openingsNamed_append,
      openingsNamed_append, openingsNamed_heldText, openingsNamed_tag, ihInner, ihBehind, tagsNamed,
      List.map_append, List.map_append,
      show openingsNamed name [.closing tag.name] = [] from rfl, List.nil_append, List.append_nil]

/-! ### Events that elements divide -/

/-- Events with elements of some names in them, between which no tag has one of the names. -/
inductive Parts (names : List Octets) : List Event → List Element → Prop where
  /-- No element. -/
  | gap {events : List Event} (h : ∀ e ∈ events, e.Spares names) : Parts names events []
  /-- What stands before the first element, the element, and what stands behind it. -/
  | element {before behind : List Event} {first : Element} {elements : List Element}
    (h : ∀ e ∈ before, e.Spares names) (hname : first.tag.name ∈ names)
    (hbehind : Parts names behind elements) :
    Parts names (before ++ (first.events ++ behind)) (first :: elements)

namespace Parts

variable {names : List Octets} {first second events : List Event}
  {elements elements' : List Element}

theorem spares (h : Parts names events []) : ∀ e ∈ events, e.Spares names := by
  cases h with
  | gap h => exact h

/-- The first element, with what stands before it and what stands behind it. -/
theorem exists_of_cons {first : Element} (h : Parts names events (first :: elements)) :
    ∃ before behind, events = before ++ (first.events ++ behind) ∧
      (∀ e ∈ before, e.Spares names) ∧ Parts names behind elements := by
  cases h with
  | element h _ hbehind => exact ⟨_, _, rfl, h, hbehind⟩

/-- Events without tags of the names change nothing in front of others. -/
theorem gap_append (h : ∀ e ∈ first, e.Spares names) (h' : Parts names second elements) :
    Parts names (first ++ second) elements := by
  cases h' with
  | gap h' => exact .gap fun e he => (List.mem_append.1 he).elim (h e) (h' e)
  | element h' hname hbehind =>
    rw [← List.append_assoc]
    exact .element (fun e he => (List.mem_append.1 he).elim (h e) (h' e)) hname hbehind

/-- Events one behind the other. -/
theorem append (h : Parts names first elements) (h' : Parts names second elements') :
    Parts names (first ++ second) (elements ++ elements') := by
  induction h with
  | gap h => exact gap_append h h'
  | element h hname _ ih =>
    rw [List.append_assoc, List.append_assoc]
    exact .element h hname ih

end Parts

/-- **The outermost elements divide the events.** -/
theorem Forest.parts_events (names : List Octets) (forest : Forest) (held : Octets) :
    Parts names (forest.events held) (forest.outermost names) := by
  have hheld (held : Octets) : ∀ e ∈ heldText held, e.Spares names :=
    fun _ he => Content.spares_of_mem_heldText he
  have hone {e : Event} (he : e.Spares names) : ∀ e' ∈ [e], e'.Spares names :=
    List.forall_mem_singleton.2 he
  have hopening {tag : SpelledTag} (h : tag.name ∉ names) :
      (Event.opening tag.tag).Spares names := by
    rwa [Event.Spares, tag.name_tag]
  have hpass {held : Octets} {e : Event} {behind : List Event} {elements : List Element}
      (he : e.Spares names) (h : Parts names behind elements) :
      Parts names (heldText held ++ ([e] ++ behind)) elements :=
    .gap_append (hheld held) (.gap_append (hone he) h)
  induction forest generalizing held with
  | nothing => exact .gap (hheld held)
  | characters os h h' behind ih => exact ih (os.reverse ++ held)
  | reference name h behind ih => exact hpass trivial (ih [])
  | characterData content h behind ih => exact hpass trivial (ih [])
  | comment content h behind ih => exact hpass trivial (ih [])
  | instruction content hfirst h behind ih => exact hpass trivial (ih [])
  | documentType content hnamed h behind ih => exact hpass trivial (ih [])
  | single tag behind ih =>
    rw [events, outermost]
    split
    next hname =>
      have hparts : Parts names (heldText held ++ (Element.events ⟨tag, nothing⟩ ++
          behind.events [])) (⟨tag, nothing⟩ :: behind.outermost names) :=
        .element (hheld held) hname (ih [])
      exact hparts
    next hname =>
      have htag : ∀ e ∈ [Event.opening tag.tag, .closing tag.name], e.Spares names :=
        List.forall_mem_cons.2 ⟨hopening hname, hone hname⟩
      exact .gap_append (hheld held) (.gap_append htag (ih []))
  | element tag inner space hspace behind ihInner ihBehind =>
    rw [events, outermost]
    split
    next hname =>
      have hparts : Parts names (heldText held ++ (Element.events ⟨tag, inner⟩ ++
          behind.events [])) (⟨tag, inner⟩ :: behind.outermost names) :=
        .element (hheld held) hname (ihBehind [])
      exact hparts
    next hname =>
      have hclosing : (Event.closing tag.name).Spares names := hname
      have hclosed := (ihInner []).append (.gap (hone hclosing))
      rw [List.append_nil] at hclosed
      exact .gap_append (hheld held)
        (.append (.gap_append (hone (hopening hname)) hclosed) (ihBehind []))

end WorkbookTables.Markup
