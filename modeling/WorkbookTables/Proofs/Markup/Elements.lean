import WorkbookTables.Proofs.Markup.WrittenText

/-!
# Elements and what stands in them

A part of a workbook holds much that a reader passes over: attributes that it does not look at and
elements that it does not know. Here they are written in full generality, so that what is proved
about a reader does not depend on them. Of a tag only the name is fixed; behind it stand any octets
with closed quotes. Of the content of an element only the names of the elements in it are of
interest, at any depth.

Nothing in such a content mentions a name that none of its elements has, which is all that a reader
which waits for certain names needs to know of its events.

## Main definitions

* `TagRest` — what stands in a tag behind the name
* `tagOf`, `emptyTagOf` — tags with a name and what stands behind it
* `Content` — elements and characters
* `Content.Lacks`, `Event.Spares` — no element, and no tag, has one of some names
* `Reading.Reads` — octets that a reading goes through

## Main results

* `Content.emitsUpTo_events` — the events of a content
* `Content.spares_of_mem_events` — they spare the names that the content lacks
-/

namespace WorkbookTables.Markup

/-! ### Tags -/

/-- What stands in a tag behind the name: nothing, or octets that begin with a space. -/
structure TagRest where
  /-- The octets. -/
  octets : Octets
  /-- The first one ends the name. -/
  begins : ∀ b ∈ octets.head?, isSpace b = true
  /-- Every quote is closed. -/
  quotes : QuotesClose octets
  /-- The last one does not make the tag a whole element. -/
  ends : octet '/' ∉ octets.getLast?

/-- A tag without attributes. -/
def TagRest.nothing : TagRest := ⟨[], by simp, .nil, by simp⟩

/-- What stands in a tag. -/
def tagContent (name : Octets) (rest : TagRest) : Octets := name ++ rest.octets

/-- A tag that opens an element. -/
def tagOf (name : Octets) (rest : TagRest) : Octets :=
  octet '<' :: tagContent name rest ++ [octet '>']

/-- A tag that is a whole element. -/
def emptyTagOf (name : Octets) (rest : TagRest) : Octets :=
  octet '<' :: tagContent name rest ++ [octet '/', octet '>']

section Tags

variable {name : Octets}

theorem name_tagContent (h : IsElementName name) (rest : TagRest) :
    (⟨tagContent name rest⟩ : Tag).name = name := by
  have hname : ∀ b ∈ name, (!isSpace b) = true := fun b hb => by
    rw [isSpace_of_notMem (h.notMem b hb)]
    rfl
  rw [Tag.name, tagContent, List.takeWhile_append_of_pos hname]
  cases hoctets : rest.octets with
  | nil => simp
  | cons b octets =>
    have hspace : isSpace b = true := rest.begins b (by simp [hoctets])
    rw [List.takeWhile_cons_of_neg (by simp [hspace]), List.append_nil]

/-- The octets of a tag, of which there is a first one, are as a tag needs them. -/
theorem exists_tagContent_eq (h : IsElementName name) (rest : TagRest) :
    ∃ first content, tagContent name rest = first :: content ∧ Scanner.IsTagStart first ∧
      QuotesClose (first :: content) ∧ octet '/' ∉ (first :: content).getLast? := by
  obtain ⟨first, others, hname⟩ := List.exists_cons_of_ne_nil h.ne_nil
  have hcontent : tagContent name rest = first :: (others ++ rest.octets) := by
    rw [tagContent, hname, List.cons_append]
  have hfirst : first ∉ nameBreaks := h.notMem first (by simp [hname])
  refine ⟨first, others ++ rest.octets, hcontent, ?_, ?_, ?_⟩
  · refine ⟨?_, ?_, ?_⟩ <;> rintro rfl <;> exact hfirst (by decide +kernel)
  · rw [← hcontent, tagContent]
    exact (QuotesClose.of_forall fun b hb => h.isQuiet hb).append rest.quotes
  · rw [← hcontent, tagContent, List.getLast?_append]
    cases hlast : rest.octets.getLast? with
    | some last => simpa [hlast] using rest.ends
    | none =>
      rw [Option.none_or]
      exact fun hmem => h.notMem _ (List.mem_of_getLast? hmem) (by decide +kernel)

/-- **A tag that opens an element.** -/
theorem emits_tagOf (h : IsElementName name) (rest : TagRest) (depth : Nat) :
    Emits depth (depth + 1) (tagOf name rest) [.opening ⟨tagContent name rest⟩] := by
  obtain ⟨first, content, hcontent, hfirst, hquotes, hlast⟩ := exists_tagContent_eq h rest
  rw [tagOf, hcontent]
  exact emits_tag hfirst hquotes hlast depth

/-- **A tag that is a whole element.** -/
theorem emits_emptyTagOf (h : IsElementName name) (rest : TagRest) (depth : Nat) :
    Emits depth depth (emptyTagOf name rest)
      [.opening ⟨tagContent name rest⟩, .closing name] := by
  obtain ⟨first, content, hcontent, hfirst, hquotes, -⟩ := exists_tagContent_eq h rest
  have hname := name_tagContent h rest
  rw [hcontent] at hname
  rw [emptyTagOf, hcontent, ← hname]
  exact emits_emptyTag hfirst hquotes depth

end Tags

/-! ### Contents -/

/-- What stands in an element: other elements, and characters between them. -/
inductive Content where
  /-- Nothing. -/
  | nothing
  /-- Characters, and what stands behind them. -/
  | characters (octets : Octets) (h : octet '<' ∉ octets) (h' : octet '&' ∉ octets)
    (behind : Content)
  /-- An element that is one tag, and what stands behind it. -/
  | single (name : Octets) (h : IsElementName name) (rest : TagRest) (behind : Content)
  /-- An element with a content of its own, and what stands behind it. -/
  | element (name : Octets) (h : IsElementName name) (rest : TagRest) (inner behind : Content)

/-- The event is no tag with one of the names. -/
def Event.Spares (names : List Octets) (e : Event) : Prop :=
  match e with
  | .opening tag => tag.name ∉ names
  | .closing name => name ∉ names
  | _ => True

namespace Content

/-- How it is written. -/
def octets : Content → Octets
  | nothing => []
  | characters os _ _ behind => os ++ behind.octets
  | single name _ rest behind => emptyTagOf name rest ++ behind.octets
  | element name _ rest inner behind =>
    tagOf name rest ++ (inner.octets ++ closingTag name) ++ behind.octets

/-- No element in it has one of the names. -/
def Lacks (names : List Octets) : Content → Prop
  | nothing => True
  | characters _ _ _ behind => behind.Lacks names
  | single name _ _ behind => name ∉ names ∧ behind.Lacks names
  | element name _ _ inner behind => name ∉ names ∧ inner.Lacks names ∧ behind.Lacks names

/-- Its events behind characters that are held. -/
def events (held : Octets) : Content → List Event
  | nothing => heldText held
  | characters os _ _ behind => behind.events (os.reverse ++ held)
  | single name _ rest behind =>
    heldText held ++ ([.opening ⟨tagContent name rest⟩, .closing name] ++ behind.events [])
  | element name _ rest inner behind =>
    heldText held ++ ([.opening ⟨tagContent name rest⟩] ++ (inner.events [] ++ [.closing name]) ++
      behind.events [])

/-- **The events of a content**, up to the bracket behind it. -/
theorem emitsUpTo_events (content : Content) (depth : Nat) (held : Octets) :
    EmitsUpTo depth held content.octets (content.events held) := by
  induction content generalizing depth held with
  | nothing => exact .nil depth held
  | characters os h h' behind ih =>
    intro found
    rw [octets, List.append_assoc, Scanner.scan_append, Scanner.scan_text h h']
    exact ih depth (os.reverse ++ held) found
  | single name h rest behind ih => exact .piece (emits_emptyTagOf h rest depth) (ih depth [])
  | element name h rest inner behind ihInner ihBehind =>
    have hinner := EmitsUpTo.append (ihInner (depth + 1) []) (h.emits_closing depth)
    exact .piece ((emits_tagOf h rest depth).append hinner) (ihBehind depth [])

theorem spares_of_mem_heldText {names : List Octets} {held : Octets} {e : Event}
    (h : e ∈ heldText held) : e.Spares names := by
  cases held with
  | nil => cases h
  | cons b earlier =>
    obtain rfl := List.mem_singleton.1 h
    trivial

/-- **What a content lacks, its events spare.** -/
theorem spares_of_mem_events {names : List Octets} {content : Content}
    (h : content.Lacks names) {held : Octets} {e : Event} (he : e ∈ content.events held) :
    e.Spares names := by
  induction content generalizing held with
  | nothing => exact spares_of_mem_heldText he
  | characters os _ _ behind ih => exact ih h he
  | single name hname rest behind ih =>
    obtain ⟨hnot, hbehind⟩ := h
    simp only [events, List.mem_append, List.mem_cons, List.not_mem_nil, or_false] at he
    obtain he | (rfl | rfl) | he := he
    · exact spares_of_mem_heldText he
    · rwa [Event.Spares, name_tagContent hname]
    · exact hnot
    · exact ih hbehind he
  | element name hname rest inner behind ihInner ihBehind =>
    obtain ⟨hnot, hinner, hbehind⟩ := h
    simp only [events, List.mem_append, List.mem_cons, List.not_mem_nil, or_false] at he
    obtain he | (rfl | he | rfl) | he := he
    · exact spares_of_mem_heldText he
    · rwa [Event.Spares, name_tagContent hname]
    · exact ihInner hinner he
    · exact hnot
    · exact ihBehind hbehind he

end Content

/-! ### Octets that are gone through -/

namespace Reading

variable {σ ε ρ : Type} {r : Reading σ ε ρ}

/-- Octets that a reading goes through, with `before` and then `after` open elements, from one state
to another. -/
def Reads (r : Reading σ ε ρ) (before after : Nat) (octets : Octets) (s s' : σ) : Prop :=
  ∃ events, Emits before after octets events ∧ r.Passes s events s'

theorem Reads.nil (depth : Nat) (s : σ) : r.Reads depth depth [] s s :=
  ⟨[], .nil depth, .nil s⟩

theorem Reads.append {a b c : Nat} {first second : Octets} {s s' s'' : σ}
    (h : r.Reads a b first s s') (h' : r.Reads b c second s' s'') :
    r.Reads a c (first ++ second) s s'' := by
  obtain ⟨events, hemits, hpasses⟩ := h
  obtain ⟨events', hemits', hpasses'⟩ := h'
  exact ⟨events ++ events', hemits.append hemits', hpasses.append hpasses'⟩

/-- A tag that opens an element. -/
theorem Reads.opening {name : Octets} {rest : TagRest} {s s' : σ} (hname : IsElementName name)
    (depth : Nat) (h : ∀ tag : Tag, tag.name = name → r.step s (.opening tag) = (s', .more)) :
    r.Reads depth (depth + 1) (tagOf name rest) s s' :=
  ⟨_, emits_tagOf hname rest depth, .one (h _ (name_tagContent hname rest))⟩

/-- A tag that closes an element. -/
theorem Reads.closing {name : Octets} {s s' : σ} (hname : IsElementName name) (depth : Nat)
    (h : r.step s (.closing name) = (s', .more)) :
    r.Reads (depth + 1) depth (closingTag name) s s' :=
  ⟨_, hname.emits_closing depth, .one h⟩

/-- Octets in front of a tag that closes an element. -/
theorem Reads.upTo_closing {name octets : Octets} {events : List Event} {s s' s'' : σ}
    (hname : IsElementName name) (depth : Nat) (hemits : EmitsUpTo (depth + 1) [] octets events)
    (hpasses : r.Passes s events s') (h : r.step s' (.closing name) = (s'', .more)) :
    r.Reads (depth + 1) depth (octets ++ closingTag name) s s'' :=
  ⟨_, hemits.append (hname.emits_closing depth), hpasses.append (.one h)⟩

/-- Octets that are a whole document are read up to its end. -/
theorem Reads.read_eq {octets : Octets} {s s' : σ} (h : r.Reads 0 0 octets s s')
    (hmark : dropByteOrderMark octets = octets) :
    r.read s (Document.ofOctets octets) = (s', r.atEnd s') := by
  obtain ⟨events, hemits, hpasses⟩ := h
  rw [hemits.document hmark, read, ← List.append_nil events, hpasses.run_eq none []]
  rfl

end Reading

end WorkbookTables.Markup
