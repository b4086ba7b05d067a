import WorkbookTables.Markup.Document
import WorkbookTables.Markup.Reading

/-!
# Documents that are cut short

The machine never takes an event back, so what has been recognised in the first octets of a document
is the beginning of what is recognised in all of them. Two things keep the events of a document that
is cut short from being the first events of the whole: a text that is cut is an event of its own,
and so is the beginning of a byte order mark. Both are texts, and behind them there is nothing.

An event is recognised at an octet. For the end of an element this is the bracket that ends its tag,
and no event is recognised at that octet behind it. So if some events of a document end with the end
of an element, there is a place in the document where exactly those have been recognised.

## Main definitions

* `Scanner.Recognised` — the events that an octet may lead to

## Main results

* `Scanner.events_isPrefix_scan` — no event is taken back
* `Scanner.exists_split_closing` — the place at which the end of an element is recognised
* `exists_events_ofOctets` — the events of a document, up to a text at its end
* `events_dropByteOrderMark_isPrefix` — documents that are cut short begin with the same events
* `exists_split_of_dropByteOrderMark` — a place behind a byte order mark is a place in the document
* `exists_split_ofOctets` — the place at which a document has come to the end of an element
-/

namespace WorkbookTables.Markup

namespace Scanner

/-! ### One octet -/

/-- The events that an octet leads to. -/
inductive Recognised (b : UInt8) : List Event → Prop where
  /-- There are none. -/
  | nothing : Recognised b []
  /-- One that is not the end of an element. -/
  | other (e : Event) (h : ∀ name, e ≠ .closing name) : Recognised b [e]
  /-- The end of an element. -/
  | closing (name : Octets) (h : b = octet '>') : Recognised b [.closing name]
  /-- A whole element in one tag. -/
  | element (tag : Tag) (h : b = octet '>') : Recognised b [.opening tag, .closing tag.name]

/-- The machine has recognised some more events at an octet, and has taken none back. -/
def Goes (s s' : Scanner) (b : UInt8) : Prop :=
  ∃ events, Recognised b events ∧ s'.events.toList = s.events.toList ++ events

variable {s s' : Scanner} {b : UInt8}

theorem goes_of_events_eq (h : s'.events = s.events) : Goes s s' b :=
  ⟨[], .nothing, by simp [h]⟩

theorem goes_continueWith (s : Scanner) (b : UInt8) (mode : Mode) :
    Goes s (s.continueWith mode) b :=
  goes_of_events_eq rfl

theorem goes_emit {e : Event} (h : Recognised b [e]) : Goes s (s.emit e) b :=
  ⟨[e], h, by simp [emit]⟩

theorem goes_aside (s : Scanner) (b : UInt8) : Goes s (s.emit .aside) b :=
  goes_emit (.other _ nofun)

theorem goes_endText (s : Scanner) (b : UInt8) (held : Octets) (mode : Mode) :
    Goes s (s.endText held mode) b := by
  cases held with
  | nil => exact goes_continueWith s b mode
  | cons c earlier => exact goes_emit (.other (.text (c :: earlier).reverse) nofun)

theorem goes_endOpening (s : Scanner) (held : Octets) (hb : b = octet '>') :
    Goes s (s.endOpening held) b := by
  cases held with
  | nil => exact goes_emit (.other (.opening ⟨[]⟩) nofun)
  | cons c earlier =>
    rw [endOpening]
    split
    · exact ⟨_, .element ⟨earlier.reverse⟩ hb, by simp [emit]⟩
    · exact goes_emit (.other (.opening ⟨(c :: earlier).reverse⟩) nofun)

theorem goes_endClosing (s : Scanner) (held : Octets) (hb : b = octet '>') :
    Goes s (s.endClosing held) b := by
  rw [endClosing]
  cases s.depth with
  | zero => exact goes_continueWith s b _
  | succ depth => exact goes_emit (.closing (closingName held) hb)

theorem goes_endCharacterData (s : Scanner) (b : UInt8) (held : Octets) :
    Goes s (s.endCharacterData held) b := by
  simp only [endCharacterData]
  split
  · exact goes_emit (.other _ nofun)
  · exact goes_continueWith s b _

theorem goes_endComment (s : Scanner) (b : UInt8) (held : Octets) :
    Goes s (s.endComment held) b := by
  rw [endComment]
  split
  · exact goes_aside s b
  · exact goes_continueWith s b _

theorem goes_endDocumentType (s : Scanner) (b : UInt8) (held : Octets) :
    Goes s (s.endDocumentType held) b := by
  simp only [endDocumentType]
  split
  · split
    · exact goes_continueWith s b _
    · exact goes_aside s b
  · exact goes_continueWith s b _

/-- **No event is taken back**, and the end of an element is recognised at the bracket that ends its
tag, behind whatever else is recognised there. -/
theorem goes_step (s : Scanner) (b : UInt8) : Goes s (s.step b) b := by
  rw [step]
  split
  next held _ =>
    split
    · exact goes_endText s b held _
    · split
      · exact goes_endText s b held _
      · exact goes_continueWith s b _
  next held _ =>
    split
    · exact goes_emit (.other _ nofun)
    · split <;> exact goes_continueWith s b _
  next =>
    split
    · exact goes_continueWith s b _
    · split
      · exact goes_continueWith s b _
      · split
        · exact goes_continueWith s b _
        · split
          next hb => exact goes_endOpening s [] hb
          next => exact goes_continueWith s b _
  next =>
    split
    · exact goes_continueWith s b _
    · split
      · exact goes_continueWith s b _
      · split <;> exact goes_continueWith s b _
  next held _ =>
    split
    · exact goes_endCharacterData s b _
    · exact goes_continueWith s b _
  next held _ =>
    split
    · exact goes_endComment s b held
    · exact goes_continueWith s b _
  next held nested _ =>
    split
    · exact goes_continueWith s b _
    · split
      · cases nested with
        | zero => exact goes_endDocumentType s b held
        | succ nested => exact goes_continueWith s b _
      · exact goes_continueWith s b _
  next held _ =>
    split
    · cases held with
      | nil => exact goes_continueWith s b _
      | cons last earlier =>
        dsimp only
        split
        · exact goes_aside s b
        · exact goes_continueWith s b _
    · exact goes_continueWith s b _
  next held quote _ =>
    split
    next hb => exact goes_endOpening s held hb.1
    next => exact goes_continueWith s b _
  next held quote _ =>
    split
    next hb => exact goes_endClosing s held hb.1
    next => exact goes_continueWith s b _
  next => exact goes_of_events_eq rfl

/-- If the end of an element is among the events that an octet leads to, the octet is the bracket
that ends its tag, and nothing else is recognised behind it. -/
theorem Recognised.eq_of_closing {earlier later : List Event} {name : Octets}
    (h : Recognised b (earlier ++ .closing name :: later)) : b = octet '>' ∧ later = [] := by
  generalize hevents : earlier ++ .closing name :: later = events at h
  cases h with
  | nothing => simp at hevents
  | other e he =>
    obtain ⟨rfl, hcons⟩ | ⟨rest, rfl, hrest⟩ := List.append_eq_cons_iff.1 hevents
    · exact absurd (List.cons_eq_cons.1 hcons).1.symm (he name)
    · simp at hrest
  | closing name' hb =>
    obtain ⟨rfl, hcons⟩ | ⟨rest, rfl, hrest⟩ := List.append_eq_cons_iff.1 hevents
    · exact ⟨hb, (List.cons_eq_cons.1 hcons).2⟩
    · simp at hrest
  | element tag hb =>
    obtain ⟨rfl, hcons⟩ | ⟨rest, rfl, hrest⟩ := List.append_eq_cons_iff.1 hevents
    · cases (List.cons_eq_cons.1 hcons).1
    · obtain ⟨rfl, hcons⟩ | ⟨rest', rfl, hrest'⟩ := List.append_eq_cons_iff.1 hrest.symm
      · exact ⟨hb, (List.cons_eq_cons.1 hcons).2⟩
      · simp at hrest'

/-! ### Many octets -/

/-- **What has been recognised is the beginning of what will be.** -/
theorem events_isPrefix_scan (s : Scanner) (octets : Octets) :
    s.events.toList <+: (s.scan octets).events.toList := by
  induction octets generalizing s with
  | nil => exact List.prefix_rfl
  | cons b rest ih =>
    obtain ⟨events, -, hevents⟩ := goes_step s b
    have hstep : s.events.toList <+: (s.step b).events.toList := ⟨events, hevents.symm⟩
    exact hstep.trans (ih (s.step b))

theorem events_scan_isPrefix_of_isPrefix (s : Scanner) {cut octets : Octets}
    (h : cut <+: octets) : (s.scan cut).events.toList <+: (s.scan octets).events.toList := by
  obtain ⟨rest, rfl⟩ := h
  rw [scan_append]
  exact events_isPrefix_scan _ rest

/-- **The place at which the end of an element is recognised**: before it only earlier events have
been, and with it no later ones. -/
theorem exists_split_closing {octets : Octets} {earlier later : List Event} {name : Octets}
    (hs : s.events.toList <+: earlier)
    (h : (s.scan octets).events.toList = earlier ++ .closing name :: later) :
    ∃ before after, octets = before ++ octet '>' :: after ∧
      (s.scan before).events.toList <+: earlier ∧
      (s.scan (before ++ [octet '>'])).events.toList = earlier ++ [.closing name] := by
  induction octets generalizing s with
  | nil =>
    have hlength := hs.length_le
    have hevents := congrArg List.length h
    simp only [scan, List.foldl_nil, List.length_append, List.length_cons] at hevents
    omega
  | cons b rest ih =>
    by_cases hstep : (s.step b).events.toList <+: earlier
    · obtain ⟨before, after, rfl, hbefore, hbracket⟩ := ih hstep h
      exact ⟨b :: before, after, rfl, hbefore, hbracket⟩
    · obtain ⟨events, hrecognised, hevents⟩ := goes_step s b
      obtain ⟨gap, rfl⟩ := hs
      -- What the octet adds reaches past `earlier`, and so it has the end of the element in it.
      have hwhole : (s.step b).events.toList <+:
          (s.events.toList ++ gap) ++ [.closing name] ++ later := by
        rw [List.append_assoc, List.singleton_append, ← h]
        exact events_isPrefix_scan (s.step b) rest
      have hlonger : ((s.events.toList ++ gap) ++ [Event.closing name]).length ≤
          (s.step b).events.toList.length := by
        refine Nat.le_of_not_lt fun hshort => ?_
        refine hstep (List.prefix_of_prefix_length_le hwhole ?_ ?_)
        · rw [List.append_assoc]
          exact List.prefix_append _ _
        · simp only [List.length_append, List.length_singleton] at hshort ⊢
          omega
      obtain ⟨later', hlater⟩ := List.prefix_of_prefix_length_le
        (List.prefix_append ((s.events.toList ++ gap) ++ [.closing name]) later) hwhole hlonger
      have hadded : events = gap ++ .closing name :: later' := by
        rw [hevents, List.append_assoc, List.append_assoc] at hlater
        simpa using (List.append_cancel_left hlater).symm
      obtain ⟨rfl, rfl⟩ := (hadded ▸ hrecognised).eq_of_closing
      refine ⟨[], rest, rfl, List.prefix_append _ _, ?_⟩
      exact hevents.trans (by rw [hadded, List.append_assoc])

/-! ### Documents -/

/-- At the end of a document there may be one more event, a text. -/
theorem exists_events_document (s : Scanner) :
    ∃ texts, s.document.events = s.events.toList ++ texts ∧
      (texts = [] ∨ ∃ content, texts = [.text content]) := by
  rw [document]
  split
  next b earlier _ => exact ⟨[.text (b :: earlier).reverse], rfl, .inr ⟨_, rfl⟩⟩
  next => exact ⟨[], (List.append_nil _).symm, .inl rfl⟩

end Scanner

/-- The events of a document are those that its octets lead to, up to a text at its end. -/
theorem exists_events_ofOctets (octets : Octets) :
    ∃ texts, (Document.ofOctets octets).events =
        (Scanner.start.scan (dropByteOrderMark octets)).events.toList ++ texts ∧
      (texts = [] ∨ ∃ content, texts = [.text content]) :=
  Scanner.exists_events_document _

/-- What stands at the end of a document is no end of an element, which is recognised at an octet
and so before that. -/
theorem exists_scan_eq_of_closing {octets : Octets} {earlier later : List Event} {name : Octets}
    (h : (Document.ofOctets octets).events = earlier ++ .closing name :: later) :
    ∃ later', (Scanner.start.scan (dropByteOrderMark octets)).events.toList =
      earlier ++ .closing name :: later' := by
  obtain ⟨texts, hevents, rfl | ⟨content, rfl⟩⟩ := exists_events_ofOctets octets
  · exact ⟨later, by rw [← h, hevents, List.append_nil]⟩
  · rw [hevents] at h
    obtain rfl | ⟨later', last, rfl⟩ := later.eq_nil_or_concat
    · cases (List.append_inj' h rfl).2
    · rw [List.concat_eq_append, ← List.cons_append, ← List.append_assoc] at h
      exact ⟨later', (List.append_inj' h rfl).1⟩

/-! ### Byte order marks -/

/-- The octets of a byte order mark. -/
def byteOrderMark : Octets := [0xEF, 0xBB, 0xBF]

theorem dropByteOrderMark_append (octets : Octets) :
    dropByteOrderMark (byteOrderMark ++ octets) = octets := rfl

/-- Octets that have no byte order mark before them stay as they are. -/
theorem dropByteOrderMark_of_not_isPrefix {octets : Octets} (h : ¬byteOrderMark <+: octets) :
    dropByteOrderMark octets = octets := by
  rw [dropByteOrderMark]
  rintro rest rfl
  exact h ⟨rest, rfl⟩

/-- **Documents that are cut short begin with the same events**, also where they are cut in the
middle of a byte order mark. -/
theorem events_dropByteOrderMark_isPrefix {cut octets : Octets} (h : cut <+: octets) :
    (Scanner.start.scan (dropByteOrderMark cut)).events.toList <+:
      (Scanner.start.scan (dropByteOrderMark octets)).events.toList := by
  by_cases hcut : byteOrderMark <+: cut
  · obtain ⟨rest, rfl⟩ := hcut
    obtain ⟨later, rfl⟩ := h
    rw [List.append_assoc, dropByteOrderMark_append, dropByteOrderMark_append]
    exact Scanner.events_scan_isPrefix_of_isPrefix _ (List.prefix_append rest later)
  · rw [dropByteOrderMark_of_not_isPrefix hcut]
    by_cases hall : byteOrderMark <+: octets
    · -- The cut is inside the mark, of which no octet leads to an event.
      have hinside : cut <+: byteOrderMark := by
        rcases List.prefix_or_prefix_of_prefix h hall with hinside | houtside
        · exact hinside
        · exact absurd houtside hcut
      have hnothing : (Scanner.start.scan byteOrderMark).events.toList = [] := by decide
      have hcutNothing := Scanner.events_scan_isPrefix_of_isPrefix .start hinside
      rw [hnothing, List.prefix_nil] at hcutNothing
      rw [hcutNothing]
      exact List.nil_prefix
    · rw [dropByteOrderMark_of_not_isPrefix hall]
      exact Scanner.events_scan_isPrefix_of_isPrefix _ h

/-- A place behind a byte order mark is a place in the document. -/
theorem exists_split_of_dropByteOrderMark {octets first second : Octets}
    (h : dropByteOrderMark octets = first ++ second) :
    ∃ before, octets = before ++ second ∧
      ∀ part, part <+: second → dropByteOrderMark (before ++ part) = first ++ part := by
  by_cases hmark : byteOrderMark <+: octets
  · obtain ⟨rest, rfl⟩ := hmark
    rw [dropByteOrderMark_append] at h
    refine ⟨byteOrderMark ++ first, by rw [h, List.append_assoc], ?_⟩
    intro part _
    rw [List.append_assoc, dropByteOrderMark_append]
  · rw [dropByteOrderMark_of_not_isPrefix hmark] at h
    refine ⟨first, h, ?_⟩
    intro part hpart
    refine dropByteOrderMark_of_not_isPrefix fun hcut => hmark (hcut.trans ?_)
    rw [h]
    exact (List.prefix_append_right_inj first).2 hpart

/-- **The place at which a document has come to the end of an element**: a part that does not reach
it has only earlier events, up to a text, and whatever begins with the part that reaches it has the
same events up to there. -/
theorem exists_split_ofOctets {octets : Octets} {earlier later : List Event} {name : Octets}
    (h : (Document.ofOctets octets).events = earlier ++ .closing name :: later) :
    ∃ before after, octets = before ++ octet '>' :: after ∧
      (Scanner.start.scan (dropByteOrderMark (before ++ [octet '>']))).events.toList =
        earlier ++ [.closing name] ∧
      (∀ cut, cut <+: before → ∃ first texts, first <+: earlier ∧
        (Document.ofOctets cut).events = first ++ texts ∧
        (texts = [] ∨ ∃ content, texts = [.text content])) ∧
      ∀ other, before ++ [octet '>'] <+: other → ∃ later',
        (Document.ofOctets other).events = earlier ++ .closing name :: later' := by
  obtain ⟨later', hscanned⟩ := exists_scan_eq_of_closing h
  obtain ⟨first, second, hdrop, hfirst, hbracket⟩ :=
    Scanner.exists_split_closing List.nil_prefix hscanned
  obtain ⟨before, rfl, hbefore⟩ := exists_split_of_dropByteOrderMark hdrop
  rw [← hbefore _ (List.cons_prefix_cons.2 ⟨rfl, List.nil_prefix⟩)] at hbracket
  refine ⟨before, second, rfl, hbracket, ?_, ?_⟩
  · intro cut hcut
    obtain ⟨texts, hpart, htexts⟩ := exists_events_ofOctets cut
    have hbegins := events_dropByteOrderMark_isPrefix hcut
    have hfront := hbefore [] List.nil_prefix
    rw [List.append_nil, List.append_nil] at hfront
    rw [hfront] at hbegins
    exact ⟨_, texts, hbegins.trans hfirst, hpart, htexts⟩
  · intro other hother
    obtain ⟨texts, hall, -⟩ := exists_events_ofOctets other
    obtain ⟨more, hmore⟩ := events_dropByteOrderMark_isPrefix hother
    rw [← hmore, hbracket] at hall
    exact ⟨more ++ texts, by rw [hall]; simp⟩

end WorkbookTables.Markup
