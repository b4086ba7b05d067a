import WorkbookTables.Proofs.Book.SharedStrings
import WorkbookTables.Proofs.Markup.Truncation
import WorkbookTables.Proofs.Sheet.Failures
import WorkbookTables.Proofs.Sheet.Nesting

/-!
# Shared strings that are cut short

Whether an item is open is told from the names of tags alone, and so is how many items have ended.
The reader of the shared strings does not look for the end of the root: to it a document may end
wherever no item is open. So there are two kinds of places at which the part can be cut. Where an
item or some markup is open, nothing can save the reading, and it fails. Between two items, or
behind the last one, it succeeds with the strings of the items that have ended, and nobody is told
that there were more.

## Main definitions

* `StringTable.Items` — the items of some events, told from the names of tags
* `StringTable.EndsBetweenItems` — octets that end with no markup and no item open
* `StringTable.BreaksOff` — what becomes of the part where it is cut

## Main results

* `StringTable.Items.agrees_passes` — the reader has as many strings as items have ended
* `StringTable.breaksOff` — where a cut is an error, and what is read where it is none
* `StringTable.not_every_cut_fails` — not every cut is an error
-/

namespace WorkbookTables

open Markup

namespace StringTable

/-! ### Items -/

/-- The items of some events, told from the names of tags. -/
structure Items where
  /-- Whether one is open. -/
  isOpen : Bool
  /-- How many have ended. -/
  ended : Nat
  deriving DecidableEq, Repr

namespace Items

/-- The items behind one more event. An item inside another one is none of its own. -/
def step (items : Items) (e : Event) : Items :=
  match e with
  | .opening tag => if tag.name = itemName then { items with isOpen := true } else items
  | .closing name => if items.isOpen ∧ name = itemName then ⟨false, items.ended + 1⟩ else items
  | _ => items

/-- The items of a list of events. -/
def of (events : List Event) : Items := events.foldl step ⟨false, 0⟩

/-- The reader stands where the items say. -/
structure Agrees (items : Items) (s : State) : Prop where
  /-- It reads an item just if one is open. -/
  isSome : s.item.isSome = items.isOpen
  /-- That is an item of the part. -/
  element : ∀ item ∈ s.item, item.element = itemName
  /-- It has a string for each of those that have ended. -/
  size : s.strings.size = items.ended

variable {items : Items} {s s' : State} {e : Event} {events : List Event}

/-- Inside an item only its end counts. -/
theorem step_of_isOpen (h : items.isOpen = true) :
    items.step e = if e = .closing itemName then ⟨false, items.ended + 1⟩ else items := by
  cases e with
  | closing name => simp [step, h]
  | opening tag =>
    have hsame : ({ items with isOpen := true } : Items) = items := by rw [← h]
    simp [step, hsame]
  | _ => simp [step]

/-- Between two items the reader waits for the next one. -/
theorem step_between (h : items.isOpen = false) (strings : Array String) (e : Event) :
    (items.step e).ended = items.ended ∧
      reading.step ⟨strings, none⟩ e =
        (⟨strings, if (items.step e).isOpen then some (.start itemName false) else none⟩,
          .more) := by
  cases e with
  | opening tag =>
    by_cases htag : tag.name = itemName
    · simp [step, reading, State.step, htag]
    · simp [step, reading, State.step, htag, h]
  | closing name => simp [step, reading, State.step, h]
  | _ => simp [step, reading, State.step, h]

/-- Inside an item the reader goes on with it, or the item has ended and gives a string. -/
theorem step_inside {strings : Array String} {item : StringItem}
    (hstep : reading.step ⟨strings, some item⟩ e = (s', .more)) :
    (∃ item', item.step e = (item', .more) ∧ s' = ⟨strings, some item'⟩) ∨
      ∃ item' text, item.step e = (item', .finished text) ∧ s' = ⟨strings.push text, none⟩ := by
  simp only [reading, State.step] at hstep
  cases hitem : item.step e with
  | mk item' progress =>
    rw [hitem] at hstep
    cases progress with
    | more => exact .inl ⟨item', rfl, (Prod.mk.inj hstep).1.symm⟩
    | finished text => exact .inr ⟨item', text, rfl, (Prod.mk.inj hstep).1.symm⟩
    | failed error => cases (Prod.mk.inj hstep).2

/-- **One event**: the reader stays with the items, and keeps the strings that it has. -/
theorem Agrees.step (h : items.Agrees s) (hstep : reading.step s e = (s', .more)) :
    (items.step e).Agrees s' ∧ s.strings.toList <+: s'.strings.toList := by
  obtain ⟨strings, item⟩ := s
  obtain ⟨hopen, helement, hsize⟩ := h
  cases item with
  | none =>
    obtain ⟨hended, hnext⟩ := step_between hopen.symm strings e
    obtain rfl := (Prod.mk.inj (hnext.symm.trans hstep)).1
    refine ⟨⟨?_, ?_, hsize.trans hended.symm⟩, List.prefix_rfl⟩
    · cases (items.step e).isOpen <;> rfl
    · cases (items.step e).isOpen with
      | false => simp
      | true =>
        rintro _ ⟨⟩
        rfl
  | some item =>
    have hname : item.element = itemName := helement item rfl
    rw [step_of_isOpen hopen.symm]
    obtain ⟨item', hitem, rfl⟩ | ⟨item', text, hitem, rfl⟩ := step_inside hstep
    · have hother : e ≠ .closing itemName := hname ▸ StringItem.ne_closing_of_step (by rw [hitem])
      have hkept : item'.element = item.element := by rw [← item.element_step e, hitem]
      rw [if_neg hother]
      refine ⟨⟨hopen, ?_, hsize⟩, List.prefix_rfl⟩
      rintro _ ⟨⟩
      exact hkept.trans hname
    · have hend : e = .closing itemName := hname ▸ StringItem.eq_closing_of_step (by rw [hitem])
      rw [if_pos hend]
      refine ⟨⟨rfl, ?_, by simpa using hsize⟩, by simp⟩
      rintro _ ⟨⟩

/-- **Many events.** -/
theorem Agrees.passes (h : items.Agrees s) (hpasses : reading.Passes s events s') :
    (events.foldl Items.step items).Agrees s' ∧ s.strings.toList <+: s'.strings.toList := by
  induction hpasses generalizing items with
  | nil => exact ⟨h, List.prefix_rfl⟩
  | cons hstep _ ih =>
    obtain ⟨hnext, hkept⟩ := h.step hstep
    obtain ⟨hlast, hmore⟩ := ih hnext
    exact ⟨hlast, hkept.trans hmore⟩

/-- The reader has as many strings as items have ended. -/
theorem agrees_passes (h : reading.Passes ⟨#[], none⟩ events s) : (of events).Agrees s := by
  have hstart : Agrees ⟨false, 0⟩ ⟨#[], none⟩ := ⟨rfl, by simp, rfl⟩
  exact (hstart.passes h).1

end Items

/-! ### Documents -/

/-- Octets that end with no markup and no item open. -/
def EndsBetweenItems (octets : Octets) : Prop :=
  (Document.ofOctets octets).fault = none ∧
    (Items.of (Document.ofOctets octets).events).isOpen = false

instance (octets : Octets) : Decidable (EndsBetweenItems octets) :=
  inferInstanceAs (Decidable (_ ∧ _))

/-- The events of a part that is read have all been gone through, and no item is open. -/
theorem passes_of_ofDocument {d : Document} {strings : StringTable}
    (h : ofDocument d = .ok strings) :
    d.fault = none ∧ reading.Passes ⟨#[], none⟩ d.events ⟨strings, none⟩ := by
  have hnever : ∀ (s : State) (e : Event) (result : StringTable),
      (reading.step s e).2 ≠ .finished result := by
    intro s e result hstep
    simp only [reading, State.step] at hstep
    split at hstep
    · split at hstep <;> cases hstep
    · split at hstep
      · split at hstep <;> cases hstep
      · cases hstep
  obtain ⟨⟨earlier, item⟩, hrun⟩ : ∃ s, reading.run d.fault ⟨#[], none⟩ d.events =
      (s, .ok strings) := ⟨_, Prod.ext rfl h⟩
  obtain ⟨hfault, hpasses, hend⟩ := Reading.passes_of_run_ok hnever hrun
  cases item with
  | some item => cases hend
  | none =>
    cases hend
    exact ⟨hfault, hpasses⟩

/-- Where no item is open, a text at the end of the document is passed over. -/
theorem passes_texts {strings : Array String} {texts : List Event}
    (h : texts = [] ∨ ∃ content, texts = [.text content]) :
    reading.Passes ⟨strings, none⟩ texts ⟨strings, none⟩ := by
  obtain rfl | ⟨content, rfl⟩ := h
  · exact .nil _
  · exact .one rfl

theorem Items.of_texts {events texts : List Event}
    (h : texts = [] ∨ ∃ content, texts = [.text content]) : of (events ++ texts) = of events := by
  obtain rfl | ⟨content, rfl⟩ := h
  · rw [List.append_nil]
  · simp [of, step]

/-- What becomes of the part where it is cut. -/
structure BreaksOff (octets : Octets) : Prop where
  /-- Where markup or an item is open, a cut is an error. -/
  fails : ∀ cut, cut <+: octets → ¬EndsBetweenItems cut →
    ∃ e, ofDocument (.ofOctets cut) = .error e ∧ e.kind = .parse
  /-- Anywhere else the strings are read of the items that have ended, and nothing says that there
  are more. -/
  shortens : ∀ cut strings, cut <+: octets → ofDocument (.ofOctets octets) = .ok strings →
    EndsBetweenItems cut → ofDocument (.ofOctets cut) =
      .ok (strings.toList.take (Items.of (Document.ofOctets cut).events).ended).toArray

theorem exists_error_of_not_endsBetweenItems {octets : Octets} (h : ¬EndsBetweenItems octets) :
    ∃ e, ofDocument (.ofOctets octets) = .error e ∧ e.kind = .parse := by
  cases hread : ofDocument (.ofOctets octets) with
  | error e => exact ⟨e, rfl, Package.kind_of_stringTable hread⟩
  | ok strings =>
    obtain ⟨hfault, hpasses⟩ := passes_of_ofDocument hread
    exact absurd ⟨hfault, (Items.agrees_passes hpasses).isSome.symm⟩ h

theorem ofDocument_of_endsBetweenItems {cut octets : Octets} {strings : StringTable}
    (hcut : cut <+: octets) (h : ofDocument (.ofOctets octets) = .ok strings)
    (hends : EndsBetweenItems cut) : ofDocument (.ofOctets cut) =
      .ok (strings.toList.take (Items.of (Document.ofOctets cut).events).ended).toArray := by
  obtain ⟨hfault, hclosed⟩ := hends
  obtain ⟨texts, hpart, htexts⟩ := exists_events_ofOctets cut
  obtain ⟨texts', hall, -⟩ := exists_events_ofOctets octets
  obtain ⟨more, hmore⟩ := events_dropByteOrderMark_isPrefix hcut
  obtain ⟨-, hpasses⟩ := passes_of_ofDocument h
  rw [hall, ← hmore, List.append_assoc] at hpasses
  obtain ⟨⟨earlier, item⟩, hfirst, hrest⟩ := hpasses.of_append
  have hagrees := Items.agrees_passes hfirst
  rw [hpart, Items.of_texts htexts] at hclosed ⊢
  obtain rfl : item = none := by
    rw [← hagrees.isSome] at hclosed
    exact Option.not_isSome_iff_eq_none.1 (by simp [hclosed])
  have hread := (hfirst.append (passes_texts htexts)).run_eq none []
  rw [List.append_nil, ← hpart, ← hfault] at hread
  have hstrings : earlier.toList = strings.toList.take (Items.of
      (Scanner.start.scan (dropByteOrderMark cut)).events.toList).ended := by
    rw [← hagrees.size]
    exact List.prefix_iff_eq_take.1 (hagrees.passes hrest).2
  rw [ofDocument, Reading.read, hread, ← hstrings, hfault]
  rfl

/-- **The shared strings that are cut short.** A cut inside an item or in markup is an error, and
a cut between two items gives the strings of the first of them. -/
theorem breaksOff (octets : Octets) : BreaksOff octets where
  fails _ _ hends := exists_error_of_not_endsBetweenItems hends
  shortens _ _ hcut h hends := ofDocument_of_endsBetweenItems hcut h hends

/-- The shared strings `a` and `b`. -/
def twoItems : List (List Piece) :=
  [[.plain .nothing [.itself 'a' ⟨by decide, by decide, by decide⟩]],
    [.plain .nothing [.itself 'b' ⟨by decide, by decide, by decide⟩]]]

/-- **Not every cut is an error**, not even one behind which an item is missing. -/
theorem not_every_cut_fails :
    ¬∀ (attributes : TagRest) (items : List (List Piece)) (cut rest : Octets),
      writtenTable attributes items = cut ++ rest → rest ≠ [] →
      ∃ e, ofDocument (.ofOctets cut) = .error e := by
  intro hevery
  have hsplit : writtenTable .nothing twoItems = Text.Utf8.encode "<sst><si><t>a</t></si>" ++
      Text.Utf8.encode "<si><t>b</t></si></sst>" := by decide +kernel
  have hread : (ofDocument (.ofOctets (Text.Utf8.encode "<sst><si><t>a</t></si>"))).toOption =
      some #["a"] := by decide +kernel
  obtain ⟨e, he⟩ := hevery .nothing twoItems _ _ hsplit (by decide +kernel)
  rw [he] at hread
  cases hread

end StringTable

end WorkbookTables
