import WorkbookTables.Markup.StringItem
import WorkbookTables.Proofs.Markup.Passing

/-!
# What a reading can fail with

A reading fails in one of its steps, at the end of the document, or on a fault of the document. So
whatever is true of the errors of these three is true of every error of the reading. Everything
that can be wrong with a document, its attributes and its texts is an error of the kind `parse`.

## Main definitions

* `Reading.FailsOnly` — a property that all errors of a reading have

## Main results

* `Reading.FailsOnly.run` — an error that ends a reading has it
* `Tag.kind_of_attribute?`, `Tag.kind_of_numeral?`, `StringItem.kind_of_step` — errors of look-ups
  and of texts
-/

namespace WorkbookTables.Markup

/-- An error of two steps is one of the first, or of the second after the first. -/
theorem error_of_bind {ε α β : Type} {x : Except ε α} {f : α → Except ε β} {error : ε}
    (h : x >>= f = .error error) : x = .error error ∨ ∃ a, x = .ok a ∧ f a = .error error := by
  cases x with
  | error e =>
    cases h
    exact .inl rfl
  | ok a => exact .inr ⟨a, rfl, h⟩

/-- A result of two steps is one of the second after one of the first. -/
theorem ok_of_bind {ε α β : Type} {x : Except ε α} {f : α → Except ε β} {b : β}
    (h : x >>= f = .ok b) : ∃ a, x = .ok a ∧ f a = .ok b := by
  cases x with
  | error e => cases h
  | ok a => exact ⟨a, rfl, h⟩

namespace Reading

variable {σ ε ρ : Type}

/-- Every error that a reading can end with has the property `P`. -/
structure FailsOnly (P : ε → Prop) (r : Reading σ ε ρ) : Prop where
  /-- The errors of its steps have it. -/
  step : ∀ {s s' : σ} {e : Event} {error : ε}, r.step s e = (s', .failed error) → P error
  /-- The errors at the end of a document have it. -/
  atEnd : ∀ {s : σ} {error : ε}, r.atEnd s = .error error → P error
  /-- The errors on faults of a document have it. -/
  onFault : ∀ fault : Fault, P (r.onFault fault)

theorem FailsOnly.run {P : ε → Prop} {r : Reading σ ε ρ} (h : r.FailsOnly P)
    {fault : Option Fault} {events : List Event} {s s' : σ} {error : ε}
    (hrun : r.run fault s events = (s', .error error)) : P error := by
  cases ends_of_run hrun with
  | atEnd _ _ herror => exact h.atEnd herror
  | onFault f _ _ herror => exact Except.error.inj herror ▸ h.onFault f
  | finished _ _ _ herror => cases herror
  | failed _ _ hstep herror => exact Except.error.inj herror ▸ h.step hstep

theorem FailsOnly.read {P : ε → Prop} {r : Reading σ ε ρ} (h : r.FailsOnly P) {s : σ}
    {d : Document} {error : ε} (hread : (r.read s d).2 = .error error) : P error :=
  h.run (Prod.ext rfl hread)

end Reading

/-! ### Look-ups -/

theorem kind_of_valueText {value : Octets} {e : Error} (h : valueText value = .error e) :
    e.kind = .parse := by
  rw [valueText] at h
  split at h
  · cases h; rfl
  · split at h
    · cases h; rfl
    · cases h

theorem kind_of_foundText {found : Except AttributeFault (Option Octets)} {e : Error}
    (h : foundText found = .error e) : e.kind = .parse := by
  simp only [foundText] at h
  split at h
  next => cases h; rfl
  next => cases h
  next value =>
    cases htext : valueText value with
    | error e' =>
      rw [htext] at h
      cases h
      exact kind_of_valueText htext
    | ok text => rw [htext] at h; cases h

theorem Tag.kind_of_attribute? {t : Tag} {key : Octets} {e : Error}
    (h : t.attribute? key = .error e) : e.kind = .parse :=
  kind_of_foundText h

theorem Tag.kind_of_numeral? {t : Tag} {key : Octets} {e : Error}
    (h : t.numeral? key = .error e) : e.kind = .parse := by
  rw [Tag.numeral?] at h
  split at h
  split at h
  next => cases h; rfl
  next => cases h
  next value _ =>
    split at h
    next htext =>
      cases h
      exact kind_of_valueText htext
    next => split at h <;> cases h; rfl

/-! ### Texts -/

theorem kind_of_contentChars {content : Octets} {e : Error} (h : contentChars content = .error e) :
    e.kind = .parse := by
  rw [contentChars] at h
  split at h
  · cases h
  · cases h; rfl

theorem kind_of_characterInText {radix : Nat} {digits : List Char} {e : Error}
    (h : characterInText radix digits = .error e) : e.kind = .parse := by
  rw [characterInText] at h
  split at h
  · cases h
  · cases h; rfl

theorem kind_of_resolveInText {name : List Char} {e : Error} (h : resolveInText name = .error e) :
    e.kind = .parse := by
  simp only [resolveInText] at h
  split at h
  · exact kind_of_characterInText h
  · exact kind_of_characterInText h
  · split at h
    · cases h
    · cases h; rfl

namespace StringItem

theorem kind_of_append {item item' : StringItem} {piece : Except Error (List Char)} {e : Error}
    (hpiece : ∀ e, piece = .error e → e.kind = .parse)
    (h : item.append piece = (item', .failed e)) : e.kind = .parse := by
  simp only [append] at h
  split at h
  · cases h
  · cases h
    exact hpiece e rfl

theorem kind_of_step {item item' : StringItem} {event : Event} {e : Error}
    (h : item.step event = (item', .failed e)) : e.kind = .parse := by
  cases event with
  | closing name =>
    simp only [step] at h
    split at h
    · cases h
    · split at h
      · cases h
      · split at h <;> cases h
  | opening tag =>
    simp only [step] at h
    split at h
    · cases h
    · split at h <;> cases h
  | text content =>
    simp only [step] at h
    split at h
    · exact kind_of_append (fun e => kind_of_contentChars) h
    · cases h
  | characterData content =>
    simp only [step] at h
    split at h
    · exact kind_of_append (fun e => kind_of_contentChars) h
    · cases h
  | reference content =>
    simp only [step] at h
    split at h
    · refine kind_of_append ?_ h
      intro e hpiece
      obtain hchars | ⟨cs, -, hresolve⟩ := error_of_bind hpiece
      · exact kind_of_contentChars hchars
      · exact kind_of_resolveInText hresolve
    · cases h
  | aside => cases h

end StringItem

end WorkbookTables.Markup
