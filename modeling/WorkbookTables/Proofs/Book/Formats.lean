import Mathlib.Tactic.SplitIfs
import WorkbookTables.Proofs.Markup.WrittenText
import WorkbookTables.Book.FormatTable

/-!
# What the formats of a workbook show

A number format shows a number, as such or as a date or a time, and nothing else: neither a built-in
format nor a code makes a text, a truth value or an empty cell of it. So the kind of a cell that has
a format is never the kind of a position without a cell.

A table of formats is what a reading makes of the codes that it has collected, and the codes are
collected event by event.

## Main definitions

* `Cell.Kind.IsOfNumber` — the kinds that number formats show
* `FormatTable.IsRead` — the tables of workbooks, with styles and without

## Main results

* `FormatTable.State.CodesOfNumber.step` — what every event keeps
* `FormatTable.IsRead.isOfNumber_get` — the formats of a workbook show numbers
-/

namespace WorkbookTables

open Markup

/-! ### Number formats -/

namespace Cell

/-- Holds of the kinds that number formats show. -/
def Kind.IsOfNumber (kind : Kind) : Prop := kind = .number ∨ kind.isDateFormatted = true

theorem Kind.IsOfNumber.ne_empty {kind : Kind} (h : kind.IsOfNumber) : kind ≠ .empty := by
  rintro rfl
  obtain h | h := h <;> cases h

theorem isOfNumber_kindOfFormatCode (code : String) : (kindOfFormatCode code).IsOfNumber := by
  rw [kindOfFormatCode, FormatScanner.kind]
  split
  · exact .inr rfl
  · exact .inr rfl
  · exact .inr rfl
  · exact .inl rfl

theorem isOfNumber_builtinKind? {id : String} {kind : Kind} (h : builtinKind? id = some kind) :
    kind.IsOfNumber := by
  simp only [builtinKind?] at h
  split_ifs at h <;> cases h <;> exact .inr rfl

end Cell

namespace FormatTable

/-- Holds of the tables of workbooks, with styles and without. -/
def IsRead (t : FormatTable) : Prop := t = empty ∨ ∃ d, ofDocument d = .ok t

namespace State

/-- The codes that have been read show numbers. -/
def CodesOfNumber (s : State) : Prop :=
  ∀ (id : String) (kind : Cell.Kind), s.codes[id]? = some kind → kind.IsOfNumber

variable {s s' : State}

theorem isOfNumber_kindOfId (h : s.CodesOfNumber) (id : String) :
    (kindOfId s.codes id).IsOfNumber := by
  rw [kindOfId]
  split
  next kind hcode => exact h id kind hcode
  next =>
    cases hbuiltin : Cell.builtinKind? id with
    | none => exact .inl rfl
    | some kind => exact Cell.isOfNumber_builtinKind? hbuiltin

theorem CodesOfNumber.isOfNumber_get (h : s.CodesOfNumber) (index : Nat) :
    (s.table.get index).IsOfNumber := by
  rw [get, table, Array.getElem?_map]
  cases s.ids[index]? with
  | none => exact .inl rfl
  | some id => exact isOfNumber_kindOfId h id

theorem CodesOfNumber.addCode (h : s.CodesOfNumber) (tag : Tag) :
    (s.addCode tag).1.CodesOfNumber := by
  simp only [State.addCode]
  split
  · exact h
  split
  · exact h
  split
  next =>
    intro id kind hkind
    rw [Std.TreeMap.getElem?_insert] at hkind
    split at hkind
    · obtain rfl := Option.some.inj hkind
      exact Cell.isOfNumber_kindOfFormatCode _
    · exact h id kind hkind
  next => exact h

theorem fst_afterList (s : State) : s.afterList.1 = s := by
  rw [afterList]
  split <;> rfl

theorem codes_addFormat (s : State) (tag : Tag) : (s.addFormat tag).1.codes = s.codes := by
  rw [addFormat]
  split <;> rfl

/-- Every event keeps to codes that show numbers. -/
theorem CodesOfNumber.step (h : s.CodesOfNumber) (e : Event) : (s.step e).1.CodesOfNumber := by
  have hcodes {s' : State} (hs' : s'.codes = s.codes) : s'.CodesOfNumber := by
    rw [CodesOfNumber, hs']
    exact h
  cases e with
  | opening tag =>
    simp only [State.step]
    split_ifs
    · exact hcodes rfl
    · exact h.addCode tag
    · exact hcodes rfl
    · exact hcodes (codes_addFormat s tag)
    · exact h
  | closing name =>
    simp only [State.step]
    split_ifs
    · exact hcodes (by rw [fst_afterList])
    · exact hcodes (by rw [fst_afterList])
    · exact h
  | _ => exact h

/-- The result of the reading is the table of its state. -/
theorem eq_table_of_step {e : Event} {t : FormatTable} (h : s.step e = (s', .finished t)) :
    t = s'.table := by
  have hlist {s₁ : State} (h : s₁.afterList = (s', .finished t)) : t = s'.table := by
    rw [afterList] at h
    split at h <;> cases h
    rfl
  cases e with
  | opening tag =>
    simp only [State.step, State.addCode, addFormat] at h
    repeat' split at h
    all_goals cases h
  | closing name =>
    simp only [State.step] at h
    split_ifs at h
    · exact hlist h
    · exact hlist h
    · cases h
  | _ => cases h

end State

/-- **A format shows a number in one way or another.** -/
theorem IsRead.isOfNumber_get {t : FormatTable} (h : t.IsRead) (index : Nat) :
    (t.get index).IsOfNumber := by
  obtain rfl | ⟨d, hd⟩ := h
  · exact .inl rfl
  · have hstart : State.start.CodesOfNumber := by
      intro id kind hkind
      cases hkind
    obtain ⟨-, -, hcodes⟩ := Reading.run_invariant (r := reading)
      (I := fun _ s => s.CodesOfNumber) (fun _ hs e => hs.step e) d.fault d.events
      (.nil State.start) hstart
    have hrun : reading.run d.fault State.start d.events = (_, .ok t) := Prod.ext rfl hd
    have htable : t = (reading.run d.fault State.start d.events).1.table := by
      obtain ⟨s, e, hstep⟩ | hend := Reading.step_or_atEnd_of_run hrun
      · exact State.eq_table_of_step hstep
      · exact (Except.ok.inj hend).symm
    rw [htable]
    exact hcodes.isOfNumber_get index

end FormatTable

end WorkbookTables
