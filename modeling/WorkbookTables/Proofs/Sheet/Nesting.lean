import Mathlib.Tactic.SplitIfs
import WorkbookTables.Proofs.Markup.WrittenText
import WorkbookTables.Proofs.Sheet.Actions

/-!
# What stands open

Which of the tags of a sheet the reader of rows takes notice of, and as what, is decided by names
alone: by the name of the tag and by what has been opened and not been closed. Attributes and texts
have no say in it, nor have the context and the observer. So it can be told from a document without
reading any row of it, as long as the reading does not fail.

What is said here of one event holds for every observer and for every reading that goes on or comes
to a good end with it.

## Main definitions

* `Nesting` — what stands open, told from the names of tags
* `Role`, `Nesting.role` — what an event is to the reader

## Main results

* `Nesting.admits_role` — what a role tells of the event
* `State.role_nesting` — the reader does what the role of the event is
* `State.nesting_step` — what stands open behind an event
-/

namespace WorkbookTables

open Markup

/-! ### What events do to a value -/

namespace Markup.StringItem

theorem element_append (item : StringItem) (piece : Except Error (List Char)) :
    (item.append piece).1.element = item.element := by
  cases piece <;> rfl

theorem snd_append_ne (item : StringItem) (piece : Except Error (List Char)) (text : String) :
    (item.append piece).2 ≠ .finished text := by
  cases piece <;> nofun

/-- An item stays the item of its element. -/
theorem element_step (item : StringItem) (e : Event) : (item.step e).1.element = item.element := by
  cases e with
  | closing name =>
    simp only [step]
    split_ifs <;> rfl
  | opening tag =>
    simp only [step]
    split_ifs <;> rfl
  | aside => rfl
  | _ =>
    simp only [step]
    split_ifs
    · exact item.element_append _
    · rfl

/-- An item ends with its element, and with nothing else. -/
theorem eq_closing_of_step {item : StringItem} {e : Event} {text : String}
    (h : (item.step e).2 = .finished text) : e = .closing item.element := by
  cases e with
  | closing name =>
    simp only [step] at h
    split_ifs at h with hname
    rw [hname]
  | opening tag =>
    simp only [step] at h
    split_ifs at h
  | aside => cases h
  | _ =>
    simp only [step] at h
    split_ifs at h
    exact absurd h (item.snd_append_ne _ text)

theorem step_closing_element (item : StringItem) :
    (item.step (.closing item.element)).2 = .finished item.text := by
  simp [step]

/-- An item that goes on has not come to the end of its element. -/
theorem ne_closing_of_step {item : StringItem} {e : Event} (h : (item.step e).2 = .more) :
    e ≠ .closing item.element := by
  rintro rfl
  rw [step_closing_element] at h
  cases h

end Markup.StringItem

namespace RowReading

/-! ### Nesting -/

/-- What stands open, as far as the names of tags tell. -/
structure Nesting where
  /-- Whether a row is open. -/
  inRow : Bool
  /-- Whether a cell is open. -/
  inCell : Bool
  /-- The element of the value that is open. -/
  value : Option Octets
  deriving DecidableEq, Repr

namespace Nesting

/-- Nothing stands open. -/
def start : Nesting := ⟨false, false, none⟩

/-- What stands open behind a tag that begins an element. Cells are found in rows, and values in
cells. -/
def opened (n : Nesting) (name : Octets) : Nesting :=
  if name = rowName then { n with inRow := true }
  else if n.inRow ∧ name = cellName then { n with inCell := true }
  else if n.inCell ∧ (name = inlineName ∨ name = valueName) then { n with value := some name }
  else n

/-- What stands open behind a tag that ends an element. -/
def closed (n : Nesting) (name : Octets) : Nesting :=
  if n.inRow ∧ name = rowName then { n with inRow := false }
  else if name = cellName then { n with inCell := false }
  else n

/-- What stands open behind an event. Inside a value only the end of its element counts. -/
def step (n : Nesting) (e : Event) : Nesting :=
  match n.value with
  | some element => if e = .closing element then { n with value := none } else n
  | none =>
    match e with
    | .opening tag => n.opened tag.name
    | .closing name => n.closed name
    | _ => n

/-- What stands open behind some events. -/
def after (n : Nesting) (events : List Event) : Nesting := events.foldl step n

end Nesting

/-! ### Roles -/

/-- What an event is to a reader of rows. -/
inductive Role where
  /-- It begins a row. -/
  | rowTag (tag : Tag)
  /-- It begins a cell. -/
  | cellTag (tag : Tag)
  /-- It begins a value. -/
  | valueTag (element : Octets)
  /-- It ends the row. -/
  | rowEnd
  /-- It ends the cell, if one is open. -/
  | cellEnd
  /-- It ends the value. -/
  | valueEnd
  /-- It is none of these. -/
  | other
  deriving DecidableEq, Repr

namespace Nesting

/-- What an event is, where this stands open. -/
def role (n : Nesting) (e : Event) : Role :=
  match n.value with
  | some element => if e = .closing element then .valueEnd else .other
  | none =>
    match e with
    | .opening tag =>
      if tag.name = rowName then .rowTag tag
      else if n.inRow ∧ tag.name = cellName then .cellTag tag
      else if n.inCell ∧ (tag.name = inlineName ∨ tag.name = valueName) then .valueTag tag.name
      else .other
    | .closing name =>
      if n.inRow ∧ name = rowName then .rowEnd
      else if name = cellName then .cellEnd
      else .other
    | _ => .other

/-- What stands open behind an event with the given role. -/
def behind (n : Nesting) : Role → Nesting
  | .rowTag _ => { n with inRow := true }
  | .cellTag _ => { n with inCell := true }
  | .valueTag element => { n with value := some element }
  | .rowEnd => { n with inRow := false }
  | .cellEnd => { n with inCell := false }
  | .valueEnd => { n with value := none }
  | .other => n

/-- **An event matters by its role.** -/
theorem step_eq (n : Nesting) (e : Event) : n.step e = n.behind (n.role e) := by
  simp only [step, role]
  cases n.value with
  | some element =>
    dsimp only
    split_ifs <;> rfl
  | none =>
    cases e with
    | opening tag =>
      simp only [opened]
      split_ifs <;> rfl
    | closing name =>
      simp only [closed]
      split_ifs <;> rfl
    | _ => rfl

/-- What an event is that has the given role, and what stands open there. -/
def Admits (n : Nesting) (e : Event) : Role → Prop
  | .rowTag tag => n.value = none ∧ e = .opening tag ∧ tag.name = rowName
  | .cellTag tag => n.value = none ∧ e = .opening tag ∧ tag.name = cellName ∧ n.inRow = true
  | .valueTag element => n.value = none ∧ (∃ tag, e = .opening tag ∧ tag.name = element) ∧
      n.inCell = true
  | .rowEnd => n.value = none ∧ e = .closing rowName ∧ n.inRow = true
  | .cellEnd => n.value = none ∧ e = .closing cellName
  | .valueEnd => ∃ element, n.value = some element ∧ e = .closing element
  | .other => True

/-- **An event has its role with good reason.** -/
theorem admits_role (n : Nesting) (e : Event) : n.Admits e (n.role e) := by
  simp only [role]
  cases hvalue : n.value with
  | some element =>
    dsimp only
    split_ifs with he
    · exact ⟨element, hvalue, he⟩
    · trivial
  | none =>
    cases e with
    | opening tag =>
      dsimp only
      split_ifs with hrow hcell hname
      · exact ⟨hvalue, rfl, hrow⟩
      · exact ⟨hvalue, rfl, hcell.2, hcell.1⟩
      · exact ⟨hvalue, ⟨tag, rfl, rfl⟩, hname.1⟩
      · trivial
    | closing name =>
      dsimp only
      split_ifs with hrow hcell
      · exact ⟨hvalue, by rw [hrow.2], hrow.1⟩
      · exact ⟨hvalue, by rw [hcell]⟩
      · trivial
    | _ => trivial

theorem admits_of_role {n : Nesting} {e : Event} {role : Role} (h : n.role e = role) :
    n.Admits e role := h ▸ n.admits_role e

end Nesting

/-- What an event is with which the reader does this. -/
def Action.role : Action → Role
  | readValue item e => if e = .closing item.element then .valueEnd else .other
  | openRow tag => .rowTag tag
  | openCell tag => .cellTag tag
  | openValue element _ => .valueTag element
  | closeRow => .rowEnd
  | closeCell => .cellEnd
  | finish => .other
  | skip => .other

namespace Action

variable {item : StringItem} {e : Event}

/-- With a value that goes on, the event is nothing else to the reader. -/
theorem role_of_more (h : (item.step e).2 = .more) : (readValue item e).role = .other :=
  if_neg (item.ne_closing_of_step h)

/-- With a value that ends, the event is its end. -/
theorem role_of_finished {text : String} (h : (item.step e).2 = .finished text) :
    (readValue item e).role = .valueEnd :=
  if_pos (item.eq_closing_of_step h)

end Action

/-! ### One event -/

variable {τ : Type} {context : SheetContext} {withholdBlank : Bool} {onRow : τ → Row → τ × Bool}

namespace State

/-- What stands open in a reading. -/
def nesting {τ : Type} (s : State τ) : Nesting :=
  ⟨s.inRow, s.position.isSome, s.item.map (·.element)⟩

/-- **The reader does what the role of the event is.** -/
theorem role_nesting (s : State τ) (e : Event) : s.nesting.role e = (s.action e).role := by
  simp only [Nesting.role, action]
  cases hitem : s.item with
  | some item => simp [nesting, hitem, Action.role]
  | none =>
    cases e with
    | opening tag =>
      simp only [nesting, hitem, Option.map_none, actionOutside, Action.role]
      split_ifs <;> simp_all
    | closing name =>
      simp only [nesting, hitem, Option.map_none, actionOutside, Action.role]
      split_ifs <;> simp_all
    | _ => simp [nesting, hitem, actionOutside, Action.role]

/-- The reader begins a row with the tag of one. -/
theorem action_of_rowTag {s : State τ} {e : Event} {tag : Tag}
    (h : s.nesting.role e = .rowTag tag) : s.action e = .openRow tag := by
  rw [role_nesting] at h
  generalize s.action e = a at h
  cases a with
  | openRow tag' =>
    cases h
    rfl
  | readValue item e' =>
    simp only [Action.role] at h
    split_ifs at h
  | _ => cases h

/-- The reader begins a cell with the tag of one. -/
theorem action_of_cellTag {s : State τ} {e : Event} {tag : Tag}
    (h : s.nesting.role e = .cellTag tag) : s.action e = .openCell tag := by
  rw [role_nesting] at h
  generalize s.action e = a at h
  cases a with
  | openCell tag' =>
    cases h
    rfl
  | readValue item e' =>
    simp only [Action.role] at h
    split_ifs at h
  | _ => cases h

/-- Only where a value is open does the reader go on with one. -/
theorem item_of_action {s : State τ} {e e' : Event} {item : StringItem}
    (h : s.action e = .readValue item e') : s.item = some item ∧ e' = e := by
  rw [action] at h
  cases hitem : s.item with
  | some item' =>
    rw [hitem] at h
    cases h
    exact ⟨rfl, rfl⟩
  | none =>
    rw [hitem] at h
    cases e with
    | opening tag =>
      simp only [actionOutside] at h
      split_ifs at h
    | closing name =>
      simp only [actionOutside] at h
      split_ifs at h
    | _ => cases h

/-- The value goes on, or it ends with its element. -/
theorem nesting_stepValue {s s' : State τ} {item : StringItem} {e : Event}
    {progress : Progress SheetFailure Ending} (hitem : s.item = some item)
    (h : s.stepValue item e = (s', progress)) (hp : ∀ failure, progress ≠ .failed failure) :
    s'.nesting = s.nesting.behind (Action.readValue item e).role := by
  rw [stepValue] at h
  split at h
  next item' hstep =>
    cases h
    have helement : item'.element = item.element := by
      have hsame := item.element_step e
      rwa [hstep] at hsame
    rw [Action.role_of_more (congrArg Prod.snd hstep)]
    simp [nesting, Nesting.behind, hitem, helement]
  next item' text hstep =>
    cases h
    rw [Action.role_of_finished (congrArg Prod.snd hstep)]
    simp [nesting, Nesting.behind]
  next failure _ =>
    cases h
    exact absurd rfl (hp _)

/-- The end of a cell closes it and leaves everything else but the row as it is. -/
theorem closeCell_keeps (s : State τ) (context : SheetContext) :
    (s.closeCell context).1.position = none ∧ (s.closeCell context).1.inRow = s.inRow ∧
      (s.closeCell context).1.item = s.item ∧ (s.closeCell context).1.observer = s.observer := by
  simp only [closeCell]
  split
  · split
    · split <;> exact ⟨rfl, rfl, rfl, rfl⟩
    · exact ⟨rfl, rfl, rfl, rfl⟩
  · exact ⟨rfl, rfl, rfl, rfl⟩

/-- **What stands open behind an event** with which a reading does not fail. -/
theorem nesting_step {s s' : State τ} {e : Event} {progress : Progress SheetFailure Ending}
    (h : s.step context withholdBlank onRow e = (s', progress))
    (hp : ∀ failure, progress ≠ .failed failure) : s'.nesting = s.nesting.step e := by
  rw [step_eq] at h
  rw [Nesting.step_eq, role_nesting]
  cases haction : s.action e with
  | readValue item e' =>
    rw [haction] at h
    obtain ⟨hitem, rfl⟩ := item_of_action haction
    exact nesting_stepValue hitem h hp
  | openRow tag =>
    rw [haction] at h
    simp only [Action.run, openRow] at h
    split at h
    · cases h
      exact absurd rfl (hp _)
    · cases h
      simp [nesting, Nesting.behind, Action.role]
  | openCell tag =>
    rw [haction] at h
    simp only [Action.run, openCell] at h
    split at h
    · cases h
      exact absurd rfl (hp _)
    · cases h
      simp [nesting, Nesting.behind, Action.role]
  | openValue element isValue =>
    rw [haction] at h
    cases h
    simp [nesting, Nesting.behind, Action.role, StringItem.start]
  | closeRow =>
    rw [haction] at h
    simp only [Action.run, closeRow] at h
    split at h
    · cases h
      simp [nesting, Nesting.behind, Action.role]
    · cases h
      simp [nesting, Nesting.behind, Action.role]
  | closeCell =>
    rw [haction] at h
    obtain ⟨hposition, hinRow, hitem, -⟩ := s.closeCell_keeps context
    obtain rfl : (s.closeCell context).1 = s' := congrArg Prod.fst h
    simp [nesting, Nesting.behind, Action.role, hposition, hinRow, hitem]
  | finish =>
    rw [haction] at h
    cases h
    rfl
  | skip =>
    rw [haction] at h
    cases h
    rfl

end State

end RowReading

end WorkbookTables
