import WorkbookTables.Sheet.RowReading

/-!
# What an event makes the reader of rows do

The reader chooses among a handful of actions, and the choice depends on names and on what is open,
but neither on the observer nor on the context. So the choice is separated here from what is done
then. Whatever is to be shown of a step is shown of each action, and which action an event leads to
is a question by itself.

## Main definitions

* `Action` — what the reader may do
* `State.action` — what an event makes it do
* `Action.run` — doing it

## Main results

* `State.step_eq` — a step does what the event makes the reader do
-/

namespace WorkbookTables.RowReading

open Markup

/-- What the reader may do with an event. -/
inductive Action where
  /-- It goes on with the value that is being read. -/
  | readValue (item : StringItem) (e : Event)
  /-- It begins a row. -/
  | openRow (tag : Tag)
  /-- It begins a cell. -/
  | openCell (tag : Tag)
  /-- It begins a value. -/
  | openValue (element : Octets) (isValue : Bool)
  /-- It ends the row. -/
  | closeRow
  /-- It ends the cell. -/
  | closeCell
  /-- It is finished. -/
  | finish
  /-- It passes the event over. -/
  | skip

variable {τ : Type}

/-- What an event outside values makes the reader do. -/
def State.actionOutside (s : State τ) (e : Event) : Action :=
  match e with
  | .opening tag =>
    if tag.name = rowName then .openRow tag
    else if s.inRow ∧ tag.name = cellName then .openCell tag
    else if s.position.isSome ∧ tag.name = inlineName then .openValue inlineName false
    else if s.position.isSome ∧ tag.name = valueName then .openValue valueName true
    else .skip
  | .closing name =>
    if s.inRow ∧ name = rowName then .closeRow
    else if name = cellName then .closeCell
    else if s.inRow = false ∧ name = sheetDataName then .finish
    else .skip
  | _ => .skip

/-- What an event makes the reader do. -/
def State.action (s : State τ) (e : Event) : Action :=
  match s.item with
  | some item => .readValue item e
  | none => s.actionOutside e

/-- The state after an action, and whether to go on. -/
def Action.run (context : SheetContext) (withholdBlank : Bool) (onRow : τ → Row → τ × Bool)
    (s : State τ) : Action → State τ × Progress SheetFailure Ending
  | readValue item e => s.stepValue item e
  | openRow tag => s.openRow tag
  | openCell tag => s.openCell context tag
  | openValue element isValue => s.openValue element isValue
  | closeRow => s.closeRow withholdBlank onRow
  | closeCell => s.closeCell context
  | finish => (s, .finished .complete)
  | skip => (s, .more)

variable {context : SheetContext} {withholdBlank : Bool} {onRow : τ → Row → τ × Bool}

theorem State.stepSheet_eq (s : State τ) (e : Event) :
    s.stepSheet context withholdBlank onRow e =
      (s.actionOutside e).run context withholdBlank onRow s := by
  cases e with
  | opening tag =>
    simp only [stepSheet, actionOutside, apply_ite (Action.run context withholdBlank onRow s)]
    rfl
  | closing name =>
    simp only [stepSheet, actionOutside, apply_ite (Action.run context withholdBlank onRow s)]
    rfl
  | text => rfl
  | characterData => rfl
  | reference => rfl
  | aside => rfl

/-- **A step does what the event makes the reader do.** -/
theorem State.step_eq (s : State τ) (e : Event) :
    s.step context withholdBlank onRow e = (s.action e).run context withholdBlank onRow s := by
  rw [step, action]
  cases s.item with
  | some item => rfl
  | none => exact s.stepSheet_eq e

theorem step_of_action {s : State τ} {e : Event} {action : Action} (h : s.action e = action) :
    (reading context withholdBlank onRow).step s e = action.run context withholdBlank onRow s :=
  (State.step_eq s e).trans (by rw [h])

/-! ### Which action it is -/

namespace State

variable {tag : Tag} (s : State τ)

theorem action_openRow (hitem : s.item = none) (hname : tag.name = rowName) :
    s.action (.opening tag) = .openRow tag := by
  rw [action, hitem]
  exact if_pos hname

theorem action_openCell (hitem : s.item = none) (hinRow : s.inRow = true)
    (hname : tag.name = cellName) : s.action (.opening tag) = .openCell tag := by
  have hrow : cellName ≠ rowName := by decide
  simp only [action, hitem, actionOutside, hname, hinRow, if_neg hrow, true_and, if_true]

theorem action_openInline (hitem : s.item = none) (hposition : s.position.isSome = true)
    (hname : tag.name = inlineName) :
    s.action (.opening tag) = .openValue inlineName false := by
  have hrow : inlineName ≠ rowName := by decide
  have hcell : inlineName ≠ cellName := by decide
  simp only [action, hitem, actionOutside, hname, hposition, if_neg hrow, hcell, and_false,
    true_and, if_false, if_true]

/-- An element that means nothing where no row is open is passed over. -/
theorem action_openOther (hitem : s.item = none) (hinRow : s.inRow = false)
    (hposition : s.position = none) (hname : tag.name ≠ rowName) :
    s.action (.opening tag) = .skip := by
  simp [action, hitem, actionOutside, if_neg hname, hinRow, hposition]

theorem action_closeRow (hitem : s.item = none) (hinRow : s.inRow = true) :
    s.action (.closing rowName) = .closeRow := by
  rw [action, hitem]
  exact if_pos ⟨hinRow, rfl⟩

theorem action_closeCell (hitem : s.item = none) : s.action (.closing cellName) = .closeCell := by
  have hrow : cellName ≠ rowName := by decide
  simp only [action, hitem, actionOutside, hrow, and_false, if_false, if_true]

theorem action_closeSheet (hitem : s.item = none) (hinRow : s.inRow = false) :
    s.action (.closing sheetDataName) = .finish := by
  have hcell : sheetDataName ≠ cellName := by decide
  simp only [action, hitem, actionOutside, hinRow, Bool.false_eq_true, false_and, hcell,
    true_and, if_false, if_true]

end State

end WorkbookTables.RowReading
