import WorkbookTables.Proofs.Sheet.Fitting
import WorkbookTables.Proofs.Sheet.Nesting
import WorkbookTables.Proofs.Sheet.Truncation

/-!
# Rows that get lost

Nobody compares the end of an element with its beginning, so a sheet can be read to its end although
its elements are nested wrongly. What becomes of a row then can be told from the names of the tags
alone. A row begins where another one is open: the reader throws away what it has and goes on with
the new one. A row begins inside a value: the value goes on to the end of its own element, and the
tags in between mean nothing.

There is no third way. If the rows of a sheet are complete, every tag that begins a row has given a
row, or it has been lost in one of the two ways, or it is the one before it that has been lost. And
no sheet is complete at whose end a row or a value is open.

## Main definitions

* `Nesting.untilEnd` — the events before the tag at which the rows end
* `rowTags`, `Nesting.lostRows` — the rows that are begun, and those that get lost

## Main results

* `State.counts_step` — what one event does to the balance of rows
* `counts_passes` — the balance of a reading
* `RowParser.conserves_of_complete` — the rows of a sheet that is complete
* `RowParser.not_every_row_delivered` — not every row that is begun is handed over
-/

namespace WorkbookTables

open Markup

namespace RowReading

/-! ### Rows that are begun -/

/-- Holds of the tags that begin a row. -/
def isRowTag : Event → Bool
  | .opening tag => tag.name == rowName
  | _ => false

/-- How many rows are begun. -/
def rowTags (events : List Event) : Nat := events.countP isRowTag

namespace Nesting

/-- Holds if neither a row nor a value is open. -/
def isFree (n : Nesting) : Bool := !n.inRow && n.value.isNone

/-- The events before the tag at which the rows end: the first that ends their element where neither
a row nor a value is open. -/
def untilEnd : Nesting → List Event → Option (List Event)
  | _, [] => none
  | n, e :: rest =>
    if n.isFree ∧ e = .closing sheetDataName then some []
    else (untilEnd (n.step e) rest).map (e :: ·)

/-- How many rows are begun where a row or a value is open. -/
def lostRows : Nesting → List Event → Nat
  | _, [] => 0
  | n, e :: rest => (isRowTag e && !n.isFree).toNat + lostRows (n.step e) rest

/-- No row gets lost just if every row is begun where neither a row nor a value is open. -/
theorem lostRows_eq_zero_iff (n : Nesting) (events : List Event) :
    n.lostRows events = 0 ↔ ∀ before e rest, events = before ++ e :: rest → isRowTag e = true →
      (n.after before).isFree = true := by
  induction events generalizing n with
  | nil =>
    refine ⟨fun _ before e rest h => ?_, fun _ => rfl⟩
    exact absurd h.symm (by simp)
  | cons e₀ events ih =>
    rw [lostRows, Nat.add_eq_zero_iff, ih]
    constructor
    · rintro ⟨hhere, hrest⟩ before e rest hsplit htag
      cases before with
      | nil =>
        obtain ⟨rfl, -⟩ := List.cons_eq_cons.1 hsplit
        show n.isFree = true
        simpa [htag] using hhere
      | cons first before =>
        obtain ⟨rfl, hafter⟩ := List.cons_eq_cons.1 hsplit
        exact hrest before e rest hafter htag
    · intro hfree
      constructor
      · cases htag : isRowTag e₀ with
        | false => rfl
        | true =>
          have hhere : n.isFree = true := hfree [] e₀ events rfl htag
          simp [hhere]
      · intro before e rest hsplit htag
        exact hfree (e₀ :: before) e rest (by rw [hsplit, List.cons_append]) htag

end Nesting

/-! ### One event -/

namespace State

/-- How many rows have been handed over or are open. -/
def heldRows (s : State (Array Row)) : Nat := s.observer.size + s.inRow.toNat

variable {context : SheetContext} {s s' : State (Array Row)} {e : Event}

/-- What an event does: the nesting goes on with it, and a row that it begins is held or lost. -/
def Counts (s : State (Array Row)) (e : Event) (s' : State (Array Row)) : Prop :=
  s'.nesting = s.nesting.step e ∧
    s'.heldRows + (isRowTag e && !s.nesting.isFree).toNat = s.heldRows + (isRowTag e).toNat

/-- Where a value is open, nothing is held that was not held before. -/
theorem heldRows_stepValue {item : StringItem} (h : s.stepValue item e = (s', .more)) :
    s'.heldRows = s.heldRows := by
  rw [stepValue] at h
  split at h <;> cases h <;> rfl

theorem heldRows_opening {tag : Tag} (hitem : s.item = none)
    (h : s.stepSheet context false collect (.opening tag) = (s', .more)) :
    s'.heldRows + (isRowTag (.opening tag) && !s.nesting.isFree).toNat =
      s.heldRows + (isRowTag (.opening tag)).toNat := by
  simp only [stepSheet] at h
  split_ifs at h with hrow hcell hinline hvalue
  · rw [openRow] at h
    split at h
    · cases h
    cases h
    cases hopen : s.inRow <;>
      simp [heldRows, isRowTag, hrow, Nesting.isFree, nesting, hitem, hopen]
  all_goals
    have htag : isRowTag (.opening tag) = false := by simpa [isRowTag] using hrow
    rw [htag]
  · rw [openCell] at h
    split at h
    · cases h
    cases h
    rfl
  all_goals
    cases h
    rfl

theorem heldRows_closing {name : Octets}
    (h : s.stepSheet context false collect (.closing name) = (s', .more)) :
    s'.heldRows = s.heldRows := by
  simp only [stepSheet] at h
  split_ifs at h with hrow hcell hsheet
  · simp only [closeRow, collect, Bool.false_eq_true, false_and, if_false, if_true] at h
    cases h
    simp [heldRows, hrow.1]
  · obtain ⟨-, hinRow, -, hobserver⟩ := s.closeCell_keeps context
    obtain rfl : (s.closeCell context).1 = s' := congrArg Prod.fst h
    rw [heldRows, heldRows, hinRow, hobserver]
  · cases h
  · cases h
    rfl

/-- **What one event does to the balance**: a row that is begun is held behind it, unless it is
begun where a row or a value is open. -/
theorem counts_step (h : s.step context false collect e = (s', .more)) : s.Counts e s' := by
  refine ⟨nesting_step h (fun _ => nofun), ?_⟩
  rw [step] at h
  cases hitem : s.item with
  | some item =>
    rw [hitem] at h
    have hfree : s.nesting.isFree = false := by simp [Nesting.isFree, nesting, hitem]
    rw [heldRows_stepValue h, hfree, Bool.not_false, Bool.and_true]
  | none =>
    rw [hitem] at h
    cases e with
    | opening tag => exact heldRows_opening hitem h
    | closing name =>
      rw [heldRows_closing h]
      rfl
    | _ =>
      cases h
      rfl

end State

/-! ### A reading -/

variable {context : SheetContext} {s s' : State (Array Row)} {events : List Event}

/-- **The balance of a reading**: what is held and what has been lost make up the rows that have
been begun. -/
theorem counts_passes (h : (reading context false collect).Passes s events s') :
    s'.nesting = s.nesting.after events ∧
      s'.heldRows + s.nesting.lostRows events = s.heldRows + rowTags events := by
  induction h with
  | nil s => exact ⟨rfl, rfl⟩
  | @cons s s₁ s' e rest hstep _ ih =>
    obtain ⟨hnesting, hrows⟩ := State.counts_step hstep
    obtain ⟨hafter, hbalance⟩ := ih
    rw [hnesting] at hafter hbalance
    refine ⟨hafter, ?_⟩
    have htags : rowTags (e :: rest) = rowTags rest + (isRowTag e).toNat := by
      rw [rowTags, List.countP_cons]
      cases isRowTag e <;> rfl
    rw [Nesting.lostRows, htags]
    omega

theorem isFree_nesting {τ : Type} {s : State τ} :
    s.nesting.isFree = true ↔ s.item = none ∧ s.inRow = false := by
  cases hitem : s.item <;> cases hrow : s.inRow <;>
    simp [Nesting.isFree, State.nesting, hitem, hrow]

/-- A reading does not go through the tag at which the rows end. -/
theorem untilEnd_append (h : (reading context false collect).Passes s events s')
    (hitem : s'.item = none) (hinRow : s'.inRow = false) (later : List Event) :
    s.nesting.untilEnd (events ++ .closing sheetDataName :: later) = some events := by
  induction h with
  | nil s =>
    have hfree : s.nesting.isFree = true := isFree_nesting.2 ⟨hitem, hinRow⟩
    rw [List.nil_append, Nesting.untilEnd, if_pos ⟨hfree, rfl⟩]
  | @cons s s₁ s' e rest hstep _ ih =>
    have hgoesOn : ¬(s.nesting.isFree ∧ e = .closing sheetDataName) := by
      rintro ⟨hfree, rfl⟩
      obtain ⟨hitem, hinRow⟩ := isFree_nesting.1 hfree
      have hfinish : (reading context false collect).step s (.closing sheetDataName) =
          (s, .finished .complete) := step_of_action (s.action_closeSheet hitem hinRow)
      cases hfinish.symm.trans hstep
    rw [List.cons_append, Nesting.untilEnd, if_neg hgoesOn, ← (State.counts_step hstep).1,
      ih hitem hinRow, Option.map_some]

/-- The rows of a document end, complete, behind the given events. -/
def EndsBehind (context : SheetContext) (withholdBlank : Bool) (d : Document)
    (events : List Event) : Prop :=
  ∃ s later, d.events = events ++ .closing sheetDataName :: later ∧
    (reading context withholdBlank collect).Passes (.start #[]) events s ∧
    (reading context withholdBlank collect).step s (.closing sheetDataName) =
      (s, .finished .complete)

/-- What becomes of the rows that are begun in the events before the end of the rows. -/
structure Conserves (events : List Event) (rows : List Row) : Prop where
  /-- At the end neither a row nor a value is open. -/
  closed : (Nesting.start.after events).isFree = true
  /-- Every row that is begun is handed over or gets lost. -/
  balance : rows.length + Nesting.start.lostRows events = rowTags events
  /-- None gets lost just if each is begun where neither a row nor a value is open. -/
  complete : rows.length = rowTags events ↔ ∀ before e rest, events = before ++ e :: rest →
    isRowTag e = true → (Nesting.start.after before).isFree = true

/-- **Rows that are complete end at one tag, and before it none is lost but by nesting.** -/
theorem conserves_allRows {d : Document} (h : (allRows context false d).2 = .ok .complete) :
    ∃ events, EndsBehind context false d events ∧
      Nesting.start.untilEnd d.events = some events ∧
      Conserves events (allRows context false d).1.toList := by
  obtain ⟨events, s, later, hd, hpasses, hitem, hinRow⟩ := exists_passes_of_complete h
  have hrows : (allRows context false d).1 = s.observer :=
    congrArg Prod.fst (allRows_eq_complete hd hpasses hitem hinRow)
  obtain ⟨hnesting, hbalance⟩ := counts_passes hpasses
  have hheld : s.heldRows = s.observer.size := by simp [State.heldRows, hinRow]
  have hstart : (State.start (#[] : Array Row)).heldRows = 0 := rfl
  have hsum : s.observer.size + Nesting.start.lostRows events = rowTags events := by
    rw [hheld, hstart, Nat.zero_add] at hbalance
    exact hbalance
  refine ⟨events, ⟨s, later, hd, hpasses, step_of_action (s.action_closeSheet hitem hinRow)⟩, ?_,
    ?_, ?_, ?_⟩
  · rw [hd]
    exact untilEnd_append hpasses hitem hinRow later
  · have hfree : s.nesting.isFree = true := isFree_nesting.2 ⟨hitem, hinRow⟩
    rw [hnesting] at hfree
    exact hfree
  · rw [hrows, Array.length_toList, hsum]
  · rw [hrows, Array.length_toList, ← Nesting.lostRows_eq_zero_iff]
    omega

end RowReading

namespace RowParser

/-! ### Parsers -/

variable {context : SheetContext} {withholdBlank : Bool} {octets : Octets} {rows : List Row}
  {ending : Except SheetFailure Ending}

/-- What is handed over are the rows of the document. -/
theorem Delivers.allRows_eq (h : Delivers context withholdBlank octets rows ending) :
    RowReading.allRows context withholdBlank (.ofOctets octets) = (rows.toArray, ending) := by
  have hall := h (Array Row) Array.push #[] ""
  rw [delivers_allRows context withholdBlank octets (Array Row) Array.push #[] "",
    RowReading.foldl_push, RowReading.foldl_push] at hall
  simpa [Prod.ext_iff] using (Prod.mk.inj hall).2

/-- **The rows of a sheet that is complete**: every row that is begun before the tag at which they
end is handed over, unless it gets lost because a row or a value is open where it, or the next one,
is begun. -/
theorem conserves_of_complete (h : Delivers context false octets rows (.ok .complete)) :
    ∃ events, RowReading.EndsBehind context false (.ofOctets octets) events ∧
      RowReading.Nesting.start.untilEnd (Document.ofOctets octets).events = some events ∧
      RowReading.Conserves events rows := by
  have hall := h.allRows_eq
  obtain ⟨events, hends, huntil, hconserves⟩ :=
    RowReading.conserves_allRows (congrArg Prod.snd hall)
  rw [hall] at hconserves
  exact ⟨events, hends, huntil, hconserves⟩

/-- A sheet in which one row is begun inside another, and one inside the value of the other. -/
def overlapping : Octets :=
  Text.Utf8.encode <|
    "<sheetData><row r='1'><c><v>1</v></c><row r='2'><c><v>2</c></row>" ++
      "<row r='3'><c><v>3</v></c></row></sheetData>"

/-- The one row that is handed over: it has the number of the second and the values of both. -/
def overlappingRow : Row := ⟨1, #[⟨some "23", ⟨none, .number⟩⟩]⟩

theorem delivers_overlapping :
    Delivers plain false overlapping [overlappingRow] (.ok .complete) := by
  have hrows : (RowReading.allRows plain false (.ofOctets overlapping)).1 = #[overlappingRow] := by
    decide +kernel
  have hstage : Stage.after (RowReading.allRows plain false (.ofOctets overlapping)).2 =
      .after (.ok .complete) := by
    decide +kernel
  have hdelivers := delivers_allRows plain false overlapping
  rw [hrows, eq_ok_of_after hstage] at hdelivers
  exact hdelivers

theorem conserves_of_complete_overlapping :
    Delivers plain false overlapping [overlappingRow] (.ok .complete) ∧
      ∃ events, RowReading.EndsBehind plain false (.ofOctets overlapping) events ∧
        RowReading.Nesting.start.lostRows events = 2 ∧ RowReading.rowTags events = 3 ∧
        RowReading.Conserves events [overlappingRow] := by
  obtain ⟨events, hends, huntil, hconserves⟩ := conserves_of_complete delivers_overlapping
  have hlost : ((RowReading.Nesting.start.untilEnd (Document.ofOctets overlapping).events).map
      RowReading.Nesting.start.lostRows) = some 2 := by
    decide +kernel
  rw [huntil, Option.map_some, Option.some.injEq] at hlost
  have hbalance := hconserves.balance
  rw [hlost] at hbalance
  exact ⟨delivers_overlapping, events, hends, hlost, hbalance.symm, hconserves⟩

/-- **Not every row that is begun is handed over**, though the rows are complete. -/
theorem not_every_row_delivered :
    ¬∀ (context : SheetContext) (octets : Octets) (rows : List Row) (events : List Event),
      Delivers context false octets rows (.ok .complete) →
      RowReading.EndsBehind context false (.ofOctets octets) events →
      rows.length = RowReading.rowTags events := by
  intro hevery
  have hall := delivers_overlapping.allRows_eq
  obtain ⟨events, hends, huntil, -⟩ := RowReading.conserves_allRows (congrArg Prod.snd hall)
  have htags : ((RowReading.Nesting.start.untilEnd (Document.ofOctets overlapping).events).map
      RowReading.rowTags) = some 3 := by
    decide +kernel
  rw [huntil, Option.map_some, Option.some.injEq] at htags
  have hlength := hevery plain overlapping _ events delivers_overlapping hends
  rw [htags] at hlength
  cases hlength

end RowParser

end WorkbookTables
