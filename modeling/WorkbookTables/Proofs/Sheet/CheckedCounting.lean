import WorkbookTables.Proofs.Markup.Failures
import WorkbookTables.Proofs.Sheet.Nesting

/-!
# Sheets where counting is checked

The reader counts numbers of rows in 64 bits, and behind the last one it starts again from 0. If
counting is checked it does not get that far: it breaks off, which is neither an end nor an error,
and the reading has no outcome. Nothing else depends on it, so the reading of a sheet where counting
is checked is the plain one up to the first event with which the reader counts on from the last
number.

There are three such events. A row without a number counts on from the row that was closed last. The
end of a cell with a value names the cell, whether its value can be rendered or not, and the number
of its row counts from 1 there. A cell without a reference that is one too many for its row is named
in the error, with the same number.

Sheets that are written in good faith are far from that. The reader counts by one with each row, so
it takes a number that is written out near the end of 64 bits to get there.

## Main definitions

* `Reading.Meets` — a reading comes to an event of a kind
* `Action.countsFrom`, `State.overflows` — where the reader counts on from the last number
* `deliverChecked` — the rows of a document where counting is checked

## Main results

* `deliverChecked_eq_none_iff`, `eq_deliver_of_deliverChecked` — it breaks off, or nothing changes
* `deliverChecked_of_numbers` — no document breaks off whose numbers leave room for its events
-/

namespace WorkbookTables

open Markup

/-! ### Readings that may break off -/

namespace Markup.Reading

variable {σ ε ρ : Type} {r : Reading σ ε ρ} {stops : σ → Event → Bool} {fault : Option Fault}

/-- The reading comes to an event of which `stops` holds. -/
inductive Meets (r : Reading σ ε ρ) (stops : σ → Event → Bool) : σ → List Event → Prop where
  /-- It is the first one. -/
  | here {s : σ} {e : Event} {rest : List Event} (h : stops s e = true) :
      Meets r stops s (e :: rest)
  /-- The reading goes on and comes to it later. -/
  | later {s s' : σ} {e : Event} {rest : List Event} (hstep : r.step s e = (s', .more))
      (h : Meets r stops s' rest) : Meets r stops s (e :: rest)

/-- Reads the events, which `fault` ends, but breaks off at an event of which `stops` holds. There
is no outcome then. -/
def runUnless (r : Reading σ ε ρ) (stops : σ → Event → Bool) (fault : Option Fault) :
    σ → List Event → Option (σ × Except ε ρ)
  | s, [] => some (r.run fault s [])
  | s, e :: rest =>
    if stops s e then none
    else
      match r.step s e with
      | (s', .more) => runUnless r stops fault s' rest
      | (s', .finished result) => some (s', .ok result)
      | (s', .failed error) => some (s', .error error)

theorem runUnless_eq_none_iff {s : σ} {events : List Event} :
    r.runUnless stops fault s events = none ↔ r.Meets stops s events := by
  constructor
  · intro h
    fun_induction runUnless r stops fault s events with
    | case1 => cases h
    | case2 s e rest hstops => exact .here hstops
    | case3 s e rest hstops s' hstep ih => exact .later hstep (ih h)
    | case4 => cases h
    | case5 => cases h
  · intro h
    induction h with
    | here hstops => rw [runUnless, if_pos hstops]
    | later hstep _ ih =>
      rw [runUnless, hstep]
      split
      next => rfl
      next => exact ih

/-- A reading that does not break off is the plain one. -/
theorem eq_run_of_runUnless {s : σ} {events : List Event} {outcome : σ × Except ε ρ}
    (h : r.runUnless stops fault s events = some outcome) : outcome = r.run fault s events := by
  fun_induction runUnless r stops fault s events with
  | case1 => exact (Option.some.inj h).symm
  | case2 => cases h
  | case3 s e rest hstops s' hstep ih => rw [run_cons_more hstep, ih h]
  | case4 s e rest hstops s' result hstep =>
    rw [run_cons_finished hstep]
    exact (Option.some.inj h).symm
  | case5 s e rest hstops s' error hstep =>
    rw [run_cons_failed hstep]
    exact (Option.some.inj h).symm

end Markup.Reading

namespace RowReading

variable {τ : Type} {context : SheetContext} {withholdBlank : Bool} {onRow : τ → Row → τ × Bool}
  {observer : τ} {d : Document}

/-! ### Where the reader counts -/

/-- The number of a row that an action counts on from, if it does: to number the next row, or to
write the reference of a cell. -/
def Action.countsFrom (s : State τ) : Action → Option Nat
  | openRow tag =>
    match tag.numeral? referenceName with
    | .ok none => s.lastRow
    | _ => none
  | openCell tag =>
    match tag.attribute? referenceName with
    | .ok none => if s.nextPosition < Cell.columnLimit then none else some s.row.number
    | _ => none
  | closeCell => if s.position.isSome ∧ s.value.isSome then some s.row.number else none
  | _ => none

/-- Holds if an event makes the reader count on from the last number of 64 bits. -/
def State.overflows (s : State τ) (e : Event) : Bool :=
  ((s.action e).countsFrom s).any Numeral.overflows64

/-- Hands the rows of a document to an observer where counting is checked. There is no outcome if
the reader counts on from the last number. -/
def deliverChecked (context : SheetContext) (withholdBlank : Bool) (onRow : τ → Row → τ × Bool)
    (observer : τ) (d : Document) : Option (τ × Except SheetFailure Ending) :=
  let read := (reading context withholdBlank onRow).runUnless State.overflows d.fault
    (.start observer) d.events
  read.map fun (s, result) => (s.observer, result)

/-- **The reader breaks off** just if it comes to an event with which it counts on from the last
number. -/
theorem deliverChecked_eq_none_iff :
    deliverChecked context withholdBlank onRow observer d = none ↔
      (reading context withholdBlank onRow).Meets State.overflows (.start observer) d.events := by
  rw [deliverChecked, Option.map_eq_none_iff, Reading.runUnless_eq_none_iff]

/-- **If it does not break off**, it makes no difference that counting is checked. -/
theorem eq_deliver_of_deliverChecked {outcome : τ × Except SheetFailure Ending}
    (h : deliverChecked context withholdBlank onRow observer d = some outcome) :
    outcome = deliver context withholdBlank onRow observer d := by
  obtain ⟨⟨s, result⟩, hread, rfl⟩ := Option.map_eq_some_iff.1 h
  have hrun := Reading.eq_run_of_runUnless hread
  rw [deliver, Reading.read, ← hrun]

/-! ### Numbers that leave room -/

/-- The numbers of rows that the reader knows are at most `bound`. -/
structure State.Below (s : State τ) (bound : Nat) : Prop where
  /-- The row that was closed last. -/
  lastRow : ∀ last, s.lastRow = some last → last ≤ bound
  /-- The row under construction. -/
  row : s.row.number ≤ bound

/-- No tag that an event brings gives a row a number above `bound`. -/
def NumbersUpTo (bound : Nat) (e : Event) : Prop :=
  ∀ tag n, e = .opening tag → tag.numeral? referenceName = .ok (some n) → n ≤ bound

namespace State.Below

variable {s s' : State τ} {bound : Nat} {e : Event}

theorem countsFrom_le (h : s.Below bound) {a : Action} {n : Nat}
    (hcounts : a.countsFrom s = some n) : n ≤ bound := by
  cases a with
  | openRow tag =>
    simp only [Action.countsFrom] at hcounts
    split at hcounts
    next => exact h.lastRow n hcounts
    next => cases hcounts
  | openCell tag =>
    simp only [Action.countsFrom] at hcounts
    split at hcounts
    next =>
      split at hcounts
      next => cases hcounts
      next =>
        cases hcounts
        exact h.row
    next => cases hcounts
  | closeCell =>
    simp only [Action.countsFrom] at hcounts
    split at hcounts
    next =>
      cases hcounts
      exact h.row
    next => cases hcounts
  | _ => cases hcounts

/-- Where there is room for one more, nothing is counted on from the last number. -/
theorem overflows_eq_false (h : s.Below bound) (hroom : bound + 1 < Nat.pow 2 64) (e : Event) :
    s.overflows e = false := by
  rw [overflows, Option.any_eq_false]
  intro n hcounts
  have hle := h.countsFrom_le hcounts
  rw [Numeral.overflows64_eq_false_iff]
  omega

theorem succ (h : s.Below bound) : s.Below (bound + 1) where
  lastRow last hlast := Nat.le_succ_of_le (h.lastRow last hlast)
  row := Nat.le_succ_of_le h.row

/-- A row gets a number from its tag, or one more than there was. -/
theorem rowNumber_le (h : s.Below bound) (hroom : bound + 1 < Nat.pow 2 64) {tag : Tag}
    (htag : ∀ n, tag.numeral? referenceName = .ok (some n) → n ≤ bound) {number : Nat}
    (hnumber : tag.numeral? referenceName >>= s.rowNumber = .ok number) : number ≤ bound + 1 := by
  obtain ⟨given, hgiven, hnumber⟩ := ok_of_bind hnumber
  match given with
  | some 0 => cases hnumber
  | some (n + 1) =>
    cases hnumber
    have hle := htag (number + 1) hgiven
    omega
  | none =>
    simp only [rowNumber] at hnumber
    split at hnumber
    next last hlast =>
      cases hnumber
      have hle := h.lastRow last hlast
      rw [Numeral.next64_of_lt (by omega)]
      omega
    next =>
      cases hnumber
      exact Nat.zero_le _

/-- **One action** needs room for one more: the beginning of a row may count, and its end makes its
number the last one. Every other action leaves both numbers as they are. -/
theorem run {progress : Progress SheetFailure Ending} (h : s.Below bound)
    (hroom : bound + 1 < Nat.pow 2 64) {a : Action}
    (htag : ∀ tag, a = .openRow tag → ∀ n, tag.numeral? referenceName = .ok (some n) → n ≤ bound)
    (hrun : a.run context withholdBlank onRow s = (s', progress)) : s'.Below (bound + 1) := by
  cases a with
  | openRow tag =>
    rw [Action.run, openRow] at hrun
    split at hrun
    next =>
      cases hrun
      exact h.succ
    next number hnumber =>
      cases hrun
      exact { h.succ with row := h.rowNumber_le hroom (htag tag rfl) hnumber }
  | closeRow =>
    have hclosed : ∀ last, some s.row.number = some last → last ≤ bound + 1 := by
      rintro last ⟨⟩
      exact h.succ.row
    simp only [Action.run, closeRow] at hrun
    split at hrun
    · cases hrun
      exact { h.succ with lastRow := hclosed }
    · cases hrun
      exact { h.succ with lastRow := hclosed }
  | openCell tag =>
    -- The row gets another cell here, and a text below, but keeps its number.
    rw [Action.run, openCell] at hrun
    split at hrun <;> cases hrun <;> exact { h.succ with }
  | closeCell =>
    simp only [Action.run, closeCell] at hrun
    split at hrun
    · split at hrun
      · split at hrun <;> cases hrun <;> exact { h.succ with }
      · cases hrun
        exact { h.succ with }
    · cases hrun
      exact { h.succ with }
  | readValue item e =>
    simp only [Action.run, stepValue] at hrun
    split at hrun <;> cases hrun <;> exact { h.succ with }
  | openValue element isValue =>
    cases hrun
    exact { h.succ with }
  | finish =>
    cases hrun
    exact h.succ
  | skip =>
    cases hrun
    exact h.succ

/-- **One event** needs room for one more. -/
theorem step {progress : Progress SheetFailure Ending} (h : s.Below bound)
    (hroom : bound + 1 < Nat.pow 2 64) (hnumbers : NumbersUpTo bound e)
    (hstep : s.step context withholdBlank onRow e = (s', progress)) : s'.Below (bound + 1) := by
  rw [step_eq] at hstep
  refine h.run hroom (fun tag htag => ?_) hstep
  have hrole : s.nesting.role e = .rowTag tag := by rw [role_nesting, htag, Action.role]
  obtain ⟨-, rfl, -⟩ := Nesting.admits_of_role hrole
  exact fun n hnumeral => hnumbers tag n rfl hnumeral

/-- **Events for which there is room** do not let the reader come to the last number. -/
theorem not_meets {events : List Event} (h : s.Below bound)
    (hnumbers : ∀ e ∈ events, NumbersUpTo bound e)
    (hroom : bound + events.length < Nat.pow 2 64) :
    ¬(reading context withholdBlank onRow).Meets overflows s events := by
  intro hmeets
  induction hmeets generalizing bound with
  | @here s e rest hoverflows =>
    rw [List.length_cons] at hroom
    rw [h.overflows_eq_false (by omega)] at hoverflows
    cases hoverflows
  | @later s s' e rest hstep _ ih =>
    obtain ⟨he, hrest⟩ := List.forall_mem_cons.1 hnumbers
    rw [List.length_cons] at hroom
    refine ih (h.step (by omega) he hstep) (fun e' he' => ?_) (by omega)
    intro tag n htag hnumeral
    exact Nat.le_succ_of_le (hrest e' he' tag n htag hnumeral)

end State.Below

/-- **No document breaks off whose numbers leave room for its events**: it is read as where counting
is not checked. -/
theorem deliverChecked_of_numbers {bound : Nat} (hnumbers : ∀ e ∈ d.events, NumbersUpTo bound e)
    (hroom : bound + d.events.length < Nat.pow 2 64) :
    deliverChecked context withholdBlank onRow observer d =
      some (deliver context withholdBlank onRow observer d) := by
  have hstart : (State.start observer).Below bound := ⟨nofun, Nat.zero_le bound⟩
  have hnone : deliverChecked context withholdBlank onRow observer d ≠ none :=
    mt deliverChecked_eq_none_iff.1 (hstart.not_meets hnumbers hroom)
  obtain ⟨outcome, houtcome⟩ := Option.ne_none_iff_exists'.1 hnone
  rw [houtcome, eq_deliver_of_deliverChecked houtcome]

/-- The first row has the last number but one, and two rows without a number follow it. -/
example :
    let d := Document.ofOctets (Text.Utf8.encode
      "<sheetData><row r='18446744073709551615'></row><row></row><row></row></sheetData>")
    (allRows ⟨#[], .empty, .from1900⟩ false d).1.map (·.number) =
        #[18446744073709551614, 18446744073709551615, 0] ∧
      (deliverChecked ⟨#[], .empty, .from1900⟩ false collect #[] d).isNone = true := by
  decide +kernel

end RowReading

end WorkbookTables
