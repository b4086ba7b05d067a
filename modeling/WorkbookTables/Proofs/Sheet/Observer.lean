import WorkbookTables.Proofs.Sheet.Actions

/-!
# The rows of a sheet do not depend on who observes them

A reading of rows touches its observer in one place, where a row is closed, and asks it only whether
to go on. So a document has one list of rows with one ending, whoever observes it, and a reading
with any observer is the same as showing the observer that list until it wants no more.

This is what allows the rows of a scan to be given beforehand, and what makes a probe, which stops
early, see the first of the rows that a scan sees.

## Main definitions

* `RowReading.showAll` — an observer that is shown rows until it wants no more
* `RowReading.shown` — the rows that it is shown

## Main results

* `RowReading.deliver_eq` — a reading shows its observer the rows of the document
* `RowReading.allRows_ne_stopped` — the document itself never ends because nothing more is wanted
-/

namespace WorkbookTables

open Markup

namespace RowReading

variable {τ : Type} {context : SheetContext} {withholdBlank : Bool} {onRow : τ → Row → τ × Bool}

/-! ### Observers without a document -/

/-- Shows rows to an observer until it wants no more; `ending` is how the rows end by themselves. -/
def showAll (onRow : τ → Row → τ × Bool) (ending : Except SheetFailure Ending) :
    τ → List Row → τ × Except SheetFailure Ending
  | observer, [] => (observer, ending)
  | observer, row :: rest =>
    match onRow observer row with
    | (observer, true) => showAll onRow ending observer rest
    | (observer, false) => (observer, .ok .stopped)

/-- The rows that an observer is shown until it wants no more, the last one included. -/
def shown (onRow : τ → Row → τ × Bool) : τ → List Row → List Row
  | _, [] => []
  | observer, row :: rest =>
    row :: match onRow observer row with
      | (observer, true) => shown onRow observer rest
      | (_, false) => []

theorem shown_isPrefix (onRow : τ → Row → τ × Bool) (observer : τ) (rows : List Row) :
    shown onRow observer rows <+: rows := by
  induction rows generalizing observer with
  | nil => exact List.prefix_rfl
  | cons row rest ih =>
    rw [shown]
    refine List.cons_prefix_cons.2 ⟨rfl, ?_⟩
    split
    · exact ih _
    · exact List.nil_prefix

/-- The observer that keeps what it is shown besides. -/
def keeping (onRow : τ → Row → τ × Bool) (kept : List Row × τ) (row : Row) :
    (List Row × τ) × Bool :=
  ((kept.1 ++ [row], (onRow kept.2 row).1), (onRow kept.2 row).2)

theorem showAll_keeping (ending : Except SheetFailure Ending) (kept : List Row) (observer : τ)
    (rows : List Row) :
    showAll (keeping onRow) ending (kept, observer) rows =
      ((kept ++ shown onRow observer rows, (showAll onRow ending observer rows).1),
        (showAll onRow ending observer rows).2) := by
  induction rows generalizing kept observer with
  | nil => simp [showAll, shown]
  | cons row rest ih =>
    simp only [showAll, shown, keeping]
    rcases onRow observer row with ⟨observer', _ | _⟩
    · rfl
    · dsimp only
      rw [ih, List.append_assoc, List.singleton_append]

/-- Rows end by themselves, unless the observer wants no more. -/
theorem snd_showAll (onRow : τ → Row → τ × Bool) (ending : Except SheetFailure Ending)
    (observer : τ) (rows : List Row) :
    (showAll onRow ending observer rows).2 = ending ∨
      (showAll onRow ending observer rows).2 = .ok .stopped := by
  induction rows generalizing observer with
  | nil => exact .inl rfl
  | cons row rest ih =>
    rw [showAll]
    split
    · exact ih _
    · exact .inr rfl

/-- An observer that wants more all the time is shown everything and sees the ending. -/
theorem showAll_of_wantsMore {next : τ → Row → τ} (ending : Except SheetFailure Ending)
    (observer : τ) (rows : List Row) :
    showAll (fun observer row => (next observer row, true)) ending observer rows =
      (rows.foldl next observer, ending) := by
  induction rows generalizing observer with
  | nil => rfl
  | cons row rest ih => exact ih _

/-! ### One step -/

/-- The state of a reading with an observer. -/
def State.watchedBy (s : State Unit) (observer : τ) : State τ :=
  ⟨s.row, s.lastRow, s.inRow, s.nextPosition, s.position, s.value, s.item, observer⟩

/-- How a step goes, whoever observes it: it leaves the observer alone, or it shows it one row. -/
inductive Goes (context : SheetContext) (withholdBlank : Bool) (s : State Unit) (e : Event)
    (s' : State Unit) : Prop where
  /-- The observer is left alone. -/
  | quietly (progress : Progress SheetFailure Ending) (hp : progress ≠ .finished .stopped)
      (h : ∀ {τ : Type} (onRow : τ → Row → τ × Bool) (observer : τ),
        (s.watchedBy observer).step context withholdBlank onRow e =
          (s'.watchedBy observer, progress))
  /-- The observer is shown a row, and the reading goes on if it wants more. -/
  | showing (row : Row)
      (h : ∀ {τ : Type} (onRow : τ → Row → τ × Bool) (observer : τ),
        (s.watchedBy observer).step context withholdBlank onRow e =
          (s'.watchedBy (onRow observer row).1,
            if (onRow observer row).2 then .more else .finished .stopped))

/-! #### What leaves the observer alone -/

theorem openRow_watchedBy (s : State Unit) (observer : τ) (tag : Tag) :
    (s.watchedBy observer).openRow tag =
      ((s.openRow tag).1.watchedBy observer, (s.openRow tag).2) := by
  have hnumber : (s.watchedBy observer).rowNumber = s.rowNumber := rfl
  simp only [State.openRow, hnumber]
  split <;> rfl

theorem openRow_ne_stopped (s : State Unit) (tag : Tag) :
    (s.openRow tag).2 ≠ .finished .stopped := by
  rw [State.openRow]
  split <;> simp

theorem openCell_watchedBy (s : State Unit) (observer : τ) (tag : Tag) :
    (s.watchedBy observer).openCell context tag =
      ((s.openCell context tag).1.watchedBy observer, (s.openCell context tag).2) := by
  simp only [State.openCell, State.watchedBy]
  split <;> rfl

theorem openCell_ne_stopped (context : SheetContext) (s : State Unit) (tag : Tag) :
    (s.openCell context tag).2 ≠ .finished .stopped := by
  rw [State.openCell]
  split <;> simp

theorem closeCell_watchedBy (s : State Unit) (observer : τ) :
    (s.watchedBy observer).closeCell context =
      ((s.closeCell context).1.watchedBy observer, (s.closeCell context).2) := by
  simp only [State.closeCell, State.watchedBy]
  split
  next position raw _ _ =>
    by_cases hsize : position < s.row.size
    · simp only [hsize, if_true]
      split <;> rfl
    · simp only [hsize, if_false]
  next => rfl

theorem closeCell_ne_stopped (context : SheetContext) (s : State Unit) :
    (s.closeCell context).2 ≠ .finished .stopped := by
  simp only [State.closeCell]
  split
  · split
    · split <;> simp
    · simp
  · simp

theorem stepValue_watchedBy (s : State Unit) (observer : τ) (item : StringItem) (e : Event) :
    (s.watchedBy observer).stepValue item e =
      ((s.stepValue item e).1.watchedBy observer, (s.stepValue item e).2) := by
  simp only [State.stepValue, State.watchedBy]
  split <;> rfl

theorem stepValue_ne_stopped (s : State Unit) (item : StringItem) (e : Event) :
    (s.stepValue item e).2 ≠ .finished .stopped := by
  simp only [State.stepValue]
  split <;> simp

/-! #### What shows it a row -/

theorem goes_closeRow (s : State Unit) (e : Event)
    (h : ∀ {τ : Type} (onRow : τ → Row → τ × Bool) (observer : τ),
      (s.watchedBy observer).step context withholdBlank onRow e =
        (s.watchedBy observer).closeRow withholdBlank onRow) :
    ∃ s', Goes context withholdBlank s e s' := by
  let closed := { s with inRow := false, lastRow := some s.row.number }
  by_cases hblank : withholdBlank ∧ s.row.isBlank
  · refine ⟨closed, .quietly .more (by simp) ?_⟩
    intro τ onRow observer
    rw [h]
    simp [State.closeRow, State.watchedBy, hblank, closed]
  · refine ⟨closed, .showing s.row ?_⟩
    intro τ onRow observer
    rw [h, State.closeRow]
    exact if_neg hblank

/-- Every action goes one of the two ways. -/
theorem goes_run (a : Action) (s : State Unit) (e : Event)
    (h : ∀ {τ : Type} (onRow : τ → Row → τ × Bool) (observer : τ),
      (s.watchedBy observer).step context withholdBlank onRow e =
        a.run context withholdBlank onRow (s.watchedBy observer)) :
    ∃ s', Goes context withholdBlank s e s' := by
  cases a with
  | readValue item e' =>
    refine ⟨(s.stepValue item e').1, .quietly _ (stepValue_ne_stopped s item e') ?_⟩
    intro τ onRow observer
    rw [h, ← stepValue_watchedBy, Action.run]
  | openRow tag =>
    refine ⟨(s.openRow tag).1, .quietly _ (openRow_ne_stopped s tag) ?_⟩
    intro τ onRow observer
    rw [h, ← openRow_watchedBy, Action.run]
  | openCell tag =>
    refine ⟨(s.openCell context tag).1, .quietly _ (openCell_ne_stopped context s tag) ?_⟩
    intro τ onRow observer
    rw [h, ← openCell_watchedBy, Action.run]
  | openValue element isValue =>
    refine ⟨(s.openValue element isValue).1, .quietly .more (by simp) ?_⟩
    intro τ onRow observer
    rw [h, Action.run]
    rfl
  | closeRow => exact goes_closeRow s e h
  | closeCell =>
    refine ⟨(s.closeCell context).1, .quietly _ (closeCell_ne_stopped context s) ?_⟩
    intro τ onRow observer
    rw [h, ← closeCell_watchedBy, Action.run]
  | finish => exact ⟨s, .quietly (.finished .complete) (by simp) h⟩
  | skip => exact ⟨s, .quietly .more (by simp) h⟩

/-- **A step goes one of the two ways**: what an event makes the reader do does not depend on the
observer. -/
theorem exists_goes (context : SheetContext) (withholdBlank : Bool) (s : State Unit) (e : Event) :
    ∃ s', Goes context withholdBlank s e s' := by
  refine goes_run (s.action e) s e ?_
  intro τ onRow observer
  have haction : (s.watchedBy observer).action e = s.action e := rfl
  rw [State.step_eq, haction]

/-- A step that fails shows no row to anyone. -/
theorem observer_of_failed {s s' : State τ} {e : Event} {failure : SheetFailure}
    (h : s.step context withholdBlank onRow e = (s', .failed failure)) :
    s'.observer = s.observer := by
  obtain ⟨t, hgoes⟩ := exists_goes context withholdBlank
    ⟨s.row, s.lastRow, s.inRow, s.nextPosition, s.position, s.value, s.item, ()⟩ e
  cases hgoes with
  | quietly progress hp hall =>
    obtain ⟨rfl, -⟩ := Prod.mk.inj (h.symm.trans (hall onRow s.observer))
    rfl
  | showing row hall =>
    obtain ⟨-, hprogress⟩ := Prod.mk.inj (h.symm.trans (hall onRow s.observer))
    split at hprogress <;> cases hprogress

/-! ### A whole reading -/

/-- The events that are left make rows with an ending, whoever observes them. -/
theorem exists_rows_of_run (context : SheetContext) (withholdBlank : Bool) (fault : Option Fault)
    (s : State Unit) (events : List Event) :
    ∃ rows ending, ending ≠ .ok .stopped ∧
      ∀ {τ : Type} (onRow : τ → Row → τ × Bool) (observer : τ),
        Prod.map State.observer id
            ((reading context withholdBlank onRow).run fault (s.watchedBy observer) events) =
          showAll onRow ending observer rows := by
  induction events generalizing s with
  | nil =>
    cases fault with
    | none =>
      exact ⟨[], .error (.error (.documentEnd (octetsText s.openElement))), by simp,
        fun _ _ => rfl⟩
    | some fault => exact ⟨[], .error (.error (.markup fault)), by simp, fun _ _ => rfl⟩
  | cons e rest ih =>
    obtain ⟨s', hgoes⟩ := exists_goes context withholdBlank s e
    obtain ⟨rows, ending, hending, hrest⟩ := ih s'
    cases hgoes with
    | quietly progress hp h =>
      cases progress with
      | more =>
        refine ⟨rows, ending, hending, ?_⟩
        intro τ onRow observer
        rw [Reading.run_cons_more (h onRow observer), hrest]
      | finished result =>
        refine ⟨[], .ok result, by simpa using hp, ?_⟩
        intro τ onRow observer
        rw [Reading.run_cons_finished (h onRow observer)]
        rfl
      | failed error =>
        refine ⟨[], .error error, by simp, ?_⟩
        intro τ onRow observer
        rw [Reading.run_cons_failed (h onRow observer)]
        rfl
    | showing row h =>
      refine ⟨row :: rows, ending, hending, ?_⟩
      intro τ onRow observer
      have hstep := h onRow observer
      rw [showAll]
      cases hshow : onRow observer row with
      | mk observer' wantsMore =>
        rw [hshow] at hstep
        cases wantsMore with
        | true => rw [Reading.run_cons_more hstep, hrest]
        | false =>
          rw [Reading.run_cons_finished hstep]
          rfl

/-- A document has one list of rows with one ending, whoever observes it. -/
theorem exists_rows_of_deliver (context : SheetContext) (withholdBlank : Bool) (d : Document) :
    ∃ rows ending, ending ≠ .ok .stopped ∧
      ∀ {τ : Type} (onRow : τ → Row → τ × Bool) (observer : τ),
        deliver context withholdBlank onRow observer d = showAll onRow ending observer rows := by
  obtain ⟨rows, ending, hending, h⟩ :=
    exists_rows_of_run context withholdBlank d.fault (.start ()) d.events
  exact ⟨rows, ending, hending, fun onRow observer => h onRow observer⟩

theorem foldl_push (kept : Array Row) (rows : List Row) :
    rows.foldl Array.push kept = kept ++ rows.toArray := by
  induction rows generalizing kept with
  | nil => simp
  | cons row rest ih => simp [ih]

theorem allRows_of_deliver {rows : List Row} {ending : Except SheetFailure Ending} {d : Document}
    (h : ∀ {τ : Type} (onRow : τ → Row → τ × Bool) (observer : τ),
      deliver context withholdBlank onRow observer d = showAll onRow ending observer rows) :
    allRows context withholdBlank d = (rows.toArray, ending) := by
  rw [allRows, h]
  exact (showAll_of_wantsMore ending #[] rows).trans (by rw [foldl_push]; simp)

/-- **A reading shows its observer the rows of the document until it wants no more.** -/
theorem deliver_eq (context : SheetContext) (withholdBlank : Bool) (onRow : τ → Row → τ × Bool)
    (observer : τ) (d : Document) :
    deliver context withholdBlank onRow observer d =
      showAll onRow (allRows context withholdBlank d).2 observer
        (allRows context withholdBlank d).1.toList := by
  obtain ⟨rows, ending, -, h⟩ := exists_rows_of_deliver context withholdBlank d
  rw [h, allRows_of_deliver h]

/-- The rows that an observer is shown are those that it can keep while the document is read. -/
theorem kept_deliver (context : SheetContext) (withholdBlank : Bool) (onRow : τ → Row → τ × Bool)
    (observer : τ) (d : Document) :
    (deliver context withholdBlank (keeping onRow) ([], observer) d).1.1 =
      shown onRow observer (allRows context withholdBlank d).1.toList := by
  rw [deliver_eq, showAll_keeping, List.nil_append]

/-- **The rows of a document never end because nothing more is wanted.** -/
theorem allRows_ne_stopped (context : SheetContext) (withholdBlank : Bool) (d : Document) :
    (allRows context withholdBlank d).2 ≠ .ok .stopped := by
  obtain ⟨rows, ending, hending, h⟩ := exists_rows_of_deliver context withholdBlank d
  rw [allRows_of_deliver h]
  exact hending

end RowReading

end WorkbookTables
