import WorkbookTables.Proofs.Sheet.Truncation

/-!
# Blank rows that are withheld

To withhold blank rows is to filter the rows that are handed over, and nothing else. A row that is
withheld has been read like any other: it counts for the numbers of the rows behind it, and what is
wrong with it is found. So the choice can be moved out of the reader and into its observer, who may
as well be handed every row and take no notice of the blank ones. Both readers then go through the
same states, and it is enough to compare them where a row ends.

The observer may want no more at any row. It is never asked after a blank row, and so it stops where
it would have stopped without the blank rows.

## Main definitions

* `Row.HoldsText` — a row with a text that is not empty
* `RowReading.sparing` — an observer that takes no notice of blank rows

## Main results

* `RowReading.reading_withholding` — withholding is a matter of the observer
* `RowReading.deliver_withholding` — an observer is shown the rows that hold a text
* `RowParser.parse_withholding` — the rows of a sheet with and without the blank ones
-/

namespace WorkbookTables

/-! ### Rows that hold a text -/

namespace Row

/-- Holds if some cell of a row has a text with at least one character. -/
def HoldsText (r : Row) : Prop :=
  ∃ position text, (r.cell position).text = some text ∧ text ≠ ""

/-- Past the end of a row there is no text. -/
theorem lt_size_of_text {r : Row} {position : Nat} {text : String}
    (h : (r.cell position).text = some text) : position < r.size := by
  refine Nat.lt_of_not_le fun hpast => ?_
  rw [cell, Array.getElem?_eq_none hpast, Option.getD_none] at h
  cases h

/-- A row is blank just if it holds no text. -/
theorem isBlank_eq_false_iff (r : Row) : r.isBlank = false ↔ r.HoldsText := by
  have hcell (c : Cell) : ¬c.text.all String.isEmpty = true ↔
      ∃ text, c.text = some text ∧ text ≠ "" := by
    cases c.text <;> simp
  have hblank : r.isBlank = false ↔ ∃ c ∈ r.cells, ∃ text, c.text = some text ∧ text ≠ "" := by
    simp only [isBlank, Array.all_eq_false', hcell]
  rw [hblank, HoldsText]
  constructor
  · rintro ⟨c, hc, text, htext, hne⟩
    obtain ⟨position, hposition, rfl⟩ := Array.mem_iff_getElem.1 hc
    exact ⟨position, text, by simpa [cell, hposition] using htext, hne⟩
  · rintro ⟨position, text, htext, hne⟩
    have hposition : position < r.cells.size := lt_size_of_text htext
    exact ⟨r.cells[position], Array.getElem_mem hposition, text,
      by simpa [cell, hposition] using htext, hne⟩

instance (r : Row) : Decidable r.HoldsText :=
  decidable_of_iff (r.isBlank = false) r.isBlank_eq_false_iff

theorem holdsText_of_not_isBlank {r : Row} (h : ¬r.isBlank = true) : r.HoldsText :=
  r.isBlank_eq_false_iff.1 (by simpa using h)

theorem not_holdsText_of_isBlank {r : Row} (h : r.isBlank = true) : ¬r.HoldsText := by
  rw [← isBlank_eq_false_iff, h]
  exact Bool.noConfusion

end Row

/-! ### Observers that take no notice of blank rows -/

namespace RowReading

open Markup

variable {τ : Type} {context : SheetContext}

/-- The observer that takes no notice of blank rows and wants another after each of them. -/
def sparing (onRow : τ → Row → τ × Bool) (observer : τ) (row : Row) : τ × Bool :=
  if row.isBlank then (observer, true) else onRow observer row

theorem closeRow_withholding (onRow : τ → Row → τ × Bool) (s : State τ) :
    s.closeRow true onRow = s.closeRow false (sparing onRow) := by
  simp only [State.closeRow, sparing]
  by_cases hblank : s.row.isBlank = true <;> simp [hblank]

/-- Where a row ends is the one place at which the readers could differ. -/
theorem run_withholding (onRow : τ → Row → τ × Bool) (a : Action) (s : State τ) :
    a.run context true onRow s = a.run context false (sparing onRow) s := by
  cases a with
  | closeRow => exact closeRow_withholding onRow s
  | _ => rfl

/-- **To withhold blank rows is to have an observer that takes no notice of them.** -/
theorem reading_withholding (context : SheetContext) (onRow : τ → Row → τ × Bool) :
    reading context true onRow = reading context false (sparing onRow) := by
  have hstep : State.step context true onRow = State.step context false (sparing onRow) := by
    funext s e
    rw [State.step_eq, State.step_eq, run_withholding]
  rw [reading, reading, hstep]

/-- Who takes no notice of blank rows might not be shown them at all. -/
theorem showAll_sparing (onRow : τ → Row → τ × Bool) (ending : Except SheetFailure Ending)
    (observer : τ) (rows : List Row) :
    showAll (sparing onRow) ending observer rows =
      showAll onRow ending observer (rows.filter fun row => row.HoldsText) := by
  induction rows generalizing observer with
  | nil => rfl
  | cons row rest ih =>
    by_cases hblank : row.isBlank = true
    · have hspared : sparing onRow observer row = (observer, true) := if_pos hblank
      rw [List.filter_cons_of_neg (by simpa using Row.not_holdsText_of_isBlank hblank), ← ih,
        showAll, hspared]
    · have hshown : sparing onRow observer row = onRow observer row := if_neg hblank
      rw [List.filter_cons_of_pos (by simpa using Row.holdsText_of_not_isBlank hblank), showAll,
        showAll, hshown]
      rcases onRow observer row with ⟨next, _ | _⟩
      · rfl
      · exact ih next

/-- **Without the blank rows an observer is shown the rows of the document that hold a text**, until
it wants no more. -/
theorem deliver_withholding (context : SheetContext) (onRow : τ → Row → τ × Bool) (observer : τ)
    (d : Document) :
    deliver context true onRow observer d =
      showAll onRow (allRows context false d).2 observer
        ((allRows context false d).1.toList.filter fun row => row.HoldsText) := by
  have hdeliver : deliver context true onRow observer d =
      deliver context false (sparing onRow) observer d := by
    rw [deliver, reading_withholding, ← deliver]
  rw [hdeliver, deliver_eq, showAll_sparing]

end RowReading

/-! ### Sheets -/

namespace RowParser

open RowReading

/-- **To withhold blank rows is a pure filter.** Of the rows of a sheet, those that hold a text are
handed over, with their numbers and all their cells and in their order; and the rows end in the same
way, be it well or with the same failure. -/
theorem parse_withholding (context : SheetContext) (octets : Markup.Octets) :
    ∃ rows ending, Delivers context false octets rows ending ∧
      Delivers context true octets (rows.filter fun row => row.HoldsText) ending := by
  refine ⟨_, _, delivers_allRows context false octets, ?_⟩
  intro τ next observer sheet
  simp only [parse, RowParser.new, deliver_withholding, showAll_of_wantsMore]

end RowParser

end WorkbookTables
