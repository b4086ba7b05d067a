import Mathlib.Data.List.Perm.Basic
import WorkbookTables.Proofs.Table.Sampling

/-!
# The order of the sampled rows does not matter

To widen a type is to join it with another: the outcome is the same on whichever side the types
stand and however they are put together, with and without a common type for all numbers. So the type
of a column is the join of what the cells of the column speak for, and its rows may come in any
order.

Rows of different lengths are what makes this a question at all. A sampler that meets the longer row
first has a column for each of its positions from then on, and a sampler that meets it last has to
add columns for which the rows before it have spoken already. Both must come to the same. The rows
that count are those with a cell, for the others have said nothing about any column, and yet they
have spent a part of the budget.

## Main definitions

* `Sampler.counted` — the rows that a sampler learns from
* `Sampler.Joins` — a sampler knows the join of some rows

## Main results

* `ColumnType.ofCells_perm` — the type that cells make does not depend on their order
* `Sampler.sampleAll_joins` — what a sampler knows of rows, and of the same rows in another order
-/

namespace WorkbookTables

/-! ### Types that are joined -/

namespace ColumnType

variable {numeric : Bool}

theorem widen_comm (numeric : Bool) (s t : ColumnType) :
    widen numeric (some s) t = widen numeric (some t) s := by
  by_cases h : s = t
  · rw [h]
  · simp only [widen, if_neg h, if_neg (Ne.symm h), and_comm (a := s.isNumeric = true)]

theorem widen_assoc (numeric : Bool) (s t u : ColumnType) :
    widen numeric (some (widen numeric (some s) t)) u =
      widen numeric (some s) (widen numeric (some t) u) := by
  cases numeric <;> cases s <;> cases t <;> cases u <;> rfl

/-- Two cells may change places, also where they are the first. -/
theorem widen_right_comm (numeric : Bool) (current : Option ColumnType) (s t : ColumnType) :
    widen numeric (some (widen numeric current s)) t =
      widen numeric (some (widen numeric current t)) s := by
  cases current with
  | none => exact widen_comm numeric s t
  | some r =>
    calc widen numeric (some (widen numeric (some r) s)) t
        = widen numeric (some r) (widen numeric (some s) t) := widen_assoc numeric r s t
      _ = widen numeric (some r) (widen numeric (some t) s) := by rw [widen_comm numeric s t]
      _ = widen numeric (some (widen numeric (some r) t)) s := (widen_assoc numeric r t s).symm

/-- **The type that cells make does not depend on their order.** -/
theorem ofCells_perm {cells cells' : List Cell} (h : cells'.Perm cells) (numeric : Bool)
    (start : Option ColumnType) : ofCells numeric start cells' = ofCells numeric start cells := by
  have : RightCommutative fun current c => some (widen numeric current (ofCell c)) :=
    ⟨fun current c c' => congrArg some (widen_right_comm numeric current (ofCell c) (ofCell c'))⟩
  exact h.foldl_eq start

theorem ofCells_some (numeric : Bool) (t : ColumnType) (cells : List Cell) :
    ofCells numeric (some t) cells =
      some (cells.foldl (fun t c => widen numeric (some t) (ofCell c)) t) := by
  induction cells generalizing t with
  | nil => rfl
  | cons c rest ih => exact ih (widen numeric (some t) (ofCell c))

end ColumnType

/-! ### Samplers -/

namespace Sampler

variable {width eagerness : Nat} {widening : Bool} {rows rows' : List Row}

/-- The rows that a sampler learns from: as many as its budget allows, which is one at least, and
of these the ones with a cell. -/
def counted (eagerness : Nat) (rows : List Row) : List Row :=
  (rows.take (max eagerness 1)).filter fun row => !row.isEmpty

/-- A sampler that has been shown rows knows their join. -/
structure Joins (width eagerness : Nat) (widening : Bool) (rows : List Row) (s : Sampler) :
    Prop where
  /-- It is as wide as the longest row that counts, and at least as wide as it was. -/
  width : s.width = (counted eagerness rows).foldl (fun width row => max width row.size) width
  /-- Without a row that counts every column holds texts. -/
  none : counted eagerness rows = [] → ∀ position, s.typeAt position = .string
  /-- A column has the type that its cells make in the rows that count, whether there is such a
  column or not. -/
  types : ∀ first rest, counted eagerness rows = first :: rest → ∀ position,
    s.typeAt position = rest.foldl
      (fun t row => .widen widening (some t) (.ofCell (row.cell position)))
      (.ofCell (first.cell position))
  /-- It wants more until the budget is spent. -/
  wantsMore : s.wantsMore = true ↔ rows.length < max eagerness 1

theorem remaining_sampleAll (s : Sampler) (rows : List Row) :
    (s.sampleAll rows).remaining = s.remaining - rows.length := by
  induction rows generalizing s with
  | nil => rfl
  | cons row rest ih =>
    rw [sampleAll_cons, ih, remaining_sample, List.length_cons]
    omega

/-- Rows without cells are no longer than anything. -/
theorem greatestSize_filter (width : Nat) (rows : List Row) :
    greatestSize width (rows.filter fun row => !row.isEmpty) = greatestSize width rows := by
  induction rows generalizing width with
  | nil => rfl
  | cons row rest ih =>
    cases hrow : row.isEmpty with
    | true =>
      have hsize : row.size = 0 := by simpa [Row.size, Row.isEmpty] using hrow
      rw [List.filter_cons_of_neg (by simp [hrow]), ih, greatestSize, greatestSize,
        List.foldl_cons, hsize, Nat.max_zero]
    | false =>
      rw [List.filter_cons_of_pos (by simp [hrow])]
      exact ih (max width row.size)

theorem greatestSize_perm (h : rows'.Perm rows) (width : Nat) :
    greatestSize width rows' = greatestSize width rows := by
  have : RightCommutative fun (width : Nat) (row : Row) => max width row.size :=
    ⟨fun width row row' => Nat.max_right_comm width row.size row'.size⟩
  exact h.foldl_eq width

/-- The type of a column is made of its cells in the rows that count. -/
theorem typeAt_sampleAll_new (width eagerness : Nat) (widening : Bool) (rows : List Row)
    (position : Nat) :
    ((new width eagerness widening).sampleAll rows).typeAt position =
      (ColumnType.ofCells widening none
        ((counted eagerness rows).map (·.cell position))).getD .string := by
  rw [typeAt_eq, known_sampleAll, known_new]
  rfl

theorem width_sampleAll_new (width eagerness : Nat) (widening : Bool) (rows : List Row) :
    ((new width eagerness widening).sampleAll rows).width =
      greatestSize width (counted eagerness rows) := by
  rw [width_sampleAll, width_new, counted, greatestSize_filter]
  rfl

theorem joins_sampleAll (width eagerness : Nat) (widening : Bool) (rows : List Row) :
    ((new width eagerness widening).sampleAll rows).Joins width eagerness widening rows where
  width := width_sampleAll_new width eagerness widening rows
  none := by
    intro hnone position
    rw [typeAt_sampleAll_new, hnone]
    rfl
  types := by
    intro first rest hsome position
    rw [typeAt_sampleAll_new, hsome, List.map_cons]
    -- The first cell makes a type by itself, and the others widen it.
    have hfirst : ColumnType.ofCells widening none
        (first.cell position :: rest.map (·.cell position)) =
          ColumnType.ofCells widening (some (.ofCell (first.cell position)))
            (rest.map (·.cell position)) := rfl
    rw [hfirst, ColumnType.ofCells_some, Option.getD_some, List.foldl_map]
  wantsMore := by
    have hremaining := remaining_sampleAll (new width eagerness widening) rows
    have hbudget : (new width eagerness widening).remaining = max eagerness 1 := rfl
    rw [Sampler.wantsMore, decide_eq_true_iff, hremaining, hbudget]
    omega

/-- **What a sampler knows is the join of the rows that count**, and it does not depend on the order
of the rows that the budget allows, whatever comes behind them. -/
theorem sampleAll_joins (width eagerness : Nat) (widening : Bool) (rows : List Row) :
    ((new width eagerness widening).sampleAll rows).Joins width eagerness widening rows ∧
      ∀ rows', (rows'.take (max eagerness 1)).Perm (rows.take (max eagerness 1)) →
        ((new width eagerness widening).sampleAll rows').width =
            ((new width eagerness widening).sampleAll rows).width ∧
          ∀ position, ((new width eagerness widening).sampleAll rows').typeAt position =
            ((new width eagerness widening).sampleAll rows).typeAt position := by
  refine ⟨joins_sampleAll width eagerness widening rows, ?_⟩
  intro rows' hrows
  have hcounted : (counted eagerness rows').Perm (counted eagerness rows) := hrows.filter _
  refine ⟨?_, ?_⟩
  · rw [width_sampleAll_new, width_sampleAll_new, greatestSize_perm hcounted]
  · intro position
    rw [typeAt_sampleAll_new, typeAt_sampleAll_new,
      ColumnType.ofCells_perm (hcounted.map (·.cell position))]

/-- A row with a whole number. -/
def shortRow : Row := ⟨1, #[⟨some "1", ⟨none, .number⟩⟩]⟩

/-- A row with a fraction and a truth value. -/
def longRow : Row := ⟨2, #[⟨some "2.5", ⟨none, .number⟩⟩, ⟨some "true", ⟨none, .boolean⟩⟩]⟩

/-- The second column comes late for one sampler and holds texts; for the other it is there from the
beginning and holds texts as well, because the shorter row has no truth value. A row behind the
budget makes no difference. -/
theorem sampleAll_joins_longerLast :
    let rows := [shortRow, longRow]
    let rows' := [longRow, shortRow, .start 3]
    let sampler := (new 0 2 true).sampleAll rows
    let sampler' := (new 0 2 true).sampleAll rows'
    sampler.Joins 0 2 true rows ∧ (rows'.take (max 2 1)).Perm (rows.take (max 2 1)) ∧
      sampler.width = 2 ∧ sampler.typeAt 0 = .double ∧ sampler.typeAt 1 = .string ∧
      sampler'.width = sampler.width ∧
      ∀ position, sampler'.typeAt position = sampler.typeAt position := by
  intro rows rows' sampler sampler'
  have hrows : (rows'.take (max 2 1)).Perm (rows.take (max 2 1)) := .swap shortRow longRow []
  obtain ⟨hjoins, horder⟩ := sampleAll_joins 0 2 true rows
  obtain ⟨hwidth, htypes⟩ := horder rows' hrows
  exact ⟨hjoins, hrows, by decide +kernel, by decide +kernel, by decide +kernel, hwidth, htypes⟩

end Sampler

end WorkbookTables
