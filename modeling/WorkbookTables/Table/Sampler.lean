import WorkbookTables.Table.ColumnType

/-!
# Sampling the types of columns

A sampler is shown rows until its budget is spent, and knows the type of each column so far. Every
row costs one unit of the budget, a row without cells too, although nothing can be learnt from it.
A longer row makes the sampler wider; the rows before it had no cell at the new positions, and so
those columns are texts already.

## Main definitions

* `Sampler`, `Sampler.sample` — the sampler, and one row
* `Sampler.width`, `Sampler.typeAt`, `Sampler.wantsMore` — what is asked of it
-/

namespace WorkbookTables

/-- What is known of the types of columns from some rows. -/
structure Sampler where
  /-- The types so far by position, none before the first row with cells. -/
  types : Array (Option ColumnType)
  /-- How many more rows are wanted. -/
  remaining : Nat
  /-- How many rows with cells there were. -/
  sampled : Nat
  /-- Whether numbers with and without a fraction count as the same. -/
  widening : Bool
  deriving DecidableEq, Repr

namespace Sampler

/-- A sampler of so many columns and rows, at least one row. -/
def new (width eagerness : Nat) (widening : Bool) : Sampler :=
  ⟨Array.replicate width none, max eagerness 1, 0, widening⟩

/-- Holds while the budget is not spent. -/
def wantsMore (s : Sampler) : Bool := 0 < s.remaining

/-- The types of as many positions as a row has, at least. -/
def widened (s : Sampler) (width : Nat) : Array (Option ColumnType) :=
  s.types ++
    Array.replicate (width - s.types.size) (if 0 < s.sampled then some .string else none)

/-- Takes a row into account that has cells. -/
def learn (s : Sampler) (row : Row) : Sampler :=
  { s with
    types := (s.widened row.size).mapIdx fun position current =>
      some (ColumnType.widen s.widening current (.ofCell (row.cell position)))
    sampled := s.sampled + 1 }

/-- Shows the sampler a row. -/
def sample (s : Sampler) (row : Row) : Sampler :=
  match s.remaining with
  | 0 => s
  | remaining + 1 =>
    let spent := { s with remaining }
    if row.isEmpty then spent else spent.learn row

/-- How many columns have been seen. -/
def width (s : Sampler) : Nat := s.types.size

/-- The type of the column at a position; one of which nothing is known holds texts. -/
def typeAt (s : Sampler) (position : Nat) : ColumnType :=
  (s.types[position]?.getD none).getD .string

/-- Each row costs one unit of the budget. -/
@[simp] theorem remaining_sample (s : Sampler) (row : Row) :
    (s.sample row).remaining = s.remaining - 1 := by
  rcases s with ⟨types, _ | remaining, sampled, widening⟩
  · rfl
  · by_cases h : row.isEmpty <;> simp [sample, learn, h]

end Sampler

end WorkbookTables
