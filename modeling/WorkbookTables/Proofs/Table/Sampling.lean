import WorkbookTables.Table.Sampler

/-!
# What a sampler makes of rows

The array of a sampler grows with the rows that it is shown, and a position that comes late is
filled as if the rows before it had held an empty cell there. So the array can be forgotten: what is
known of a position, whether the array reaches it or not, is made of the cells that all rows have at
that position, where past the end of a row there is the empty cell. Rows without any cell are the
exception, because nothing is learnt from them.

## Main definitions

* `ColumnType.ofCells` — the type that the cells of a column make
* `Sampler.known` — what is known of a position
* `Sampler.sampleAll` — a sampler that is shown several rows

## Main results

* `Sampler.known_sampleAll` — the type of a column is made of its cells in the sampled rows
* `Sampler.width_sampleAll` — the width is that of the longest row
-/

namespace WorkbookTables

/-- The type that the cells of a column make; without cells there is none. -/
def ColumnType.ofCells (numeric : Bool) (start : Option ColumnType) (cells : List Cell) :
    Option ColumnType :=
  cells.foldl (fun current c => some (widen numeric current (ofCell c))) start

/-- The cells at a position in rows, leaving out the rows without any cell. -/
def columnCells (rows : List Row) (position : Nat) : List Cell :=
  (rows.filter fun row => !row.isEmpty).map (·.cell position)

theorem columnCells_cons_of_isEmpty {row : Row} (h : row.isEmpty = true) (rows : List Row)
    (position : Nat) : columnCells (row :: rows) position = columnCells rows position := by
  simp [columnCells, h]

theorem columnCells_cons_of_not_isEmpty {row : Row} (h : row.isEmpty = false) (rows : List Row)
    (position : Nat) :
    columnCells (row :: rows) position = row.cell position :: columnCells rows position := by
  simp [columnCells, h]

namespace Sampler

/-! ### One row -/

/-- What is known of the type at a position, also past the end of the array. -/
def known (s : Sampler) (position : Nat) : Option ColumnType :=
  s.types[position]?.getD (if 0 < s.sampled then some .string else none)

theorem typeAt_eq (s : Sampler) (position : Nat) :
    s.typeAt position = (s.known position).getD .string := by
  rw [typeAt, known]
  cases s.types[position]? with
  | some type => rfl
  | none => by_cases h : 0 < s.sampled <;> simp [h]

@[simp] theorem width_learn (s : Sampler) (row : Row) :
    (s.learn row).width = max s.width row.size := by
  simp only [learn, width, widened, Array.size_mapIdx, Array.size_append, Array.size_replicate]
  omega

/-- Widening the array changes nothing about what is known. -/
theorem known_widened (s : Sampler) (width position : Nat) :
    (s.widened width)[position]?.getD (if 0 < s.sampled then some .string else none) =
      s.known position := by
  rw [widened, known]
  by_cases h : position < s.types.size
  · rw [Array.getElem?_append_left h]
  · have hnone : s.types[position]? = none := Array.getElem?_eq_none (by omega)
    rw [Array.getElem?_append_right (by omega), hnone]
    by_cases h' : position - s.types.size < width - s.types.size
    · simp [h']
    · rw [Array.getElem?_eq_none (by simpa using h')]

/-- **A row widens the type of every column by its cell there**, even of those that the array does
not reach: both the row and the rows before it hold the empty cell there. -/
theorem known_learn (s : Sampler) (row : Row) (position : Nat) :
    (s.learn row).known position =
      some (.widen s.widening (s.known position) (.ofCell (row.cell position))) := by
  have hsampled : 0 < (s.learn row).sampled := Nat.succ_pos _
  rw [known, if_pos hsampled, ← known_widened s row.size position]
  simp only [learn, Array.getElem?_mapIdx]
  cases hp : (s.widened row.size)[position]? with
  | some current => rfl
  | none =>
    have hpast : row.size ≤ position := by
      have hsize := Array.getElem?_eq_none_iff.1 hp
      simp only [widened, Array.size_append, Array.size_replicate] at hsize
      omega
    have hcell : row.cell position = Cell.empty := by
      rw [Row.cell, Array.getElem?_eq_none hpast, Option.getD_none]
    have hstring : ColumnType.ofCell Cell.empty = .string := rfl
    rw [hcell, hstring, ColumnType.widen_string_right]
    rfl

/-! ### Many rows -/

/-- Shows a sampler rows one after another. -/
def sampleAll (s : Sampler) (rows : List Row) : Sampler :=
  rows.foldl sample s

@[simp] theorem sampleAll_nil (s : Sampler) : s.sampleAll [] = s := rfl

@[simp] theorem sampleAll_cons (s : Sampler) (row : Row) (rows : List Row) :
    s.sampleAll (row :: rows) = (s.sample row).sampleAll rows := rfl

theorem sample_of_spent {s : Sampler} (h : s.remaining = 0) (row : Row) : s.sample row = s := by
  simp [sample, h]

theorem sampleAll_of_spent {s : Sampler} (h : s.remaining = 0) (rows : List Row) :
    s.sampleAll rows = s := by
  induction rows with
  | nil => rfl
  | cons row rest ih => rw [sampleAll_cons, sample_of_spent h, ih]

@[simp] theorem widening_sample (s : Sampler) (row : Row) :
    (s.sample row).widening = s.widening := by
  rw [sample]
  split
  · rfl
  · split <;> rfl

/-- A row without cells costs budget, and nothing is learnt from it. -/
theorem known_sample_of_isEmpty {s : Sampler} {row : Row} (h : row.isEmpty = true)
    (position : Nat) : (s.sample row).known position = s.known position := by
  rw [sample]
  split
  · rfl
  · rw [if_pos h]
    rfl

theorem known_sample_of_not_isEmpty {s : Sampler} {row : Row} (hs : s.remaining ≠ 0)
    (h : row.isEmpty = false) (position : Nat) :
    (s.sample row).known position =
      some (.widen s.widening (s.known position) (.ofCell (row.cell position))) := by
  obtain ⟨remaining, hremaining⟩ := Nat.exists_eq_succ_of_ne_zero hs
  have hsample : s.sample row = ({ s with remaining } : Sampler).learn row := by
    simp [sample, hremaining, h]
  rw [hsample, known_learn]
  rfl

theorem width_sample {s : Sampler} (hs : s.remaining ≠ 0) (row : Row) :
    (s.sample row).width = max s.width row.size := by
  obtain ⟨remaining, hremaining⟩ := Nat.exists_eq_succ_of_ne_zero hs
  by_cases h : row.isEmpty = true
  · have hsize : row.size = 0 := by simpa [Row.size, Row.isEmpty] using h
    simp [sample, hremaining, h, hsize, width]
  · have hsample : s.sample row = ({ s with remaining } : Sampler).learn row := by
      simp [sample, hremaining, h]
    rw [hsample, width_learn]
    rfl

/-- **The type of a column is made of its cells in the rows that the budget allows.** -/
theorem known_sampleAll (s : Sampler) (rows : List Row) (position : Nat) :
    (s.sampleAll rows).known position =
      ColumnType.ofCells s.widening (s.known position)
        (columnCells (rows.take s.remaining) position) := by
  induction rows generalizing s with
  | nil => simp [columnCells, ColumnType.ofCells]
  | cons row rest ih =>
    by_cases hs : s.remaining = 0
    · rw [sampleAll_of_spent hs, hs]
      rfl
    · obtain ⟨remaining, hremaining⟩ := Nat.exists_eq_succ_of_ne_zero hs
      have hrest : (s.sample row).remaining = remaining := by simp [hremaining]
      rw [sampleAll_cons, ih, hrest, hremaining, List.take_succ_cons, widening_sample]
      cases hrow : row.isEmpty with
      | true => rw [known_sample_of_isEmpty hrow, columnCells_cons_of_isEmpty hrow]
      | false =>
        rw [known_sample_of_not_isEmpty hs hrow, columnCells_cons_of_not_isEmpty hrow]
        rfl

/-- The greatest of a width and the sizes of rows. -/
def greatestSize (width : Nat) (rows : List Row) : Nat :=
  rows.foldl (fun width row => max width row.size) width

theorem le_greatestSize (width : Nat) (rows : List Row) : width ≤ greatestSize width rows := by
  induction rows generalizing width with
  | nil => exact Nat.le_refl width
  | cons row rest ih => exact Nat.le_trans (Nat.le_max_left width row.size) (ih _)

theorem greatestSize_of_forall_le {width : Nat} {rows : List Row}
    (h : ∀ row ∈ rows, row.size ≤ width) : greatestSize width rows = width := by
  induction rows with
  | nil => rfl
  | cons row rest ih =>
    obtain ⟨hrow, hrest⟩ := List.forall_mem_cons.1 h
    rw [greatestSize, List.foldl_cons, Nat.max_eq_left hrow]
    exact ih hrest

/-- **The width is that of the longest of the rows that the budget allows.** -/
theorem width_sampleAll (s : Sampler) (rows : List Row) :
    (s.sampleAll rows).width = greatestSize s.width (rows.take s.remaining) := by
  induction rows generalizing s with
  | nil => simp [greatestSize]
  | cons row rest ih =>
    by_cases hs : s.remaining = 0
    · rw [sampleAll_of_spent hs, hs]
      rfl
    · obtain ⟨remaining, hremaining⟩ := Nat.exists_eq_succ_of_ne_zero hs
      have hrest : (s.sample row).remaining = remaining := by simp [hremaining]
      rw [sampleAll_cons, ih, hrest, hremaining, List.take_succ_cons, width_sample hs]
      rfl

/-! ### The start -/

@[simp] theorem width_new (width eagerness : Nat) (widening : Bool) :
    (new width eagerness widening).width = width := by
  simp [new, Sampler.width]

@[simp] theorem known_new (width eagerness : Nat) (widening : Bool) (position : Nat) :
    (new width eagerness widening).known position = none := by
  simp only [known, new]
  cases h : (Array.replicate width (none : Option ColumnType))[position]? with
  | none => rfl
  | some type =>
    obtain ⟨hlt, rfl⟩ := Array.getElem?_eq_some_iff.1 h
    simp

end Sampler

end WorkbookTables
