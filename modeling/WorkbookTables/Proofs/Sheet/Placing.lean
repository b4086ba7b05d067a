import WorkbookTables.Sheet.Row

/-!
# Cells that are given one after the other

A cell is given in two steps: its style when its tag is opened, its text when it is closed. What
comes of a row is said by its size and by its cells, and each step is described by both. A position
that is given grows the row up to it and changes no other cell, so the order in which positions are
given does not matter as long as they differ.

## Main definitions

* `Row.place` — both steps, for a text that stands in its cell
* `Row.placeAll` — many texts

## Main results

* `Row.size_placeAll` — the size of a row whose texts are given
* `Row.cell_placeAll`, `Row.cell_placeAll_of_not_mem` — its cells
-/

namespace WorkbookTables.Row

variable (r : Row) (position : Nat) (style : Cell.Style) (text : String)

/-- A row begins without cells. -/
theorem cell_start (number : Nat) : (start number).cell position = Cell.empty := by
  simp [start, cell]

/-! ### The two steps -/

theorem size_extend (cells : Array Cell) :
    (extend cells position).size = max cells.size (position + 1) := by
  rw [extend, Array.size_append, Array.size_replicate]
  omega

/-- Growing a row leaves every cell as it is. -/
theorem getD_extend (cells : Array Cell) (q : Nat) :
    (extend cells position)[q]?.getD Cell.empty = cells[q]?.getD Cell.empty := by
  rw [extend, Array.getElem?_append]
  split
  next => rfl
  next hge =>
    rw [Array.getElem?_eq_none (Nat.not_lt.1 hge), Array.getElem?_replicate]
    split <;> rfl

theorem size_placeStyle : (r.placeStyle position style).size = max r.size (position + 1) := by
  simp [placeStyle, size, size_extend]

theorem cell_placeStyle_self :
    (r.placeStyle position style).cell position = { r.cell position with style } := by
  have hlt : position < (extend r.cells position).size := by
    rw [size_extend]
    omega
  have hcell := getD_extend position r.cells position
  rw [Array.getElem?_eq_getElem hlt, Option.getD_some] at hcell
  simp only [placeStyle, cell, Array.getElem?_modify, if_true, Array.getElem?_eq_getElem hlt,
    Option.map_some, Option.getD_some, hcell]

theorem cell_placeStyle_of_ne {q : Nat} (h : q ≠ position) :
    (r.placeStyle position style).cell q = r.cell q := by
  simp only [placeStyle, cell, Array.getElem?_modify, if_neg h.symm, getD_extend]

theorem size_placeText (text : Option String) (kind : Cell.Kind) :
    (r.placeText position text kind).size = r.size := by
  simp [placeText, size]

theorem cell_placeText_self {position : Nat} (h : position < r.size) (text : Option String)
    (kind : Cell.Kind) :
    (r.placeText position text kind).cell position =
      ⟨text, { (r.cell position).style with kind }⟩ := by
  have hlt : position < r.cells.size := h
  simp [placeText, cell, Array.getElem?_modify, Array.getElem?_eq_getElem hlt]

theorem cell_placeText_of_ne {q : Nat} (h : q ≠ position) (text : Option String)
    (kind : Cell.Kind) : (r.placeText position text kind).cell q = r.cell q := by
  simp only [placeText, cell, Array.getElem?_modify, if_neg h.symm]

/-! ### Both steps -/

/-- The row in which a text stands in its cell. -/
def place : Row :=
  (r.placeStyle position ⟨none, .inlineString⟩).placeText position (some text) .inlineString

theorem number_place : (r.place position text).number = r.number := by
  rw [place, placeText, placeStyle]

theorem size_place : (r.place position text).size = max r.size (position + 1) := by
  rw [place, size_placeText, size_placeStyle]

theorem cell_place_self :
    (r.place position text).cell position = ⟨some text, ⟨none, .inlineString⟩⟩ := by
  have hlt : position < (r.placeStyle position ⟨none, .inlineString⟩).size := by
    rw [size_placeStyle]
    omega
  rw [place, cell_placeText_self _ hlt, cell_placeStyle_self]

theorem cell_place_of_ne {q : Nat} (h : q ≠ position) :
    (r.place position text).cell q = r.cell q := by
  rw [place, cell_placeText_of_ne _ _ h, cell_placeStyle_of_ne _ _ _ h]

/-! ### Many cells -/

/-- The row in which texts stand at the positions given with them. -/
def placeAll (r : Row) (texts : List (Nat × String)) : Row :=
  texts.foldl (fun r a => r.place a.1 a.2) r

@[simp] theorem placeAll_cons (a : Nat × String) (rest : List (Nat × String)) :
    r.placeAll (a :: rest) = (r.place a.1 a.2).placeAll rest := by
  rw [placeAll, List.foldl_cons, placeAll]

variable {texts : List (Nat × String)}

theorem number_placeAll : (r.placeAll texts).number = r.number := by
  induction texts generalizing r with
  | nil => rfl
  | cons a rest ih => rw [placeAll_cons, ih, number_place]

/-- A row is as long as its last position wants. -/
theorem size_placeAll : (r.placeAll texts).size = (texts.map (·.1 + 1)).foldl max r.size := by
  induction texts generalizing r with
  | nil => rfl
  | cons a rest ih => rw [placeAll_cons, ih, size_place, List.map_cons, List.foldl_cons]

/-- Nothing stands where no text was given. -/
theorem cell_placeAll_of_not_mem {q : Nat} (h : q ∉ texts.map (·.1)) :
    (r.placeAll texts).cell q = r.cell q := by
  induction texts generalizing r with
  | nil => rfl
  | cons a rest ih =>
    obtain ⟨hne, hrest⟩ := not_or.1 (mt List.mem_cons.2 h)
    rw [placeAll_cons, ih _ hrest, cell_place_of_ne _ _ _ hne]

/-- **Every text stands where it was given**, if the positions differ. -/
theorem cell_placeAll (hnodup : (texts.map (·.1)).Nodup) {a : Nat × String} (h : a ∈ texts) :
    (r.placeAll texts).cell a.1 = ⟨some a.2, ⟨none, .inlineString⟩⟩ := by
  induction texts generalizing r with
  | nil => exact absurd h List.not_mem_nil
  | cons b rest ih =>
    obtain ⟨hb, hrest⟩ := List.nodup_cons.1 hnodup
    rw [placeAll_cons]
    obtain rfl | hmem := List.mem_cons.1 h
    · rw [cell_placeAll_of_not_mem _ hb, cell_place_self]
    · exact ih _ hrest hmem

end WorkbookTables.Row
