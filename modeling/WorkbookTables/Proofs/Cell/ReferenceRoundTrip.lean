import WorkbookTables.Cell.Reference
import WorkbookTables.Proofs.Number.Spelling

/-!
# References are read back

The letters of a column are written from the last to the first, and read from the first to the last.
So the lemma that carries the round trip is about letters with something behind them: whatever
follows is read as if the number of the column, counted from 1, had been read before it.

Numbers counted from 1 are counted in 64 bits, and behind the last one stands 0. Letters are read
back there too, since no letters have the value 0. A row is not, and its bound is the one under
which references are read back.

## Main results

* `Cell.lettersValue?_columnChars`, `Cell.lettersValue?_columnLetters` — letters are read back
* `Cell.position?_reference` — references are read back
-/

namespace WorkbookTables.Cell

/-! ### Letters -/

theorem letterValue?_ofNat :
    ∀ k < 26, letterValue? (Char.ofNat ('A'.toNat + k)) = some (k + 1) := by
  decide

theorem isUpper_ofNat : ∀ k < 26, (Char.ofNat ('A'.toNat + k)).isUpper = true := by
  decide

/-- **Letters are read back**, also with others behind them. -/
theorem lettersValue?_columnChars (column : Nat) (rest : List Char) :
    lettersValue? 0 (columnChars column rest) = lettersValue? (column + 1) rest := by
  fun_induction columnChars column rest with
  | case1 column rest last hlt =>
    have hvalue := letterValue?_ofNat (column % 26) (Nat.mod_lt _ (by decide))
    have hsum : 0 * 26 + (column % 26 + 1) = column + 1 := by omega
    rw [lettersValue?, hvalue, ← hsum]
  | case2 column rest last hge ih =>
    have hvalue := letterValue?_ofNat (column % 26) (Nat.mod_lt _ (by decide))
    have hsum : (column / 26 - 1 + 1) * 26 + (column % 26 + 1) = column + 1 := by omega
    rw [ih, lettersValue?, hvalue, ← hsum]

/-- A column is written with capital letters. -/
theorem isUpper_columnChars (column : Nat) {rest : List Char}
    (h : ∀ c ∈ rest, c.isUpper = true) : ∀ c ∈ columnChars column rest, c.isUpper = true := by
  fun_induction columnChars column rest with
  | case1 column rest last hlt =>
    exact List.forall_mem_cons.2 ⟨isUpper_ofNat _ (Nat.mod_lt _ (by decide)), h⟩
  | case2 column rest last hge ih =>
    exact ih (List.forall_mem_cons.2 ⟨isUpper_ofNat _ (Nat.mod_lt _ (by decide)), h⟩)

theorem columnChars_ne_nil (column : Nat) (rest : List Char) : columnChars column rest ≠ [] := by
  fun_induction columnChars column rest with
  | case1 => simp
  | case2 column rest last hge ih => exact ih

/-- Every column of a sheet comes before the last number of 64 bits. -/
theorem succ_lt_of_lt_columnLimit {column : Nat} (h : column < columnLimit) :
    column + 1 < Nat.pow 2 64 :=
  Nat.lt_of_le_of_lt h (by decide)

/-- Only the last number of 64 bits has other letters, and it has none. -/
theorem toList_columnLetters {column : Nat} (h : column + 1 < Nat.pow 2 64) :
    (columnLetters column).toList = columnChars column [] := by
  rw [columnLetters, Numeral.next64_of_lt h, String.toList_ofList]

/-- The letters of a column have the value of the number behind it, also where that is 0. -/
theorem lettersValue?_columnLetters (column : Nat) :
    lettersValue? 0 (columnLetters column).toList = some (Numeral.next64 column) := by
  rw [columnLetters]
  split
  next hnext => rw [hnext]; rfl
  next place hnext =>
    rw [hnext, String.toList_ofList, lettersValue?_columnChars]
    rfl

/-- Of the columns that fit 64 bits only the last has no letters. -/
theorem columnLetters_eq_empty_iff {column : Nat} (h : column < Nat.pow 2 64) :
    columnLetters column = "" ↔ Numeral.overflows64 column = true := by
  rw [← Numeral.next64_eq_zero_iff h]
  constructor
  · intro hempty
    have hvalue := lettersValue?_columnLetters column
    rw [hempty] at hvalue
    exact (Option.some.inj hvalue).symm
  · intro hzero
    rw [columnLetters, hzero]

theorem isUpper_columnLetters (column : Nat) :
    ∀ c ∈ (columnLetters column).toList, c.isUpper = true := by
  rw [columnLetters]
  split
  next => exact fun c hc => absurd hc (by simp)
  next place _ =>
    rw [String.toList_ofList]
    exact isUpper_columnChars place (List.forall_mem_nil _)

theorem columnIndex?_columnLetters {column : Nat} (h : column < columnLimit) :
    columnIndex? (columnLetters column) = some column := by
  rw [columnIndex?, toList_columnLetters (succ_lt_of_lt_columnLimit h)]
  split
  next hnil => exact absurd hnil (columnChars_ne_nil column [])
  next => simp [lettersValue?_columnChars, lettersValue?, Option.filter, h]

theorem rowIndex?_toDigits {row : Nat} (h : row + 1 < Nat.pow 2 64) :
    rowIndex? (String.ofList (Nat.toDigits 10 (row + 1))) = some row := by
  rw [rowIndex?, Numeral.read64_toDigits h]

/-! ### References -/

theorem toList_reference (row column : Nat) :
    (reference row column).toList =
      (columnLetters column).toList ++ Nat.toDigits 10 (Numeral.next64 row) := by
  rw [reference, String.toList_append, String.toList_ofList]

/-- A reference is written with letters and digits. -/
theorem isAlphanum_reference (row column : Nat) :
    ∀ c ∈ (reference row column).toList, c.isAlphanum = true := by
  intro c hc
  rw [toList_reference, List.mem_append] at hc
  obtain hc | hc := hc
  · have hupper := isUpper_columnLetters column c hc
    show ((c.isUpper || c.isLower) || c.isDigit) = true
    rw [hupper]
    rfl
  · exact (Numeral.spells_toDigits _).isAlphanum c hc

theorem not_isDigit_of_isUpper {c : Char} (h : c.isUpper = true) : c.isDigit = false := by
  have hletter : 'A'.val ≤ c.val ∧ c.val ≤ 'Z'.val := of_decide_eq_true h
  have hdigit : c.isDigit = (decide ('0'.val ≤ c.val) && decide (c.val ≤ '9'.val)) := rfl
  have hA : 'A'.val.toNat = 65 := rfl
  have h9 : '9'.val.toNat = 57 := rfl
  have hbeyond : ¬c.val ≤ '9'.val := by
    rw [UInt32.le_iff_toNat_le] at hletter ⊢
    omega
  rw [hdigit, decide_eq_false hbeyond, Bool.and_false]

/-- A number is written with digits, of which there is at least one. -/
theorem exists_toDigits_eq (n : Nat) :
    ∃ d digits, Nat.toDigits 10 n = d :: digits ∧ d.isDigit = true := by
  obtain ⟨d, digits, hdigits⟩ := List.exists_cons_of_ne_nil
    (Nat.toDigits_ne_nil (n := n) (b := 10))
  refine ⟨d, digits, hdigits, ?_⟩
  exact Nat.isDigit_of_mem_toDigits (b := 10) (n := n) (by decide) (by decide)
    (by simp [hdigits])

theorem not_isDigit_columnLetters (column : Nat) :
    ∀ c ∈ (columnLetters column).toList, (!c.isDigit) = true := by
  intro c hc
  rw [not_isDigit_of_isUpper (isUpper_columnLetters column c hc)]
  rfl

/-- The letters of a reference are those of its column. -/
theorem takeWhile_reference (row column : Nat) :
    (reference row column).toList.takeWhile (!·.isDigit) = (columnLetters column).toList := by
  obtain ⟨d, digits, hdigits, hd⟩ := exists_toDigits_eq (Numeral.next64 row)
  rw [toList_reference, hdigits, List.takeWhile_append_of_pos (not_isDigit_columnLetters column),
    List.takeWhile_cons_of_neg (by simp [hd]), List.append_nil]

/-- What follows them is the numeral of its row. -/
theorem dropWhile_reference (row column : Nat) :
    (reference row column).toList.dropWhile (!·.isDigit) =
      Nat.toDigits 10 (Numeral.next64 row) := by
  obtain ⟨d, digits, hdigits, hd⟩ := exists_toDigits_eq (Numeral.next64 row)
  rw [toList_reference, hdigits, List.dropWhile_append_of_pos (not_isDigit_columnLetters column),
    List.dropWhile_cons_of_neg (by simp [hd])]

/-- **References are read back.** -/
theorem position?_reference {row column : Nat} (hrow : row + 1 < Nat.pow 2 64)
    (hcolumn : column < columnLimit) :
    position? (reference row column) = some (row, column) := by
  obtain ⟨d, digits, hdigits, -⟩ := exists_toDigits_eq (row + 1)
  have hcolumnIndex := columnIndex?_columnLetters hcolumn
  have hrowIndex := rowIndex?_toDigits hrow
  have hdropped := dropWhile_reference row column
  rw [hdigits] at hrowIndex
  rw [Numeral.next64_of_lt hrow, hdigits] at hdropped
  simp only [position?, takeWhile_reference, hdropped, String.ofList_toList, hcolumnIndex,
    hrowIndex]

end WorkbookTables.Cell
