import WorkbookTables.Proofs.Cell.ReferenceRoundTrip

/-!
# Which texts are references

A column is named by its letters, small or capital, and by nothing else; a row by any digits with
the value of its number, so with zeros in front too. A reference is the one followed by the other,
and no third thing is read: neither a sign, nor a blank, nor a digit or a letter beyond ASCII.

Both directions are proved together. That nothing else names a column follows from one equation, by
which letters that have been read are those that are written for their value; the numeral has no
zero, so there is no second spelling to be told apart.

The value of letters is a number without any bound here. `lettersWithin?` gives up where the value
reaches a bound, as a word of a fixed size must, and it makes no difference which bound that is.

## Main definitions

* `Cell.NamesColumn`, `Cell.NamesRow` — the two halves of a reference
* `Cell.columnWithin?` — the reading of letters within a bound
* `Cell.ExactReferences` — what is read, and that it is read back

## Main results

* `Cell.columnIndex?_eq_some_iff`, `Cell.rowIndex?_eq_some_iff` — which texts name columns and rows
* `Cell.position?_eq_some_iff` — which texts are references
* `Cell.exactReferences` — all of this for every text and every position
-/

namespace WorkbookTables.Cell

/-! ### The grammar -/

/-- Letters that name a column: ASCII letters, at least one, that are those of the column when they
are written with capitals. -/
structure NamesColumn (letters : String) (column : Nat) : Prop where
  /-- There is a letter. -/
  ne_empty : letters ≠ ""
  /-- There is nothing else. -/
  isAlpha : ∀ c ∈ letters.toList, c.isAlpha = true
  /-- With capitals they are the letters of the column. -/
  toUpper : columnLetters column = letters.toUpper
  /-- A sheet has such a column. -/
  lt : column < columnLimit

/-- Digits that name a row: ASCII digits, at least one, whose value is the number of the row counted
from 1 and fits 64 bits. -/
structure NamesRow (digits : String) (row : Nat) : Prop where
  /-- There is a digit. -/
  ne_empty : digits ≠ ""
  /-- There is nothing else. -/
  isDigit : ∀ c ∈ digits.toList, c.isDigit = true
  /-- They have the value of the row. -/
  value : Nat.ofDigitChars 10 digits.toList 0 = row + 1
  /-- The value fits. -/
  lt : row + 1 < Nat.pow 2 64

/-! ### Single letters -/

variable {c : Char} {cs rest : List Char} {acc value column : Nat}

theorem isAlpha_iff : c.isAlpha = true ↔ 'A' ≤ c ∧ c ≤ 'Z' ∨ 'a' ≤ c ∧ c ≤ 'z' := by
  show (decide ('A' ≤ c ∧ c ≤ 'Z') || (decide ('a' ≤ c) && decide (c ≤ 'z'))) = true ↔ _
  simp only [Bool.or_eq_true, Bool.and_eq_true, decide_eq_true_eq]

theorem toUpper_ofNat : ∀ k < 26,
    (Char.ofNat ('A'.toNat + k)).toUpper = Char.ofNat ('A'.toNat + k) ∧
      (Char.ofNat ('a'.toNat + k)).toUpper = Char.ofNat ('A'.toNat + k) := by
  decide

/-- A letter has a value, and with its place in the alphabet one knows its capital. -/
theorem exists_place_of_isAlpha (h : c.isAlpha = true) :
    ∃ k < 26, letterValue? c = some (k + 1) ∧ c.toUpper = Char.ofNat ('A'.toNat + k) := by
  have hplace (first : Char) (hle : first.toNat ≤ c.toNat) :
      Char.ofNat (first.toNat + (c.toNat - first.toNat)) = c := by
    rw [Nat.add_sub_cancel' hle, Char.ofNat_toNat]
  rw [letterValue?]
  obtain hcapital | hsmall := isAlpha_iff.1 h
  · have hA : 65 ≤ c.toNat := hcapital.1
    have hZ : c.toNat ≤ 90 := hcapital.2
    have hlt : c.toNat - 'A'.toNat < 26 := by
      have hvalue : 'A'.toNat = 65 := rfl
      omega
    refine ⟨c.toNat - 'A'.toNat, hlt, if_pos hcapital, ?_⟩
    rw [← (toUpper_ofNat _ hlt).1, hplace 'A' hA]
  · have ha : 97 ≤ c.toNat := hsmall.1
    have hz : c.toNat ≤ 122 := hsmall.2
    have hlt : c.toNat - 'a'.toNat < 26 := by
      have hvalue : 'a'.toNat = 97 := rfl
      omega
    have hbeyond : ¬('A' ≤ c ∧ c ≤ 'Z') := by
      rintro ⟨-, hZ⟩
      have hle : c.toNat ≤ 90 := hZ
      omega
    refine ⟨c.toNat - 'a'.toNat, hlt, by rw [if_neg hbeyond, if_pos hsmall], ?_⟩
    rw [← (toUpper_ofNat _ hlt).2, hplace 'a' ha]

theorem isAlpha_of_letterValue? (h : letterValue? c = some value) : c.isAlpha = true := by
  rw [letterValue?] at h
  rw [isAlpha_iff]
  split at h
  next hcapital => exact .inl hcapital
  next =>
    split at h
    next hsmall => exact .inr hsmall
    next => cases h

/-! ### Letters one behind the other -/

theorem isAlpha_of_lettersValue? (h : lettersValue? acc cs = some value) :
    ∀ c ∈ cs, c.isAlpha = true := by
  induction cs generalizing acc with
  | nil => simp
  | cons c rest ih =>
    rw [lettersValue?] at h
    split at h
    next place hplace =>
      exact List.forall_mem_cons.2 ⟨isAlpha_of_letterValue? hplace, ih h⟩
    next => cases h

/-- Small letters have the values of the capitals. -/
theorem lettersValue?_toUpper (h : ∀ c ∈ cs, c.isAlpha = true) :
    lettersValue? acc (cs.map Char.toUpper) = lettersValue? acc cs := by
  induction cs generalizing acc with
  | nil => rfl
  | cons c rest ih =>
    obtain ⟨hc, hrest⟩ := List.forall_mem_cons.1 h
    obtain ⟨k, hk, hvalue, hupper⟩ := exists_place_of_isAlpha hc
    rw [List.map_cons, hupper, lettersValue?, lettersValue?, hvalue, letterValue?_ofNat k hk]
    exact ih hrest

theorem columnChars_of_lt {k : Nat} (hk : k < 26) (rest : List Char) :
    columnChars k rest = Char.ofNat ('A'.toNat + k) :: rest := by
  rw [columnChars, if_pos hk, Nat.mod_eq_of_lt hk]

/-- The last letter comes off the end. -/
theorem columnChars_succ_mul_add {k : Nat} (hk : k < 26) (column : Nat) (rest : List Char) :
    columnChars ((column + 1) * 26 + k) rest =
      columnChars column (Char.ofNat ('A'.toNat + k) :: rest) := by
  have hge : ¬(column + 1) * 26 + k < 26 := by omega
  have hlast : ((column + 1) * 26 + k) % 26 = k := by omega
  have hfirst : ((column + 1) * 26 + k) / 26 - 1 = column := by omega
  rw [columnChars, if_neg hge, hlast, hfirst]

/-- Letters behind those of a column make the letters of the column that they name together. -/
theorem columnChars_of_lettersValue? (h : lettersValue? (acc + 1) cs = some value)
    (rest : List Char) :
    columnChars (value - 1) rest = columnChars acc (cs.map Char.toUpper ++ rest) := by
  induction cs generalizing acc with
  | nil =>
    obtain rfl := Option.some.inj h
    rfl
  | cons c others ih =>
    obtain ⟨k, hk, hvalue, hupper⟩ :=
      exists_place_of_isAlpha (isAlpha_of_lettersValue? h c List.mem_cons_self)
    rw [lettersValue?, hvalue] at h
    change lettersValue? ((acc + 1) * 26 + k + 1) others = some value at h
    rw [ih h, List.map_cons, List.cons_append, hupper, columnChars_succ_mul_add hk]

/-- **Writing letters undoes reading them**, up to capitals. -/
theorem columnChars_of_ne_nil (hne : cs ≠ []) (h : lettersValue? 0 cs = some value) :
    columnChars (value - 1) [] = cs.map Char.toUpper := by
  cases cs with
  | nil => exact absurd rfl hne
  | cons c rest =>
    obtain ⟨k, hk, hvalue, hupper⟩ :=
      exists_place_of_isAlpha (isAlpha_of_lettersValue? h c List.mem_cons_self)
    rw [lettersValue?, hvalue] at h
    change lettersValue? (0 * 26 + (k + 1)) rest = some value at h
    rw [Nat.zero_mul, Nat.zero_add] at h
    rw [columnChars_of_lettersValue? h, List.append_nil, columnChars_of_lt hk, List.map_cons,
      hupper]

theorem toList_toUpper (letters : String) :
    letters.toUpper.toList = letters.toList.map Char.toUpper := by
  simp [String.toUpper]

theorem columnIndex?_of_ne_nil {letters : String} (h : letters.toList ≠ []) :
    columnIndex? letters =
      ((lettersValue? 0 letters.toList).map (· - 1)).filter (· < columnLimit) := by
  rw [columnIndex?]
  split
  next heq => exact absurd heq h
  next => rfl

/-- **Which texts name a column**, and which one. -/
theorem columnIndex?_eq_some_iff {letters : String} :
    columnIndex? letters = some column ↔ NamesColumn letters column := by
  constructor
  · intro h
    have hne : letters.toList ≠ [] := by
      intro hnil
      simp [columnIndex?, hnil] at h
    rw [columnIndex?_of_ne_nil hne] at h
    obtain ⟨hmap, hlt⟩ := Option.filter_eq_some_iff.1 h
    obtain ⟨value, hvalue, rfl⟩ := Option.map_eq_some_iff.1 hmap
    refine ⟨mt String.toList_eq_nil_iff.2 hne, isAlpha_of_lettersValue? hvalue, ?_,
      of_decide_eq_true hlt⟩
    have hbound := succ_lt_of_lt_columnLimit (of_decide_eq_true hlt)
    rw [← String.toList_inj, toList_toUpper, toList_columnLetters hbound,
      columnChars_of_ne_nil hne hvalue]
  · intro h
    have hne : letters.toList ≠ [] := mt String.toList_eq_nil_iff.1 h.ne_empty
    have hread := columnIndex?_columnLetters h.lt
    have hupper : letters.toUpper.toList ≠ [] := by simpa [toList_toUpper] using hne
    rw [h.toUpper, columnIndex?_of_ne_nil hupper, toList_toUpper,
      lettersValue?_toUpper h.isAlpha] at hread
    rw [columnIndex?_of_ne_nil hne, hread]

/-! ### Numbers of rows -/

/-- **Which digits name a row**, and which one. That the first of them is a digit leaves no room for
a sign. -/
theorem rowIndex?_eq_some_iff {digits : List Char} {row : Nat} (hne : digits ≠ [])
    (hfirst : ∀ c ∈ digits.head?, c.isDigit = true) :
    rowIndex? (String.ofList digits) = some row ↔ NamesRow (String.ofList digits) row := by
  obtain ⟨d, others, rfl⟩ := List.exists_cons_of_ne_nil hne
  have hplus : d ≠ '+' := by
    rintro rfl
    exact absurd (hfirst '+' rfl) (by decide)
  constructor
  · intro h
    rw [rowIndex?] at h
    split at h
    next value hread =>
      obtain rfl := Option.some.inj h
      rw [Numeral.read64, String.toList_ofList, Numeral.read_cons_of_ne hplus] at hread
      obtain ⟨hdigits, hvalue⟩ :=
        Numeral.valueFrom?_ten_iff.1 (Numeral.valueFrom?_of_readDigits hread)
      exact ⟨by simp, by simpa using hdigits, by simpa using hvalue,
        Numeral.lt_of_readDigits (by decide) hread⟩
    next => cases h
  · intro h
    have hspells : Numeral.Spells 10 (row + 1) (d :: others) := Numeral.spells_ten_iff.2
      ⟨hne, by simpa using h.isDigit, by simpa using h.value⟩
    have hread := hspells.read (by decide) h.lt
    rw [rowIndex?, Numeral.read64, String.toList_ofList, hread]

/-! ### References -/

theorem isDigit_of_mem_head?_dropWhile {cs : List Char} :
    ∀ c ∈ (cs.dropWhile (!·.isDigit)).head?, c.isDigit = true := by
  intro c hc
  have hnot := List.head?_dropWhile_not (!·.isDigit) cs
  rw [Option.mem_def.1 hc] at hnot
  simpa using hnot

theorem isDigit_of_isAlpha (h : c.isAlpha = true) : c.isDigit = false := by
  refine Bool.eq_false_iff.2 fun hdigit => ?_
  have hle : c.toNat ≤ 57 := of_decide_eq_true (Bool.and_eq_true_iff.1 hdigit).2
  obtain hcapital | hsmall := isAlpha_iff.1 h
  · have hge : 65 ≤ c.toNat := hcapital.1
    omega
  · have hge : 97 ≤ c.toNat := hsmall.1
    omega

/-- What has no digit before its first digit is cut there. -/
theorem position?_append {letters digits : String}
    (hletters : ∀ c ∈ letters.toList, c.isDigit = false) (hne : digits ≠ "")
    (hdigits : ∀ c ∈ digits.toList, c.isDigit = true) {row column : Nat}
    (hrow : rowIndex? digits = some row) (hcolumn : columnIndex? letters = some column) :
    position? (letters ++ digits) = some (row, column) := by
  obtain ⟨d, others, hcons⟩ := List.exists_cons_of_ne_nil (mt String.toList_eq_nil_iff.1 hne)
  have hd : (!d.isDigit) = false := by simp [hdigits d (by simp [hcons])]
  have hbefore : ∀ c ∈ letters.toList, (!c.isDigit) = true := by simpa using hletters
  have htake : (letters ++ digits).toList.takeWhile (!·.isDigit) = letters.toList := by
    rw [String.toList_append, hcons, List.takeWhile_append_of_pos hbefore,
      List.takeWhile_cons_of_neg (by simp [hd]), List.append_nil]
  have hdrop : (letters ++ digits).toList.dropWhile (!·.isDigit) = d :: others := by
    rw [String.toList_append, hcons, List.dropWhile_append_of_pos hbefore,
      List.dropWhile_cons_of_neg (by simp [hd])]
  have hall : String.ofList (d :: others) = digits := by rw [← hcons, String.ofList_toList]
  simp only [position?, htake, hdrop, hall, String.ofList_toList, hrow, hcolumn]

/-- **Which texts are references**, and to which position. -/
theorem position?_eq_some_iff {reference : String} {row column : Nat} :
    position? reference = some (row, column) ↔
      ∃ letters digits, reference = letters ++ digits ∧ NamesColumn letters column ∧
        NamesRow digits row := by
  constructor
  · intro h
    simp only [position?] at h
    split at h
    next => cases h
    next digits hne =>
      split at h
      next row' column' hrow hcolumn =>
        cases h
        refine ⟨_, _, ?_, columnIndex?_eq_some_iff.1 hcolumn,
          (rowIndex?_eq_some_iff hne isDigit_of_mem_head?_dropWhile).1 hrow⟩
        rw [← String.ofList_append, List.takeWhile_append_dropWhile, String.ofList_toList]
      next => cases h
  · rintro ⟨letters, digits, rfl, hcolumn, hrow⟩
    have hne : digits.toList ≠ [] := mt String.toList_eq_nil_iff.1 hrow.ne_empty
    have hfirst : ∀ c ∈ digits.toList.head?, c.isDigit = true := fun c hc =>
      hrow.isDigit c (List.mem_of_mem_head? hc)
    have hread := (rowIndex?_eq_some_iff hne hfirst).2 (by rwa [String.ofList_toList])
    rw [String.ofList_toList] at hread
    exact position?_append (fun c hc => isDigit_of_isAlpha (hcolumn.isAlpha c hc)) hrow.ne_empty
      hrow.isDigit hread (columnIndex?_eq_some_iff.2 hcolumn)

/-! ### Bounds -/

/-- The value of letters that follow others of value `acc`, none as soon as it reaches `bound`. -/
def lettersWithin? (bound acc : Nat) : List Char → Option Nat
  | [] => some acc
  | c :: rest =>
    match letterValue? c with
    | some value =>
      if acc * 26 + value < bound then lettersWithin? bound (acc * 26 + value) rest else none
    | none => none

/-- The column that letters name, counted from 0, with no value that reaches `bound` on the way. -/
def columnWithin? (bound : Nat) (letters : String) : Option Nat :=
  match letters.toList with
  | [] => none
  | cs => ((lettersWithin? bound 0 cs).map (· - 1)).filter (· < columnLimit)

/-- Further letters never make a value smaller. -/
theorem le_of_lettersValue? (h : lettersValue? acc cs = some value) : acc ≤ value := by
  induction cs generalizing acc with
  | nil => exact Nat.le_of_eq (Option.some.inj h)
  | cons c rest ih =>
    rw [lettersValue?] at h
    split at h
    next place hplace =>
      have hle := ih h
      omega
    next => cases h

/-- The bound on the way is no other than the bound at the end. -/
theorem lettersWithin?_eq {bound : Nat} (hacc : acc < bound) (cs : List Char) :
    lettersWithin? bound acc cs = (lettersValue? acc cs).filter (· < bound) := by
  induction cs generalizing acc with
  | nil => simp [lettersWithin?, lettersValue?, Option.filter, hacc]
  | cons c rest ih =>
    rw [lettersWithin?, lettersValue?]
    cases letterValue? c with
    | none => rfl
    | some place =>
      dsimp only
      split
      next hlt => exact ih hlt
      next hge =>
        refine (Option.filter_eq_none_iff.2 fun value hvalue => ?_).symm
        have hle := le_of_lettersValue? hvalue
        simp only [decide_eq_true_eq]
        omega

/-- **No bound above the last column makes a difference.** -/
theorem columnWithin?_eq {bound : Nat} (hbound : columnLimit < bound) (letters : String) :
    columnWithin? bound letters = columnIndex? letters := by
  have hpositive : 0 < bound := by omega
  by_cases hnil : letters.toList = []
  · simp [columnWithin?, columnIndex?, hnil]
  · have hwithin : columnWithin? bound letters =
        ((lettersWithin? bound 0 letters.toList).map (· - 1)).filter (· < columnLimit) := by
      rw [columnWithin?]
      split
      next heq => exact absurd heq hnil
      next => rfl
    rw [hwithin, columnIndex?_of_ne_nil hnil, lettersWithin?_eq hpositive]
    cases lettersValue? 0 letters.toList with
    | none => rfl
    | some value =>
      by_cases hlt : value < bound
      · simp [Option.filter, hlt]
      · have hbeyond : ¬value - 1 < columnLimit := by omega
        simp [Option.filter, hlt, hbeyond]

/-- No column of a sheet has more than three letters. -/
theorem length_columnChars_le (h : column < columnLimit) : (columnChars column []).length ≤ 3 := by
  have hlimit : columnLimit = 16384 := rfl
  rw [columnChars]
  split
  · simp
  · rw [columnChars]
    split
    · simp
    · rw [columnChars, if_pos (by omega)]
      simp

/-! ### All together -/

/-- What is read of a reference, and that a written one is read back. -/
structure ExactReferences : Prop where
  /-- A text is read as a column just if it names that column. -/
  columns : ∀ letters column,
    columnIndex? letters = some column ↔ NamesColumn letters column
  /-- It is the same whatever the value of the letters is bounded by. -/
  bounded : ∀ bound, columnLimit < bound → ∀ letters,
    columnWithin? bound letters = columnIndex? letters
  /-- However many letters there are, four or more are refused. -/
  tooLong : ∀ letters : String, 3 < letters.length → columnIndex? letters = none
  /-- A text is read as a position just if it names the column and behind it the row. -/
  positions : ∀ reference row column, position? reference = some (row, column) ↔
    ∃ letters digits, reference = letters ++ digits ∧ NamesColumn letters column ∧
      NamesRow digits row
  /-- A reference to a position that fits is read back. -/
  readBack : ∀ row column, row + 1 < Nat.pow 2 64 → column < columnLimit →
    position? (reference row column) = some (row, column)
  /-- The letters of a column have the value of the column counted from 1, in 64 bits. -/
  value : ∀ column, lettersValue? 0 (columnLetters column).toList = some (Numeral.next64 column)
  /-- Of the columns that fit 64 bits only the last has no letters. -/
  noLetters : ∀ column, column < Nat.pow 2 64 →
    (columnLetters column = "" ↔ Numeral.overflows64 column = true)
  /-- Different columns that fit 64 bits have different letters, past the last one of a sheet
  too. -/
  injective : ∀ first second, first < Nat.pow 2 64 → second < Nat.pow 2 64 →
    columnLetters first = columnLetters second → first = second

/-- **References are read exactly**: every text by the grammar, and every position back. -/
theorem exactReferences : ExactReferences where
  columns _ _ := columnIndex?_eq_some_iff
  bounded _ hbound letters := columnWithin?_eq hbound letters
  tooLong letters hlong := by
    refine Option.eq_none_iff_forall_ne_some.2 fun column h => ?_
    have hnames := columnIndex?_eq_some_iff.1 h
    have hlength : (columnLetters column).toList.length = letters.toUpper.toList.length := by
      rw [hnames.toUpper]
    have hle := length_columnChars_le hnames.lt
    rw [toList_columnLetters (succ_lt_of_lt_columnLimit hnames.lt), toList_toUpper,
      List.length_map, String.length_toList] at hlength
    omega
  positions _ _ _ := position?_eq_some_iff
  readBack _ _ hrow hcolumn := position?_reference hrow hcolumn
  value := lettersValue?_columnLetters
  noLetters _ hcolumn := columnLetters_eq_empty_iff hcolumn
  injective := by
    intro first second hfirst hsecond h
    have hvalue := lettersValue?_columnLetters first
    rw [h, lettersValue?_columnLetters] at hvalue
    exact (Numeral.next64_inj hsecond hfirst (Option.some.inj hvalue)).symm

end WorkbookTables.Cell
