import WorkbookTables.Number.Numeral

/-!
# References to cells

Columns are named by letters, `A` to `Z`, then `AA`, `AB` and so on: a numeral in base 26 whose
digits run from 1 to 26. Rows are numbered from 1 in references and from 0 everywhere else. A
reference is letters followed by digits; its letters may be small.

Writing is total. Both parts of a reference are written for the number that follows, the one that
counts from 1, and this number is counted in 64 bits: behind the last number of 64 bits comes 0, for
which the row is written `0` and the column has no letters at all. Where counting is checked, the
program breaks off there instead.

Reading gives nothing for a column past the last one of a sheet, however many letters it has.

## Main definitions

* `Cell.columnLimit` — how many columns a sheet has
* `Cell.columnLetters`, `Cell.columnIndex?` — between letters and columns counted from 0
* `Cell.rowIndex?` — a row counted from 0
* `Cell.reference`, `Cell.position?` — between references and positions
-/

namespace WorkbookTables.Cell

/-- How many columns a sheet has, `A` to `XFD`. -/
def columnLimit : Nat := 16384

/-- The place of a letter in the alphabet, from 1. -/
def letterValue? (c : Char) : Option Nat :=
  if 'A' ≤ c ∧ c ≤ 'Z' then some (c.toNat - 'A'.toNat + 1)
  else if 'a' ≤ c ∧ c ≤ 'z' then some (c.toNat - 'a'.toNat + 1)
  else none

/-- The value of letters that follow others of value `acc`. -/
def lettersValue? (acc : Nat) : List Char → Option Nat
  | [] => some acc
  | c :: rest =>
    match letterValue? c with
    | some value => lettersValue? (acc * 26 + value) rest
    | none => none

/-- The column that letters name, counted from 0. -/
def columnIndex? (letters : String) : Option Nat :=
  match letters.toList with
  | [] => none
  | cs => ((lettersValue? 0 cs).map (· - 1)).filter (· < columnLimit)

/-- The row that a numeral names, counted from 0. -/
def rowIndex? (number : String) : Option Nat :=
  match Numeral.read64 number with
  | .ok (row + 1) => some row
  | _ => none

/-- Row and column that a reference names, counted from 0. -/
def position? (reference : String) : Option (Nat × Nat) :=
  let cs := reference.toList
  let letters := cs.takeWhile (!·.isDigit)
  match cs.dropWhile (!·.isDigit) with
  | [] => none
  | digits =>
    match rowIndex? (String.ofList digits), columnIndex? (String.ofList letters) with
    | some row, some column => some (row, column)
    | _, _ => none

/-- The letters of a column counted from 0, before `rest`. -/
def columnChars (column : Nat) (rest : List Char) : List Char :=
  let last := Char.ofNat ('A'.toNat + column % 26)
  if column < 26 then last :: rest else columnChars (column / 26 - 1) (last :: rest)
termination_by column
decreasing_by omega

/-- The letters of a column counted from 0. The column behind which 64 bits start again from 0 has
none. -/
def columnLetters (column : Nat) : String :=
  match Numeral.next64 column with
  | 0 => ""
  | place + 1 => String.ofList (columnChars place [])

/-- The reference to a position counted from 0. The row behind which 64 bits start again from 0 is
written with that number. -/
def reference (row column : Nat) : String :=
  columnLetters column ++ String.ofList (Nat.toDigits 10 (Numeral.next64 row))

example : columnIndex? "xFd" = some 16383 ∧ columnIndex? "XFE" = none ∧ columnIndex? "" = none := by
  decide +kernel

example : columnLetters 16383 = "XFD" ∧ columnLetters 701 = "ZZ" ∧ columnLetters 702 = "AAA" := by
  decide +kernel

example : columnLetters 18446744073709551614 = "GKGWBYLWRXTLPO" ∧
    columnLetters 18446744073709551615 = "" ∧ reference 18446744073709551615 0 = "A0" := by
  decide +kernel

example : position? "AB100" = some (99, 27) ∧ position? "A0" = none ∧ position? "12" = none := by
  decide +kernel

end WorkbookTables.Cell
