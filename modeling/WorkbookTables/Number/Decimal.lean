import WorkbookTables.Number.Binary64
import WorkbookTables.Number.Numeral

/-!
# Decimal numerals with a point and an exponent

A decimal numeral has a sign or none, digits with a point or none, and an exponent or none; at
least one digit stands before or after the point. The words for infinity and for no number, in any
case, are numerals too. What is read is the nearest double-precision number, so a numeral that is
too large reads as infinity.

Powers of ten far outside the range are settled by counting digits, before any is computed.

## Main definitions

* `Decimal.Reading` — a finite number, an infinity, or no number
* `Decimal.read` — the reading of a text
-/

namespace WorkbookTables.Decimal

/-- Why a text is no decimal numeral. -/
inductive Fault where
  /-- There is no character at all. -/
  | empty
  /-- The characters do not have the shape of a numeral. -/
  | invalid
  deriving DecidableEq, Repr

/-- The wording of a fault. -/
def Fault.message : Fault → String
  | .empty => "cannot parse float from empty string"
  | .invalid => "invalid float literal"

/-- What a decimal numeral stands for. -/
inductive Reading where
  /-- A finite number. -/
  | finite (value : Binary64)
  /-- A number too large for the format, or infinity itself. -/
  | infinite (negative : Bool)
  /-- The value that is no number. -/
  | notNumber
  deriving DecidableEq, Repr

/-- The digits, the power of ten and the sign of a finite numeral. -/
structure Scientific where
  /-- Whether there is a minus sign. -/
  negative : Bool
  /-- The digits before and after the point, in one row. -/
  digits : List Char
  /-- The power of ten that the last digit counts. -/
  exponent : Int

/-- The value of a row of decimal digits. -/
def digitsValue (digits : List Char) : Nat :=
  digits.foldl (fun acc c => acc * 10 + (c.toNat - '0'.toNat)) 0

/-- The exponent that ends a numeral: a letter, a sign or none, and digits. Nothing is zero. -/
def readExponent? : List Char → Option Int
  | [] => some 0
  | mark :: rest =>
    if mark = 'e' ∨ mark = 'E' then
      let (negative, digits) := match rest with
        | '-' :: digits => (true, digits)
        | '+' :: digits => (false, digits)
        | digits => (false, digits)
      if digits ≠ [] ∧ digits.all Char.isDigit then
        some (if negative then -(digitsValue digits : Int) else digitsValue digits)
      else none
    else none

/-- The numeral without its sign. -/
def readUnsigned? (negative : Bool) (cs : List Char) : Option Scientific :=
  let whole := cs.takeWhile Char.isDigit
  let (fraction, rest) := match cs.dropWhile Char.isDigit with
    | '.' :: rest => (rest.takeWhile Char.isDigit, rest.dropWhile Char.isDigit)
    | rest => ([], rest)
  if whole = [] ∧ fraction = [] then none
  else (readExponent? rest).map fun exponent =>
    ⟨negative, whole ++ fraction, exponent - fraction.length⟩

/-- The nearest double-precision number. A number of `n` digits that count `10 ^ e` lies between
`10 ^ (n + e - 1)` and `10 ^ (n + e)`, so only a narrow range of sums needs a computation. -/
def Scientific.reading (s : Scientific) : Reading :=
  let digits := s.digits.dropWhile (· == '0')
  let magnitude := s.exponent + digits.length
  if digits = [] ∨ magnitude < -330 then .finite ⟨s.negative, 0, 0⟩
  else if 310 < magnitude then .infinite s.negative
  else
    let value := digitsValue digits
    match Binary64.ofRatio? s.negative (value * Nat.pow 10 s.exponent.toNat)
        (Nat.pow 10 (-s.exponent).toNat) with
    | some x => .finite x
    | none => .infinite s.negative

/-- The words that are numerals, in lower case. -/
def readWord? (negative : Bool) (cs : List Char) : Option Reading :=
  match cs.map Char.toLower with
  | ['i', 'n', 'f'] => some (.infinite negative)
  | ['i', 'n', 'f', 'i', 'n', 'i', 't', 'y'] => some (.infinite negative)
  | ['n', 'a', 'n'] => some .notNumber
  | _ => none

/-- What a text reads as. -/
def read (s : String) : Except Fault Reading :=
  let (negative, cs) := match s.toList with
    | '-' :: rest => (true, rest)
    | '+' :: rest => (false, rest)
    | cs => (false, cs)
  if s.isEmpty then .error .empty
  else match readUnsigned? negative cs with
    | some scientific => .ok scientific.reading
    | none => match readWord? negative cs with
      | some reading => .ok reading
      | none => .error .invalid

example : (read "-.5e1").toOption = some (.finite ⟨true, 5629499534213120, -50⟩) := by
  decide +kernel

example : (read "1e309").toOption = some (.infinite false) := by decide +kernel

example : read "." = .error .invalid ∧ read "1e" = .error .invalid ∧ read "" = .error .empty :=
  ⟨rfl, rfl, rfl⟩

end WorkbookTables.Decimal
