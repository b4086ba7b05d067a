/-!
# Double-precision numbers, exactly

A finite double-precision number is an integer of at most 53 bits times a power of two whose
exponent is at least `-1074`. It is kept here as a sign, a mantissa and an exponent, so that its
whole part and its fraction are integer arithmetic and nothing is left to the machine.

Rounding takes the nearest such number, of two equally near ones the one with the even mantissa,
and gives nothing when the result would be too large. It is defined for every pair of numerator
and denominator; with a denominator of zero its value has no meaning.

## Main definitions

* `roundHalfEven` — the integer nearest to a quotient
* `Binary64` — the finite double-precision numbers
* `Binary64.ofRatio?` — the number nearest to a quotient
* `Binary64.truncated`, `Binary64.isWhole` — the whole part, and whether there is nothing else
* `Binary64.scaledFraction` — the fraction times a factor, to the nearest integer
-/

namespace WorkbookTables

/-- The integer nearest to `num / den`, the even one of two equally near. -/
def roundHalfEven (num den : Nat) : Nat :=
  let quotient := num / den
  let twice := 2 * (num % den)
  if twice < den ∨ (twice = den ∧ quotient % 2 = 0) then quotient else quotient + 1

/-- The integer nearest to `num / den`, the greater one of two equally near. -/
def roundHalfUp (num den : Nat) : Nat :=
  (2 * num + den) / (2 * den)

/-- The greatest `e` with `2 ^ e ≤ num / den`, for positive `num` and `den`. -/
def floorLog2 (num den : Nat) : Int :=
  let guess : Int := (num.log2 : Int) - den.log2
  if den * Nat.pow 2 guess.toNat ≤ num * Nat.pow 2 (-guess).toNat then guess else guess - 1

/-- A finite double-precision number: `mantissa * 2 ^ exponent`, with its sign. -/
structure Binary64 where
  /-- Whether there is a minus sign; zero may have one. -/
  negative : Bool
  /-- The integer that is scaled. -/
  mantissa : Nat
  /-- The power of two that scales it. -/
  exponent : Int
  deriving DecidableEq, Repr

namespace Binary64

/-- The least exponent of a double-precision number. -/
def minExponent : Int := -1074

/-- What every double-precision number is less than. -/
def limit : Nat := Nat.pow 2 1024

/-- The number nearest to `num / den` with the given sign, none if it reaches the limit. -/
def ofRatio? (negative : Bool) (num den : Nat) : Option Binary64 :=
  if num = 0 then some ⟨negative, 0, 0⟩
  else
    let exponent := max (floorLog2 num den - 52) minExponent
    let mantissa :=
      roundHalfEven (num * Nat.pow 2 (-exponent).toNat) (den * Nat.pow 2 exponent.toNat)
    if mantissa * Nat.pow 2 exponent.toNat < limit then some ⟨negative, mantissa, exponent⟩
    else none

/-- What the mantissa is divided by. -/
def denominator (x : Binary64) : Nat := Nat.pow 2 (-x.exponent).toNat

/-- What the denominator divides. -/
def numerator (x : Binary64) : Nat := x.mantissa * Nat.pow 2 x.exponent.toNat

/-- Gives an integer the sign of `x`. -/
def withSign (x : Binary64) (n : Nat) : Int :=
  if x.negative then -(n : Int) else n

/-- The whole part, that is, `x` rounded toward zero. -/
def truncated (x : Binary64) : Int :=
  x.withSign (x.numerator / x.denominator)

/-- Holds if there is nothing after the point. -/
def isWhole (x : Binary64) : Bool :=
  x.numerator % x.denominator == 0

/-- The product of the fraction of `x` and `factor` as a double-precision number, rounded to the
nearest integer, away from zero if two are equally near. -/
def scaledFraction (x : Binary64) (factor : Nat) : Int :=
  match ofRatio? false (x.numerator % x.denominator * factor) x.denominator with
  | some product => x.withSign (roundHalfUp product.numerator product.denominator)
  | none => 0

end Binary64

example : Binary64.ofRatio? false 1 3 = some ⟨false, 6004799503160661, -54⟩ := by decide +kernel

example : Binary64.ofRatio? true (2 ^ 53 + 1) 1 = some ⟨true, 2 ^ 52, 1⟩ := by decide +kernel

example : Binary64.ofRatio? false (2 ^ 1024 - 1) 1 = none := by decide +kernel

end WorkbookTables
