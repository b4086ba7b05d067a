/-!
# Bounded unsigned numerals

A numeral is a row of digits, after a plus sign if it has one. Reading goes from left to right and
stops at the first thing that is wrong: of a foreign character and a value that no longer fits,
the one met first is reported, and a foreign character wins over the overflow at its own place.

What has been read may be counted on from, in a word of 64 bits. There are two ways to go on from
the last number that such a word holds, and which one it is depends on how a program is built. If
counting is not checked, it starts again from 0; this is what `next64` does, and with it the whole
library. If it is checked, the program breaks off. `overflows64` tells where the two part, and
nothing else tells them apart.

## Main definitions

* `Numeral.Fault` — the three ways in which a text is no numeral
* `Numeral.read` — a numeral in a given radix, below a given bound
* `Numeral.read64`, `Numeral.read32` — decimal numerals below `2 ^ 64` and `2 ^ 32`
* `Numeral.next64`, `Numeral.overflows64` — counting in 64 bits, and where it comes to its end
-/

namespace WorkbookTables.Numeral

/-- Why a text is no numeral. -/
inductive Fault where
  /-- There is no character at all. -/
  | empty
  /-- A character is no digit, or there is nothing but a sign. -/
  | invalidDigit
  /-- The value reaches the bound. -/
  | tooLarge
  deriving DecidableEq, Repr

/-- The wording of a fault. -/
def Fault.message : Fault → String
  | .empty => "cannot parse integer from empty string"
  | .invalidDigit => "invalid digit found in string"
  | .tooLarge => "number too large to fit in target type"

/-- The value of a digit in a radix up to thirty-six. -/
def digitValue? (radix : Nat) (c : Char) : Option Nat :=
  let value? :=
    if '0' ≤ c ∧ c ≤ '9' then some (c.toNat - '0'.toNat)
    else if 'a' ≤ c ∧ c ≤ 'z' then some (c.toNat - 'a'.toNat + 10)
    else if 'A' ≤ c ∧ c ≤ 'Z' then some (c.toNat - 'A'.toNat + 10)
    else none
  value?.filter (· < radix)

/-- The value of digits that follow others of value `acc`. -/
def readDigits (radix bound : Nat) (acc : Nat) : List Char → Except Fault Nat
  | [] => .ok acc
  | c :: rest =>
    match digitValue? radix c with
    | none => .error .invalidDigit
    | some d =>
      if acc * radix + d < bound then readDigits radix bound (acc * radix + d) rest
      else .error .tooLarge

/-- The value of a numeral in `radix`, provided that it is below `bound`. -/
def read (radix bound : Nat) : List Char → Except Fault Nat
  | [] => .error .empty
  | ['+'] => .error .invalidDigit
  | '+' :: digits => readDigits radix bound 0 digits
  | digits => readDigits radix bound 0 digits

/-- A decimal numeral that fits 64 bits. -/
def read64 (s : String) : Except Fault Nat :=
  read 10 (Nat.pow 2 64) s.toList

/-- A numeral in `radix` that fits 32 bits. -/
def read32 (radix : Nat) (cs : List Char) : Except Fault Nat :=
  read radix (Nat.pow 2 32) cs

/-- What is read from a bound above the value so far stays below the bound. -/
theorem lt_of_readDigits {radix bound acc n : Nat} {cs : List Char} (hacc : acc < bound)
    (h : readDigits radix bound acc cs = .ok n) : n < bound := by
  induction cs generalizing acc with
  | nil => cases h; exact hacc
  | cons c rest ih =>
    rw [readDigits] at h
    split at h
    · cases h
    · split at h
      · exact ih ‹_› h
      · cases h

/-! ## Counting -/

/-- The number after `n` in 64 bits. After the last one counting starts again from 0. -/
def next64 (n : Nat) : Nat := (n + 1) % Nat.pow 2 64

/-- Holds of the last number of 64 bits, from which checked counting does not go on. -/
def overflows64 (n : Nat) : Bool := Nat.pow 2 64 ≤ n + 1

theorem next64_of_lt {n : Nat} (h : n + 1 < Nat.pow 2 64) : next64 n = n + 1 :=
  Nat.mod_eq_of_lt h

theorem overflows64_eq_false_iff {n : Nat} : overflows64 n = false ↔ n + 1 < Nat.pow 2 64 := by
  rw [overflows64, decide_eq_false_iff_not, Nat.not_le]

/-- Different numbers of 64 bits are followed by different ones. -/
theorem next64_inj {m n : Nat} (hm : m < Nat.pow 2 64) (hn : n < Nat.pow 2 64)
    (h : next64 m = next64 n) : m = n := by
  have hbound : Nat.pow 2 64 = 18446744073709551616 := rfl
  rw [next64, next64, hbound] at h
  rw [hbound] at hm hn
  omega

/-- Counting starts again just where it comes to its end. -/
theorem next64_eq_zero_iff {n : Nat} (h : n < Nat.pow 2 64) :
    next64 n = 0 ↔ overflows64 n = true := by
  rw [overflows64, decide_eq_true_eq]
  constructor
  · intro hzero
    refine Nat.le_of_not_lt fun hlt => ?_
    rw [next64_of_lt hlt] at hzero
    cases hzero
  · intro hle
    have hlast : n + 1 = Nat.pow 2 64 := by omega
    rw [next64, hlast, Nat.mod_self]

example : read64 "+18446744073709551615" = .ok 18446744073709551615 := by rfl

example : read64 "18446744073709551616x" = .error .tooLarge := by rfl

example : read64 "1844674407370955161x6" = .error .invalidDigit := by rfl

end WorkbookTables.Numeral
