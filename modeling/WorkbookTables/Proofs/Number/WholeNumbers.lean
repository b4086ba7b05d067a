import Mathlib.Algebra.Group.Nat.Defs
import Mathlib.Data.List.TakeWhile
import WorkbookTables.Number.Decimal
import WorkbookTables.Proofs.Number.Spelling

/-!
# Whole numbers are read exactly

A numeral of an integer is read as a double-precision number, which has room for 53 bits. Below that
the number nearest to the integer is the integer: its mantissa is the integer moved up to 53 bits,
and the exponent moves it back, so that the whole part is the integer again and no fraction is left.

## Main definitions

* `Decimal.IsNumeral` — plain decimal numerals of an integer
* `Binary64.IsInteger` — double-precision numbers that are an integer

## Main results

* `Binary64.exists_ofRatio?_eq_some` — integers of at most 53 bits are kept
* `Decimal.IsNumeral.exists_read_eq` — numerals of such integers are read exactly
-/

namespace WorkbookTables

namespace Binary64

/-! ### Integers -/

/-- The number is the integer `n`: it is its whole part, and there is nothing else. -/
structure IsInteger (x : Binary64) (n : Int) : Prop where
  /-- The whole part. -/
  truncated : x.truncated = n
  /-- No multiple of the fraction is anything but zero. -/
  scaledFraction : ∀ factor, x.scaledFraction factor = 0

theorem withSign_zero (x : Binary64) : x.withSign 0 = 0 := by
  rw [withSign]
  split <;> rfl

/-- A numerator that is a multiple of the denominator leaves nothing after the point. -/
theorem isInteger_of_numerator {x : Binary64} {m : Nat} (h : x.numerator = m * x.denominator) :
    x.IsInteger (x.withSign m) := by
  have hpositive : 0 < x.denominator := Nat.pow_pos (by decide)
  refine ⟨?_, ?_⟩
  · rw [Binary64.truncated, h, Nat.mul_div_cancel m hpositive]
  · intro factor
    rw [Binary64.scaledFraction, h, Nat.mul_mod_left, Nat.zero_mul]
    exact withSign_zero x

theorem floorLog2_one {m : Nat} (hm : m ≠ 0) : floorLog2 m 1 = m.log2 := by
  have hone : (1 : Nat).log2 = 0 := by decide
  have hguess : (m.log2 : Int) - ((1 : Nat).log2 : Int) = m.log2 := by
    rw [hone]
    exact Int.sub_zero _
  have hle : 1 * Nat.pow 2 (m.log2 : Int).toNat ≤ m * Nat.pow 2 (-(m.log2 : Int)).toNat := by
    simpa using Nat.log2_self_le hm
  simp only [floorLog2, hguess, if_pos hle]

theorem roundHalfEven_one (m : Nat) : roundHalfEven m 1 = m := by
  simp [roundHalfEven, Nat.mod_one]

/-- **An integer of at most 53 bits is kept.** -/
theorem exists_ofRatio?_eq_some (negative : Bool) {m : Nat} (h : m < 2 ^ 53) :
    ∃ x, ofRatio? negative m 1 = some x ∧ x.negative = negative ∧
      x.numerator = m * x.denominator := by
  by_cases hm : m = 0
  · subst hm
    exact ⟨⟨negative, 0, 0⟩, rfl, rfl, rfl⟩
  · have hlog : m.log2 ≤ 52 := by
      have hlt := (Nat.log2_lt hm).2 h
      omega
    obtain ⟨shift, hshift⟩ := Nat.exists_eq_add_of_le hlog
    have hexponent : max (floorLog2 m 1 - 52) minExponent = -(shift : Int) := by
      rw [floorLog2_one hm, minExponent]
      omega
    have hup : (-(-(shift : Int))).toNat = shift := by omega
    have hdown : (-(shift : Int)).toNat = 0 := by omega
    have hpowers : Nat.pow 2 0 = 1 := rfl
    have hbelow : m * Nat.pow 2 shift < limit := by
      have hle : Nat.pow 2 shift ≤ 2 ^ 52 := Nat.pow_le_pow_right (by decide) (by omega)
      calc m * Nat.pow 2 shift
          ≤ m * 2 ^ 52 := Nat.mul_le_mul_left m hle
        _ < 2 ^ 53 * 2 ^ 52 := Nat.mul_lt_mul_of_pos_right h (by decide)
        _ ≤ limit := by decide +kernel
    refine ⟨⟨negative, m * Nat.pow 2 shift, -(shift : Int)⟩, ?_, rfl, ?_⟩
    · simp only [ofRatio?, if_neg hm, hexponent, hup, hdown, hpowers, Nat.mul_one,
        roundHalfEven_one, if_pos hbelow]
    · simp only [numerator, denominator, hup, hdown, hpowers, Nat.mul_one]

end Binary64

namespace Decimal

open Numeral (Spells)

/-! ### Numerals of integers -/

/-- The plain decimal numerals of an integer: digits, with a minus sign or without one. -/
inductive IsNumeral : Int → String → Prop where
  /-- Without a sign. -/
  | unsigned {m : Nat} {digits : List Char} (h : Spells 10 m digits) :
    IsNumeral m (String.ofList digits)
  /-- With a minus sign; zero may have one. -/
  | negative {m : Nat} {digits : List Char} (h : Spells 10 m digits) :
    IsNumeral (-m) (String.ofList ('-' :: digits))

variable {m : Nat} {digits : List Char}

theorem digitsValue_eq (digits : List Char) :
    digitsValue digits = Nat.ofDigitChars 10 digits 0 := by
  rw [digitsValue, Nat.ofDigitChars_eq_foldl]
  simp only [Nat.mul_comm 10]

/-- Zeros in front have no value. -/
theorem digitsValue_dropWhile (digits : List Char) :
    digitsValue (digits.dropWhile (· == '0')) = digitsValue digits := by
  induction digits with
  | nil => rfl
  | cons c rest ih =>
    by_cases hc : c = '0'
    · subst hc
      exact ih
    · rw [List.dropWhile_cons_of_neg (by simpa using hc)]

/-- Digits that do not begin with a zero have a value from which one knows how many they are. -/
theorem pow_le_digitsValue {c : Char} {rest : List Char} (hc : c.isDigit = true) (hne : c ≠ '0') :
    10 ^ rest.length ≤ digitsValue (c :: rest) := by
  have hge : 48 ≤ c.toNat := of_decide_eq_true (Bool.and_eq_true_iff.1 hc).1
  have hother : c.toNat ≠ 48 := fun heq => hne (Char.toNat_inj.1 heq)
  have hzero : '0'.toNat = 48 := rfl
  have hpositive : 1 ≤ 10 * 0 + (c.toNat - '0'.toNat) := by omega
  rw [digitsValue_eq, Nat.ofDigitChars_cons, Nat.ofDigitChars_eq_ofDigitChars_zero]
  calc 10 ^ rest.length
      = 10 ^ rest.length * 1 := (Nat.mul_one _).symm
    _ ≤ 10 ^ rest.length * (10 * 0 + (c.toNat - '0'.toNat)) := Nat.mul_le_mul_left _ hpositive
    _ ≤ _ := Nat.le_add_right _ _

/-- A numeral without point and exponent is all digits. -/
theorem readUnsigned?_of_spells (negative : Bool) (h : Spells 10 m digits) :
    readUnsigned? negative digits = some ⟨negative, digits, 0⟩ := by
  obtain ⟨hne, hdigits, -⟩ := Numeral.spells_ten_iff.1 h
  have htake : digits.takeWhile Char.isDigit = digits := List.takeWhile_eq_self_iff.2 hdigits
  have hdrop : digits.dropWhile Char.isDigit = [] := List.dropWhile_eq_nil_iff.2 hdigits
  have hexponent : readExponent? [] = some 0 := rfl
  simp [readUnsigned?, htake, hdrop, hne, hexponent]

/-- The digits of an integer below `2 ^ 53` are few enough to be computed with. -/
theorem length_dropWhile_le (h : Spells 10 m digits) (hm : m < 2 ^ 53) :
    (digits.dropWhile (· == '0')).length ≤ 16 := by
  obtain ⟨hne, hdigits, hvalue⟩ := Numeral.spells_ten_iff.1 h
  cases hrest : digits.dropWhile (· == '0') with
  | nil => simp
  | cons c rest =>
    have hmem : c ∈ digits := (List.dropWhile_suffix _).subset (by rw [hrest]; simp)
    have hnonzero : c ≠ '0' := by
      have hhead := List.head?_dropWhile_not (· == '0') digits
      rw [hrest] at hhead
      simpa using hhead
    have hle : 10 ^ rest.length ≤ digitsValue (c :: rest) :=
      pow_le_digitsValue (hdigits c hmem) hnonzero
    rw [← hrest, digitsValue_dropWhile, digitsValue_eq, hvalue] at hle
    refine Nat.le_of_not_lt fun hlong => ?_
    have hpow : 10 ^ 16 ≤ 10 ^ rest.length :=
      Nat.pow_le_pow_right (by decide) (Nat.le_of_lt_succ hlong)
    omega

theorem exists_reading_eq (negative : Bool) (h : Spells 10 m digits) (hm : m < 2 ^ 53) :
    ∃ x, (Scientific.mk negative digits 0).reading = .finite x ∧
      x.IsInteger (if negative then -(m : Int) else m) := by
  have hlength := length_dropWhile_le h hm
  have hvalue := (Numeral.spells_ten_iff.1 h).2.2
  rw [← digitsValue_eq, ← digitsValue_dropWhile] at hvalue
  obtain ⟨x, hx, hsign, hnumerator⟩ := Binary64.exists_ofRatio?_eq_some negative hm
  have hinteger := Binary64.isInteger_of_numerator hnumerator
  rw [Binary64.withSign, hsign] at hinteger
  by_cases hnil : digits.dropWhile (· == '0') = []
  · have hzero : m = 0 := by
      rw [← hvalue, hnil]
      rfl
    subst hzero
    obtain rfl : Binary64.mk negative 0 0 = x := Option.some.inj hx
    exact ⟨_, if_pos (.inl hnil), hinteger⟩
  · refine ⟨x, ?_, hinteger⟩
    have hsmall : ¬(0 : Int) + (digits.dropWhile (· == '0')).length < -330 := by omega
    have hlarge : ¬310 < (0 : Int) + (digits.dropWhile (· == '0')).length := by omega
    have hpower : Nat.pow 10 (0 : Int).toNat = 1 := rfl
    have hpower' : Nat.pow 10 (-(0 : Int)).toNat = 1 := rfl
    simp only [Scientific.reading, hnil, hsmall, hlarge, or_self, if_false, hvalue, hpower,
      hpower', Nat.mul_one, hx]

/-- **A numeral of an integer of at most 53 bits is read exactly.** -/
theorem IsNumeral.exists_read_eq {n : Int} {numeral : String} (h : IsNumeral n numeral)
    (hn : n.natAbs < 2 ^ 53) : ∃ x, read numeral = .ok (.finite x) ∧ x.IsInteger n := by
  cases h with
  | unsigned h =>
    obtain ⟨x, hx, hinteger⟩ := exists_reading_eq false h hn
    refine ⟨x, ?_, hinteger⟩
    have hread := readUnsigned?_of_spells false h
    obtain ⟨hne, hdigits, -⟩ := Numeral.spells_ten_iff.1 h
    obtain ⟨c, rest, rfl⟩ := List.exists_cons_of_ne_nil hne
    have hc := hdigits c List.mem_cons_self
    have hminus : c ≠ '-' := by
      rintro rfl
      exact absurd hc (by decide)
    have hplus : c ≠ '+' := by
      rintro rfl
      exact absurd hc (by decide)
    simp [read, hminus, hplus, hread, hx]
  | negative h =>
    obtain ⟨x, hx, hinteger⟩ := exists_reading_eq true h (by simpa using hn)
    refine ⟨x, ?_, hinteger⟩
    simp [read, readUnsigned?_of_spells true h, hx]

end Decimal

end WorkbookTables
