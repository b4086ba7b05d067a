import WorkbookTables.Number.Numeral

/-!
# Spellings of numbers

A number has many spellings in a radix: zeros may stand in front, and above ten the letters may be
small or capital. Reading a numeral undoes all of them, as long as the number is below the bound;
the bound is never met on the way, because the values of the first digits only grow.

## Main definitions

* `Numeral.Spells` — digits that spell a number

## Main results

* `Numeral.Spells.read` — a spelling is read back
* `Numeral.spells_toDigits` — the decimal digits of a number spell it
* `Numeral.spells_ten_iff` — decimal spellings are rows of digits with the value of the number
-/

namespace WorkbookTables.Numeral

/-- The value of digits that follow others of value `acc`, without any bound. -/
def valueFrom? (radix acc : Nat) : List Char → Option Nat
  | [] => some acc
  | c :: rest =>
    match digitValue? radix c with
    | some d => valueFrom? radix (acc * radix + d) rest
    | none => none

/-- Digits that spell a number in a radix. -/
structure Spells (radix n : Nat) (digits : List Char) : Prop where
  /-- There is a digit. -/
  ne_nil : digits ≠ []
  /-- The digits have the value of the number. -/
  value : valueFrom? radix 0 digits = some n

variable {radix bound acc n : Nat} {digits : List Char} {c : Char}

theorem isAlphanum_iff :
    c.isAlphanum = true ↔ ('A' ≤ c ∧ c ≤ 'Z' ∨ 'a' ≤ c ∧ c ≤ 'z') ∨ '0' ≤ c ∧ c ≤ '9' := by
  show (decide ('A' ≤ c ∧ c ≤ 'Z') || (decide ('a' ≤ c) && decide (c ≤ 'z')) ||
    (decide ('0' ≤ c) && decide (c ≤ '9'))) = true ↔ _
  simp only [Bool.or_eq_true, Bool.and_eq_true, decide_eq_true_eq]

theorem isAlphanum_of_digitValue? {d : Nat} (h : digitValue? radix c = some d) :
    c.isAlphanum = true := by
  rw [digitValue?] at h
  rw [isAlphanum_iff]
  split at h
  next hdigit => exact .inr hdigit
  next =>
    split at h
    next hsmall => exact .inl (.inr hsmall)
    next =>
      split at h
      next hcapital => exact .inl (.inl hcapital)
      next => simp at h

/-! ### Reading a spelling -/

theorem valueFrom?_cons {d : Nat} (h : digitValue? radix c = some d) :
    valueFrom? radix acc (c :: digits) = valueFrom? radix (acc * radix + d) digits := by
  rw [valueFrom?, h]

/-- Further digits never make a value smaller. -/
theorem le_of_valueFrom? (hradix : 0 < radix) (h : valueFrom? radix acc digits = some n) :
    acc ≤ n := by
  induction digits generalizing acc with
  | nil => exact Nat.le_of_eq (Option.some.inj h)
  | cons c rest ih =>
    cases hd : digitValue? radix c with
    | none => simp [valueFrom?, hd] at h
    | some d =>
      have hle := ih (valueFrom?_cons hd ▸ h)
      have hmul : acc * 1 ≤ acc * radix := Nat.mul_le_mul_left acc hradix
      omega

theorem readDigits_of_valueFrom? (hradix : 0 < radix) (hn : n < bound)
    (h : valueFrom? radix acc digits = some n) : readDigits radix bound acc digits = .ok n := by
  induction digits generalizing acc with
  | nil => exact congrArg Except.ok (Option.some.inj h)
  | cons c rest ih =>
    cases hd : digitValue? radix c with
    | none => simp [valueFrom?, hd] at h
    | some d =>
      rw [valueFrom?_cons hd] at h
      have hlt : acc * radix + d < bound := Nat.lt_of_le_of_lt (le_of_valueFrom? hradix h) hn
      rw [readDigits, hd]
      dsimp only
      rw [if_pos hlt, ih h]

/-- What is read is the value of the digits. -/
theorem valueFrom?_of_readDigits (h : readDigits radix bound acc digits = .ok n) :
    valueFrom? radix acc digits = some n := by
  induction digits generalizing acc with
  | nil => exact congrArg some (Except.ok.inj h)
  | cons c rest ih =>
    rw [readDigits] at h
    split at h
    next => cases h
    next d hd =>
      split at h
      next => exact (valueFrom?_cons hd).trans (ih h)
      next => cases h

theorem Spells.isAlphanum (h : Spells radix n digits) : ∀ c ∈ digits, c.isAlphanum = true := by
  have hall : ∀ {acc : Nat} {digits : List Char}, valueFrom? radix acc digits = some n →
      ∀ c ∈ digits, c.isAlphanum = true := by
    intro acc digits h
    induction digits generalizing acc with
    | nil => simp
    | cons c rest ih =>
      cases hd : digitValue? radix c with
      | none => simp [valueFrom?, hd] at h
      | some d =>
        rw [valueFrom?_cons hd] at h
        exact List.forall_mem_cons.2 ⟨isAlphanum_of_digitValue? hd, ih h⟩
  exact hall h.value

/-- Only a plus sign is treated apart. -/
theorem read_cons_of_ne (h : c ≠ '+') (rest : List Char) :
    read radix bound (c :: rest) = readDigits radix bound 0 (c :: rest) := by
  simp only [Numeral.read]
  split
  next heq => simp at heq
  next heq => exact absurd (List.cons_eq_cons.1 heq).1 h
  next heq => exact absurd (List.cons_eq_cons.1 heq).1 h
  next => rfl

/-- **A spelling is read back.** -/
theorem Spells.read (h : Spells radix n digits) (hradix : 0 < radix) (hn : n < bound) :
    read radix bound digits = .ok n := by
  have hread := readDigits_of_valueFrom? hradix hn h.value
  cases digits with
  | nil => exact absurd rfl h.ne_nil
  | cons c rest =>
    have hc : c ≠ '+' := by
      rintro rfl
      exact absurd (h.isAlphanum '+' (by simp)) (by decide)
    rw [read_cons_of_ne hc, hread]

/-! ### Decimal digits -/

theorem digitValue?_digitChar {d : Nat} (h : d < 10) :
    digitValue? 10 (Nat.digitChar d) = some d := by
  match d with
  | 0 | 1 | 2 | 3 | 4 | 5 | 6 | 7 | 8 | 9 => rfl

theorem valueFrom?_append_digit {d : Nat} (h : valueFrom? 10 acc digits = some n) (hd : d < 10) :
    valueFrom? 10 acc (digits ++ [Nat.digitChar d]) = some (n * 10 + d) := by
  induction digits generalizing acc with
  | nil =>
    obtain rfl := Option.some.inj h
    rw [List.nil_append, valueFrom?_cons (digitValue?_digitChar hd), valueFrom?]
  | cons c rest ih =>
    cases hc : digitValue? 10 c with
    | none => simp [valueFrom?, hc] at h
    | some value =>
      rw [valueFrom?_cons hc] at h
      rw [List.cons_append, valueFrom?_cons hc, ih h]

/-- **The decimal digits of a number spell it.** -/
theorem spells_toDigits (n : Nat) : Spells 10 n (Nat.toDigits 10 n) where
  ne_nil := Nat.toDigits_ne_nil
  value := by
    induction n using Nat.strongRecOn with
    | ind n ih =>
      rw [Nat.toDigits_eq_if (by decide)]
      split
      next hlt =>
        rw [valueFrom?_cons (digitValue?_digitChar hlt), valueFrom?, Nat.zero_mul, Nat.zero_add]
      next hge =>
        have hinit := ih (n / 10) (by omega)
        rw [valueFrom?_append_digit hinit (Nat.mod_lt n (by decide)), Nat.div_add_mod']

/-- The decimal digits of a number that fits are read back. -/
theorem read64_toDigits (hn : n < Nat.pow 2 64) :
    read64 (String.ofList (Nat.toDigits 10 n)) = .ok n := by
  rw [read64, String.toList_ofList]
  exact (spells_toDigits n).read (by decide) hn

/-- The digits in radix ten are the ASCII digits, with the values that they have anywhere. -/
theorem digitValue?_ten (c : Char) :
    digitValue? 10 c = if c.isDigit then some (c.toNat - '0'.toNat) else none := by
  have hdigit : c.isDigit = true ↔ '0' ≤ c ∧ c ≤ '9' := by
    simp only [Char.isDigit, Bool.and_eq_true, decide_eq_true_eq]
    rfl
  rw [digitValue?]
  by_cases h : '0' ≤ c ∧ c ≤ '9'
  · have hlt : c.toNat - '0'.toNat < 10 := by
      have hle : c.toNat ≤ 57 := h.2
      have hzero : '0'.toNat = 48 := rfl
      omega
    rw [if_pos h, if_pos (hdigit.2 h)]
    simpa [Option.filter] using hlt
  · rw [if_neg h, if_neg (mt hdigit.1 h)]
    split
    next hsmall =>
      simp [Option.filter]
    next =>
      split
      next hcapital => simp [Option.filter]
      next => rfl

theorem valueFrom?_ten_iff :
    valueFrom? 10 acc digits = some n ↔
      (∀ c ∈ digits, c.isDigit = true) ∧ Nat.ofDigitChars 10 digits acc = n := by
  induction digits generalizing acc with
  | nil => simp [valueFrom?]
  | cons c rest ih =>
    rw [valueFrom?, digitValue?_ten, Nat.ofDigitChars_cons, Nat.mul_comm 10 acc]
    by_cases h : c.isDigit = true
    · rw [if_pos h, List.forall_mem_cons]
      dsimp only
      rw [ih, and_iff_right h]
    · simp [h]

/-- **Spellings in radix ten** are rows of ASCII digits with the value of the number. -/
theorem spells_ten_iff :
    Spells 10 n digits ↔
      digits ≠ [] ∧ (∀ c ∈ digits, c.isDigit = true) ∧ Nat.ofDigitChars 10 digits 0 = n :=
  ⟨fun h => ⟨h.ne_nil, valueFrom?_ten_iff.1 h.value⟩,
    fun h => ⟨h.1, valueFrom?_ten_iff.2 h.2⟩⟩

end WorkbookTables.Numeral
