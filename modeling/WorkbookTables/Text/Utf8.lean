/-!
# Reading UTF-8

A machine that takes one octet at a time. Between characters it holds nothing; inside a character
it knows how many octets are still owed and between which bounds the next one must lie. The bounds
of the second octet rule out overlong forms, surrogates and code points past `U+10FFFF`, so that
every sequence read has a character.

The reader is total: octets that are not UTF-8 give the place of the first sequence that is wrong.

## Main definitions

* `Utf8.Fault` — what is wrong, and where
* `Utf8.decode` — the characters of a sequence of octets
* `Utf8.decodeReplacing` — a text for octets that may be none
* `Utf8.encode` — the octets of a text
-/

namespace WorkbookTables.Text.Utf8

/-- Why octets are not UTF-8. -/
inductive Fault where
  /-- The `length` octets from `index` begin no character. -/
  | invalid (length index : Nat)
  /-- The octets end inside the character that begins at `index`. -/
  | incomplete (index : Nat)
  deriving DecidableEq, Repr

/-- The wording of a fault. -/
def Fault.message : Fault → String
  | .invalid length index => s!"invalid utf-8 sequence of {length} bytes from index {index}"
  | .incomplete index => s!"incomplete utf-8 byte sequence from index {index}"

/-- A character some of whose octets have been read. -/
structure Begun where
  /-- Where its first octet stands. -/
  start : Nat
  /-- The bits read so far. -/
  bits : Nat
  /-- How many octets are still owed. -/
  owed : Nat
  /-- The least octet that may come next. -/
  low : UInt8
  /-- The greatest octet that may come next. -/
  high : UInt8
  deriving DecidableEq, Repr

/-- What the first octet of a character of two to four octets promises, none for an octet that
begins no such character. -/
def begin? (index : Nat) (b : UInt8) : Option Begun :=
  if 0xC2 ≤ b ∧ b ≤ 0xDF then some ⟨index, b.toNat - 0xC0, 1, 0x80, 0xBF⟩
  else if b = 0xE0 then some ⟨index, 0, 2, 0xA0, 0xBF⟩
  else if b = 0xED then some ⟨index, 0xD, 2, 0x80, 0x9F⟩
  else if 0xE1 ≤ b ∧ b ≤ 0xEF then some ⟨index, b.toNat - 0xE0, 2, 0x80, 0xBF⟩
  else if b = 0xF0 then some ⟨index, 0, 3, 0x90, 0xBF⟩
  else if 0xF1 ≤ b ∧ b ≤ 0xF3 then some ⟨index, b.toNat - 0xF0, 3, 0x80, 0xBF⟩
  else if b = 0xF4 then some ⟨index, 4, 3, 0x80, 0x8F⟩
  else none

/-- Whether an octet may come next. -/
def Begun.accepts (begun : Begun) (b : UInt8) : Bool :=
  begun.low ≤ b && b ≤ begun.high

/-- What an octet that may come next leads to: the character, or more of it. -/
def Begun.push (begun : Begun) (b : UInt8) : Char ⊕ Begun :=
  let bits := begun.bits * 64 + (b.toNat - 0x80)
  match begun.owed with
  | 0 | 1 => .inl (Char.ofNat bits)
  | owed + 2 => .inr ⟨begun.start, bits, owed + 1, 0x80, 0xBF⟩

/-- The characters of octets, the first of which stands at `index`, after those of `begun`. -/
def decodeFrom (index : Nat) : Option Begun → List UInt8 → Except Fault (List Char)
  | none, [] => .ok []
  | some begun, [] => .error (.incomplete begun.start)
  | none, b :: rest =>
    if b < 0x80 then (decodeFrom (index + 1) none rest).map (Char.ofNat b.toNat :: ·)
    else match begin? index b with
      | some begun => decodeFrom (index + 1) (some begun) rest
      | none => .error (.invalid 1 index)
  | some begun, b :: rest =>
    if begun.accepts b then
      match begun.push b with
      | .inl c => (decodeFrom (index + 1) none rest).map (c :: ·)
      | .inr begun => decodeFrom (index + 1) (some begun) rest
    else .error (.invalid (index - begun.start) begun.start)

/-- The characters that `octets` spell. -/
def decode (octets : List UInt8) : Except Fault (List Char) :=
  decodeFrom 0 none octets

/-! ## Reading what is no text -/

/-- The character that stands for octets which spell none. -/
def replacement : Char := '\uFFFD'

/-- What an octet leads to that belongs to no character before it. -/
def restart (b : UInt8) : List Char × Option Begun :=
  if b < 0x80 then ([Char.ofNat b.toNat], none)
  else match begin? 0 b with
    | some begun => ([], some begun)
    | none => ([replacement], none)

/-- The characters of octets after those of `begun`, with replacements. -/
def replaceFrom : Option Begun → List UInt8 → List Char
  | none, [] => []
  | some _, [] => [replacement]
  | none, b :: rest => (restart b).1 ++ replaceFrom (restart b).2 rest
  | some begun, b :: rest =>
    if begun.accepts b then
      match begun.push b with
      | .inl c => c :: replaceFrom none rest
      | .inr begun => replaceFrom (some begun) rest
    else replacement :: (restart b).1 ++ replaceFrom (restart b).2 rest

/-- The text that octets spell, with one replacement for each beginning of a character that is not
gone on with and for each octet that begins none. -/
def decodeReplacing (octets : List UInt8) : String :=
  String.ofList (replaceFrom none octets)

/-- The octets of a text. -/
def encode (s : String) : List UInt8 :=
  s.toList.flatMap String.utf8EncodeChar

@[simp] theorem decode_nil : decode [] = .ok [] := rfl

example : decode [0x61, 0xC3, 0xA9, 0xF0, 0x9F, 0x98, 0x80] = .ok ['a', 'é', '😀'] := by rfl

example : decode [0x61, 0xE0, 0x80] = .error (.invalid 1 1) := by rfl

example : decode [0xF0, 0x9F, 0x98] = .error (.incomplete 0) := by rfl

example : replaceFrom none [0xE0, 0x80, 0x61, 0xF0, 0x9F, 0x98, 0x62, 0xC3] =
    [replacement, replacement, 'a', replacement, 'b', replacement] := by decide

end WorkbookTables.Text.Utf8
