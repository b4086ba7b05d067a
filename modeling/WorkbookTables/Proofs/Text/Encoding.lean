import WorkbookTables.Text.Utf8

/-!
# Reading what has been written in UTF-8

The octets of a text are read back as its characters. A character of two to four octets is read in
steps, and the bounds that the machine sets for the second octet are met because a character lies
in none of the ranges that they rule out: the overlong forms are those of smaller code points, and
the other two hold surrogates and what lies past the last character.

## Main results

* `decode_encode` — reading undoes writing
* `encodeChar_eq_or` — only the octets of ASCII characters look like ASCII characters
-/

namespace WorkbookTables.Text.Utf8

variable {index : Nat} {b : UInt8} {rest : List UInt8}

theorem toNat_octet {n : Nat} (h : n < 256) : (UInt8.ofNat n).toNat = n := by
  rw [UInt8.toNat_ofNat']
  exact Nat.mod_eq_of_lt h

/-! ### First octets -/

theorem begin?_of_two (h : 0xC2 ≤ b.toNat) (h' : b.toNat ≤ 0xDF) :
    begin? index b = some ⟨index, b.toNat - 0xC0, 1, 0x80, 0xBF⟩ := by
  have hrange : 0xC2 ≤ b ∧ b ≤ 0xDF := by simpa [UInt8.le_iff_toNat_le] using ⟨h, h'⟩
  rw [begin?, if_pos hrange]

/-- The second of three octets is bounded so that overlong forms and surrogates are left out. -/
theorem begin?_of_three (h : 0xE0 ≤ b.toNat) (h' : b.toNat ≤ 0xEF) :
    ∃ low high, begin? index b = some ⟨index, b.toNat - 0xE0, 2, low, high⟩ ∧
      low.toNat = (if b.toNat = 0xE0 then 0xA0 else 0x80) ∧
      high.toNat = (if b.toNat = 0xED then 0x9F else 0xBF) := by
  rw [begin?]
  simp only [UInt8.le_iff_toNat_le, ← UInt8.toNat_inj]
  grind

/-- The second of four octets is bounded so that overlong forms and what lies past the last
character are left out. -/
theorem begin?_of_four (h : 0xF0 ≤ b.toNat) (h' : b.toNat ≤ 0xF4) :
    ∃ low high, begin? index b = some ⟨index, b.toNat - 0xF0, 3, low, high⟩ ∧
      low.toNat = (if b.toNat = 0xF0 then 0x90 else 0x80) ∧
      high.toNat = (if b.toNat = 0xF4 then 0x8F else 0xBF) := by
  rw [begin?]
  simp only [UInt8.le_iff_toNat_le, ← UInt8.toNat_inj]
  grind

/-! ### Steps -/

theorem decodeFrom_ascii (h : b.toNat < 0x80) :
    decodeFrom index none (b :: rest) =
      (decodeFrom (index + 1) none rest).map (Char.ofNat b.toNat :: ·) := by
  have hlt : b < 0x80 := by simpa [UInt8.lt_iff_toNat_lt] using h
  rw [decodeFrom, if_pos hlt]

theorem decodeFrom_begin {begun : Begun} (h : 0x80 ≤ b.toNat)
    (hbegin : begin? index b = some begun) :
    decodeFrom index none (b :: rest) = decodeFrom (index + 1) (some begun) rest := by
  have hge : ¬b < 0x80 := by simpa [UInt8.lt_iff_toNat_lt] using h
  rw [decodeFrom, if_neg hge, hbegin]

/-- An octet that is not the last one of its character. -/
theorem decodeFrom_middle {begun : Begun} {owed : Nat} (howed : begun.owed = owed + 2)
    (hlow : begun.low.toNat ≤ b.toNat) (hhigh : b.toNat ≤ begun.high.toNat) :
    decodeFrom index (some begun) (b :: rest) =
      decodeFrom (index + 1)
        (some ⟨begun.start, begun.bits * 64 + (b.toNat - 0x80), owed + 1, 0x80, 0xBF⟩) rest := by
  have haccepts : begun.accepts b = true := by
    simp [Begun.accepts, UInt8.le_iff_toNat_le, hlow, hhigh]
  rw [decodeFrom, if_pos haccepts, Begun.push, howed]

/-- The last octet of a character. -/
theorem decodeFrom_last {begun : Begun} (howed : begun.owed = 1)
    (hlow : begun.low.toNat ≤ b.toNat) (hhigh : b.toNat ≤ begun.high.toNat) :
    decodeFrom index (some begun) (b :: rest) =
      (decodeFrom (index + 1) none rest).map
        (Char.ofNat (begun.bits * 64 + (b.toNat - 0x80)) :: ·) := by
  have haccepts : begun.accepts b = true := by
    simp [Begun.accepts, UInt8.le_iff_toNat_le, hlow, hhigh]
  rw [decodeFrom, if_pos haccepts, Begun.push, howed]

/-! ### Characters -/

variable {n : Nat} {b₀ b₁ b₂ b₃ : UInt8}

theorem decodeFrom_two (h₀ : b₀.toNat = n / 64 + 0xC0) (h₁ : b₁.toNat = n % 64 + 0x80)
    (hn : 0x80 ≤ n) (hn' : n ≤ 0x7FF) :
    decodeFrom index none (b₀ :: b₁ :: rest) =
      (decodeFrom (index + 2) none rest).map (Char.ofNat n :: ·) := by
  have hlow : (0x80 : UInt8).toNat = 0x80 := rfl
  have hhigh : (0xBF : UInt8).toNat = 0xBF := rfl
  have hbits : (b₀.toNat - 0xC0) * 64 + (b₁.toNat - 0x80) = n := by omega
  rw [decodeFrom_begin (by omega) (begin?_of_two (by omega) (by omega)),
    decodeFrom_last rfl (by dsimp only; omega) (by dsimp only; omega), hbits]

theorem decodeFrom_three (h₀ : b₀.toNat = n / 4096 + 0xE0) (h₁ : b₁.toNat = n / 64 % 64 + 0x80)
    (h₂ : b₂.toNat = n % 64 + 0x80) (hn : 0x800 ≤ n) (hn' : n ≤ 0xFFFF)
    (hchar : n < 0xD800 ∨ 0xDFFF < n) :
    decodeFrom index none (b₀ :: b₁ :: b₂ :: rest) =
      (decodeFrom (index + 3) none rest).map (Char.ofNat n :: ·) := by
  have hlow : (0x80 : UInt8).toNat = 0x80 := rfl
  have hhigh : (0xBF : UInt8).toNat = 0xBF := rfl
  obtain ⟨low, high, hbegin, hlow₁, hhigh₁⟩ :=
    @begin?_of_three index b₀ (by omega) (by omega)
  have hbits : ((b₀.toNat - 0xE0) * 64 + (b₁.toNat - 0x80)) * 64 + (b₂.toNat - 0x80) = n := by
    omega
  rw [decodeFrom_begin (by omega) hbegin,
    decodeFrom_middle rfl (by dsimp only; split at hlow₁ <;> omega)
      (by dsimp only; split at hhigh₁ <;> omega),
    decodeFrom_last rfl (by dsimp only; omega) (by dsimp only; omega), hbits]

theorem decodeFrom_four (h₀ : b₀.toNat = n / 262144 + 0xF0)
    (h₁ : b₁.toNat = n / 4096 % 64 + 0x80) (h₂ : b₂.toNat = n / 64 % 64 + 0x80)
    (h₃ : b₃.toNat = n % 64 + 0x80) (hn : 0x10000 ≤ n) (hn' : n < 0x110000) :
    decodeFrom index none (b₀ :: b₁ :: b₂ :: b₃ :: rest) =
      (decodeFrom (index + 4) none rest).map (Char.ofNat n :: ·) := by
  have hlow : (0x80 : UInt8).toNat = 0x80 := rfl
  have hhigh : (0xBF : UInt8).toNat = 0xBF := rfl
  obtain ⟨low, high, hbegin, hlow₁, hhigh₁⟩ :=
    @begin?_of_four index b₀ (by omega) (by omega)
  have hbits : (((b₀.toNat - 0xF0) * 64 + (b₁.toNat - 0x80)) * 64 + (b₂.toNat - 0x80)) * 64 +
      (b₃.toNat - 0x80) = n := by omega
  rw [decodeFrom_begin (by omega) hbegin,
    decodeFrom_middle rfl (by dsimp only; split at hlow₁ <;> omega)
      (by dsimp only; split at hhigh₁ <;> omega),
    decodeFrom_middle rfl (by dsimp only; omega) (by dsimp only; omega),
    decodeFrom_last rfl (by dsimp only; omega) (by dsimp only; omega), hbits]

/-- **The octets of a character are read back.** -/
theorem decodeFrom_encodeChar (index : Nat) (c : Char) (rest : List UInt8) :
    decodeFrom index none (String.utf8EncodeChar c ++ rest) =
      (decodeFrom (index + (String.utf8EncodeChar c).length) none rest).map (c :: ·) := by
  have hvalid : c.toNat < 0xD800 ∨ 0xDFFF < c.toNat ∧ c.toNat < 0x110000 := c.valid
  have hval : c.val.toNat = c.toNat := rfl
  have hchar : Char.ofNat c.toNat = c := Char.ofNat_toNat c
  rw [String.utf8EncodeChar]
  simp only [hval]
  split
  · have hb : (UInt8.ofNat c.toNat).toNat = c.toNat := toNat_octet (by omega)
    rw [List.singleton_append, decodeFrom_ascii (by omega), hb, hchar]
    rfl
  split
  · exact (decodeFrom_two (by rw [toNat_octet] <;> omega) (toNat_octet (by omega)) (n := c.toNat)
      (by omega) (by omega)).trans (by rw [hchar]; rfl)
  split
  · exact (decodeFrom_three (by rw [toNat_octet] <;> omega) (toNat_octet (by omega))
      (toNat_octet (by omega)) (n := c.toNat) (by omega) (by omega) (by omega)).trans
        (by rw [hchar]; rfl)
  · exact (decodeFrom_four (by rw [toNat_octet] <;> omega) (toNat_octet (by omega))
      (toNat_octet (by omega)) (toNat_octet (by omega)) (n := c.toNat) (by omega)
        (by omega)).trans (by rw [hchar]; rfl)

theorem decodeFrom_encode (index : Nat) (cs : List Char) :
    decodeFrom index none (cs.flatMap String.utf8EncodeChar) = .ok cs := by
  induction cs generalizing index with
  | nil => rfl
  | cons c rest ih => rw [List.flatMap_cons, decodeFrom_encodeChar, ih]; rfl

/-- **Reading undoes writing.** -/
@[simp] theorem decode_encode (s : String) : decode (encode s) = .ok s.toList :=
  decodeFrom_encode 0 s.toList

/-! ### Octets that look like ASCII characters -/

/-- The octets of a character beyond ASCII are all beyond ASCII. -/
theorem encodeChar_eq_or (c : Char) :
    String.utf8EncodeChar c = [UInt8.ofNat c.toNat] ∧ c.toNat < 0x80 ∨
      ∀ b ∈ String.utf8EncodeChar c, 0x80 ≤ b.toNat := by
  have hvalid : c.toNat < 0x110000 := by
    have h : c.toNat < 0xD800 ∨ 0xDFFF < c.toNat ∧ c.toNat < 0x110000 := c.valid
    omega
  have hval : c.val.toNat = c.toNat := rfl
  rw [String.utf8EncodeChar]
  simp only [hval]
  split
  · exact .inl ⟨rfl, by omega⟩
  split
  · refine .inr ?_
    intro b hb
    simp only [List.mem_cons, List.not_mem_nil, or_false] at hb
    obtain rfl | rfl := hb <;> rw [toNat_octet] <;> omega
  split
  · refine .inr ?_
    intro b hb
    simp only [List.mem_cons, List.not_mem_nil, or_false] at hb
    obtain rfl | rfl | rfl := hb <;> rw [toNat_octet] <;> omega
  · refine .inr ?_
    intro b hb
    simp only [List.mem_cons, List.not_mem_nil, or_false] at hb
    obtain rfl | rfl | rfl | rfl := hb <;> rw [toNat_octet] <;> omega

end WorkbookTables.Text.Utf8
