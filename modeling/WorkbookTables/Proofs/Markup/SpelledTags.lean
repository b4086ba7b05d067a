import WorkbookTables.Proofs.Markup.Elements
import WorkbookTables.Proofs.Markup.Lookup

/-!
# Tags with all the freedom that attributes have

An attribute may stand behind any space, have space around its equals sign, use quotes of either
kind, and write the characters of its value as they are or as references. A tag may end with space.
None of this matters to a look-up, which gives the characters of the first attribute with the key.

The only reference that a value may not have is the one to the character zero, which is no character
of a document. What stands between references is free, as long as it is no ampersand and not the
quote that would end the value.

## Main definitions

* `ValueChar` — a character of a value with the way in which it is written
* `SpelledAttribute`, `SpelledTag` — attributes and tags as they are written
* `SpelledTag.value?` — the value of an attribute, told from its characters

## Main results

* `valueText_valueOctets` — a written value stands for its characters
* `SpelledTag.attribute?_tag` — the attributes of a tag are looked up
-/

namespace WorkbookTables.Markup

/-! ### Values -/

/-- A character of a value with the way in which it is written. -/
inductive ValueChar where
  /-- As it stands. -/
  | itself (c : Char) (h : c ≠ '&')
  /-- As a reference, by a numeral or by the name of an entity. -/
  | reference (c : Char) (name : List Char) (h : RefersTo name c) (hzero : c.toNat ≠ 0)

namespace ValueChar

/-- The character. -/
def char : ValueChar → Char
  | itself c _ => c
  | reference c _ _ _ => c

/-- How it is written. -/
def written : ValueChar → List Char
  | itself c _ => [c]
  | reference _ name _ _ => '&' :: (name ++ [';'])

end ValueChar

/-- The text of a value. -/
def textOfValue (value : List ValueChar) : String := String.ofList (value.map (·.char))

/-- The characters with which a value is written. -/
def writtenValue (value : List ValueChar) : List Char := value.flatMap (·.written)

/-- The octets of a value. -/
def valueOctets (value : List ValueChar) : Octets :=
  Text.Utf8.encode (String.ofList (writtenValue value))

theorem charOfCode?_toNat (c : Char) : charOfCode? c.toNat = some c := by
  have hvalid : c.toNat.isValidChar := c.valid
  rw [charOfCode?, dif_pos hvalid]
  rfl

/-- A numeral that spells a character names it, unless it is zero. -/
theorem characterOfNumeral_of_spells {radix : Nat} {c : Char} {digits : List Char}
    (hradix : 0 < radix) (h : Numeral.Spells radix c.toNat digits) (hzero : c.toNat ≠ 0) :
    characterOfNumeral radix digits = .ok c := by
  have hlt : c.toNat < Nat.pow 2 32 := c.val.toNat_lt
  have hsign : ∀ sign : Char, sign.isAlphanum = false → ∀ rest, digits ≠ sign :: rest := by
    rintro sign hsign rest rfl
    rw [h.isAlphanum sign List.mem_cons_self] at hsign
    cases hsign
  unfold characterOfNumeral
  split
  next rest => exact absurd rfl (hsign '+' (by decide) rest)
  next rest => exact absurd rfl (hsign '-' (by decide) rest)
  next =>
    rw [Numeral.read32, h.read hradix hlt]
    dsimp only
    rw [if_neg hzero, charOfCode?_toNat]

/-- A reference in a value stands for the character that it refers to. -/
theorem resolveInValue_of_refersTo {name : List Char} {c : Char} (h : RefersTo name c)
    (hzero : c.toNat ≠ 0) (start stop : Nat) : resolveInValue start stop name = .ok c := by
  cases h with
  | @decimal _ digits h =>
    unfold resolveInValue
    split
    next rest heq =>
      obtain ⟨-, rfl⟩ := List.cons_eq_cons.1 heq
      have hx := h.value
      rw [Numeral.valueFrom?, show Numeral.digitValue? 10 'x' = none from rfl] at hx
      cases hx
    next heq =>
      obtain ⟨-, rfl⟩ := List.cons_eq_cons.1 heq
      exact characterOfNumeral_of_spells (by decide) h hzero
    next hno => exact absurd rfl (hno digits)
  | hexadecimal h => exact characterOfNumeral_of_spells (by decide) h hzero
  | predefined h =>
    have hentities : ∀ e ∈ predefinedEntities, predefinedEntity? e.1 = some e.2 ∧ '#' ∉ e.1 := by
      decide
    obtain ⟨hentity, hnot⟩ := hentities _ h
    unfold resolveInValue
    split
    next => exact absurd List.mem_cons_self hnot
    next => exact absurd List.mem_cons_self hnot
    next => rw [hentity]

/-- Inside a reference its name is held up to the semicolon. -/
theorem exists_unescapeFrom_name {name : List Char} (h : ∀ d ∈ name, d ≠ ';' ∧ d ≠ '&')
    (length position start : Nat) (held rest : List Char) :
    ∃ stop, unescapeFrom length position (some (start, held)) (name ++ ';' :: rest) =
      match resolveInValue start stop (held.reverse ++ name) with
      | .ok c => (unescapeFrom length (stop + 1) none rest).map (c :: ·)
      | .error fault => .error fault := by
  induction name generalizing position held with
  | nil =>
    refine ⟨position, ?_⟩
    rw [List.nil_append, List.append_nil, unescapeFrom, if_neg (by decide)]
    exact if_pos rfl
  | cons d name ih =>
    obtain ⟨⟨hsemicolon, hampersand⟩, hname⟩ := List.forall_mem_cons.1 h
    obtain ⟨stop, hstop⟩ := ih hname (position + d.utf8Size) (d :: held)
    refine ⟨stop, ?_⟩
    rw [List.cons_append, unescapeFrom, if_neg hampersand, if_neg hsemicolon, hstop,
      List.reverse_cons, List.append_assoc, List.singleton_append]

/-- Each written character of a value is read. -/
theorem unescapeFrom_writtenValue (value : List ValueChar) (length position : Nat) :
    unescapeFrom length position none (writtenValue value) = .ok (value.map (·.char)) := by
  induction value generalizing position with
  | nil => rfl
  | cons w rest ih =>
    cases w with
    | itself c h =>
      have hcons : writtenValue (.itself c h :: rest) = c :: writtenValue rest := rfl
      rw [hcons, unescapeFrom, if_neg h, ih]
      rfl
    | reference c name h hzero =>
      have hcons : writtenValue (.reference c name h hzero :: rest) =
          '&' :: (name ++ ';' :: writtenValue rest) := by
        simp [writtenValue, ValueChar.written]
      obtain ⟨stop, hstop⟩ := exists_unescapeFrom_name
        (fun d hd => ⟨(h.ne hd).1, (h.ne hd).2.2⟩) length (position + 1) position []
        (writtenValue rest)
      rw [hcons, unescapeFrom, if_pos rfl, hstop, List.reverse_nil, List.nil_append,
        resolveInValue_of_refersTo h hzero]
      dsimp only
      rw [ih]
      rfl

/-- **A written value stands for its characters.** -/
theorem valueText_valueOctets (value : List ValueChar) :
    valueText (valueOctets value) = .ok (textOfValue value) := by
  rw [valueText, valueOctets, Text.Utf8.decode_encode, String.toList_ofList]
  dsimp only
  rw [unescape, unescapeFrom_writtenValue, textOfValue]

/-! ### Attributes -/

/-- An attribute as it is written. -/
structure SpelledAttribute where
  /-- The space before it. -/
  space : Octets
  /-- The key. -/
  key : Octets
  /-- The space before its equals sign. -/
  beforeEquals : Octets
  /-- The space behind the equals sign. -/
  afterEquals : Octets
  /-- The quote. -/
  quote : UInt8
  /-- The value. -/
  value : List ValueChar
  /-- Something parts it from what stands before it. -/
  space_ne_nil : space ≠ []
  /-- That is space, -/
  isSpace_space : ∀ b ∈ space, isSpace b = true
  /-- and so is what stands before the equals sign -/
  isSpace_beforeEquals : ∀ b ∈ beforeEquals, isSpace b = true
  /-- and behind it. -/
  isSpace_afterEquals : ∀ b ∈ afterEquals, isSpace b = true
  /-- The key is a name. -/
  isElementName_key : IsElementName key
  /-- The quote is one of two. -/
  isQuote : quote = octet '"' ∨ quote = octet '\''
  /-- It does not stand in the value. -/
  notMem_value : quote ∉ valueOctets value

namespace SpelledAttribute

/-- Its octets. -/
def octets (a : SpelledAttribute) : Octets :=
  a.space ++ (a.key ++ (a.beforeEquals ++ octet '=' ::
    (a.afterEquals ++ a.quote :: (valueOctets a.value ++ [a.quote]))))

theorem getLast?_octets (a : SpelledAttribute) : a.octets.getLast? = some a.quote := by
  have hsplit : a.octets = a.space ++ a.key ++ a.beforeEquals ++ octet '=' :: a.afterEquals ++
      a.quote :: valueOctets a.value ++ [a.quote] := by
    simp [octets]
  rw [hsplit, List.getLast?_concat]

theorem quotesClose_octets (a : SpelledAttribute) : QuotesClose a.octets := by
  have hspaces {octets : Octets} (h : ∀ b ∈ octets, isSpace b = true) : QuotesClose octets :=
    .of_forall fun b hb => isQuiet_of_isSpace (h b hb)
  have hequals : IsQuiet (octet '=') := ⟨by decide, by decide, by decide⟩
  refine (hspaces a.isSpace_space).append (.append (.of_forall fun b hb => ?_) ?_)
  · exact a.isElementName_key.isQuiet hb
  · refine (hspaces a.isSpace_beforeEquals).append (.plain hequals ?_)
    exact (hspaces a.isSpace_afterEquals).append (.quoted a.isQuote a.notMem_value .nil)

end SpelledAttribute

namespace AttributeScanner

/-- **A spelled attribute is read**, wherever it stands. -/
theorem exists_foldl_spelled (a : SpelledAttribute) (found : Array Attribute) (position : Nat) :
    ∃ start position', a.octets.foldl step ⟨found, position, .gap⟩ =
      ⟨found.push ⟨a.key, start, .ok (valueOctets a.value)⟩, position', .gap⟩ :=
  exists_foldl_attribute a.isSpace_space a.isElementName_key a.isSpace_beforeEquals
    a.isSpace_afterEquals a.isQuote a.notMem_value found position

/-- Spelled attributes one behind the other. -/
theorem exists_foldl_allSpelled (attributes : List SpelledAttribute) (found : Array Attribute)
    (position : Nat) :
    ∃ (read : List Attribute) (position' : Nat),
      (attributes.flatMap (·.octets)).foldl step ⟨found, position, .gap⟩ =
        ⟨found ++ read.toArray, position', .gap⟩ ∧
      read.map entry = attributes.map fun a => (a.key, .ok (valueOctets a.value)) := by
  induction attributes generalizing found position with
  | nil => exact ⟨[], position, by simp, rfl⟩
  | cons a rest ih =>
    obtain ⟨start, position₁, hfirst⟩ := exists_foldl_spelled a found position
    obtain ⟨read, position₂, hread, hentries⟩ :=
      ih (found.push ⟨a.key, start, .ok (valueOctets a.value)⟩) position₁
    refine ⟨⟨a.key, start, .ok (valueOctets a.value)⟩ :: read, position₂, ?_, ?_⟩
    · rw [List.flatMap_cons, List.foldl_append, hfirst, hread]
      simp
    · rw [List.map_cons, List.map_cons, hentries]
      rfl

end AttributeScanner

/-! ### Tags -/

/-- A tag as it is written. -/
structure SpelledTag where
  /-- The name. -/
  name : Octets
  /-- The attributes. -/
  attributes : List SpelledAttribute
  /-- The space at its end. -/
  space : Octets
  /-- The name is one. -/
  isElementName : IsElementName name
  /-- The space is nothing else. -/
  isSpace_space : ∀ b ∈ space, isSpace b = true

namespace SpelledTag

/-- What stands behind the name. -/
def behindName (t : SpelledTag) : Octets := t.attributes.flatMap (·.octets) ++ t.space

theorem isSpace_of_head?_behindName (t : SpelledTag) :
    ∀ b ∈ t.behindName.head?, isSpace b = true := by
  intro b hb
  rw [behindName] at hb
  cases hattributes : t.attributes with
  | nil =>
    rw [hattributes, List.flatMap_nil, List.nil_append] at hb
    exact t.isSpace_space b (List.mem_of_mem_head? hb)
  | cons a rest =>
    obtain ⟨first, others, hspace⟩ := List.exists_cons_of_ne_nil a.space_ne_nil
    rw [hattributes] at hb
    obtain rfl : first = b := by simpa [SpelledAttribute.octets, hspace] using hb
    exact a.isSpace_space first (by simp [hspace])

theorem quotesClose_behindName (t : SpelledTag) : QuotesClose t.behindName := by
  refine .append ?_ (.of_forall fun b hb =>
    isQuiet_of_isSpace (t.isSpace_space b hb))
  induction t.attributes with
  | nil => exact .nil
  | cons a rest ih => exact a.quotesClose_octets.append ih

theorem notMem_getLast?_behindName (t : SpelledTag) : octet '/' ∉ t.behindName.getLast? := by
  intro hlast
  rw [behindName, List.getLast?_append] at hlast
  cases hspace : t.space.getLast? with
  | some last =>
    obtain rfl : last = octet '/' := by simpa [hspace] using hlast
    exact absurd (t.isSpace_space _ (List.mem_of_getLast? hspace)) (by decide)
  | none =>
    rw [hspace, Option.none_or] at hlast
    obtain hnil | ⟨earlier, a, hattributes⟩ := List.eq_nil_or_concat t.attributes
    · rw [hnil] at hlast
      cases hlast
    · rw [hattributes, List.concat_eq_append, List.flatMap_append, List.flatMap_singleton,
        List.getLast?_append, a.getLast?_octets] at hlast
      have hquote : a.quote = octet '/' := Option.some.inj hlast
      obtain h | h := a.isQuote <;> exact absurd (h.symm.trans hquote) (by decide)

/-- What stands behind the name, as a tag needs it. -/
def rest (t : SpelledTag) : TagRest :=
  ⟨t.behindName, t.isSpace_of_head?_behindName, t.quotesClose_behindName,
    t.notMem_getLast?_behindName⟩

/-- The tag that is recognised. -/
def tag (t : SpelledTag) : Tag := ⟨tagContent t.name t.rest⟩

/-- The value of the first attribute with a key. -/
def value? (t : SpelledTag) (key : Octets) : Option String :=
  ((t.attributes.map fun a => (a.key, a.value)).lookup key).map textOfValue

theorem name_tag (t : SpelledTag) : t.tag.name = t.name :=
  name_tagContent t.isElementName t.rest

theorem exists_attributes_tag (t : SpelledTag) :
    ∃ read : List Attribute, t.tag.attributes = (read, none) ∧
      read.map AttributeScanner.entry =
        t.attributes.map fun a => (a.key, .ok (valueOctets a.value)) := by
  obtain ⟨read, position, hread, hentries⟩ :=
    AttributeScanner.exists_foldl_allSpelled t.attributes #[] t.name.length
  refine ⟨read, ?_, hentries⟩
  have hbehind : t.tag.content.drop t.name.length =
      t.attributes.flatMap (·.octets) ++ t.space := List.drop_left
  rw [Tag.attributes, name_tag, hbehind, List.foldl_append, hread,
    AttributeScanner.foldl_gap t.isSpace_space]
  simp [AttributeScanner.finish]

theorem lookup_map_snd {α β γ : Type} [BEq α] (f : β → γ) (entries : List (α × β)) (key : α) :
    (entries.map fun e => (e.1, f e.2)).lookup key = (entries.lookup key).map f := by
  induction entries with
  | nil => rfl
  | cons e rest ih =>
    rw [List.map_cons, List.lookup_cons, List.lookup_cons, ih]
    cases key == e.1 <;> rfl

/-- **The attributes of a tag are looked up.** -/
theorem attribute?_tag (t : SpelledTag) (key : Octets) :
    t.tag.attribute? key = .ok (t.value? key) := by
  obtain ⟨read, hread, hentries⟩ := t.exists_attributes_tag
  have hfound : findKey key none read =
      .ok (((t.attributes.map fun a => (a.key, a.value)).lookup key).map valueOctets) := by
    rw [← lookup_map_snd]
    refine findKey_of_entries ?_
    rw [hentries, List.map_map, List.map_map]
    rfl
  rw [Tag.attribute?, hread]
  dsimp only
  rw [hfound, value?]
  cases (t.attributes.map fun a => (a.key, a.value)).lookup key with
  | none => rfl
  | some value =>
    rw [Option.map_some, foundText, valueText_valueOctets]
    rfl

end SpelledTag

end WorkbookTables.Markup
