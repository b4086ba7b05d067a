import WorkbookTables.Markup.Attribute
import WorkbookTables.Proofs.Markup.Scanning
import WorkbookTables.Proofs.Text.Encoding

/-!
# Looking up what has been written

The attributes of a written tag are read back with their keys and values, and nothing is wrong with
them. Where they stand in the tag is only of interest in messages, so it is left open here. A value
without ampersand has no references, and so its text is the text that was written.

## Main results

* `AttributeScanner.exists_foldl_attribute` — an attribute is read, whatever space is in it
* `exists_attributes_writtenTag` — the attributes of a written tag
* `attribute?_writtenTag`, `numeral?_writtenTag` — their look-ups
-/

namespace WorkbookTables.Markup

variable {name key : Octets} {attributes : List (Octets × Octets)}

/-! ### Reading the attributes -/

theorem name_writtenTag (hname : IsName name) (attributes : List (Octets × Octets)) :
    (⟨writtenTag name attributes⟩ : Tag).name = name := by
  have hletters : ∀ b ∈ name, (!isSpace b) = true := fun b hb => by
    rw [(hname.letters b hb).isSpace]
    rfl
  rw [Tag.name, writtenTag, List.takeWhile_append_of_pos hletters]
  cases attributes with
  | nil => simp
  | cons a rest =>
    have hspace : isSpace (octet ' ') = true := by decide
    simp [writtenAttribute, hspace]

namespace AttributeScanner

variable {found : Array Attribute} {position start : Nat}

/-- In a mode in which each of the octets is only held, they are held one behind the other. -/
theorem foldl_held (mode : Octets → AttributeMode) {octets : Octets}
    (h : ∀ b ∈ octets, ∀ (position : Nat) (held : Octets),
      step ⟨found, position, mode held⟩ b = ⟨found, position + 1, mode (b :: held)⟩)
    (position : Nat) (held : Octets) :
    octets.foldl step ⟨found, position, mode held⟩ =
      ⟨found, position + octets.length, mode (octets.reverse ++ held)⟩ := by
  induction octets generalizing position held with
  | nil => rfl
  | cons b rest ih =>
    obtain ⟨hb, hrest⟩ := List.forall_mem_cons.1 h
    rw [List.foldl_cons, hb, ih hrest]
    simp only [List.length_cons, List.reverse_cons, List.append_assoc, List.singleton_append]
    congr 1
    omega

theorem foldl_gap {octets : Octets} (h : ∀ b ∈ octets, isSpace b = true) (position : Nat) :
    octets.foldl step ⟨found, position, .gap⟩ = ⟨found, position + octets.length, .gap⟩ := by
  refine foldl_held (fun _ => .gap) ?_ position []
  intro b hb position held
  simp [step, read, h b hb]

/-- Octets of a name are held in a key. -/
theorem foldl_keyName {name held : Octets} (h : ∀ b ∈ name, b ∉ nameBreaks) (position : Nat) :
    name.foldl step ⟨found, position, .key start held⟩ =
      ⟨found, position + name.length, .key start (name.reverse ++ held)⟩ := by
  refine foldl_held (.key start) ?_ position held
  intro b hb position held
  have hequals : b ≠ octet '=' := by
    rintro rfl
    exact h _ hb (by decide +kernel)
  simp [step, read, hequals, isSpace_of_notMem (h b hb)]

/-- A key ends with the equals sign, behind any space. -/
theorem exists_foldl_equals {octets : Octets} (h : ∀ b ∈ octets, isSpace b = true)
    (found : Array Attribute) (start position : Nat) (held : Octets) :
    ∃ position', (octets ++ [octet '=']).foldl step ⟨found, position, .key start held⟩ =
      ⟨found, position', .beforeValue start held.reverse⟩ := by
  cases octets with
  | nil => exact ⟨position + 1, rfl⟩
  | cons b rest =>
    obtain ⟨hb, hrest⟩ := List.forall_mem_cons.1 h
    have hne {b : UInt8} (hb : isSpace b = true) : b ≠ octet '=' := by
      rintro rfl
      exact absurd hb (by decide)
    have hfirst : step ⟨found, position, .key start held⟩ b =
        ⟨found, position + 1, .afterKey start held.reverse⟩ := by
      simp [step, read, hne hb, hb]
    have hspaces : rest.foldl step ⟨found, position + 1, .afterKey start held.reverse⟩ =
        ⟨found, position + 1 + rest.length, .afterKey start held.reverse⟩ := by
      refine foldl_held (fun _ => .afterKey start held.reverse) ?_ (position + 1) []
      intro b hb position _
      simp [step, read, hne (hrest b hb), hrest b hb]
    refine ⟨position + 1 + rest.length + 1, ?_⟩
    rw [List.cons_append, List.foldl_cons, hfirst, List.foldl_append, hspaces]
    rfl

/-- A value begins with the quote, behind any space. -/
theorem foldl_beforeValue {octets : Octets} (h : ∀ b ∈ octets, isSpace b = true)
    (position : Nat) :
    octets.foldl step ⟨found, position, .beforeValue start key⟩ =
      ⟨found, position + octets.length, .beforeValue start key⟩ := by
  refine foldl_held (fun _ => .beforeValue start key) ?_ position []
  intro b hb position held
  have hdouble : b ≠ octet '"' := by
    rintro rfl
    exact absurd (h _ hb) (by decide)
  have hsingle : b ≠ octet '\'' := by
    rintro rfl
    exact absurd (h _ hb) (by decide)
  simp [step, read, h b hb, hdouble, hsingle]

/-- A value in its quotes is read. -/
theorem foldl_quoted {quote : UInt8} {value : Octets}
    (hquote : quote = octet '"' ∨ quote = octet '\'') (h : quote ∉ value) (position : Nat) :
    (quote :: (value ++ [quote])).foldl step ⟨found, position, .beforeValue start key⟩ =
      ⟨found.push ⟨key, start, .ok value⟩, position + 1 + value.length + 1, .gap⟩ := by
  have hopen : step ⟨found, position, .beforeValue start key⟩ quote =
      ⟨found, position + 1, .value start key quote []⟩ := by
    simp [step, read, hquote]
  have hvalue : value.foldl step ⟨found, position + 1, .value start key quote []⟩ =
      ⟨found, position + 1 + value.length, .value start key quote (value.reverse ++ [])⟩ := by
    refine foldl_held (.value start key quote) ?_ (position + 1) []
    intro b hb position held
    have hne : b ≠ quote := ne_of_mem_of_not_mem hb h
    simp [step, read, hne]
  have hclose (position : Nat) (held : Octets) :
      [quote].foldl step ⟨found, position, .value start key quote held⟩ =
        ⟨found.push ⟨key, start, .ok held.reverse⟩, position + 1, .gap⟩ := by
    simp [step, read, add]
  rw [List.foldl_cons, hopen, List.foldl_append, hvalue, hclose]
  simp

/-- **An attribute is read**, wherever it stands and whatever space is in it. -/
theorem exists_foldl_attribute {space beforeEquals afterEquals value : Octets} {quote : UInt8}
    (hspace : ∀ b ∈ space, isSpace b = true) (hkey : IsElementName key)
    (hbefore : ∀ b ∈ beforeEquals, isSpace b = true)
    (hafter : ∀ b ∈ afterEquals, isSpace b = true)
    (hquote : quote = octet '"' ∨ quote = octet '\'') (hvalue : quote ∉ value)
    (found : Array Attribute) (position : Nat) :
    ∃ start position', (space ++ (key ++ (beforeEquals ++ octet '=' ::
        (afterEquals ++ quote :: (value ++ [quote]))))).foldl step ⟨found, position, .gap⟩ =
      ⟨found.push ⟨key, start, .ok value⟩, position', .gap⟩ := by
  obtain ⟨first, others, rfl⟩ := List.exists_cons_of_ne_nil hkey.ne_nil
  obtain ⟨hfirst, hothers⟩ := List.forall_mem_cons.1 hkey.notMem
  have hbegin (position : Nat) : step ⟨found, position, .gap⟩ first =
      ⟨found, position + 1, .key position [first]⟩ := by
    simp [step, read, isSpace_of_notMem hfirst]
  obtain ⟨position', hequals⟩ := exists_foldl_equals hbefore found (position + space.length)
    (position + space.length + 1 + others.length) (others.reverse ++ [first])
  refine ⟨position + space.length, position' + afterEquals.length + 1 + value.length + 1, ?_⟩
  have hsplit : space ++ (first :: others ++ (beforeEquals ++ octet '=' ::
      (afterEquals ++ quote :: (value ++ [quote])))) =
      space ++ (first :: (others ++ ((beforeEquals ++ [octet '=']) ++
        (afterEquals ++ quote :: (value ++ [quote]))))) := by
    simp
  rw [hsplit, List.foldl_append, foldl_gap hspace, List.foldl_cons, hbegin, List.foldl_append,
    foldl_keyName hothers, List.foldl_append, hequals, List.foldl_append,
    foldl_beforeValue hafter, foldl_quoted hquote hvalue]
  simp

/-- A written attribute is read. -/
theorem exists_foldl_writtenAttribute {value : Octets} (hkey : IsName key)
    (hvalue : octet '"' ∉ value) (found : Array Attribute) (position : Nat) :
    ∃ start position', (writtenAttribute key value).foldl step ⟨found, position, .gap⟩ =
      ⟨found.push ⟨key, start, .ok value⟩, position', .gap⟩ := by
  have hblank : ∀ b ∈ [octet ' '], isSpace b = true := List.forall_mem_singleton.2 rfl
  have hnone : ∀ b ∈ ([] : Octets), isSpace b = true := by simp
  simpa [writtenAttribute] using exists_foldl_attribute hblank hkey.isElementName hnone hnone
    (.inl rfl) hvalue found position

/-- What is kept of an attribute apart from its place. -/
def entry (a : Attribute) : Octets × Except AttributeFault Octets := (a.key, a.value)

theorem exists_foldl_attributes (h : AreAttributes attributes) (found : Array Attribute)
    (position : Nat) :
    ∃ (read : List Attribute) (position' : Nat),
      (attributes.flatMap fun a => writtenAttribute a.1 a.2).foldl step ⟨found, position, .gap⟩ =
        ⟨found ++ read.toArray, position', .gap⟩ ∧
      read.map entry = attributes.map fun a => (a.1, .ok a.2) := by
  induction attributes generalizing found position with
  | nil => exact ⟨[], position, by simp, rfl⟩
  | cons a rest ih =>
    obtain ⟨⟨hkey, hvalue⟩, hrest⟩ := List.forall_mem_cons.1 h
    obtain ⟨start, position₁, hfirst⟩ := exists_foldl_writtenAttribute hkey hvalue found position
    obtain ⟨read, position₂, hread, hentries⟩ :=
      ih hrest (found.push ⟨a.1, start, .ok a.2⟩) position₁
    refine ⟨⟨a.1, start, .ok a.2⟩ :: read, position₂, ?_, ?_⟩
    · rw [List.flatMap_cons, List.foldl_append, hfirst, hread]
      simp
    · rw [List.map_cons, List.map_cons, hentries]
      rfl

end AttributeScanner

/-- **The attributes of a written tag.** -/
theorem exists_attributes_writtenTag (hname : IsName name) (h : AreAttributes attributes) :
    ∃ read : List Attribute, (⟨writtenTag name attributes⟩ : Tag).attributes = (read, none) ∧
      read.map AttributeScanner.entry = attributes.map fun a => (a.1, .ok a.2) := by
  obtain ⟨read, position, hread, hentries⟩ :=
    AttributeScanner.exists_foldl_attributes h #[] name.length
  refine ⟨read, ?_, hentries⟩
  have hbehind : (writtenTag name attributes).drop name.length =
      attributes.flatMap fun a => writtenAttribute a.1 a.2 := List.drop_left
  rw [Tag.attributes, name_writtenTag hname, hbehind, hread]
  simp [AttributeScanner.finish]

/-! ### Looking up -/

theorem findKey_of_entries {read : List Attribute}
    (h : read.map AttributeScanner.entry = attributes.map fun a => (a.1, .ok a.2)) :
    findKey key none read = .ok (attributes.lookup key) := by
  induction read generalizing attributes with
  | nil =>
    obtain rfl : attributes = [] := by simpa using h.symm
    rfl
  | cons a rest ih =>
    obtain ⟨⟨written, value⟩, others, rfl⟩ : ∃ b others, attributes = b :: others :=
      List.exists_cons_of_ne_nil (by rintro rfl; simp at h)
    obtain ⟨hentry, hrest⟩ := List.cons_eq_cons.1 h
    obtain ⟨hkey, hvalue⟩ : a.key = written ∧ a.value = .ok value := Prod.mk.inj hentry
    rw [findKey, hvalue, hkey, ih hrest, List.lookup_cons]
    by_cases heq : written = key
    · simp [heq]
    · have hne : (key == written) = false := by simpa using Ne.symm heq
      simp [heq, hne]

/-- A value without ampersand stands for itself. -/
theorem unescapeFrom_of_not_mem {cs : List Char} (length position : Nat) (h : '&' ∉ cs) :
    unescapeFrom length position none cs = .ok cs := by
  induction cs generalizing position with
  | nil => rfl
  | cons c rest ih =>
    obtain ⟨hc, hrest⟩ := not_or.1 (mt List.mem_cons.2 h)
    rw [unescapeFrom, if_neg (Ne.symm hc), ih _ hrest]
    rfl

theorem valueText_encode {s : String} (h : '&' ∉ s.toList) :
    valueText (Text.Utf8.encode s) = .ok s := by
  rw [valueText, Text.Utf8.decode_encode]
  simp [unescape, unescapeFrom_of_not_mem _ _ h]

/-- **The text of an attribute is looked up.** -/
theorem attribute?_writtenTag {s : String} (hname : IsName name) (h : AreAttributes attributes)
    (hs : attributes.lookup key = some (Text.Utf8.encode s)) (hplain : '&' ∉ s.toList) :
    (⟨writtenTag name attributes⟩ : Tag).attribute? key = .ok (some s) := by
  obtain ⟨read, hread, hentries⟩ := exists_attributes_writtenTag hname h
  rw [Tag.attribute?, hread]
  dsimp only
  rw [findKey_of_entries hentries, hs, foundText, valueText_encode hplain]
  rfl

theorem attribute?_writtenTag_none (hname : IsName name) (h : AreAttributes attributes)
    (hs : attributes.lookup key = none) :
    (⟨writtenTag name attributes⟩ : Tag).attribute? key = .ok none := by
  obtain ⟨read, hread, hentries⟩ := exists_attributes_writtenTag hname h
  rw [Tag.attribute?, hread]
  dsimp only
  rw [findKey_of_entries hentries, hs, foundText]

/-- **The number of an attribute is looked up.** -/
theorem numeral?_writtenTag {s : String} {n : Nat} (hname : IsName name)
    (h : AreAttributes attributes) (hs : attributes.lookup key = some (Text.Utf8.encode s))
    (hplain : '&' ∉ s.toList) (hn : Numeral.read64 s = .ok n) :
    (⟨writtenTag name attributes⟩ : Tag).numeral? key = .ok (some n) := by
  obtain ⟨read, hread, hentries⟩ := exists_attributes_writtenTag hname h
  rw [Tag.numeral?, hread]
  dsimp only
  rw [findKey_of_entries hentries, hs]
  dsimp only
  rw [valueText_encode hplain]
  dsimp only
  rw [hn]

theorem numeral?_writtenTag_none (hname : IsName name) (h : AreAttributes attributes)
    (hs : attributes.lookup key = none) :
    (⟨writtenTag name attributes⟩ : Tag).numeral? key = .ok none := by
  obtain ⟨read, hread, hentries⟩ := exists_attributes_writtenTag hname h
  rw [Tag.numeral?, hread]
  dsimp only
  rw [findKey_of_entries hentries, hs]

end WorkbookTables.Markup
