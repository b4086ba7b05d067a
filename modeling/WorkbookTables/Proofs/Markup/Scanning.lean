import WorkbookTables.Markup.Document
import WorkbookTables.Proofs.Text.Encoding

/-!
# Octets that make up a document

A document is made of pieces, and where one piece ends the machine stands between markup with
nothing held. So a piece can be described by the events that it makes, whatever has been read
before, and pieces can be put one behind the other. Only the number of open elements is passed on,
because a closing tag needs one.

The machine looks for the end of a tag outside quotes only and at nothing else in it. So what stands
in a tag is free, as long as its quotes are closed. The tags with attributes that are written here
have names of letters and values in double quotes.

## Main definitions

* `Emits` — a piece and its events
* `QuotesClose` — what may stand in a tag
* `IsElementName` — what may be the name of an element
* `writtenTag` — the content of an opening tag, with its attributes
* `openingTag`, `closingTag`, `spacedClosing` — tags in their brackets

## Main results

* `Emits.append` — pieces one behind the other
* `emits_tag`, `emits_emptyTag`, `IsElementName.emits_spacedClosing` — the pieces that are tags
* `emits_opening`, `emits_closing` — those of them that are written here
* `Emits.document` — a document that is one piece
-/

namespace WorkbookTables.Markup

/-- Octets that make the machine recognise events, between `before` and `after` open elements. -/
def Emits (before after : Nat) (octets : Octets) (events : List Event) : Prop :=
  ∀ found : Array Event, Scanner.scan ⟨found, before, .text []⟩ octets =
    ⟨found ++ events.toArray, after, .text []⟩

theorem Emits.nil (depth : Nat) : Emits depth depth [] [] := by
  intro found
  simp [Scanner.scan]

/-- Pieces one behind the other. -/
theorem Emits.append {a b c : Nat} {first second : Octets} {events events' : List Event}
    (h : Emits a b first events) (h' : Emits b c second events') :
    Emits a c (first ++ second) (events ++ events') := by
  intro found
  rw [Scanner.scan_append, h, h']
  simp

/-- A piece that begins and ends without open elements is a document, unless it looks as if it began
with a byte order mark. -/
theorem Emits.document {octets : Octets} {events : List Event} (h : Emits 0 0 octets events)
    (hmark : dropByteOrderMark octets = octets) : Document.ofOctets octets = ⟨events, none⟩ := by
  rw [Document.ofOctets, hmark, Scanner.start, h]
  simp [Scanner.document, Scanner.faultAtEnd]

/-! ### Octets of characters -/

/-- The octet of an ASCII character is found in a text only where the character is. -/
theorem mem_of_octet_mem_encode {a : Char} {s : String} (ha : a.toNat < 0x80)
    (h : octet a ∈ Text.Utf8.encode s) : a ∈ s.toList := by
  obtain ⟨c, hc, hmem⟩ := List.mem_flatMap.1 h
  have hvalue : (octet a).toNat = a.toNat := Text.Utf8.toNat_octet (by omega)
  obtain ⟨hencode, hascii⟩ | hbeyond := Text.Utf8.encodeChar_eq_or c
  · rw [hencode, List.mem_singleton] at hmem
    have hcode : a.toNat = c.toNat := by
      rw [← hvalue, hmem, Text.Utf8.toNat_octet (by omega)]
    rwa [Char.toNat_inj.1 hcode]
  · have hge := hbeyond _ hmem
    omega

theorem encode_append (s t : String) :
    Text.Utf8.encode (s ++ t) = Text.Utf8.encode s ++ Text.Utf8.encode t := by
  simp [Text.Utf8.encode]

/-! ### Names -/

/-- Holds of letters. -/
def IsLetter (b : UInt8) : Prop :=
  octet 'A' ≤ b ∧ b ≤ octet 'Z' ∨ octet 'a' ≤ b ∧ b ≤ octet 'z'

/-- Holds of names of letters. -/
structure IsName (name : Octets) : Prop where
  /-- There is a letter. -/
  ne_nil : name ≠ []
  /-- There is nothing else. -/
  letters : ∀ b ∈ name, IsLetter b

instance (b : UInt8) : Decidable (IsLetter b) := inferInstanceAs (Decidable (_ ∨ _))

instance (name : Octets) : Decidable (IsName name) :=
  decidable_of_iff (name.isEmpty = false ∧ name.all (fun b => decide (IsLetter b)) = true) <| by
    simp only [List.isEmpty_eq_false_iff, List.all_eq_true, decide_eq_true_eq]
    exact ⟨fun h => ⟨h.1, h.2⟩, fun h => ⟨h.ne_nil, h.letters⟩⟩

/-- A letter is none of the octets that are no letters. -/
theorem IsLetter.ne {b special : UInt8} (h : IsLetter b)
    (hspecial : ¬IsLetter special) : b ≠ special := by
  rintro rfl
  exact hspecial h

/-- The octets that end a name or mean something else in a tag. -/
def nameBreaks : Octets := Text.Utf8.encode " \t\r\n<>/!?=&\"'"

theorem IsLetter.notMem_nameBreaks {b : UInt8} (h : IsLetter b) : b ∉ nameBreaks := by
  have hbreaks : ∀ special ∈ nameBreaks, ¬IsLetter special := by decide +kernel
  exact fun hmem => hbreaks b hmem h

theorem isSpace_of_notMem {b : UInt8} (h : b ∉ nameBreaks) : isSpace b = false := by
  have hne : b ≠ octet ' ' ∧ b ≠ octet '\t' ∧ b ≠ octet '\r' ∧ b ≠ octet '\n' := by
    refine ⟨?_, ?_, ?_, ?_⟩ <;> rintro rfl <;> exact h (by decide +kernel)
  simp [isSpace, hne]

theorem IsLetter.isSpace {b : UInt8} (h : IsLetter b) : isSpace b = false :=
  isSpace_of_notMem h.notMem_nameBreaks

/-! ### Opening tags -/

/-- An attribute, with the space before it. -/
def writtenAttribute (key value : Octets) : Octets :=
  octet ' ' :: key ++ octet '=' :: octet '"' :: value ++ [octet '"']

/-- The content of an opening tag. -/
def writtenTag (name : Octets) (attributes : List (Octets × Octets)) : Octets :=
  name ++ attributes.flatMap fun a => writtenAttribute a.1 a.2

/-- An opening tag in its brackets. -/
def openingTag (name : Octets) (attributes : List (Octets × Octets)) : Octets :=
  octet '<' :: writtenTag name attributes ++ [octet '>']

/-- Holds of attributes whose keys are names and whose values have no double quote. -/
def AreAttributes (attributes : List (Octets × Octets)) : Prop :=
  ∀ a ∈ attributes, IsName a.1 ∧ octet '"' ∉ a.2

/-! ### Octets of a tag -/

/-- Holds of octets that neither end a tag nor open a quote. -/
def IsQuiet (b : UInt8) : Prop := b ≠ octet '>' ∧ b ≠ octet '"' ∧ b ≠ octet '\''

theorem isQuiet_of_isLetter {b : UInt8} (h : IsLetter b) : IsQuiet b :=
  ⟨h.ne (by decide), h.ne (by decide), h.ne (by decide)⟩

theorem isQuiet_of_isSpace {b : UInt8} (h : isSpace b = true) : IsQuiet b := by
  refine ⟨?_, ?_, ?_⟩ <;> rintro rfl <;> exact absurd h (by decide)

/-- Holds of names of elements. Apart from octets that mean something else, anything may stand in
one, and so do the colon of a prefix and letters beyond ASCII. -/
structure IsElementName (name : Octets) : Prop where
  /-- There is an octet. -/
  ne_nil : name ≠ []
  /-- None of the octets means anything else. -/
  notMem : ∀ b ∈ name, b ∉ nameBreaks

instance (name : Octets) : Decidable (IsElementName name) :=
  decidable_of_iff (name.isEmpty = false ∧ name.all (fun b => decide (b ∉ nameBreaks)) = true) <| by
    simp only [List.isEmpty_eq_false_iff, List.all_eq_true, decide_eq_true_eq]
    exact ⟨fun h => ⟨h.1, h.2⟩, fun h => ⟨h.ne_nil, h.notMem⟩⟩

theorem IsElementName.isQuiet {name : Octets} (h : IsElementName name) {b : UInt8} (hb : b ∈ name) :
    IsQuiet b := by
  refine ⟨?_, ?_, ?_⟩ <;> rintro rfl <;> exact h.notMem _ hb (by decide +kernel)

theorem IsName.isElementName {name : Octets} (h : IsName name) : IsElementName name :=
  ⟨h.ne_nil, fun b hb => (h.letters b hb).notMem_nameBreaks⟩

/-- Octets of a tag in which each quote is closed and a bracket that would end the tag stands
between quotes only. -/
inductive QuotesClose : Octets → Prop where
  /-- There are none. -/
  | nil : QuotesClose []
  /-- An octet that is neither a quote nor the bracket. -/
  | plain {b : UInt8} {rest : Octets} (h : IsQuiet b) (hrest : QuotesClose rest) :
    QuotesClose (b :: rest)
  /-- Anything between two quotes of one kind. -/
  | quoted {quote : UInt8} {value rest : Octets} (hquote : quote = octet '"' ∨ quote = octet '\'')
    (hvalue : quote ∉ value) (hrest : QuotesClose rest) :
    QuotesClose (quote :: (value ++ quote :: rest))

namespace QuotesClose

theorem append {first second : Octets} (h : QuotesClose first) (h' : QuotesClose second) :
    QuotesClose (first ++ second) := by
  induction h with
  | nil => exact h'
  | plain hb _ ih => exact .plain hb ih
  | quoted hquote hvalue _ ih => simpa using QuotesClose.quoted hquote hvalue ih

theorem of_forall {octets : Octets} (h : ∀ b ∈ octets, IsQuiet b) : QuotesClose octets := by
  induction octets with
  | nil => exact .nil
  | cons b rest ih =>
    obtain ⟨hb, hrest⟩ := List.forall_mem_cons.1 h
    exact .plain hb (ih hrest)

theorem head_ne {b : UInt8} {rest : Octets} (h : QuotesClose (b :: rest)) : b ≠ octet '>' := by
  cases h with
  | plain h _ => exact h.1
  | quoted hquote _ _ => obtain rfl | rfl := hquote <;> decide

end QuotesClose

theorem quotesClose_attribute {key value : Octets} (hkey : IsName key)
    (hvalue : octet '"' ∉ value) : QuotesClose (writtenAttribute key value) := by
  have hblank : IsQuiet (octet ' ') := ⟨by decide, by decide, by decide⟩
  have hequals : IsQuiet (octet '=') := ⟨by decide, by decide, by decide⟩
  have hletters : QuotesClose key := .of_forall fun b hb => isQuiet_of_isLetter (hkey.letters b hb)
  simpa [writtenAttribute] using
    QuotesClose.plain hblank (hletters.append (.plain hequals (.quoted (.inl rfl) hvalue .nil)))

theorem quotesClose_writtenTag {name : Octets} {attributes : List (Octets × Octets)}
    (hname : IsName name) (h : AreAttributes attributes) :
    QuotesClose (writtenTag name attributes) := by
  refine .append (.of_forall fun b hb => isQuiet_of_isLetter (hname.letters b hb)) ?_
  induction attributes with
  | nil => exact .nil
  | cons a rest ih =>
    obtain ⟨⟨hkey, hvalue⟩, hrest⟩ := List.forall_mem_cons.1 h
    exact (quotesClose_attribute hkey hvalue).append (ih hrest)

namespace Scanner

variable {found : Array Event} {depth : Nat} {held : Octets}

/-- In a mode in which each of the octets is only held, they are held one behind the other. -/
theorem scan_held (mode : Octets → Mode) {octets : Octets} (h : ∀ b ∈ octets, ∀ held : Octets,
      step ⟨found, depth, mode held⟩ b = ⟨found, depth, mode (b :: held)⟩) (held : Octets) :
    scan ⟨found, depth, mode held⟩ octets = ⟨found, depth, mode (octets.reverse ++ held)⟩ := by
  induction octets generalizing held with
  | nil => rfl
  | cons b rest ih =>
    obtain ⟨hb, hrest⟩ := List.forall_mem_cons.1 h
    have hscan := ih hrest (b :: held)
    rw [scan, List.foldl_cons, hb held]
    simpa [scan] using hscan

theorem scan_opening_quoted {quote : UInt8} {value : Octets} (h : quote ∉ value) :
    scan ⟨found, depth, .opening held (some quote)⟩ value =
      ⟨found, depth, .opening (value.reverse ++ held) (some quote)⟩ := by
  refine scan_held (.opening · (some quote)) ?_ held
  intro b hb held
  have hquote : b ≠ quote := ne_of_mem_of_not_mem hb h
  simp [step, continueWith, quoteAfter, hquote]

/-- In a tag the machine holds everything up to the bracket that ends it. -/
theorem scan_opening {octets : Octets} (h : QuotesClose octets) :
    scan ⟨found, depth, .opening held none⟩ octets =
      ⟨found, depth, .opening (octets.reverse ++ held) none⟩ := by
  induction h generalizing held with
  | nil => rfl
  | @plain b rest hb _ ih =>
    obtain ⟨hend, hdouble, hsingle⟩ := hb
    have hstep : step ⟨found, depth, .opening held none⟩ b =
        ⟨found, depth, .opening (b :: held) none⟩ := by
      simp [step, continueWith, quoteAfter, hend, hdouble, hsingle]
    have hrest : scan ⟨found, depth, .opening (b :: held) none⟩ rest =
        ⟨found, depth, .opening (rest.reverse ++ b :: held) none⟩ := ih
    rw [scan, List.foldl_cons, hstep]
    simpa [scan] using hrest
  | @quoted quote value rest hquote hvalue _ ih =>
    have hopen : scan ⟨found, depth, .opening held none⟩ [quote] =
        ⟨found, depth, .opening (quote :: held) (some quote)⟩ := by
      obtain rfl | rfl := hquote <;> rfl
    have hclose : ∀ held, scan ⟨found, depth, .opening held (some quote)⟩ [quote] =
        ⟨found, depth, .opening (quote :: held) none⟩ := by
      intro held
      simp [scan, step, continueWith, quoteAfter]
    have hsplit : quote :: (value ++ quote :: rest) =
        [quote] ++ (value ++ ([quote] ++ rest)) := rfl
    rw [hsplit, scan_append, hopen, scan_append, scan_opening_quoted hvalue, scan_append, hclose,
      ih]
    simp

/-- What may not be the first octet of a tag that opens an element. -/
def IsTagStart (b : UInt8) : Prop := b ≠ octet '!' ∧ b ≠ octet '?' ∧ b ≠ octet '/'

/-- **A tag in its brackets**: the machine ends it with what stands between them. -/
theorem scan_tag {first : UInt8} {content : Octets} (hfirst : IsTagStart first)
    (h : QuotesClose (first :: content)) (found : Array Event) (depth : Nat) :
    scan ⟨found, depth, .text []⟩ (octet '<' :: first :: content ++ [octet '>']) =
      endOpening ⟨found, depth, .opening (first :: content).reverse none⟩
        (first :: content).reverse := by
  obtain ⟨hbang, hquestion, hslash⟩ := hfirst
  have hopen : scan ⟨found, depth, .text []⟩ [octet '<'] = ⟨found, depth, .markup⟩ := rfl
  have hend : first ≠ octet '>' := h.head_ne
  have hbegin : scan ⟨found, depth, .markup⟩ (first :: content) =
      scan ⟨found, depth, .opening [] none⟩ (first :: content) := by
    simp [scan, step, continueWith, hbang, hquestion, hslash, hend]
  have hclose : ∀ held, scan ⟨found, depth, .opening held none⟩ [octet '>'] =
      endOpening ⟨found, depth, .opening held none⟩ held := by
    intro held
    simp [scan, step]
  have hsplit : octet '<' :: first :: content ++ [octet '>'] =
      [octet '<'] ++ ((first :: content) ++ [octet '>']) := rfl
  rw [hsplit, scan_append, hopen, scan_append, hbegin, scan_opening h, hclose, List.append_nil]

/-- A tag that does not end with a slash is no empty element. -/
theorem endOpening_of_ne {content : Octets} {last : UInt8} (h : last ≠ octet '/') :
    endOpening ⟨found, depth, .opening held none⟩ (content ++ [last]).reverse =
      ⟨found.push (.opening ⟨content ++ [last]⟩), depth + 1, .text []⟩ := by
  rw [List.reverse_append]
  simp [endOpening, h, emit]

end Scanner

/-- A tag ends with a letter of its name or with a quote. -/
theorem exists_last_writtenTag {name : Octets} (hname : IsName name)
    (attributes : List (Octets × Octets)) :
    ∃ content last, writtenTag name attributes = content ++ [last] ∧ last ≠ octet '/' := by
  obtain rfl | ⟨earlier, a, rfl⟩ := List.eq_nil_or_concat attributes
  · obtain h | ⟨content, last, hlast⟩ := List.eq_nil_or_concat name
    · exact absurd h hname.ne_nil
    · refine ⟨content, last, by simpa [writtenTag] using hlast, ?_⟩
      exact (hname.letters last (by simp [hlast])).ne (by decide)
  · refine ⟨writtenTag name earlier ++
      (octet ' ' :: a.1 ++ octet '=' :: octet '"' :: a.2), octet '"', ?_, by decide⟩
    simp [writtenTag, writtenAttribute]

/-- **A tag that opens an element.** What stands in it is free, as long as its quotes are closed. -/
theorem emits_tag {first : UInt8} {content : Octets} (hfirst : Scanner.IsTagStart first)
    (h : QuotesClose (first :: content)) (hlast : octet '/' ∉ (first :: content).getLast?)
    (depth : Nat) :
    Emits depth (depth + 1) (octet '<' :: first :: content ++ [octet '>'])
      [.opening ⟨first :: content⟩] := by
  intro found
  obtain hnil | ⟨earlier, last, hsplit⟩ := List.eq_nil_or_concat (first :: content)
  · cases hnil
  · rw [List.concat_eq_append] at hsplit
    have hne : last ≠ octet '/' := by
      rintro rfl
      exact hlast (by simp [hsplit])
    rw [Scanner.scan_tag hfirst h, hsplit, Scanner.endOpening_of_ne hne]
    simp

/-- **A tag that is a whole element**, with a slash before its last bracket. -/
theorem emits_emptyTag {first : UInt8} {content : Octets} (hfirst : Scanner.IsTagStart first)
    (h : QuotesClose (first :: content)) (depth : Nat) :
    Emits depth depth (octet '<' :: first :: content ++ [octet '/', octet '>'])
      [.opening ⟨first :: content⟩, .closing (Tag.name ⟨first :: content⟩)] := by
  intro found
  have hslash : QuotesClose [octet '/'] := .plain ⟨by decide, by decide, by decide⟩ .nil
  have htag := Scanner.scan_tag hfirst (h.append hslash) found depth
  have hend : Scanner.endOpening ⟨found, depth, .opening (first :: (content ++ [octet '/'])).reverse
      none⟩ (first :: (content ++ [octet '/'])).reverse =
        ⟨found ++ [Event.opening ⟨first :: content⟩,
          .closing (Tag.name ⟨first :: content⟩)].toArray, depth, .text []⟩ := by
    simp [Scanner.endOpening, Scanner.emit, ← Array.toList_inj]
  simpa using htag.trans hend

/-- **An opening tag.** -/
theorem emits_opening {name : Octets} {attributes : List (Octets × Octets)} (depth : Nat)
    (hname : IsName name) (h : AreAttributes attributes) :
    Emits depth (depth + 1) (openingTag name attributes)
      [.opening ⟨writtenTag name attributes⟩] := by
  obtain ⟨first, letters, rfl⟩ := List.exists_cons_of_ne_nil hname.ne_nil
  have hletter := hname.letters first List.mem_cons_self
  obtain ⟨content, last, hcontent, hne⟩ := exists_last_writtenTag hname attributes
  have hlast : octet '/' ∉ (writtenTag (first :: letters) attributes).getLast? := by
    rw [hcontent]
    simpa using hne
  exact emits_tag ⟨hletter.ne (by decide), hletter.ne (by decide), hletter.ne (by decide)⟩
    (quotesClose_writtenTag hname h) hlast depth

/-! ### Closing tags -/

/-- A closing tag in its brackets. -/
def closingTag (name : Octets) : Octets := octet '<' :: octet '/' :: name ++ [octet '>']

theorem Scanner.scan_closing {found : Array Event} {depth : Nat} {held octets : Octets}
    (h : ∀ b ∈ octets, IsQuiet b) :
    scan ⟨found, depth, .closing held none⟩ octets =
      ⟨found, depth, .closing (octets.reverse ++ held) none⟩ := by
  refine scan_held (.closing · none) ?_ held
  intro b hb held
  obtain ⟨hend, hdouble, hsingle⟩ := h b hb
  simp [step, continueWith, quoteAfter, hend, hdouble, hsingle]

/-- A closing tag with space at its end. -/
def spacedClosing (name space : Octets) : Octets :=
  octet '<' :: (octet '/' :: (name ++ space ++ [octet '>']))

/-- The name in a closing tag, which space may follow. -/
theorem Scanner.closingName_reverse {name space : Octets} (h : IsElementName name)
    (hspace : ∀ b ∈ space, isSpace b = true) : closingName (name ++ space).reverse = name := by
  have hdrop : (name ++ space).reverse.dropWhile isSpace = name.reverse.dropWhile isSpace := by
    rw [List.reverse_append]
    exact List.dropWhile_append_of_pos fun b hb => hspace b (List.mem_reverse.1 hb)
  obtain ⟨last, earlier, hlast⟩ := List.exists_cons_of_ne_nil
    (mt List.reverse_eq_nil_iff.1 h.ne_nil)
  have hmem : last ∈ name := List.mem_reverse.1 (by simp [hlast])
  have hletter := isSpace_of_notMem (h.notMem last hmem)
  have hname : name = (last :: earlier).reverse := by rw [← hlast, List.reverse_reverse]
  rw [closingName, hdrop, hlast, List.dropWhile_cons_of_neg (by simp [hletter]), hname]

/-- **A closing tag**, with space at its end or without. -/
theorem IsElementName.emits_spacedClosing {name space : Octets} (h : IsElementName name)
    (hspace : ∀ b ∈ space, isSpace b = true) (depth : Nat) :
    Emits (depth + 1) depth (spacedClosing name space) [.closing name] := by
  intro found
  have hopen : Scanner.scan ⟨found, depth + 1, .text []⟩ [octet '<', octet '/'] =
      ⟨found, depth + 1, .closing [] none⟩ := rfl
  have hend (held : Octets) : Scanner.scan ⟨found, depth + 1, .closing held none⟩ [octet '>'] =
      Scanner.endClosing ⟨found, depth + 1, .closing held none⟩ held := by
    simp [Scanner.scan, Scanner.step]
  have hquiet : ∀ b ∈ name ++ space, IsQuiet b := by
    intro b hb
    obtain hb | hb := List.mem_append.1 hb
    · exact h.isQuiet hb
    · exact isQuiet_of_isSpace (hspace b hb)
  have hsplit : spacedClosing name space =
      [octet '<', octet '/'] ++ ((name ++ space) ++ [octet '>']) := rfl
  rw [hsplit, Scanner.scan_append, hopen, Scanner.scan_append, Scanner.scan_closing hquiet,
    List.append_nil, hend, Scanner.endClosing, Scanner.closingName_reverse h hspace]
  simp [Scanner.emit]

theorem IsElementName.emits_closing {name : Octets} (h : IsElementName name) (depth : Nat) :
    Emits (depth + 1) depth (closingTag name) [.closing name] := by
  have hnone : ∀ b ∈ ([] : Octets), isSpace b = true := by simp
  simpa [closingTag, spacedClosing] using h.emits_spacedClosing hnone depth

theorem emits_closing {name : Octets} (depth : Nat) (h : IsName name) :
    Emits (depth + 1) depth (closingTag name) [.closing name] :=
  h.isElementName.emits_closing depth

end WorkbookTables.Markup
