import Mathlib.Data.List.Permutation
import WorkbookTables.Book.FormatTable
import WorkbookTables.Proofs.Markup.WellFormed

/-!
# The lists of formats and codes

The part with the styles may be laid out in many ways. The formats of cells may be listed in front
of the codes of number formats or behind them, and the lists may stand among anything else, tags
with the names of a format or of a code included. All that the reading makes of this is told here
from the two lists alone: for each format the kind of the last code that is given for its id, or
else the kind that is built in, or else a plain number.

Outside the lists the reader stands still. Inside a list it notes the tags of one name, whatever
stands between them and however deep they stand. It may end behind the second list, without a look
at the rest, or at the end of the document. By then it has noted the same, and only then are the ids
looked up.

## Main definitions

* `FormatTable.codeOf?`, `FormatTable.kindShown` — the code of an id, and the kind of a format
* `FormatTable.ListsFormats` — a document with a list of formats and perhaps one of codes
* `FormatTable.Resolves` — a table that shows the kinds of some formats

## Main results

* `FormatTable.getElem?_foldl_insertCode` — the codes that are noted are the last ones of their ids
* `FormatTable.State.run_formats`, `FormatTable.State.run_codes` — the reading of either list
* `FormatTable.exists_resolves` — the table of a document, however it is laid out
-/

namespace WorkbookTables.FormatTable

open Markup Cell

/-! ### Codes -/

/-- The code that a tag gives for an id. -/
def ownCode? (tag : SpelledTag) (id : String) : Option String :=
  if tag.value? idName = some id then tag.value? formatCodeName else none

/-- The last code that tags give for an id. -/
def codeOf? (codes : List SpelledTag) (id : String) : Option String :=
  (codes.filterMap (ownCode? · id)).getLast?

/-- The id of the number format of a cell format. -/
def formatId (format : SpelledTag) : String := (format.value? idName).getD "0"

/-- The kind that a cell format shows: that of the last code for its number format, else the one
that is built in, else a plain number. -/
def kindShown (codes : List SpelledTag) (format : SpelledTag) : Kind :=
  match codeOf? codes (formatId format) with
  | some code => kindOfFormatCode code
  | none => (builtinKind? (formatId format)).getD .number

/-- The codes with that of one more tag. -/
def insertCode (codes : Std.TreeMap String Kind) (tag : SpelledTag) : Std.TreeMap String Kind :=
  match tag.value? idName, tag.value? formatCodeName with
  | some id, some code => codes.insert id (kindOfFormatCode code)
  | _, _ => codes

theorem getElem?_insertCode (codes : Std.TreeMap String Kind) (tag : SpelledTag) (id : String) :
    (insertCode codes tag)[id]? = ((ownCode? tag id).map kindOfFormatCode).or codes[id]? := by
  rw [insertCode, ownCode?]
  cases tag.value? idName with
  | none => simp
  | some id' =>
    cases tag.value? formatCodeName with
    | none => simp
    | some code => by_cases hid : id' = id <;> simp [Std.TreeMap.getElem?_insert, hid]

theorem codeOf?_cons (tag : SpelledTag) (rest : List SpelledTag) (id : String) :
    codeOf? (tag :: rest) id = (codeOf? rest id).or (ownCode? tag id) := by
  rw [codeOf?, codeOf?, List.filterMap_cons]
  cases ownCode? tag id with
  | none => simp
  | some code => rw [List.getLast?_cons]; cases (rest.filterMap (ownCode? · id)).getLast? <;> rfl

/-- **The codes that are noted are the last ones of their ids.** -/
theorem getElem?_foldl_insertCode (tags : List SpelledTag) (codes : Std.TreeMap String Kind)
    (id : String) : (tags.foldl insertCode codes)[id]? =
      ((codeOf? tags id).map kindOfFormatCode).or codes[id]? := by
  induction tags generalizing codes with
  | nil => rfl
  | cons tag rest ih =>
    rw [List.foldl_cons, ih, getElem?_insertCode, codeOf?_cons]
    cases codeOf? rest id <;> rfl

theorem kindOfId_foldl_insertCode (codes : List SpelledTag) (format : SpelledTag) :
    kindOfId (codes.foldl insertCode ∅) (formatId format) = kindShown codes format := by
  have hnone : (∅ : Std.TreeMap String Kind)[formatId format]? = none := by simp
  rw [kindOfId, getElem?_foldl_insertCode, hnone, Option.or_none, kindShown]
  cases codeOf? codes (formatId format) <;> rfl

/-! ### Reading a list -/

/-- The elements that are lists. -/
def listNames : List Octets := [codesName, formatsName]

/-- Holds of an element that is a list of some name, in which there is no other list. -/
structure IsList (name : Octets) (list : Element) : Prop where
  /-- It has the name. -/
  name_eq : list.tag.name = name
  /-- There is no other list in it. -/
  apart : list.inner.outermost listNames = []

theorem IsList.spares_inner {name : Octets} {list : Element} (h : IsList name list) :
    ∀ e ∈ list.inner.events [], e.Spares listNames :=
  (h.apart ▸ list.inner.parts_events listNames []).spares

/-- The tags of formats in a list. -/
def formatTags (formats : Element) : List SpelledTag := formats.inner.tagsNamed formatName

/-- The tags of codes in a list. -/
def codeTags (codes : Element) : List SpelledTag := codes.inner.tagsNamed codeName

/-- Between tags that are noted nothing is read. -/
theorem passes_openings {σ ε ρ : Type} {r : Reading σ ε ρ} {I : σ → Prop} {name : Octets}
    {names : List Octets} (note : σ → SpelledTag → σ) (hkeep : ∀ {s t}, I s → I (note s t))
    (hnote : ∀ {s} {t : SpelledTag}, I s → t.tag.name = name →
      r.step s (.opening t.tag) = (note s t, .more))
    (hother : ∀ {s} {e : Event}, I s → e.Spares names →
      (∀ tag, e = .opening tag → tag.name ≠ name) → r.step s e = (s, .more))
    {events : List Event} (hevents : ∀ e ∈ events, e.Spares names) {tags : List SpelledTag}
    (htags : openingsNamed name events = tags.map (·.tag)) {s : σ} (hs : I s) :
    r.Passes s events (tags.foldl note s) := by
  induction events generalizing s tags with
  | nil =>
    obtain rfl : tags = [] := by simpa [openingsNamed] using htags.symm
    exact .nil s
  | cons e rest ih =>
    obtain ⟨he, hrest⟩ := List.forall_mem_cons.1 hevents
    by_cases hopening : ∃ tag, e = .opening tag ∧ tag.name = name
    · obtain ⟨tag, rfl, hname⟩ := hopening
      have hcons : openingsNamed name (.opening tag :: rest) = tag :: openingsNamed name rest := by
        simp [openingsNamed, hname]
      obtain ⟨first, others, rfl, rfl, hothers⟩ := List.map_eq_cons_iff.1 (htags.symm.trans hcons)
      exact .cons (hnote hs hname) (ih hrest hothers.symm (hkeep hs))
    · have hnot : ∀ tag, e = .opening tag → tag.name ≠ name :=
        fun tag htag hname => hopening ⟨tag, htag, hname⟩
      have hcons : openingsNamed name (e :: rest) = openingsNamed name rest := by
        cases e with
        | opening tag => simp [openingsNamed, hnot tag rfl]
        | _ => rfl
      exact .cons (hother hs he hnot) (ih hrest (hcons ▸ htags) hs)

namespace State

variable {s : State} {e : Event} {events : List Event} {tags : List SpelledTag}

/-- Holds of states outside the lists. -/
def IsOutside (s : State) : Prop := s.inCodes = false ∧ s.inFormats = false

/-- A state that has noted the format of one more tag. -/
def noteFormat (s : State) (tag : SpelledTag) : State := { s with ids := s.ids.push (formatId tag) }

/-- A state that has noted the code of one more tag. -/
def noteCode (s : State) (tag : SpelledTag) : State := { s with codes := insertCode s.codes tag }

theorem foldl_noteFormat (s : State) (tags : List SpelledTag) :
    tags.foldl noteFormat s = { s with ids := s.ids ++ (tags.map formatId).toArray } := by
  induction tags generalizing s with
  | nil => simp
  | cons tag rest ih => rw [List.foldl_cons, ih]; simp [noteFormat]

theorem foldl_noteCode (s : State) (tags : List SpelledTag) :
    tags.foldl noteCode s = { s with codes := tags.foldl insertCode s.codes } := by
  induction tags generalizing s with
  | nil => rfl
  | cons tag rest ih => rw [List.foldl_cons, ih]; rfl

theorem addFormat_tag (s : State) (tag : SpelledTag) :
    s.addFormat tag.tag = (s.noteFormat tag, .more) := by
  rw [addFormat, tag.attribute?_tag]
  rfl

theorem addCode_tag (s : State) (tag : SpelledTag) :
    s.addCode tag.tag = (s.noteCode tag, .more) := by
  rw [addCode, tag.attribute?_tag, tag.attribute?_tag, noteCode, insertCode]
  cases tag.value? idName <;> cases tag.value? formatCodeName <;> rfl

/-- Outside the lists nothing is read. -/
theorem step_outside (hs : s.IsOutside) (h : e.Spares listNames) : s.step e = (s, .more) := by
  obtain ⟨hcodes, hformats⟩ := hs
  cases e with
  | opening tag =>
    obtain ⟨hnotCodes, hnotFormats⟩ : tag.name ≠ codesName ∧ tag.name ≠ formatsName := by
      simpa [Event.Spares, listNames] using h
    simp [step, hcodes, hformats, hnotCodes, hnotFormats]
  | closing name => simp [step, hcodes, hformats]
  | _ => rfl

theorem passes_outside (hs : s.IsOutside) (h : ∀ e ∈ events, e.Spares listNames) :
    reading.Passes s events s :=
  .of_forall fun e he => step_outside hs (h e he)

/-- **Inside the list of formats** their tags are noted. -/
theorem passes_inFormats (hevents : ∀ e ∈ events, e.Spares listNames)
    (htags : openingsNamed formatName events = tags.map (·.tag))
    (hs : s.inCodes = false ∧ s.inFormats = true) :
    reading.Passes s events (tags.foldl noteFormat s) := by
  refine passes_openings (I := fun s : State => s.inCodes = false ∧ s.inFormats = true) noteFormat
    (fun hs => hs) ?_ ?_ hevents htags hs
  · rintro s t ⟨hcodes, hformats⟩ hname
    have hne : formatName ≠ codesName := by decide +kernel
    have hstep : reading.step s (.opening t.tag) = s.addFormat t.tag := by
      simp [reading, step, hcodes, hformats, hname, hne]
    rw [hstep, addFormat_tag]
  · rintro s e ⟨hcodes, hformats⟩ hspares hnot
    cases e with
    | opening tag =>
      obtain ⟨hnotCodes, -⟩ : tag.name ≠ codesName ∧ tag.name ≠ formatsName := by
        simpa [Event.Spares, listNames] using hspares
      simp [reading, step, hcodes, hformats, hnotCodes, hnot tag rfl]
    | closing name =>
      obtain ⟨-, hnotFormats⟩ : name ≠ codesName ∧ name ≠ formatsName := by
        simpa [Event.Spares, listNames] using hspares
      simp [reading, step, hcodes, hnotFormats]
    | _ => rfl

/-- **Inside the list of codes** their tags are noted. -/
theorem passes_inCodes (hevents : ∀ e ∈ events, e.Spares listNames)
    (htags : openingsNamed codeName events = tags.map (·.tag))
    (hs : s.inCodes = true ∧ s.inFormats = false) :
    reading.Passes s events (tags.foldl noteCode s) := by
  refine passes_openings (I := fun s : State => s.inCodes = true ∧ s.inFormats = false) noteCode
    (fun hs => hs) ?_ ?_ hevents htags hs
  · rintro s t ⟨hcodes, hformats⟩ hname
    have hstep : reading.step s (.opening t.tag) = s.addCode t.tag := by
      simp [reading, step, hcodes, hname]
    rw [hstep, addCode_tag]
  · rintro s e ⟨hcodes, hformats⟩ hspares hnot
    cases e with
    | opening tag =>
      obtain ⟨-, hnotFormats⟩ : tag.name ≠ codesName ∧ tag.name ≠ formatsName := by
        simpa [Event.Spares, listNames] using hspares
      simp [reading, step, hcodes, hformats, hnotFormats, hnot tag rfl]
    | closing name =>
      obtain ⟨hnotCodes, -⟩ : name ≠ codesName ∧ name ≠ formatsName := by
        simpa [Event.Spares, listNames] using hspares
      simp [reading, step, hformats, hnotCodes]
    | _ => rfl

/-- The state behind the list of formats. -/
def afterFormats (s : State) (tags : List SpelledTag) : State :=
  { s with seenFormats := true, ids := s.ids ++ (tags.map formatId).toArray }

/-- The state behind the list of codes. -/
def afterCodes (s : State) (tags : List SpelledTag) : State :=
  { s with seenCodes := true, codes := tags.foldl insertCode s.codes }

/-- What is read of a list is read between its tags. -/
theorem run_list {s₁ s₂ : State} {list : Element}
    (hopen : reading.step s (.opening list.tag.tag) = (s₁, .more))
    (hinner : reading.Passes s₁ (list.inner.events []) s₂) (behind : List Event) :
    reading.run none s (list.events ++ behind) =
      reading.run none s₂ (.closing list.tag.name :: behind) := by
  rw [Element.events, List.append_assoc, List.append_assoc, (Reading.Passes.one hopen).run_eq,
    hinner.run_eq]
  rfl

/-- **The reading of the list of formats**, behind which it ends if there has been one of codes. -/
theorem run_formats (hs : s.IsOutside) {list : Element} (h : IsList formatsName list)
    (behind : List Event) : reading.run none s (list.events ++ behind) =
      let s' := s.afterFormats (formatTags list)
      if s.seenCodes then (s', .ok s'.table) else reading.run none s' behind := by
  obtain ⟨codes, seenCodes, inCodes, ids, seenFormats, inFormats⟩ := s
  obtain ⟨rfl, rfl⟩ : inCodes = false ∧ inFormats = false := hs
  have hne : formatsName ≠ codesName := by decide +kernel
  have hopen : reading.step ⟨codes, seenCodes, false, ids, seenFormats, false⟩
      (.opening list.tag.tag) = (⟨codes, seenCodes, false, ids, true, true⟩, .more) := by
    simp [reading, step, list.tag.name_tag, h.name_eq, hne]
  have hlist := passes_inFormats h.spares_inner
    (list.inner.openingsNamed_events formatName [])
    (⟨rfl, rfl⟩ : (⟨codes, seenCodes, false, ids, true, true⟩ : State).inCodes = false ∧ _)
  rw [run_list hopen hlist, foldl_noteFormat, h.name_eq]
  cases seenCodes with
  | false => exact Reading.run_cons_more rfl
  | true => exact Reading.run_cons_finished rfl

/-- **The reading of the list of codes**, behind which it ends if there has been one of formats. -/
theorem run_codes (hs : s.IsOutside) {list : Element} (h : IsList codesName list)
    (behind : List Event) : reading.run none s (list.events ++ behind) =
      let s' := s.afterCodes (codeTags list)
      if s.seenFormats then (s', .ok s'.table) else reading.run none s' behind := by
  obtain ⟨codes, seenCodes, inCodes, ids, seenFormats, inFormats⟩ := s
  obtain ⟨rfl, rfl⟩ : inCodes = false ∧ inFormats = false := hs
  have hopen : reading.step ⟨codes, seenCodes, false, ids, seenFormats, false⟩
      (.opening list.tag.tag) = (⟨codes, true, true, ids, seenFormats, false⟩, .more) := by
    simp [reading, step, list.tag.name_tag, h.name_eq]
  have hlist := passes_inCodes h.spares_inner
    (list.inner.openingsNamed_events codeName [])
    (⟨rfl, rfl⟩ : (⟨codes, true, true, ids, seenFormats, false⟩ : State).inCodes = true ∧ _)
  rw [run_list hopen hlist, foldl_noteCode, h.name_eq]
  cases seenFormats with
  | false => exact Reading.run_cons_more rfl
  | true => exact Reading.run_cons_finished rfl

/-- Up to the first list nothing is read. -/
theorem run_gap (hs : s.IsOutside) {before : List Event} (h : ∀ e ∈ before, e.Spares listNames)
    (behind : List Event) : reading.run none s (before ++ behind) = reading.run none s behind :=
  (passes_outside hs h).run_eq none behind

/-- Behind the last list nothing is read. -/
theorem run_end (hs : s.IsOutside) (h : ∀ e ∈ events, e.Spares listNames) :
    reading.run none s events = (s, .ok s.table) := by
  have hend := run_gap hs h []
  rw [List.append_nil] at hend
  exact hend

theorem isOutside_start : start.IsOutside := ⟨rfl, rfl⟩

/-- **A list of formats only.** -/
theorem run_formats_only {formats : Element} (hformats : IsList formatsName formats)
    (h : Parts listNames events [formats]) :
    let s' := start.afterFormats (formatTags formats)
    reading.run none start events = (s', .ok s'.table) := by
  obtain ⟨before, behind, rfl, hbefore, hbehind⟩ := h.exists_of_cons
  rw [run_gap isOutside_start hbefore, run_formats isOutside_start hformats]
  exact run_end isOutside_start hbehind.spares

/-- **A list of formats in front of one of codes**, behind which the reading ends. -/
theorem run_formats_first {formats codes : Element} (hformats : IsList formatsName formats)
    (hcodes : IsList codesName codes) (h : Parts listNames events [formats, codes]) :
    let s' := (start.afterFormats (formatTags formats)).afterCodes (codeTags codes)
    reading.run none start events = (s', .ok s'.table) := by
  obtain ⟨before, behind, rfl, hbefore, hbehind⟩ := h.exists_of_cons
  obtain ⟨between, rest, rfl, hbetween, -⟩ := hbehind.exists_of_cons
  have hnext : (start.afterFormats (formatTags formats)).IsOutside := isOutside_start
  rw [run_gap isOutside_start hbefore, run_formats isOutside_start hformats]
  refine (run_gap hnext hbetween _).trans ?_
  rw [run_codes hnext hcodes]
  rfl

/-- **A list of codes in front of one of formats**, behind which the reading ends. -/
theorem run_codes_first {formats codes : Element} (hformats : IsList formatsName formats)
    (hcodes : IsList codesName codes) (h : Parts listNames events [codes, formats]) :
    let s' := (start.afterCodes (codeTags codes)).afterFormats (formatTags formats)
    reading.run none start events = (s', .ok s'.table) := by
  obtain ⟨before, behind, rfl, hbefore, hbehind⟩ := h.exists_of_cons
  obtain ⟨between, rest, rfl, hbetween, -⟩ := hbehind.exists_of_cons
  have hnext : (start.afterCodes (codeTags codes)).IsOutside := isOutside_start
  rw [run_gap isOutside_start hbefore, run_codes isOutside_start hcodes]
  refine (run_gap hnext hbetween _).trans ?_
  rw [run_formats hnext hformats]
  rfl

/-- The table of a state that has noted formats and codes. -/
theorem table_eq {codes formats : List SpelledTag} (hcodes : s.codes = codes.foldl insertCode ∅)
    (hids : s.ids = (formats.map formatId).toArray) :
    s.table = ⟨(formats.map (kindShown codes)).toArray⟩ := by
  rw [table, hcodes, hids]
  simp [kindOfId_foldl_insertCode]

end State

/-! ### Documents -/

/-- A document with a list of formats, and perhaps one of codes beside it. -/
structure ListsFormats (forest : Forest) (formats : Element) (codes : Option Element) : Prop where
  /-- These are all its lists, in whatever order they stand. -/
  lists : (forest.outermost listNames).Perm (formats :: codes.toList)
  /-- One lists formats. -/
  isList_formats : IsList formatsName formats
  /-- The other lists codes. -/
  isList_codes : ∀ list ∈ codes, IsList codesName list

/-- The codes that are listed, none without a list of them. -/
def codesListed (codes : Option Element) : List SpelledTag := (codes.map codeTags).getD []

/-- **The reading of a document**, in whatever order its lists stand. -/
theorem ListsFormats.ofDocument_eq {octets : Octets} {forest : Forest} {formats : Element}
    {codes : Option Element} (h : ListsFormats forest formats codes)
    (hoctets : dropByteOrderMark octets = forest.octets) :
    ofDocument (.ofOctets octets) =
      .ok ⟨((formatTags formats).map (kindShown (codesListed codes))).toArray⟩ := by
  obtain ⟨hlists, hformats, hcodes⟩ := h
  have hparts := forest.parts_events listNames []
  have hids : #[] ++ ((formatTags formats).map formatId).toArray =
      ((formatTags formats).map formatId).toArray := Array.empty_append
  rw [ofDocument, Reading.read, Forest.ofOctets_eq hoctets]
  cases codes with
  | none =>
    rw [List.perm_singleton.1 hlists] at hparts
    have hnoted : (State.start.afterFormats (formatTags formats)).codes =
        (codesListed none).foldl insertCode ∅ := rfl
    rw [State.run_formats_only hformats hparts, State.table_eq hnoted hids]
  | some list =>
    have hlist : IsList codesName list := hcodes list rfl
    obtain horder | horder := List.perm_pair.1 hlists
    · rw [horder] at hparts
      rw [State.run_formats_first hformats hlist hparts, State.table_eq rfl hids]
      rfl
    · rw [horder] at hparts
      rw [State.run_codes_first hformats hlist hparts, State.table_eq rfl hids]
      rfl

/-- What a table of formats shows. -/
structure Resolves (t : FormatTable) (codes formats : List SpelledTag) : Prop where
  /-- It has as many formats as there are tags of formats. -/
  size : t.size = formats.length
  /-- Each of them has the kind that its tag shows. -/
  get_of_lt : ∀ (index : Nat) (h : index < formats.length),
    t.get index = kindShown codes formats[index]
  /-- Past the end there are plain numbers. -/
  get_of_le : ∀ index, formats.length ≤ index → t.get index = .number

/-- **The formats of a document, however it is laid out.** -/
theorem exists_resolves {octets : Octets} {forest : Forest} {formats : Element}
    {codes : Option Element} (hoctets : dropByteOrderMark octets = forest.octets)
    (h : ListsFormats forest formats codes) :
    ∃ t, ofDocument (.ofOctets octets) = .ok t ∧
      t.Resolves (codesListed codes) (formatTags formats) := by
  refine ⟨_, h.ofDocument_eq hoctets, ?_, ?_, ?_⟩
  · simp [size]
  · intro index hindex
    simp [get, hindex]
  · intro index hindex
    simp [get, hindex]

/-! ### A document -/

/-- An attribute with a blank before it and a value in double quotes. -/
def blankAttribute (key : Octets) (value : List ValueChar) (hkey : IsElementName key)
    (hvalue : octet '"' ∉ valueOctets value) : SpelledAttribute where
  space := [octet ' ']
  key := key
  beforeEquals := []
  afterEquals := []
  quote := octet '"'
  value := value
  space_ne_nil := List.cons_ne_nil _ _
  isSpace_space := List.forall_mem_singleton.2 rfl
  isSpace_beforeEquals := by simp
  isSpace_afterEquals := by simp
  isElementName_key := hkey
  isQuote := .inl rfl
  notMem_value := hvalue

/-- A tag without space at its end. -/
def tightTag (name : Octets) (attributes : List SpelledAttribute) (hname : IsElementName name) :
    SpelledTag where
  name := name
  attributes := attributes
  space := []
  isElementName := hname
  isSpace_space := by simp

/-- The digits of the id 14, the first one written as a reference. -/
def idFourteen : List ValueChar :=
  [.reference '1' ['#', '4', '9'] (.decimal ⟨by decide, by decide⟩) (by decide),
    .itself '4' (by decide)]

/-- A tag of a cell format with the number format 14, a date unless it is overridden. -/
def dateFormat : SpelledTag :=
  tightTag formatName [blankAttribute idName idFourteen (by decide +kernel) (by decide +kernel)]
    (by decide +kernel)

/-- A tag that overrides the number format 14. -/
def plainCode : SpelledTag :=
  tightTag codeName [blankAttribute idName idFourteen (by decide +kernel) (by decide +kernel),
    blankAttribute formatCodeName [.itself '0' (by decide)] (by decide +kernel) (by decide +kernel)]
    (by decide +kernel)

/-- A list of the format. -/
def dateFormats : Element :=
  ⟨tightTag formatsName [] (by decide +kernel), .single dateFormat .nothing⟩

/-- A list of the code. -/
def plainCodes : Element :=
  ⟨tightTag codesName [] (by decide +kernel), .single plainCode .nothing⟩

/-- A document with the list of formats, another format behind it, and then the list of codes. -/
def overridden : Forest :=
  .element dateFormats.tag dateFormats.inner [] (by simp) (.single dateFormat
    (.element plainCodes.tag plainCodes.inner [] (by simp) .nothing))

theorem exists_resolves_overridden :
    ∃ t, ofDocument (.ofOctets (Text.Utf8.encode ("<cellXfs><xf numFmtId=\"&#49;4\"/></cellXfs>" ++
        "<xf numFmtId=\"&#49;4\"/>" ++
        "<numFmts><numFmt numFmtId=\"&#49;4\" formatCode=\"0\"/></numFmts>"))) = .ok t ∧
      t.Resolves [plainCode] [dateFormat] :=
  exists_resolves (show _ = overridden.octets by decide +kernel)
    (⟨.of_eq rfl, ⟨rfl, rfl⟩, fun list hlist => by cases hlist; exact ⟨rfl, rfl⟩⟩ :
      ListsFormats overridden dateFormats (some plainCodes))

example : kindShown [plainCode] dateFormat = .number ∧ kindShown [] dateFormat = .numberDate := by
  decide +kernel

end WorkbookTables.FormatTable
