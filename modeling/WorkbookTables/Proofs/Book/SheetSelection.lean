import Mathlib.Data.List.Forall2
import Mathlib.Data.List.Induction
import Mathlib.Data.List.TakeWhile
import WorkbookTables.Proofs.Book.Catalog
import WorkbookTables.Proofs.Book.Failures
import WorkbookTables.Proofs.Markup.Truncation

/-!
# Which sheets of a manifest are taken

The sheets are told here tag by tag, as the manifest has them. A tag is gone through if it stands
before the end of the list and if neither it nor a tag before it is malformed. Of the tags that are
gone through those are taken that have a name and an id, whose id belongs to a worksheet, and whose
name has not been taken before. Each decision rests on the tags before it alone.

So there is one row of sheets for a manifest, and every part of the manifest that is read has the
first of them. The map of ids has taken them in, and nothing else, wherever the reading has come to
and whether it fails there or not. Only the success of a reading looks further: it takes the end of
the list, and the end of the list is recognised at the bracket that closes its tag.

## Main definitions

* `Manifest.sheetTags`, `Manifest.goneThrough` — the tags of sheets, and those that are gone through
* `Manifest.Takes` — the sheets that tags make, one tag after another
* `Manifest.ListEnds` — a list of sheets with an end and without a malformed tag
* `Manifest.KeepsInStep` — what the list of sheets and the map of ids have to do with the tags
* `Manifest.StopsBeforeEnd` — the octets before the bracket with which the list ends

## Main results

* `Manifest.takes_taken` — the sheets of a manifest are those that its tags make
* `Manifest.taken_isPrefix` — a manifest that is cut short has the first of the sheets
* `Manifest.HasEnd.exists_stopsBeforeEnd` — the place at which the list ends
* `Manifest.exists_error_of_not_listEnds` — without the end of the list there is an error
* `Manifest.keepsInStep` — the list, the map and the tags agree on every way out
-/

namespace WorkbookTables.Manifest

open Markup

/-! ### Tags -/

/-- The tags of sheets before the end of the list. -/
def sheetTags : List Event → List Tag
  | [] => []
  | .opening tag :: rest =>
    if tag.localName = sheetName then tag :: sheetTags rest else sheetTags rest
  | .closing name :: rest => if localPart name = sheetsName then [] else sheetTags rest
  | _ :: rest => sheetTags rest

/-- Holds of tags whose name and id can be read, be they there or not. -/
def IsReadable (tag : Tag) : Prop :=
  ∃ name id, tag.attribute? nameName = .ok name ∧ tag.localAttribute? idName = .ok id

/-- Holds of a tag that has the name and the id of a sheet. -/
def Names (tag : Tag) (e : Entry) : Prop :=
  tag.attribute? nameName = .ok (some e.name) ∧ tag.localAttribute? idName = .ok (some e.internalId)

theorem isOk_entryOf_iff {tag : Tag} : (entryOf tag).isOk = true ↔ IsReadable tag := by
  rw [entryOf, IsReadable]
  cases tag.attribute? nameName with
  | error e => simp [Except.isOk, Except.toBool]
  | ok name => cases tag.localAttribute? idName <;> simp [Except.isOk, Except.toBool]

instance (tag : Tag) : Decidable (IsReadable tag) := decidable_of_iff _ isOk_entryOf_iff

theorem entryOf_eq_some_iff {tag : Tag} {e : Entry} : entryOf tag = .ok (some e) ↔ Names tag e := by
  rw [entryOf, Names]
  cases tag.attribute? nameName with
  | error error => simp
  | ok name =>
    cases tag.localAttribute? idName with
    | error error => simp
    | ok id =>
      obtain ⟨name', id'⟩ := e
      cases name <;> cases id <;> simp

/-- The tags of sheets that are gone through: those before the first that is malformed. -/
def goneThrough (events : List Event) : List Tag :=
  (sheetTags events).takeWhile (IsReadable ·)

theorem isReadable_of_mem_goneThrough {events : List Event} {tag : Tag}
    (h : tag ∈ goneThrough events) : IsReadable tag := by
  have hdecide : decide (IsReadable tag) = true := List.mem_takeWhile_imp (p := (IsReadable ·)) h
  exact of_decide_eq_true hdecide

/-! ### Sheets of tags -/

/-- The sheets that tags make, one tag after another. -/
inductive Takes (isWorksheet : String → Bool) : List Tag → List Entry → Prop where
  /-- No tag makes no sheet. -/
  | nothing : Takes isWorksheet [] []
  /-- A tag makes a sheet if it names one that has a worksheet and a name of its own. -/
  | taken {tags : List Tag} {entries : List Entry} {tag : Tag} {e : Entry}
    (h : Takes isWorksheet tags entries) (hnames : Names tag e)
    (hworksheet : isWorksheet e.internalId = true) (hnew : e.name ∉ entries.map (·.name)) :
    Takes isWorksheet (tags ++ [tag]) (entries ++ [e])
  /-- Any other tag that can be read changes nothing. -/
  | passed {tags : List Tag} {entries : List Entry} {tag : Tag}
    (h : Takes isWorksheet tags entries) (hreadable : IsReadable tag)
    (hnone : ¬∃ e, Names tag e ∧ isWorksheet e.internalId = true ∧
      e.name ∉ entries.map (·.name)) :
    Takes isWorksheet (tags ++ [tag]) entries

/-- The sheets stand in the order of their tags. -/
theorem Takes.exists_sublist {isWorksheet : String → Bool} {tags : List Tag} {entries : List Entry}
    (h : Takes isWorksheet tags entries) :
    ∃ named : List Tag, named.Sublist tags ∧ List.Forall₂ Names named entries := by
  induction h with
  | nothing => exact ⟨[], .refl _, .nil⟩
  | taken _ hnames _ _ ih =>
    obtain ⟨named, hsublist, hall⟩ := ih
    exact ⟨_, hsublist.append (.refl _), List.rel_append hall (.cons hnames .nil)⟩
  | passed _ _ _ ih =>
    obtain ⟨named, hsublist, hall⟩ := ih
    exact ⟨named, hsublist.trans (List.sublist_append_left _ _), hall⟩

/-- The sheet of a tag, if it names one. -/
def named? (tag : Tag) : Option Entry :=
  match entryOf tag with
  | .error _ => none
  | .ok entry => entry

theorem named?_eq_some_iff {tag : Tag} {e : Entry} : named? tag = some e ↔ Names tag e := by
  rw [← entryOf_eq_some_iff, named?]
  cases entryOf tag <;> simp

/-- Behind other sheets, those are the first of their names that are so by themselves and whose
names are not there. -/
theorem firstOfEach_append (earlier later : List Entry) :
    firstOfEach (earlier ++ later) =
      firstOfEach earlier ++
        (firstOfEach later).filter fun e => earlier.all (·.name != e.name) := by
  induction earlier with
  | nil => exact (List.filter_true _).symm
  | cons e rest ih =>
    rw [List.cons_append, firstOfEach, ih, firstOfEach, List.filter_append, List.filter_filter]
    simp [bne_comm]

theorem name_mem_firstOfEach_iff (entries : List Entry) (name : String) :
    name ∈ (firstOfEach entries).map (·.name) ↔ name ∈ entries.map (·.name) := by
  induction entries with
  | nil => rfl
  | cons e rest ih =>
    by_cases hname : name = e.name
    · simp [firstOfEach, hname]
    · rw [firstOfEach, List.map_cons, List.mem_cons, List.map_cons, List.mem_cons, ← ih]
      refine or_congr_right ?_
      simp only [List.mem_map, List.mem_filter, bne_iff_ne]
      constructor
      · rintro ⟨e', ⟨he', -⟩, rfl⟩
        exact ⟨e', he', rfl⟩
      · rintro ⟨e', he', rfl⟩
        exact ⟨e', ⟨he', hname⟩, rfl⟩

variable {isWorksheet : String → Bool}

/-- The sheets of tags, each of which can be read: of those that have a worksheet the first of each
name. -/
def selection (isWorksheet : String → Bool) (tags : List Tag) : List Entry :=
  firstOfEach ((tags.filterMap named?).filter (isWorksheet ·.internalId))

/-- More tags add the sheets of theirs whose names have not been taken. -/
theorem selection_append (tags tags' : List Tag) :
    selection isWorksheet (tags ++ tags') = selection isWorksheet tags ++
      (selection isWorksheet tags').filter
        fun e => decide (e.name ∉ (selection isWorksheet tags).map (·.name)) := by
  rw [selection, List.filterMap_append, List.filter_append, firstOfEach_append]
  refine congrArg (selection isWorksheet tags ++ ·) (List.filter_congr fun e _ => ?_)
  have hnames := name_mem_firstOfEach_iff
    ((tags.filterMap named?).filter (isWorksheet ·.internalId)) e.name
  rw [Bool.eq_iff_iff, decide_eq_true_iff, selection, hnames, List.all_eq_true, List.mem_map]
  simp only [bne_iff_ne, not_exists, not_and]

theorem selection_singleton (isWorksheet : String → Bool) (tag : Tag) :
    selection isWorksheet [tag] =
      ((named? tag).filter (isWorksheet ·.internalId)).toList := by
  rw [selection, List.filterMap_cons]
  cases named? tag with
  | none => rfl
  | some e => by_cases hworksheet : isWorksheet e.internalId <;>
      simp [Option.filter, hworksheet, firstOfEach]

theorem filter_named?_eq_some_iff {tag : Tag} {e : Entry} :
    (named? tag).filter (isWorksheet ·.internalId) = some e ↔
      Names tag e ∧ isWorksheet e.internalId = true := by
  rw [Option.filter_eq_some_iff, named?_eq_some_iff]

/-- **The sheets of tags are those that the tags make one after another.** -/
theorem takes_selection {tags : List Tag} (h : ∀ tag ∈ tags, IsReadable tag) :
    Takes isWorksheet tags (selection isWorksheet tags) := by
  induction tags using List.reverseRecOn with
  | nil => exact .nothing
  | append_singleton tags tag ih =>
    have htags := ih fun other hother => h other (List.mem_append_left _ hother)
    have htag : IsReadable tag := h tag (by simp)
    by_cases hsome : ∃ e, Names tag e ∧ isWorksheet e.internalId = true ∧
        e.name ∉ (selection isWorksheet tags).map (·.name)
    · obtain ⟨e, hnames, hworksheet, hnew⟩ := hsome
      rw [selection_append, selection_singleton, filter_named?_eq_some_iff.2 ⟨hnames, hworksheet⟩,
        Option.toList_some, List.filter_cons, if_pos (decide_eq_true hnew), List.filter_nil]
      exact .taken htags hnames hworksheet hnew
    · have hnothing : selection isWorksheet (tags ++ [tag]) = selection isWorksheet tags := by
        rw [selection_append, selection_singleton, List.append_right_eq_self,
          List.filter_eq_nil_iff]
        intro e he hnew
        obtain ⟨hnames, hworksheet⟩ := filter_named?_eq_some_iff.1 (Option.mem_toList.1 he)
        exact hsome ⟨e, hnames, hworksheet, of_decide_eq_true hnew⟩
      rw [hnothing]
      exact .passed htags htag hsome

/-- More tags make more sheets. -/
theorem selection_isPrefix {tags tags' : List Tag} (h : tags <+: tags') :
    selection isWorksheet tags <+: selection isWorksheet tags' := by
  obtain ⟨rest, rfl⟩ := h
  rw [selection_append]
  exact List.prefix_append _ _

/-! ### Sheets of events -/

/-- The sheets that are listed are those of the tags that are gone through. -/
theorem listing_fst (fault : Option Fault) (events : List Event) :
    (listing fault events).1 = (goneThrough events).filterMap named? := by
  induction events with
  | nil => rfl
  | cons event rest ih =>
    rw [goneThrough] at ih ⊢
    cases event with
    | opening tag =>
      rw [listing, sheetTags]
      split
      · cases hentry : entryOf tag with
        | error error =>
          have hreadable : ¬IsReadable tag := by
            rw [← isOk_entryOf_iff, hentry]
            exact Bool.false_ne_true
          rw [List.takeWhile_cons_of_neg (by simpa using hreadable)]
          rfl
        | ok entry =>
          have hreadable : IsReadable tag := by
            rw [← isOk_entryOf_iff, hentry]
            rfl
          rw [List.takeWhile_cons_of_pos (by simpa using hreadable), List.filterMap_cons, named?,
            hentry, ← ih]
          cases entry <;> rfl
      · exact ih
    | closing name =>
      rw [listing, sheetTags]
      split
      · rfl
      · exact ih
    | text => exact ih
    | characterData => exact ih
    | reference => exact ih
    | aside => exact ih

theorem taken_eq_selection (isWorksheet : String → Bool) (d : Document) :
    taken isWorksheet d = selection isWorksheet (goneThrough d.events) := by
  rw [taken, listing_fst, selection]

/-- **The sheets of a manifest are those that its tags make.** -/
theorem takes_taken (isWorksheet : String → Bool) (d : Document) :
    Takes isWorksheet (goneThrough d.events) (taken isWorksheet d) := by
  rw [taken_eq_selection]
  exact takes_selection fun tag htag => isReadable_of_mem_goneThrough htag

/-! ### The end of the list -/

/-- Holds of events among which the list of sheets ends. -/
def HasEnd (events : List Event) : Prop :=
  ∃ name, .closing name ∈ events ∧ localPart name = sheetsName

/-- Holds of events whose list of sheets has an end and no malformed tag before it. -/
def ListEnds (events : List Event) : Prop :=
  HasEnd events ∧ ∀ tag ∈ sheetTags events, IsReadable tag

theorem hasEnd_cons {event : Event} {rest : List Event}
    (h : ∀ name, event = .closing name → localPart name ≠ sheetsName) :
    HasEnd (event :: rest) ↔ HasEnd rest := by
  constructor
  · rintro ⟨name, hname, hpart⟩
    obtain heq | hrest := List.mem_cons.1 hname
    · exact absurd hpart (h name heq.symm)
    · exact ⟨name, hrest, hpart⟩
  · rintro ⟨name, hname, hpart⟩
    exact ⟨name, List.mem_cons_of_mem _ hname, hpart⟩

/-- **Nothing is wrong with a list of sheets** just if it ends and has no malformed tag. -/
theorem listing_snd_eq_none_iff {fault : Option Fault} {events : List Event} :
    (listing fault events).2 = none ↔ ListEnds events := by
  have hpass (event : Event) (rest : List Event)
      (ih : (listing fault rest).2 = none ↔ ListEnds rest)
      (hend : ∀ name, event = .closing name → localPart name ≠ sheetsName)
      (htags : sheetTags (event :: rest) = sheetTags rest) :
      (listing fault rest).2 = none ↔ ListEnds (event :: rest) := by
    rw [ih, ListEnds, ListEnds, hasEnd_cons hend, htags]
  induction events with
  | nil => simp [listing, ListEnds, HasEnd]
  | cons event rest ih =>
    cases event with
    | opening tag =>
      rw [listing]
      split
      next htag =>
        rw [ListEnds, hasEnd_cons (by rintro _ ⟨⟩), sheetTags, if_pos htag, List.forall_mem_cons,
          ← isOk_entryOf_iff]
        cases entryOf tag with
        | error error => simp [Except.isOk, Except.toBool]
        | ok entry => simp [Except.isOk, Except.toBool, ih, ListEnds]
      next htag => exact hpass _ _ ih (by rintro _ ⟨⟩) (by rw [sheetTags, if_neg htag])
    | closing name =>
      rw [listing]
      split
      next hname =>
        rw [ListEnds, sheetTags, if_pos hname]
        exact iff_of_true rfl ⟨⟨name, List.mem_cons_self, hname⟩, by simp⟩
      next hname =>
        refine hpass _ _ ih ?_ (by rw [sheetTags, if_neg hname])
        rintro _ ⟨⟩
        exact hname
    | text => exact hpass _ _ ih (by rintro _ ⟨⟩) rfl
    | characterData => exact hpass _ _ ih (by rintro _ ⟨⟩) rfl
    | reference => exact hpass _ _ ih (by rintro _ ⟨⟩) rfl
    | aside => exact hpass _ _ ih (by rintro _ ⟨⟩) rfl

/-! ### Manifests that are cut short -/

/-- Later events bring later tags only. -/
theorem sheetTags_isPrefix {first events : List Event} (h : first <+: events) :
    sheetTags first <+: sheetTags events := by
  obtain ⟨rest, rfl⟩ := h
  induction first with
  | nil => exact List.nil_prefix
  | cons event earlier ih =>
    cases event with
    | opening tag =>
      rw [List.cons_append, sheetTags, sheetTags]
      split
      · exact (List.prefix_cons_inj tag).2 ih
      · exact ih
    | closing name =>
      rw [List.cons_append, sheetTags, sheetTags]
      split
      · exact List.prefix_rfl
      · exact ih
    | text => exact ih
    | characterData => exact ih
    | reference => exact ih
    | aside => exact ih

theorem goneThrough_isPrefix {first events : List Event} (h : first <+: events) :
    goneThrough first <+: goneThrough events := by
  obtain ⟨rest, hrest⟩ := sheetTags_isPrefix h
  rw [goneThrough, goneThrough, ← hrest, List.takeWhile_append]
  split
  next hall =>
    rw [List.IsPrefix.eq_of_length (List.takeWhile_prefix _) hall]
    exact List.prefix_append _ _
  next => exact List.prefix_rfl

/-- A text at the end brings no tag. -/
theorem sheetTags_texts {events texts : List Event}
    (h : texts = [] ∨ ∃ content, texts = [.text content]) :
    sheetTags (events ++ texts) = sheetTags events := by
  obtain rfl | ⟨content, rfl⟩ := h
  · rw [List.append_nil]
  · induction events with
    | nil => rfl
    | cons event rest ih =>
      cases event with
      | opening tag => rw [List.cons_append, sheetTags, sheetTags, ih]
      | closing name => rw [List.cons_append, sheetTags, sheetTags, ih]
      | text => exact ih
      | characterData => exact ih
      | reference => exact ih
      | aside => exact ih

theorem hasEnd_texts {events texts : List Event}
    (h : texts = [] ∨ ∃ content, texts = [.text content]) :
    HasEnd (events ++ texts) ↔ HasEnd events := by
  obtain rfl | ⟨content, rfl⟩ := h
  · rw [List.append_nil]
  · simp [HasEnd]

theorem HasEnd.of_isPrefix {first events : List Event} (h : HasEnd first)
    (hfront : first <+: events) : HasEnd events := by
  obtain ⟨name, hname, hpart⟩ := h
  exact ⟨name, hfront.subset hname, hpart⟩

/-- **A manifest that is cut short has the first of the sheets.** -/
theorem taken_isPrefix (isWorksheet : String → Bool) {cut octets : Octets} (h : cut <+: octets) :
    taken isWorksheet (.ofOctets cut) <+: taken isWorksheet (.ofOctets octets) := by
  obtain ⟨texts, hcut, htexts⟩ := exists_events_ofOctets cut
  obtain ⟨texts', hall, -⟩ := exists_events_ofOctets octets
  rw [taken_eq_selection, taken_eq_selection, goneThrough, hcut, sheetTags_texts htexts, hall]
  refine selection_isPrefix (goneThrough_isPrefix ?_)
  exact (events_dropByteOrderMark_isPrefix h).trans (List.prefix_append _ _)

/-- A manifest that is cut short has no end that the whole has not. -/
theorem HasEnd.of_cut {cut octets : Octets} (h : cut <+: octets)
    (hend : HasEnd (Document.ofOctets cut).events) : HasEnd (Document.ofOctets octets).events := by
  obtain ⟨texts, hcut, htexts⟩ := exists_events_ofOctets cut
  obtain ⟨texts', hall, -⟩ := exists_events_ofOctets octets
  rw [hcut, hasEnd_texts htexts] at hend
  rw [hall]
  exact hend.of_isPrefix ((events_dropByteOrderMark_isPrefix h).trans (List.prefix_append _ _))

/-- The octets of a manifest before the bracket that closes the tag at the end of its list. -/
structure StopsBeforeEnd (octets before : Octets) : Prop where
  /-- The bracket comes next. -/
  bracket : before ++ [octet '>'] <+: octets
  /-- The list has not ended before it. -/
  goesOn : ¬HasEnd (Document.ofOctets before).events
  /-- The list has ended with it. -/
  ends : HasEnd (Document.ofOctets (before ++ [octet '>'])).events

/-- Events that have the end of the list have a first one. -/
theorem HasEnd.exists_first {events : List Event} (h : HasEnd events) :
    ∃ earlier name later, events = earlier ++ .closing name :: later ∧
      localPart name = sheetsName ∧ ¬HasEnd earlier := by
  induction events with
  | nil => obtain ⟨name, ⟨⟩, -⟩ := h
  | cons event rest ih =>
    by_cases hfirst : ∃ name, event = .closing name ∧ localPart name = sheetsName
    · obtain ⟨name, rfl, hpart⟩ := hfirst
      exact ⟨[], name, rest, rfl, hpart, fun ⟨_, hmem, _⟩ => absurd hmem List.not_mem_nil⟩
    · have hnot : ∀ name, event = .closing name → localPart name ≠ sheetsName :=
        fun name hname hpart => hfirst ⟨name, hname, hpart⟩
      obtain ⟨earlier, name, later, rfl, hpart, hearlier⟩ := ih ((hasEnd_cons hnot).1 h)
      exact ⟨event :: earlier, name, later, rfl, hpart, mt (hasEnd_cons hnot).1 hearlier⟩

/-- **The place at which the list ends.** -/
theorem HasEnd.exists_stopsBeforeEnd {octets : Octets}
    (h : HasEnd (Document.ofOctets octets).events) : ∃ before, StopsBeforeEnd octets before := by
  obtain ⟨earlier, name, later, hevents, hpart, hearlier⟩ := h.exists_first
  obtain ⟨before, after, rfl, hbracket, hbefore, -⟩ := exists_split_ofOctets hevents
  refine ⟨before, ⟨⟨after, by simp⟩, ?_, ?_⟩⟩
  · obtain ⟨first, texts, hfirst, hall, htexts⟩ := hbefore before List.prefix_rfl
    rw [hall, hasEnd_texts htexts]
    exact fun hend => hearlier (hend.of_isPrefix hfirst)
  · obtain ⟨texts, hall, -⟩ := exists_events_ofOctets (before ++ [octet '>'])
    rw [hall, hbracket]
    exact ⟨name, by simp, hpart⟩

/-! ### The reading -/

/-- What the list of sheets and the map of ids have to do with the tags of a manifest. -/
structure KeepsInStep (isWorksheet : String → Bool) (octets : Octets) (entries : List Entry) :
    Prop where
  /-- The sheets are those that its tags make. -/
  takes : Takes isWorksheet (goneThrough (Document.ofOctets octets).events) entries
  /-- They have different names. -/
  nodup : (entries.map (·.name)).Nodup
  /-- They stand in the order of their tags, which are tags of sheets before the end of the list. -/
  sublist : ∃ named : List Tag, named.Sublist (sheetTags (Document.ofOctets octets).events) ∧
    List.Forall₂ Names named entries
  /-- They enter the map, and nothing else does. -/
  leaves : ∀ ids, (readCatalog isWorksheet ids (.ofOctets octets)).1 = ids.override entries
  /-- So a name that is taken has the id of its sheet. -/
  maps : ∀ ids, ∀ e ∈ entries,
    (readCatalog isWorksheet ids (.ofOctets octets)).1.get? e.name = some e.internalId
  /-- Any other name has the id that it had. -/
  keeps : ∀ ids name, name ∉ entries.map (·.name) →
    (readCatalog isWorksheet ids (.ofOctets octets)).1.get? name = ids.get? name
  /-- The reading gives them if the list has an end and no malformed tag. -/
  gives : ListEnds (Document.ofOctets octets).events →
    ∀ ids, (readCatalog isWorksheet ids (.ofOctets octets)).2 = .ok entries
  /-- Otherwise it fails. -/
  fails : ¬ListEnds (Document.ofOctets octets).events →
    ∀ ids, ∃ e, (readCatalog isWorksheet ids (.ofOctets octets)).2 = .error e ∧ e.kind = .parse

/-- A list of sheets that does not end or has a malformed tag is an error. -/
theorem exists_error_of_not_listEnds {d : Document} (h : ¬ListEnds d.events)
    (isWorksheet : String → Bool) (ids : IdMap) :
    ∃ e, (readCatalog isWorksheet ids d).2 = .error e ∧ e.kind = .parse := by
  rw [readCatalog_eq]
  obtain ⟨e, he⟩ := Option.ne_none_iff_exists'.1 (mt listing_snd_eq_none_iff.1 h)
  refine ⟨e, ?_, kind_of_listing he⟩
  rw [damage?, he]
  rfl

theorem keepsInStep_taken (isWorksheet : String → Bool) (octets : Octets) :
    KeepsInStep isWorksheet octets (taken isWorksheet (.ofOctets octets)) where
  takes := takes_taken isWorksheet _
  nodup := nodup_taken isWorksheet _
  sublist := by
    obtain ⟨named, hsublist, hall⟩ := (takes_taken isWorksheet (.ofOctets octets)).exists_sublist
    exact ⟨named, hsublist.trans (List.takeWhile_sublist _), hall⟩
  leaves ids := by rw [readCatalog_eq]
  maps ids e he := by
    rw [readCatalog_eq, ids.get?_override (nodup_taken isWorksheet _), idOf?,
      find?_of_nodup (nodup_taken isWorksheet _) he]
    rfl
  keeps ids name hname := by
    rw [readCatalog_eq, ids.get?_override (nodup_taken isWorksheet _), idOf?_eq_none hname]
    rfl
  gives hends ids := by
    rw [readCatalog_eq, damage?, listing_snd_eq_none_iff.2 hends]
    rfl
  fails hends ids := exists_error_of_not_listEnds hends isWorksheet ids

/-- **The list of sheets, the map of ids and the tags of a manifest keep in step on every way out.**
A manifest that is cut short has the first of its sheets, and cut before the end of the list it is
an error. -/
theorem keepsInStep (isWorksheet : String → Bool) (octets : Octets) :
    ∃ entries, KeepsInStep isWorksheet octets entries ∧
      (∀ cut, cut <+: octets →
        ∃ earlier, KeepsInStep isWorksheet cut earlier ∧ earlier <+: entries) ∧
      (HasEnd (Document.ofOctets octets).events → ∃ before, StopsBeforeEnd octets before) ∧
      ∀ before cut, StopsBeforeEnd octets before → cut <+: before → ∀ ids,
        ∃ e, (readCatalog isWorksheet ids (.ofOctets cut)).2 = .error e ∧ e.kind = .parse := by
  refine ⟨_, keepsInStep_taken isWorksheet octets, ?_, HasEnd.exists_stopsBeforeEnd, ?_⟩
  · intro cut hcut
    exact ⟨_, keepsInStep_taken isWorksheet cut, taken_isPrefix isWorksheet hcut⟩
  · intro before cut hbefore hcut ids
    refine exists_error_of_not_listEnds (fun hends => ?_) isWorksheet ids
    exact hbefore.goesOn (hends.1.of_cut hcut)

end WorkbookTables.Manifest
