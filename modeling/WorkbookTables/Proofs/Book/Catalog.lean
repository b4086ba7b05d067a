import WorkbookTables.Book.Package

/-!
# The sheets of a manifest

What the reading of a manifest takes is told here without its state: the sheets that are listed up
to the end of the list or up to the damage, of these the ones with a worksheet, and of these the
first of each name. Nothing else enters the map of ids, and what enters it replaces what it held.

The taken sheets do not depend on what the map held. So a map afterwards is the map before,
overridden by the sheets, wherever the reading has come to.

## Main definitions

* `Manifest.listing` — the sheets that are listed, and what is wrong with the list
* `Manifest.taken` — those of them that are taken
* `Manifest.idOf?`, `IdMap.override` — the ids of sheets by name, and a map overridden by them
* `Package.sheets`, `Package.damage?` — the same for a package

## Main results

* `IdMap.get?_override` — sheets of different names override a map by name
* `Manifest.nodup_taken` — the sheets that are taken have different names
* `Manifest.readCatalog_eq` — what the reading of a manifest leaves behind
* `Package.readCatalog_eq`, `Package.get?_retain_override` — the same for a package, and what a map
  has of it
-/

namespace WorkbookTables

open Markup

/-- The only thing of a name is the first. -/
theorem find?_of_nodup {α β : Type} [BEq β] [LawfulBEq β] {name : α → β} {as : List α} {a : α}
    (h : (as.map name).Nodup) (ha : a ∈ as) : as.find? (name · == name a) = some a := by
  induction as with
  | nil => cases ha
  | cons a' rest ih =>
    rw [List.map_cons, List.nodup_cons] at h
    obtain rfl | hrest := List.mem_cons.1 ha
    · exact List.find?_cons_of_pos (beq_self_eq_true _)
    · rw [List.find?_cons_of_neg]
      · exact ih h.2 hrest
      · intro hname
        exact h.1 (List.mem_map.2 ⟨a, hrest, (beq_iff_eq.1 hname).symm⟩)

namespace Manifest

/-! ### Sheets that are listed -/

/-- What a tag says of a sheet: its name and its id, nothing if it lacks one of them. -/
def entryOf (tag : Tag) : Except Error (Option Entry) :=
  match tag.attribute? nameName with
  | .error e => .error e
  | .ok name =>
    match tag.localAttribute? idName with
    | .error e => .error e
    | .ok id => .ok (name.bind fun name => id.map (⟨name, ·⟩))

/-- What events list: the sheets up to the end of the list or to the damage, and the damage, if
there is any. -/
def listing (fault : Option Fault) : List Event → List Entry × Option Error
  | [] => ([], some ((fault.map Error.markup).getD (.documentEnd (octetsText sheetsName))))
  | .opening tag :: rest =>
    if tag.localName = sheetName then
      match entryOf tag with
      | .error e => ([], some e)
      | .ok entry => (entry.toList ++ (listing fault rest).1, (listing fault rest).2)
    else listing fault rest
  | .closing name :: rest => if localPart name = sheetsName then ([], none) else listing fault rest
  | _ :: rest => listing fault rest

/-- The first sheet of each name, in order. -/
def firstOfEach : List Entry → List Entry
  | [] => []
  | e :: rest => e :: (firstOfEach rest).filter (·.name != e.name)

/-- The sheets of a manifest that are taken: those with a worksheet, each name once. -/
def taken (isWorksheet : String → Bool) (d : Document) : List Entry :=
  firstOfEach ((listing d.fault d.events).1.filter (isWorksheet ·.internalId))

/-- What is wrong with the list of sheets of a manifest, if anything is. -/
def damage? (d : Document) : Option Error :=
  (listing d.fault d.events).2

/-- What was wanted, unless something is wrong. -/
def unlessDamaged {α : Type} (a : α) : Option Error → Except Error α
  | none => .ok a
  | some e => .error e

/-- The id of the sheet of a name. -/
def idOf? (entries : List Entry) (name : String) : Option String :=
  (entries.find? (·.name == name)).map (·.internalId)

theorem idOf?_cons (e : Entry) (rest : List Entry) (name : String) :
    idOf? (e :: rest) name = if e.name = name then some e.internalId else idOf? rest name := by
  by_cases h : e.name = name <;> simp [idOf?, h]

theorem idOf?_eq_none {entries : List Entry} {name : String}
    (h : name ∉ entries.map (·.name)) : idOf? entries name = none := by
  rw [idOf?, Option.map_eq_none_iff, List.find?_eq_none]
  intro e he hname
  exact h (List.mem_map.2 ⟨e, he, beq_iff_eq.1 hname⟩)

theorem nodup_firstOfEach (entries : List Entry) : ((firstOfEach entries).map (·.name)).Nodup := by
  induction entries with
  | nil => exact List.nodup_nil
  | cons e rest ih =>
    rw [firstOfEach, List.map_cons, List.nodup_cons]
    refine ⟨?_, (List.filter_sublist.map _).nodup ih⟩
    intro hmem
    obtain ⟨e', he', hname⟩ := List.mem_map.1 hmem
    simp [hname] at he'

theorem nodup_taken (isWorksheet : String → Bool) (d : Document) :
    ((taken isWorksheet d).map (·.name)).Nodup :=
  nodup_firstOfEach _

theorem mem_of_mem_firstOfEach {e : Entry} {entries : List Entry} (h : e ∈ firstOfEach entries) :
    e ∈ entries := by
  induction entries with
  | nil => exact h
  | cons e' rest ih =>
    obtain rfl | hrest := List.mem_cons.1 h
    · exact List.mem_cons_self
    · exact List.mem_cons_of_mem _ (ih (List.mem_filter.1 hrest).1)

/-- Every sheet that is taken has a worksheet. -/
theorem isWorksheet_of_mem_taken {isWorksheet : String → Bool} {d : Document} {e : Entry}
    (h : e ∈ taken isWorksheet d) : isWorksheet e.internalId = true :=
  (List.mem_filter.1 (mem_of_mem_firstOfEach h)).2

end Manifest

/-! ### Maps that are overridden -/

namespace IdMap

open Manifest

/-- The map that sheets enter one after another. -/
def override (m : IdMap) (entries : List Entry) : IdMap :=
  entries.foldl (fun m e => m.insert e.name e.internalId) m

/-- **Sheets of different names override a map by name.** -/
theorem get?_override (m : IdMap) {entries : List Entry} (h : (entries.map (·.name)).Nodup)
    (name : String) :
    (m.override entries).get? name = (idOf? entries name).or (m.get? name) := by
  induction entries generalizing m with
  | nil => rfl
  | cons e rest ih =>
    rw [List.map_cons, List.nodup_cons] at h
    have hmore := ih (m.insert e.name e.internalId) h.2
    rw [get?_insert] at hmore
    rw [idOf?_cons]
    refine hmore.trans ?_
    by_cases hname : e.name = name
    · -- No later sheet has this name.
      rw [idOf?_eq_none (hname ▸ h.1), if_pos hname, if_pos hname]
      rfl
    · rw [if_neg hname, if_neg hname]

end IdMap

namespace Manifest

/-! ### The reading -/

variable {isWorksheet : String → Bool}

/-- The sheets among those offered that a state takes. -/
def State.fresh (isWorksheet : String → Bool) (s : State) (entries : List Entry) : List Entry :=
  (firstOfEach (entries.filter (isWorksheet ·.internalId))).filter
    fun e => s.entries.all (·.name != e.name)

/-- A state to which sheets have been offered. -/
def State.offerAll (isWorksheet : String → Bool) (s : State) (entries : List Entry) : State :=
  entries.foldl (fun s e => s.offer isWorksheet (some e.name) (some e.internalId)) s

/-- The state that has taken sheets. -/
def State.taking (s : State) (entries : List Entry) : State :=
  ⟨s.ids.override entries, s.entries ++ entries.toArray⟩

theorem State.taking_nil (s : State) : s.taking [] = s := by
  simp [taking, IdMap.override]

theorem State.taking_cons (s : State) (e : Entry) (rest : List Entry) :
    s.taking (e :: rest) = (s.taking [e]).taking rest := by
  simp [taking, IdMap.override]

/-- A name that has been taken is not taken again. -/
theorem State.fresh_cons_of_mem {s : State} {e : Entry} (rest : List Entry)
    (h : ¬s.entries.all (·.name != e.name)) :
    s.fresh isWorksheet (e :: rest) = s.fresh isWorksheet rest := by
  by_cases he : isWorksheet e.internalId
  · rw [fresh, List.filter_cons, if_pos he, firstOfEach, List.filter_cons, if_neg h,
      List.filter_filter]
    refine List.filter_congr fun e' _ => ?_
    by_cases hname : e'.name = e.name
    · simp [hname, h]
    · simp [hname]
  · rw [fresh, List.filter_cons, if_neg he]
    rfl

/-- What is taken besides a sheet that is taken has other names. -/
theorem State.fresh_cons_of_not_mem {s : State} {e : Entry} (rest : List Entry)
    (he : isWorksheet e.internalId) (h : s.entries.all (·.name != e.name)) :
    s.fresh isWorksheet (e :: rest) = e :: (s.taking [e]).fresh isWorksheet rest := by
  rw [fresh, List.filter_cons, if_pos he, firstOfEach, List.filter_cons, if_pos h,
    List.filter_filter]
  refine congrArg _ (List.filter_congr fun e' _ => ?_)
  simp [taking, bne_comm]

/-- **Of the sheets that are offered, those with a worksheet are taken, and each name once.** -/
theorem State.offerAll_eq (s : State) (entries : List Entry) :
    s.offerAll isWorksheet entries = s.taking (s.fresh isWorksheet entries) := by
  induction entries generalizing s with
  | nil => exact s.taking_nil.symm
  | cons e rest ih =>
    have hcons : s.offerAll isWorksheet (e :: rest) =
        (s.offer isWorksheet (some e.name) (some e.internalId)).offerAll isWorksheet rest := rfl
    rw [hcons, ih, offer]
    by_cases he : isWorksheet e.internalId
    · by_cases hnew : s.entries.all (·.name != e.name)
      · rw [if_pos ⟨he, hnew⟩, fresh_cons_of_not_mem rest he hnew, taking_cons]
        rfl
      · rw [if_neg fun h => hnew h.2, fresh_cons_of_mem rest hnew]
    · rw [if_neg fun h => he h.1, fresh, fresh, List.filter_cons, if_neg he]

/-- What the tag of a sheet does to a state. -/
theorem State.step_sheet (isWorksheet : String → Bool) (s : State) {tag : Tag}
    (h : tag.localName = sheetName) :
    s.step isWorksheet (.opening tag) =
      match entryOf tag with
      | .error error => (s, .failed error)
      | .ok entry => (s.offerAll isWorksheet entry.toList, .more) := by
  rw [step, if_pos h, entryOf]
  cases tag.attribute? nameName with
  | error error => rfl
  | ok name =>
    cases tag.localAttribute? idName with
    | error error => cases name <;> rfl
    | ok id => cases name <;> cases id <;> rfl

/-- **The reading of a manifest offers the sheets that it lists**, and gives all that it has taken
unless the list is damaged. -/
theorem run_catalogReading (isWorksheet : String → Bool) (fault : Option Fault) (s : State)
    (events : List Event) :
    (catalogReading isWorksheet).run fault s events =
      let s' := s.offerAll isWorksheet (listing fault events).1
      (s', unlessDamaged s'.entries.toList (listing fault events).2) := by
  induction events generalizing s with
  | nil => cases fault <;> rfl
  | cons e rest ih =>
    have hskip (hstep : s.step isWorksheet e = (s, .more))
        (hlisting : listing fault (e :: rest) = listing fault rest) :
        (catalogReading isWorksheet).run fault s (e :: rest) =
          let s' := s.offerAll isWorksheet (listing fault (e :: rest)).1
          (s', unlessDamaged s'.entries.toList (listing fault (e :: rest)).2) := by
      rw [Reading.run_cons_more hstep, ih s, hlisting]
    cases e with
    | opening tag =>
      by_cases htag : tag.localName = sheetName
      · have hstep := State.step_sheet isWorksheet s htag
        cases hentry : entryOf tag with
        | error error =>
          rw [hentry] at hstep
          rw [Reading.run_cons_failed hstep, listing, if_pos htag, hentry]
          rfl
        | ok entry =>
          rw [hentry] at hstep
          rw [Reading.run_cons_more hstep, ih, listing, if_pos htag, hentry]
          simp only [State.offerAll, List.foldl_append]
      · exact hskip (by rw [State.step, if_neg htag]) (by rw [listing, if_neg htag])
    | closing name =>
      by_cases hname : localPart name = sheetsName
      · have hstep : s.step isWorksheet (.closing name) = (s, .finished s.entries.toList) := by
          rw [State.step, if_pos hname]
        rw [Reading.run_cons_finished hstep, listing, if_pos hname]
        rfl
      · exact hskip (by rw [State.step, if_neg hname]) (by rw [listing, if_neg hname])
    | text => exact hskip rfl rfl
    | characterData => exact hskip rfl rfl
    | reference => exact hskip rfl rfl
    | aside => exact hskip rfl rfl

/-- **What the reading of a manifest leaves behind**: the map overridden by the sheets that are
taken, and these sheets unless the list is damaged. -/
theorem readCatalog_eq (isWorksheet : String → Bool) (ids : IdMap) (d : Document) :
    readCatalog isWorksheet ids d =
      (ids.override (taken isWorksheet d), unlessDamaged (taken isWorksheet d) (damage? d)) := by
  have hfresh : (⟨ids, #[]⟩ : State).fresh isWorksheet (listing d.fault d.events).1 =
      taken isWorksheet d := by
    simp [State.fresh, taken]
  simp only [readCatalog, Reading.read, run_catalogReading, State.offerAll_eq, hfresh]
  simp [State.taking, damage?]

end Manifest

/-! ### Packages -/

namespace Package

/-- The sheets of a package that become known: those that its manifest lists, as far as it can be
read, and that have a worksheet, each name once. -/
def sheets (p : Package) : List Manifest.Entry :=
  match p.manifest with
  | .error _ => []
  | .ok d => Manifest.taken p.contains d

/-- Why the list of sheets cannot be read to its end, if it cannot. -/
def damage? (p : Package) : Option Error :=
  match p.manifest with
  | .error e => some e
  | .ok d => Manifest.damage? d

theorem nodup_sheets (p : Package) : (p.sheets.map (·.name)).Nodup := by
  rw [sheets]
  split
  · exact List.nodup_nil
  · exact Manifest.nodup_taken _ _

/-- The id of a sheet of a package. -/
theorem idOf?_of_mem_sheets {p : Package} {e : Manifest.Entry} (h : e ∈ p.sheets) :
    Manifest.idOf? p.sheets e.name = some e.internalId := by
  rw [Manifest.idOf?, find?_of_nodup p.nodup_sheets h]
  rfl

/-- A package has a worksheet for each of its sheets. -/
theorem contains_of_mem_sheets {p : Package} {e : Manifest.Entry} (h : e ∈ p.sheets) :
    p.contains e.internalId = true := by
  rw [sheets] at h
  split at h
  · cases h
  · exact Manifest.isWorksheet_of_mem_taken h

/-- **What the list of sheets of a package leaves behind.** -/
theorem readCatalog_eq (p : Package) (ids : IdMap) :
    p.readCatalog ids = (ids.override p.sheets, Manifest.unlessDamaged p.sheets p.damage?) := by
  rw [readCatalog, sheets, damage?]
  cases p.manifest with
  | error e => rfl
  | ok d => exact Manifest.readCatalog_eq p.contains ids d

/-- A map that is overridden by the sheets and keeps only their names has only their ids. -/
theorem get?_retain_override (p : Package) (ids : IdMap) (name : String) :
    ((ids.override p.sheets).retain fun name => p.sheets.any (·.name == name)).get? name =
      Manifest.idOf? p.sheets name := by
  rw [IdMap.get?_retain, ids.get?_override p.nodup_sheets]
  by_cases hname : p.sheets.any (·.name == name)
  · rw [if_pos hname]
    obtain ⟨e, he⟩ := Option.isSome_iff_exists.1 (List.find?_isSome.2 (List.any_eq_true.1 hname))
    simp [Manifest.idOf?, he]
  · rw [if_neg hname, Manifest.idOf?, List.find?_eq_none.2]
    · rfl
    · intro e he hmatch
      exact hname (List.any_eq_true.2 ⟨e, he, hmatch⟩)

end Package

end WorkbookTables
