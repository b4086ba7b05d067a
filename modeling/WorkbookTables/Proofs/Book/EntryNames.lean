import Mathlib.Data.List.Perm.Basic
import WorkbookTables.Book.Package
import WorkbookTables.Proofs.Book.Catalog

/-!
# How the parts of an archive are named

Whoever writes an archive is free in two things. The parts may be stored in any order, and the
letters in their names may be capitals or not. A part is looked up by a name that is computed from
other parts, never by one that stands in the archive, and the case of ASCII letters does not count.
So the freedom is not noticed, provided that no two names of the archive differ in case alone: of
two such parts the one that is stored first would be found.

Nothing else is free. A backslash in a name of the archive is no slash, although it counts as one in
a name that is wanted.

## Main definitions

* `Archive.NamesAlike` — names that differ in the case of ASCII letters at most
* `Archive.Respells`, `Container.Respells` — the same parts, stored and spelled differently
* `AgreeUpTo` — computations that fail alike or succeed alike
* `Package.Respells` — packages that only differ in such archives

## Main results

* `Archive.Respells.part?_eq` — all look-ups find the same
* `Container.Respells.ofContainer` — both packages are opened, or neither is
* `Package.Respells.worksheet` — both give the same worksheets
-/

namespace WorkbookTables

open Markup

/-! ### Archives -/

namespace Archive

/-- Holds of names that differ in the case of ASCII letters at most. -/
def NamesAlike (name name' : String) : Prop := foldCase name'.toList = foldCase name.toList

instance (name name' : String) : Decidable (NamesAlike name name') :=
  inferInstanceAs (Decidable (foldCase name'.toList = foldCase name.toList))

/-- The names of the parts in their order, with small letters. -/
def foldedNames (a : Archive) : List (List Char) := a.parts.map fun part => foldCase part.1.toList

/-- The parts of an archive are those of another one: each has a name that is alike and the same
contents, and they may be stored in another order. No two names in an archive are alike. -/
structure Respells (a b : Archive) : Prop where
  /-- The names are different, whatever their case. -/
  distinct : a.foldedNames.Nodup
  /-- In some order the parts of the one are those of the other. -/
  parts : ∃ stored, stored.Perm a.parts ∧
    List.Forall₂ (fun part part' => NamesAlike part.1 part'.1 ∧ part'.2 = part.2) stored b.parts

variable {a b : Archive} {name : String} {octets : Octets}

/-- **A part is found just if its name matches**, wherever it stands. -/
theorem part?_eq_some_iff (h : a.foldedNames.Nodup) :
    a.part? name = some octets ↔ ∃ part ∈ a.parts,
      foldCase part.1.toList = foldCase (withSlashes name.toList) ∧ part.2 = octets := by
  constructor
  · intro hpart
    obtain ⟨part, hfind, hoctets⟩ := Option.map_eq_some_iff.1 hpart
    have hname := List.find?_some hfind
    exact ⟨part, List.mem_of_find?_eq_some hfind, beq_iff_eq.1 hname, hoctets⟩
  · rintro ⟨part, hmem, hname, rfl⟩
    have hfind := find?_of_nodup h hmem
    rw [hname] at hfind
    rw [part?, hfind, Option.map_some]

namespace Respells

theorem foldedNames_perm (h : a.Respells b) : a.foldedNames.Perm b.foldedNames := by
  obtain ⟨stored, hperm, hparts⟩ := h.parts
  have hfolded : List.Forall₂ (· = ·) (stored.map fun part => foldCase part.1.toList)
      b.foldedNames :=
    List.forall₂_map_left_iff.2 (List.forall₂_map_right_iff.2
      (hparts.imp fun _ _ hpart => hpart.1.symm))
  rw [List.forall₂_eq_eq_eq] at hfolded
  rw [← hfolded]
  exact (hperm.map _).symm

theorem symm (h : a.Respells b) : b.Respells a := by
  refine ⟨h.foldedNames_perm.nodup_iff.1 h.distinct, ?_⟩
  obtain ⟨stored, hperm, hparts⟩ := h.parts
  obtain ⟨stored', hparts', hperm'⟩ := List.perm_comp_forall₂ hperm.symm hparts
  refine ⟨stored', hperm', ?_⟩
  refine hparts'.flip.imp ?_
  rintro part' part ⟨hname, hoctets⟩
  exact ⟨hname.symm, hoctets.symm⟩

/-- Every part stands in the other archive too, under a name that is alike. -/
theorem exists_mem (h : a.Respells b) {part : String × Octets} (hmem : part ∈ a.parts) :
    ∃ part' ∈ b.parts, NamesAlike part.1 part'.1 ∧ part'.2 = part.2 := by
  obtain ⟨stored, hperm, hparts⟩ := h.parts
  obtain ⟨i, hi, hpart⟩ := List.getElem_of_mem (hperm.mem_iff.2 hmem)
  have hi' : i < b.parts.length := hparts.length_eq ▸ hi
  have hboth := hparts.get hi hi'
  rw [List.get_eq_getElem, hpart] at hboth
  exact ⟨b.parts[i], List.getElem_mem hi', hboth⟩

theorem part?_eq_some (h : a.Respells b) (hpart : a.part? name = some octets) :
    b.part? name = some octets := by
  obtain ⟨part, hmem, hname, rfl⟩ := (part?_eq_some_iff h.distinct).1 hpart
  obtain ⟨part', hmem', halike, hoctets⟩ := h.exists_mem hmem
  exact (part?_eq_some_iff h.symm.distinct).2 ⟨part', hmem', halike.trans hname, hoctets⟩

/-- **All look-ups find the same.** -/
theorem part?_eq (h : a.Respells b) (name : String) : b.part? name = a.part? name := by
  refine Option.ext fun octets => ?_
  exact ⟨h.symm.part?_eq_some, h.part?_eq_some⟩

theorem document?_eq (h : a.Respells b) (name : String) : b.document? name = a.document? name := by
  rw [document?, document?, h.part?_eq]

end Respells

end Archive

/-! ### Containers -/

/-- Two computations that fail with the same error, or succeed with results that are related. -/
inductive AgreeUpTo {ε α β : Type} (R : α → β → Prop) : Except ε α → Except ε β → Prop where
  /-- Both fail. -/
  | failed (e : ε) : AgreeUpTo R (.error e) (.error e)
  /-- Both succeed. -/
  | done {x : α} {y : β} (h : R x y) : AgreeUpTo R (.ok x) (.ok y)

theorem AgreeUpTo.mapError {ε ε' α β : Type} {R : α → β → Prop} {x : Except ε α} {y : Except ε β}
    (h : AgreeUpTo R x y) (f : ε → ε') : AgreeUpTo R (x.mapError f) (y.mapError f) := by
  cases h with
  | failed e => exact .failed (f e)
  | done h => exact .done h

/-- The same container, or another archive of the same parts. -/
inductive Container.Respells : Container → Container → Prop where
  /-- Both are archives. -/
  | archive {a b : Archive} (h : a.Respells b) : Respells (.archive a) (.archive b)
  /-- Nothing is different. -/
  | same (c : Container) : Respells c c

theorem Container.Respells.symm {c c' : Container} (h : c.Respells c') : c'.Respells c := by
  cases h with
  | archive h => exact .archive h.symm
  | same => exact .same c

/-! ### Packages -/

namespace Package

/-- One package is the other, apart from its archive, in which look-ups find the same. -/
structure Respells (p q : Package) : Prop where
  /-- Both have one name. -/
  name : q.name = p.name
  /-- The manifest is wanted under one path. -/
  manifestPath : q.manifestPath = p.manifestPath
  /-- The worksheets are wanted under the same paths. -/
  worksheets : q.worksheets = p.worksheets
  /-- The same has been read of what the worksheets need. -/
  context : q.context = p.context
  /-- Look-ups find the same. -/
  document? : ∀ path, q.archive.document? path = p.archive.document? path

variable {p q : Package}

theorem Respells.refl (p : Package) : p.Respells p := ⟨rfl, rfl, rfl, rfl, fun _ => rfl⟩

theorem require_congr {a b : Archive} (h : ∀ path, b.document? path = a.document? path)
    (name path : String) : require name b path = require name a path := by
  rw [require, require, h]

theorem findManifest_congr {a b : Archive} (h : ∀ path, b.document? path = a.document? path) :
    findManifest b = findManifest a := by
  rw [findManifest, findManifest, h]

theorem ofArchive_congr {a b : Archive} (h : ∀ path, b.document? path = a.document? path)
    (name : String) : AgreeUpTo Respells (ofArchive name a) (ofArchive name b) := by
  rw [ofArchive, ofArchive, findManifest_congr h]
  cases findManifest a with
  | error e => exact .failed e
  | ok manifestPath =>
    dsimp only
    rw [require_congr h]
    cases require name a (relationshipsPath manifestPath) with
    | error e => exact .failed e
    | ok d =>
      dsimp only
      cases Relationships.worksheetPaths (PartPath.directory manifestPath) d with
      | error e => exact .failed e
      | ok worksheets => exact .done ⟨rfl, rfl, rfl, rfl, h⟩

namespace Respells

/-- The manifest is the same document. -/
theorem manifest_eq (h : p.Respells q) : q.manifest = p.manifest := by
  rw [manifest, manifest, h.name, h.manifestPath, require_congr h.document?]

theorem contains_eq (h : p.Respells q) : q.contains = p.contains := by
  funext id
  rw [contains, contains, h.worksheets]

theorem readCatalog_eq (h : p.Respells q) (ids : IdMap) :
    q.readCatalog ids = p.readCatalog ids := by
  rw [readCatalog, readCatalog, h.manifest_eq, h.contains_eq]

theorem readOptional_eq (h : p.Respells q) {α : Type} (file : String) (missing : α)
    (read : Document → Except Error α) :
    q.readOptional file missing read = p.readOptional file missing read := by
  rw [readOptional, readOptional, h.manifestPath, h.document?]

/-- What the worksheets need is the same. -/
theorem sheetContext_eq (h : p.Respells q) : q.sheetContext = p.sheetContext := by
  rw [sheetContext, sheetContext, h.context, readContext, readContext, h.manifest_eq]
  simp only [h.readOptional_eq]

theorem worksheetDocument_eq (h : p.Respells q) (id : String) :
    q.worksheetDocument id = p.worksheetDocument id := by
  rw [worksheetDocument, worksheetDocument, h.worksheets, h.name]
  simp only [require_congr h.document?]

/-- **Both packages give the same worksheets**, and stay alike. -/
theorem worksheet (h : p.Respells q) (id : String) :
    (p.worksheet id).1.Respells (q.worksheet id).1 ∧ (q.worksheet id).2 = (p.worksheet id).2 := by
  rw [Package.worksheet, Package.worksheet, h.sheetContext_eq, h.worksheetDocument_eq]
  cases p.sheetContext with
  | error e => exact ⟨h, rfl⟩
  | ok context => exact ⟨⟨h.name, h.manifestPath, h.worksheets, rfl, h.document?⟩, rfl⟩

end Respells

end Package

/-- **Both packages are opened, or neither is**, for the same reason. -/
theorem Container.Respells.ofContainer {found found' : Container} (h : found.Respells found')
    (name : String) :
    AgreeUpTo Package.Respells (Package.ofContainer name found)
      (Package.ofContainer name found') := by
  cases h with
  | archive h => exact Package.ofArchive_congr h.document?_eq name
  | same =>
    cases Package.ofContainer name found with
    | error e => exact .failed e
    | ok p => exact .done (.refl p)

end WorkbookTables
