import WorkbookTables.Proofs.Session.Spelling

/-!
# Archives that are written with backslashes

Some writers put backslashes between the directories in the names of an archive. To such names, and
to names with capitals, a look-up should be indifferent: it should find the first part whose name is
the wanted one, when the case of ASCII letters and the direction of slashes do not count.

## The distinction that decides it

Of the two names that are compared, only the wanted one has its backslashes turned. A name of the
archive is taken as it stands, and since a turned name has no backslash, a name that has one is
never found. What is indifferent in a wanted name is therefore not so in an archive: to the reader,
a part whose name has a backslash is not there.

This is all that goes wrong. Among the other parts the first one is found, as it should be. So an
archive with backslashes is as good as the archive without the parts that they stand in. Every
package needs the relationships of its manifest, whose path has slashes, and cannot be opened if all
slashes are turned. An archive in which only some are may be opened, with what is optional missing.

## Main definitions

* `Archive.SameName` — names that differ in the case of ASCII letters and in slashes at most
* `Archive.FirstNamed` — the part that should be found
* `Archive.slashed`, `Archive.backslashed` — the parts without a backslash in their names, and all
  parts with their slashes turned
* `Archive.SeesSlashedOnly` — what is found

## Main results

* `Archive.found?_eq_some_iff` — the part that is found is the first one without a backslash
* `Package.ofArchive_of_slash_notMem` — without slashes in its names, no archive is opened
* `Archive.seesSlashedOnly` — what a reader makes of any archive
* `Archive.not_separatorAgnostic` — which is not what it should
-/

namespace WorkbookTables

open Markup

/-! ### Names -/

namespace Archive

/-- Names that differ in the case of ASCII letters and in the direction of slashes at most. -/
def SameName (wanted name : String) : Prop :=
  foldCase (withSlashes name.toList) = foldCase (withSlashes wanted.toList)

instance (wanted name : String) : Decidable (SameName wanted name) :=
  inferInstanceAs (Decidable (foldCase (withSlashes name.toList) = _))

/-- Holds of names that are written with a backslash. -/
def HasBackslash (name : String) : Prop := '\\' ∈ name.toList

instance (name : String) : Decidable (HasBackslash name) :=
  inferInstanceAs (Decidable ('\\' ∈ name.toList))

/-- No letter becomes a slash in lower case. -/
theorem toLower_eq_iff {c separator : Char} (h : separator = '/' ∨ separator = '\\') :
    c.toLower = separator ↔ c = separator := by
  have hseparator : separator.toNat = 47 ∨ separator.toNat = 92 :=
    h.imp (congrArg Char.toNat) (congrArg Char.toNat)
  by_cases hupper : c.val ≥ 'A'.val ∧ c.val ≤ 'Z'.val
  · have hlow : 65 ≤ c.toNat := UInt32.le_iff_toNat_le.1 hupper.1
    have hhigh : c.toNat ≤ 90 := UInt32.le_iff_toNat_le.1 hupper.2
    have hlower : c.toLower.toNat = c.toNat + 32 := by
      have hval : c.toLower.val = c.val + 32 := congrArg Char.val (dif_pos hupper)
      rw [Char.toNat, hval, UInt32.toNat_add]
      refine Nat.mod_eq_of_lt ?_
      show c.toNat + 32 < 2 ^ 32
      omega
    constructor
    · intro heq
      rw [heq] at hlower
      omega
    · rintro rfl
      omega
  · have hsame : c.toLower = c := dif_neg hupper
    rw [hsame]

/-- Slashes of both kinds are the same in small letters. -/
theorem mem_foldCase_iff {name : List Char} {separator : Char}
    (h : separator = '/' ∨ separator = '\\') : separator ∈ foldCase name ↔ separator ∈ name := by
  rw [foldCase, List.mem_map]
  constructor
  · rintro ⟨c, hc, hlower⟩
    rwa [← (toLower_eq_iff h).1 hlower]
  · intro hmem
    exact ⟨separator, hmem, (toLower_eq_iff h).2 rfl⟩

theorem backslash_notMem_withSlashes (name : List Char) : '\\' ∉ withSlashes name := by
  intro hmem
  obtain ⟨c, -, hc⟩ := List.mem_map.1 hmem
  split at hc
  · cases hc
  next hne => exact hne hc

theorem withSlashes_of_notMem {name : List Char} (h : '\\' ∉ name) : withSlashes name = name := by
  have hsame : ∀ c ∈ name, (if c = '\\' then '/' else c) = c := by
    intro c hc
    refine if_neg ?_
    rintro rfl
    exact h hc
  rw [withSlashes, List.map_congr_left hsame, List.map_id']

/-- **What a look-up compares**: a name of an archive matches if it is the wanted one and is written
without a backslash. -/
theorem foldCase_eq_iff {wanted name : String} :
    foldCase name.toList = foldCase (withSlashes wanted.toList) ↔
      SameName wanted name ∧ ¬HasBackslash name := by
  constructor
  · intro h
    have hname : ¬HasBackslash name := by
      intro hmem
      refine backslash_notMem_withSlashes wanted.toList ?_
      rwa [← mem_foldCase_iff (.inr rfl), ← h, mem_foldCase_iff (.inr rfl)]
    refine ⟨?_, hname⟩
    rw [SameName, withSlashes_of_notMem hname]
    exact h
  · rintro ⟨hsame, hname⟩
    rw [SameName, withSlashes_of_notMem hname] at hsame
    exact hsame

/-! ### Look-ups -/

/-- The first part whose name matches. -/
def found? (a : Archive) (wanted : String) : Option (String × Octets) :=
  a.parts.find? fun part => foldCase part.1.toList == foldCase (withSlashes wanted.toList)

/-- The octets that are read are those of that part. -/
theorem part?_eq_map_found? (a : Archive) (wanted : String) :
    a.part? wanted = (a.found? wanted).map Prod.snd := rfl

/-- The part that should be found: the first one of the wanted name, whatever the case of its
letters and the direction of its slashes. -/
def FirstNamed (a : Archive) (wanted : String) (part : String × Octets) : Prop :=
  SameName wanted part.1 ∧ ∃ before after, a.parts = before ++ part :: after ∧
    ∀ other ∈ before, ¬SameName wanted other.1

/-- The parts whose names are written without a backslash. -/
def slashed (a : Archive) : Archive := ⟨a.parts.filter fun part => ¬HasBackslash part.1⟩

/-- All parts, with the slashes in their names turned. -/
def backslashed (a : Archive) : Archive :=
  ⟨a.parts.map fun part =>
    (String.ofList (part.1.toList.map fun c => if c = '/' then '\\' else c), part.2)⟩

variable {a : Archive} {wanted : String} {part : String × Octets}

theorem found?_eq_find? (a : Archive) (wanted : String) :
    a.found? wanted = a.slashed.parts.find? fun part => SameName wanted part.1 := by
  rw [found?, slashed, List.find?_filter]
  congr 1
  funext part
  rw [Bool.eq_iff_iff, beq_iff_eq, foldCase_eq_iff]
  simp [and_comm]

/-- **The part that is found** is the first one of the wanted name that has no backslash. -/
theorem found?_eq_some_iff : a.found? wanted = some part ↔ a.slashed.FirstNamed wanted part := by
  rw [found?_eq_find?, List.find?_eq_some_iff_append, FirstNamed]
  simp

/-- How the wanted name is written makes no difference. -/
theorem found?_congr {wanted' : String} (h : SameName wanted wanted') :
    a.found? wanted' = a.found? wanted := by
  rw [SameName] at h
  rw [found?, found?, h]

/-- Without backslashes in its names, an archive has all its parts. -/
theorem slashed_eq_self (h : ∀ part ∈ a.parts, ¬HasBackslash part.1) : a.slashed = a := by
  have hparts : a.parts.filter (fun part => ¬HasBackslash part.1) = a.parts := by
    refine List.filter_eq_self.2 fun part hpart => ?_
    exact decide_eq_true (h part hpart)
  rw [slashed, hparts]

/-- The parts with a backslash make no difference. -/
theorem found?_slashed (a : Archive) (wanted : String) :
    a.slashed.found? wanted = a.found? wanted := by
  have hslashed : a.slashed.slashed = a.slashed :=
    slashed_eq_self fun _ hpart => of_decide_eq_true (List.mem_filter.1 hpart).2
  rw [found?_eq_find?, found?_eq_find?, hslashed]

theorem document?_slashed (a : Archive) (path : String) :
    a.slashed.document? path = a.document? path := by
  rw [document?, document?, part?_eq_map_found?, part?_eq_map_found?, found?_slashed]

/-- A part is found just if there is one of the wanted name that has no backslash. -/
theorem found?_eq_none_iff :
    a.found? wanted = none ↔ ∀ part ∈ a.parts, SameName wanted part.1 → HasBackslash part.1 := by
  rw [found?, List.find?_eq_none]
  simp only [beq_iff_eq, foldCase_eq_iff, not_and, not_not]

/-- The part that should be found is found just if it has no backslash. -/
theorem FirstNamed.found?_eq_some_iff (h : a.FirstNamed wanted part) :
    a.found? wanted = some part ↔ ¬HasBackslash part.1 := by
  obtain ⟨hsame, before, after, hparts, hbefore⟩ := h
  constructor
  · intro hfound
    have hmatch := List.find?_some hfound
    exact (foldCase_eq_iff.1 (beq_iff_eq.1 hmatch)).2
  · intro hslash
    refine List.find?_eq_some_iff_append.2
      ⟨beq_iff_eq.2 (foldCase_eq_iff.2 ⟨hsame, hslash⟩), before, after, hparts, ?_⟩
    intro other hother
    rw [Bool.not_eq_true', beq_eq_false_iff_ne]
    intro hmatch
    exact hbefore other hother (foldCase_eq_iff.1 hmatch).1

/-- In an archive without slashes, nothing is found under a path that has one. -/
theorem document?_of_slash_notMem (h : ∀ part ∈ a.parts, '/' ∉ part.1.toList) {path : String}
    (hpath : '/' ∈ path.toList) : a.document? path = none := by
  have hwanted : '/' ∈ withSlashes path.toList :=
    List.mem_map.2 ⟨'/', hpath, if_neg (by decide)⟩
  have hfound : a.found? path = none := by
    refine List.find?_eq_none.2 fun part hpart hmatch => ?_
    rw [beq_iff_eq] at hmatch
    rw [← mem_foldCase_iff (.inl rfl), ← hmatch, mem_foldCase_iff (.inl rfl)] at hwanted
    exact h part hpart hwanted
  rw [document?, part?_eq_map_found?, hfound]
  rfl

theorem slash_notMem_backslashed (a : Archive) :
    ∀ part ∈ a.backslashed.parts, '/' ∉ part.1.toList := by
  intro part hpart hmem
  obtain ⟨written, -, rfl⟩ := List.mem_map.1 hpart
  rw [String.toList_ofList] at hmem
  obtain ⟨c, -, hc⟩ := List.mem_map.1 hmem
  split at hc
  · cases hc
  next hne => exact hne hc

end Archive

/-! ### Packages -/

namespace Package

/-- The relationships of the manifest, if it stands where it does by default. -/
def defaultRelationshipsPath : String := "xl/_rels/workbook.xml.rels"

/-- **Without slashes in its names, no archive is opened.** Even the root relationships are not
found, so the manifest is believed where it stands by default. -/
theorem ofArchive_of_slash_notMem {a : Archive} (h : ∀ part ∈ a.parts, '/' ∉ part.1.toList)
    (name : String) : ofArchive name a = .error (.missingPart name defaultRelationshipsPath) := by
  have hroot : a.document? rootRelationshipsPath = none :=
    Archive.document?_of_slash_notMem h (by decide)
  have hpath : relationshipsPath defaultManifestPath = defaultRelationshipsPath := by
    decide +kernel
  have hrelationships : a.document? defaultRelationshipsPath = none :=
    Archive.document?_of_slash_notMem h (by decide)
  rw [ofArchive, findManifest, hroot]
  dsimp only
  rw [hpath, require, hrelationships]

theorem respells_slashed (name : String) (a : Archive) :
    AgreeUpTo Respells (ofContainer name (.archive a)) (ofContainer name (.archive a.slashed)) :=
  ofArchive_congr a.document?_slashed name

end Package

/-! ### Readers -/

namespace Archive

/-- What is found in an archive, and what a reader makes of it: a part whose name has a backslash is
not there. -/
structure SeesSlashedOnly (a : Archive) : Prop where
  /-- What is read are the octets of the part that is found. -/
  read : ∀ wanted, a.part? wanted = (a.found? wanted).map Prod.snd
  /-- How the wanted name is written makes no difference. -/
  wanted : ∀ wanted wanted', SameName wanted wanted' → a.found? wanted' = a.found? wanted
  /-- If no name has a backslash, the part that is found is the first one of the wanted name. -/
  plain : (∀ part ∈ a.parts, ¬HasBackslash part.1) →
    ∀ wanted part, a.found? wanted = some part ↔ a.FirstNamed wanted part
  /-- In any case it is the first one among those without a backslash. -/
  found : ∀ wanted part, a.found? wanted = some part ↔ a.slashed.FirstNamed wanted part
  /-- So the first one among all parts is found just if it has no backslash. -/
  first : ∀ wanted part, a.FirstNamed wanted part →
    (a.found? wanted = some part ↔ ¬HasBackslash part.1)
  /-- A part is missing just if all parts of the wanted name have a backslash. -/
  missing : ∀ wanted,
    a.found? wanted = none ↔ ∀ part ∈ a.parts, SameName wanted part.1 → HasBackslash part.1
  /-- Without the parts that have a backslash a reader makes the same schema, keeps the same map of
  ids, and opens the same scans. -/
  reader : ∀ r : Reader,
    (∀ name, r.createSchema (.archive a.slashed) name = r.createSchema (.archive a) name) ∧
      r.refresh (.archive a.slashed) = r.refresh (.archive a) ∧
      ∀ table columns maxRows, r.query (.archive a.slashed) table columns maxRows =
        r.query (.archive a) table columns maxRows
  /-- If all its slashes are turned, the archive cannot be opened, whatever is in it. -/
  turned : ∀ place, Package.ofContainer place (.archive a.backslashed) =
    .error (.missingPart place Package.defaultRelationshipsPath)

/-- **What a reader makes of any archive.** -/
theorem seesSlashedOnly (a : Archive) : a.SeesSlashedOnly where
  read := a.part?_eq_map_found?
  wanted := fun _ _ hsame => found?_congr hsame
  plain := by
    intro hplain wanted part
    rw [found?_eq_some_iff, slashed_eq_self hplain]
  found := fun _ _ => found?_eq_some_iff
  first := fun _ _ hpart => hpart.found?_eq_some_iff
  missing := fun _ => found?_eq_none_iff
  reader := by
    intro r
    have hopen : AgreeUpTo Package.Respells (r.openPackage (.archive a))
        (r.openPackage (.archive a.slashed)) := (Package.respells_slashed r.place a).mapError _
    exact ⟨Reader.createSchema_of_respells hopen, Reader.refresh_of_respells hopen,
      Reader.query_of_respells hopen⟩
  turned := by
    intro place
    exact Package.ofArchive_of_slash_notMem a.slash_notMem_backslashed place

/-- **Look-ups are not indifferent to the direction of slashes.** A part of the wanted name is
missed, and a workbook that is opened is not opened when its slashes are turned. -/
theorem not_separatorAgnostic :
    ¬(∀ (a : Archive) wanted part, a.FirstNamed wanted part → a.found? wanted = some part) ∧
      ¬∀ (a : Archive) place, (Package.ofContainer place (.archive a)).isOk →
        (Package.ofContainer place (.archive a.backslashed)).isOk := by
  constructor
  · intro h
    have hfound := h ⟨[("xl\\workbook.xml", [])]⟩ "xl/workbook.xml" ("xl\\workbook.xml", [])
      ⟨by decide, [], [], rfl, by simp⟩
    revert hfound
    decide
  · intro h
    have hopens := h Workbench.quietBook "book.xlsx" (by decide +kernel)
    revert hopens
    decide +kernel

end Archive

end WorkbookTables
