import WorkbookTables.Book.Package

/-!
# Packages that have been used

A package changes in one way only: when a worksheet is wanted, it remembers what all worksheets
need. It does so before the id of the worksheet is looked up, so a call that fails may leave it
changed. Nobody can tell, since what is remembered is what would be read again.

That there is nothing else to be remembered is a matter of order. The date system, the strings and
the formats are read one after another, and only all three together are kept. If one of them is
damaged, a package stays as it was opened, and every worksheet that is wanted from it runs into the
same damage.

What the map of ids holds is not a matter of the package. A list of sheets is read into the map that
is given with the call, and the answer has the map afterwards.

## Main definitions

* `Package.Resembles` — a package that has read what its worksheets need, or not
* `Package.Call`, `Package.Answer` — what is asked of a package, and what is answered
* `Package.answers`, `Package.afterAll` — calls one after another
* `Package.HidesUse` — nobody can tell what a package has been asked before

## Main results

* `Package.Resembles.worksheet`, `Package.Resembles.answer` — a package that has been used answers
  as before
* `Package.Resembles.answers` — so it does in every row of calls
* `Package.exists_of_ofContainer` — what a package is that has been opened
* `Package.hidesUse` — nobody can tell an opened package from one that has been used
-/

namespace WorkbookTables

open Markup

namespace Package

/-- The package is another one, apart from having read what its worksheets need or not. -/
def Resembles (p' p : Package) : Prop :=
  (∃ context, p' = { p with context }) ∧ p'.sheetContext = p.sheetContext

variable {p p' : Package}

theorem Resembles.refl (p : Package) : p.Resembles p :=
  ⟨⟨p.context, rfl⟩, rfl⟩

/-- A package that has been used gives the same worksheets, also afterwards. -/
theorem Resembles.worksheet (h : p'.Resembles p) (id : String) :
    (p'.worksheet id).1.Resembles p ∧ (p'.worksheet id).2 = (p.worksheet id).2 := by
  obtain ⟨⟨context, rfl⟩, hcontext⟩ := h
  rw [Package.worksheet, Package.worksheet, hcontext]
  cases hread : p.sheetContext with
  | error e => exact ⟨⟨⟨context, rfl⟩, hcontext⟩, rfl⟩
  | ok read => exact ⟨⟨⟨some read, rfl⟩, hread.symm⟩, rfl⟩

/-! ### Calls -/

/-- What is asked of a package. -/
inductive Call where
  /-- The worksheet with an id, and what it needs. -/
  | worksheet (id : String)
  /-- The list of sheets, to be read into a map of ids. -/
  | catalog (ids : IdMap)
  /-- The manifest. -/
  | manifest

/-- What is answered. -/
inductive Answer where
  /-- The worksheet and what it needs. -/
  | worksheet (sheet : Except Error (Document × SheetContext))
  /-- The map of ids afterwards, and the list of sheets. -/
  | catalog (ids : IdMap) (entries : Except Error (List Manifest.Entry))
  /-- The manifest. -/
  | manifest (d : Except Error Document)

/-- What a package answers to a call. -/
def answer (p : Package) : Call → Answer
  | .worksheet id => .worksheet (p.worksheet id).2
  | .catalog ids => .catalog (p.readCatalog ids).1 (p.readCatalog ids).2
  | .manifest => .manifest p.manifest

/-- The package after a call. -/
def after (p : Package) : Call → Package
  | .worksheet id => (p.worksheet id).1
  | .catalog _ => p
  | .manifest => p

/-- The package after one call after another. -/
def afterAll (p : Package) (calls : List Call) : Package := calls.foldl after p

/-- What a package answers to one call after another. -/
def answers (p : Package) : List Call → List Answer
  | [] => []
  | call :: rest => p.answer call :: (p.after call).answers rest

/-- **A package that has been used answers as before**, and is still the same afterwards. -/
theorem Resembles.answer (h : p'.Resembles p) (call : Call) :
    (p'.after call).Resembles p ∧ p'.answer call = p.answer call := by
  cases call with
  | worksheet id =>
    obtain ⟨hpackage, hsheet⟩ := h.worksheet id
    exact ⟨hpackage, congrArg Answer.worksheet hsheet⟩
  | catalog ids =>
    refine ⟨h, ?_⟩
    -- Neither the manifest nor the ids of the worksheets depend on what has been read.
    obtain ⟨⟨context, rfl⟩, -⟩ := h
    rfl
  | manifest =>
    refine ⟨h, ?_⟩
    obtain ⟨⟨context, rfl⟩, -⟩ := h
    rfl

theorem Resembles.afterAll (h : p'.Resembles p) (calls : List Call) :
    (p'.afterAll calls).Resembles p := by
  induction calls generalizing p' with
  | nil => exact h
  | cons call rest ih => exact ih (h.answer call).1

/-- **Every call is answered as if it were the first.** -/
theorem Resembles.answers (h : p'.Resembles p) (calls : List Call) :
    p'.answers calls = calls.map p.answer := by
  induction calls generalizing p' with
  | nil => rfl
  | cons call rest ih =>
    obtain ⟨hpackage, hanswer⟩ := h.answer call
    rw [Package.answers, List.map_cons, hanswer, ih hpackage]

/-! ### What is remembered -/

/-- What a package remembers is what it would read. -/
theorem Resembles.readContext_eq (h : p'.Resembles p) (hfresh : p.context = none)
    {context : SheetContext} (hcontext : p'.context = some context) :
    p.readContext = .ok context := by
  have hread := h.2
  rw [sheetContext, sheetContext, hcontext, hfresh] at hread
  exact hread.symm

/-- A package that cannot read what its worksheets need stays as it is. -/
theorem after_of_readContext {e : Error} (hfresh : p.context = none)
    (h : p.readContext = .error e) (call : Call) : p.after call = p := by
  cases call with
  | worksheet id =>
    have hcontext : p.sheetContext = .error e := by
      rw [sheetContext, hfresh]
      exact h
    rw [after, Package.worksheet, hcontext]
  | catalog ids => rfl
  | manifest => rfl

theorem afterAll_of_readContext {e : Error} (hfresh : p.context = none)
    (h : p.readContext = .error e) (calls : List Call) : p.afterAll calls = p := by
  induction calls with
  | nil => rfl
  | cons call rest ih =>
    show (p.after call).afterAll rest = p
    rw [after_of_readContext hfresh h call]
    exact ih

/-- **What a package is that has been opened**: it has the archive, the paths that the
relationships name, and has read nothing else. -/
theorem exists_of_ofContainer {name : String} {c : Container} (h : ofContainer name c = .ok p) :
    ∃ a manifestPath d worksheets, c.archive? = .ok a ∧ findManifest a = .ok manifestPath ∧
      require name a (relationshipsPath manifestPath) = .ok d ∧
      Relationships.worksheetPaths (PartPath.directory manifestPath) d = .ok worksheets ∧
      p = ⟨name, a, manifestPath, worksheets, none⟩ := by
  rw [ofContainer] at h
  split at h
  · cases h
  next a harchive =>
    rw [ofArchive] at h
    split at h
    · cases h
    next manifestPath hmanifest =>
      split at h
      · cases h
      next d hrelationships =>
        split at h
        · cases h
        next worksheets hworksheets =>
          cases h
          exact ⟨a, manifestPath, d, worksheets, harchive, hmanifest, hrelationships, hworksheets,
            rfl⟩

theorem context_of_ofContainer {name : String} {c : Container} (h : ofContainer name c = .ok p) :
    p.context = none := by
  obtain ⟨_, _, _, _, -, -, -, -, rfl⟩ := exists_of_ofContainer h
  rfl

/-- Nobody can tell what a package has been asked before. -/
structure HidesUse (p : Package) : Prop where
  /-- Every call in a row is answered as if it were the first. -/
  answers : ∀ calls, p.answers calls = calls.map p.answer
  /-- A call in a row, whether it fails or not, makes no difference to the others: without it, only
  its own answer is missing. -/
  without : ∀ before call rest,
    (p.answers (before ++ call :: rest)).eraseIdx before.length = p.answers (before ++ rest)
  /-- What is remembered of the worksheets' needs is all of what a first call would read. -/
  whole : ∀ calls context, (p.afterAll calls).context = some context → p.readContext = .ok context
  /-- If any of it is damaged, nothing is remembered. -/
  damaged : ∀ e, p.readContext = .error e → ∀ calls, p.afterAll calls = p

/-- **Nobody can tell an opened package from one that has been used.** -/
theorem hidesUse {name : String} {c : Container} (h : ofContainer name c = .ok p) :
    p.HidesUse where
  answers := (Resembles.refl p).answers
  without := by
    intro before call rest
    have hlength : before.length = (before.map p.answer).length := by rw [List.length_map]
    rw [(Resembles.refl p).answers, (Resembles.refl p).answers, List.map_append, List.map_append,
      List.map_cons, hlength, List.eraseIdx_append_of_length_le (Nat.le_refl _), Nat.sub_self]
    rfl
  whole := by
    intro calls context hcontext
    exact ((Resembles.refl p).afterAll calls).readContext_eq (context_of_ofContainer h) hcontext
  damaged := by
    intro e he calls
    exact afterAll_of_readContext (context_of_ofContainer h) he calls

/-- The error of an answer, if it is one. -/
def Answer.error? : Answer → Option Error
  | .worksheet (.error e) => some e
  | .catalog _ (.error e) => some e
  | .manifest (.error e) => some e
  | _ => none

/-- A workbook with two sheets, of which the second has no part. -/
def gapingBook : Archive := ⟨[
  ("xl/workbook.xml", Text.Utf8.encode
    "<workbook><sheets><sheet name='A' r:id='r1'/><sheet name='B' r:id='r2'/></sheets></workbook>"),
  ("xl/_rels/workbook.xml.rels", Text.Utf8.encode ("<Relationships><Relationship Id='r1' " ++
    "Target='a.xml'/><Relationship Id='r2' Target='b.xml'/></Relationships>")),
  ("xl/sharedStrings.xml", Text.Utf8.encode "<sst><si><t>name</t></si></sst>"),
  ("xl/a.xml", Text.Utf8.encode "<sheetData><row><c t='s'><v>0</v></c></row></sheetData>")]⟩

/-- Worksheets are wanted before and after calls that fail, the first of which has an unknown id. -/
def gapingCalls : List Call :=
  [.worksheet "r3", .worksheet "r1", .worksheet "r2", .catalog .empty, .manifest, .worksheet "r1"]

theorem hidesUse_gapingBook : ∃ p, ofContainer "book.xlsx" (.archive gapingBook) = .ok p ∧
    (p.answers gapingCalls).map Answer.error? =
      [some (.unknownRelationship "book.xlsx" "r3"), none,
        some (.missingPart "book.xlsx" "xl/b.xml"), none, none, none] ∧
    p.HidesUse := by
  have hanswers : (ofContainer "book.xlsx" (.archive gapingBook)).toOption.map
      (fun p => (p.answers gapingCalls).map Answer.error?) =
        some [some (.unknownRelationship "book.xlsx" "r3"), none,
          some (.missingPart "book.xlsx" "xl/b.xml"), none, none, none] := by
    decide +kernel
  cases hopens : ofContainer "book.xlsx" (.archive gapingBook) with
  | error e =>
    rw [hopens] at hanswers
    cases hanswers
  | ok p =>
    rw [hopens] at hanswers
    exact ⟨p, rfl, Option.some.inj hanswers, hidesUse hopens⟩

end Package

end WorkbookTables
