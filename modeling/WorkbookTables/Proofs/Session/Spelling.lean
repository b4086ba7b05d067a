import WorkbookTables.Proofs.Book.EntryNames
import WorkbookTables.Proofs.Session.Independence

/-!
# Sessions at archives that are written differently

A reader never hands on a package, only what it has read from one, and of the packages of two
archives with the same parts everything is read alike. So at such archives every operation of a
reader has the same result and leaves the same map of ids behind, and a scan that is opened is the
same dataset. What is done with a dataset afterwards has nothing to do with any archive.

A place may hold another workbook in the course of a session. Then each of these may be written
differently.

The name of the place stands in the wording of errors, and is that of the workbench. So what is said
here holds for every name, also for one that tells how many octets the place holds.

## Main definitions

* `Workbench.holding` — a workbench whose place holds something else
* `Command.Respells` — commands that put archives with the same parts at the place

## Main results

* `Reader.createSchema_of_respells`, `Reader.refresh_of_respells`, `Reader.query_of_respells` — the
  operations of a reader
* `Workbench.run_holding` — a command
* `Workbench.Session.holding` — a session, under every schedule
* `Workbench.answers_of_respells` — nobody can tell the archives apart
-/

namespace WorkbookTables

variable {p q : Package} {found found' : Container}

/-! ### Readers -/

/-- **The columns of a table are the same.** -/
theorem Package.Respells.discoverColumns (h : p.Respells q) (settings : Settings) (table : String)
    (log : NamingLog) (id : String) :
    (discoverColumns settings table log p id).1.Respells
        (discoverColumns settings table log q id).1 ∧
      (discoverColumns settings table log q id).2 =
        (discoverColumns settings table log p id).2 := by
  obtain ⟨hpackage, hsheet⟩ := h.worksheet id
  rw [WorkbookTables.discoverColumns, WorkbookTables.discoverColumns]
  rcases hleft : p.worksheet id with ⟨p', result⟩
  rcases hright : q.worksheet id with ⟨q', result'⟩
  rw [hleft, hright] at hpackage hsheet
  obtain rfl : result' = result := hsheet
  cases result' with
  | error e => exact ⟨hpackage, rfl⟩
  | ok sheet => exact ⟨hpackage, rfl⟩

/-- The rows of a scan are the same. -/
theorem Package.Respells.feed_eq (h : p.Respells q) (id : String) (withholdBlank : Bool) :
    Feed.ofPackage q id withholdBlank = Feed.ofPackage p id withholdBlank := by
  rw [Feed.ofPackage, Feed.ofPackage, (h.worksheet id).2]

namespace Reader

theorem discoverTables_of_respells (h : p.Respells q) (settings : Settings) (log : NamingLog)
    (entries : List Manifest.Entry) :
    discoverTables settings log q entries = discoverTables settings log p entries := by
  induction entries generalizing p q log with
  | nil => rfl
  | cons entry rest ih =>
    obtain ⟨hpackage, hcolumns⟩ :=
      h.discoverColumns settings entry.name log entry.internalId
    rw [discoverTables, discoverTables]
    rcases hleft : discoverColumns settings entry.name log p entry.internalId with
      ⟨p', log', result⟩
    rcases hright : discoverColumns settings entry.name log q entry.internalId with
      ⟨q', log'', result'⟩
    rw [hleft, hright] at hpackage hcolumns
    obtain ⟨rfl, rfl⟩ := Prod.mk.inj hcolumns
    cases result' with
    | error failure => rfl
    | ok columns =>
      dsimp only
      rw [ih hpackage]

variable (r : Reader)

/-- Both packages are opened, or neither is. -/
theorem openPackage_of_respells (h : found.Respells found') :
    AgreeUpTo Package.Respells (r.openPackage found) (r.openPackage found') :=
  (h.ofContainer r.place).mapError _

variable {r} (hopen : AgreeUpTo Package.Respells (r.openPackage found) (r.openPackage found'))

include hopen

/-- Both lists of sheets are read alike, and leave the same reader behind. -/
theorem readCatalog_of_respells :
    (r.readCatalog found').1 = (r.readCatalog found).1 ∧
      AgreeUpTo (fun x y => x.1.Respells y.1 ∧ y.2 = x.2) (r.readCatalog found).2
        (r.readCatalog found').2 := by
  rw [readCatalog, readCatalog]
  generalize r.openPackage found = opened at hopen
  generalize r.openPackage found' = opened' at hopen
  cases hopen with
  | failed e => exact ⟨rfl, .failed e⟩
  | @done p q hpackage =>
    dsimp only
    rw [hpackage.readCatalog_eq, hpackage.name]
    rcases p.readCatalog r.ids with ⟨ids, e | entries⟩
    · exact ⟨rfl, .failed _⟩
    · exact ⟨rfl, .done ⟨hpackage, rfl⟩⟩

/-- **The schema is the same.** -/
theorem createSchema_of_respells (name : String) :
    r.createSchema found' name = r.createSchema found name := by
  obtain ⟨hreader, hagree⟩ := readCatalog_of_respells hopen
  rw [createSchema, createSchema]
  rcases hleft : r.readCatalog found with ⟨r', result⟩
  rcases hright : r.readCatalog found' with ⟨r'', result'⟩
  rw [hleft, hright] at hreader hagree
  obtain rfl : r'' = r' := hreader
  cases hagree with
  | failed e => rfl
  | @done x y hpackages =>
    obtain ⟨p, entries⟩ := x
    obtain ⟨q, entries'⟩ := y
    obtain ⟨hpackage, rfl⟩ : p.Respells q ∧ entries' = entries := hpackages
    dsimp only
    rw [discoverTables_of_respells hpackage]

/-- **The list of sheets is read again to the same effect.** -/
theorem refresh_of_respells : r.refresh found' = r.refresh found := by
  obtain ⟨hreader, hagree⟩ := readCatalog_of_respells hopen
  rw [refresh, refresh]
  rcases hleft : r.readCatalog found with ⟨r', result⟩
  rcases hright : r.readCatalog found' with ⟨r'', result'⟩
  rw [hleft, hright] at hreader hagree
  obtain rfl : r'' = r' := hreader
  cases hagree <;> rfl

/-- **A scan begins with the same dataset.** -/
theorem query_of_respells (table : Table) (columns : List Column) (maxRows : Option Nat) :
    r.query found' table columns maxRows = r.query found table columns maxRows := by
  rw [query, query]
  cases r.ids.get? table.name with
  | none => rfl
  | some id =>
    dsimp only
    generalize r.openPackage found = opened at hopen
    generalize r.openPackage found' = opened' at hopen
    cases hopen with
    | failed e => rfl
    | done hpackage =>
      dsimp only
      rw [hpackage.contains_eq, hpackage.feed_eq, hpackage.name]

end Reader

/-! ### Commands -/

/-- The same command, or another one that puts an archive with the same parts at the place. -/
inductive Command.Respells : Command → Command → Prop where
  /-- What the place holds is replaced. -/
  | replace {found found' : Container} (h : found.Respells found') :
      Respells (.replace found) (.replace found')
  /-- Nothing is different. -/
  | same (c : Command) : Respells c c

theorem Command.Respells.symm {c c' : Command} (h : c.Respells c') : c'.Respells c := by
  cases h with
  | replace h => exact .replace h.symm
  | same => exact .same c

namespace Workbench

/-- The workbench, with something else at its place. -/
def holding (w : Workbench) (found : Container) : Workbench := { w with found }

variable {w w' : Workbench} {c c' : Command} {a : Answer}

theorem holding_holding (w : Workbench) (found found' : Container) :
    (w.holding found).holding found' = w.holding found' := rfl

theorem holding_self (w : Workbench) : w.holding w.found = w := rfl

theorem scan_holding (h : w.found.Respells found') (request : ScanRequest) :
    (w.holding found').scan request = w.scan request :=
  Reader.query_of_respells (w.reader.openPackage_of_respells h) _ _ _

theorem foundAfter_respells (h : found.Respells found') (hc : c.Respells c') :
    (foundAfter found c).Respells (foundAfter found' c') := by
  cases hc with
  | replace hnext => exact hnext
  | same =>
    cases c with
    | replace next => exact .same next
    | _ => exact h

/-- **A command is answered the same**, and leaves the same behind apart from what the place
holds. -/
theorem run_holding (h : w.found.Respells found') (hc : c.Respells c') :
    (w.holding found').run c' = ((w.run c).1.holding (foundAfter found' c'), (w.run c).2) := by
  cases hc with
  | replace => rfl
  | same =>
    cases c with
    | createSchema name =>
      have hschema : (w.holding found').reader.createSchema (w.holding found').found name =
          w.reader.createSchema w.found name :=
        Reader.createSchema_of_respells (w.reader.openPackage_of_respells h) name
      rw [run, run, hschema]
      rcases w.reader.createSchema w.found name with ⟨reader, _ | _⟩ <;> rfl
    | refresh =>
      have hrefresh : (w.holding found').reader.refresh (w.holding found').found =
          w.reader.refresh w.found :=
        Reader.refresh_of_respells (w.reader.openPackage_of_respells h)
      rw [run, run, hrefresh]
      rcases w.reader.refresh w.found with ⟨reader, _ | _⟩ <;> rfl
    | query request =>
      rw [run, run, scan_holding h]
      cases w.scan request <;> rfl
    | «open» key request =>
      rw [run, run, scan_holding h]
      cases w.scan request <;> rfl
    | dataset key command =>
      have hdataset : (w.holding found').dataset? key = w.dataset? key := rfl
      rw [run, run, hdataset]
      cases w.dataset? key with
      | none => rfl
      | some d => cases command <;> rfl
    | tableNames => rfl
    | internalId => rfl
    | lookUp => rfl
    | replace => rfl

theorem found_run_respells (h : w.found.Respells found') (hc : c.Respells c') :
    (w.run c).1.found.Respells (foundAfter found' c') := by
  rw [(w.run_eq c).2]
  exact foundAfter_respells h hc

/-! ### Sessions -/

/-- What is kept of datasets has nothing to do with the place. -/
theorem Keeps.holding {key : String} {kept : Option Dataset} (h : w.Keeps key kept w')
    (found : Container) : (w.holding found).Keeps key kept (w'.holding found) :=
  ⟨h.reader, rfl, h.schema, h.own, h.others⟩

/-- **A command may be answered the same under any schedule.** -/
theorem Performs.holding (hperforms : w.Performs c a w') (h : w.found.Respells found')
    (hc : c.Respells c') :
    w'.found.Respells (foundAfter found' c') ∧
      (w.holding found').Performs c' a (w'.holding (foundAfter found' c')) := by
  cases hperforms with
  | operate hd hop hkeeps =>
    cases hc
    refine ⟨?_, .operate hd hop (hkeeps.holding found')⟩
    rw [hkeeps.found]
    exact h
  | gone hd =>
    cases hc
    exact ⟨h, .gone hd⟩
  | query hd hrun =>
    cases hc
    exact ⟨h, .query ((scan_holding h _).trans hd) hrun⟩
  | run hother =>
    refine ⟨found_run_respells h hc, ?_⟩
    have hother' : ∀ key command, c' ≠ .dataset key command := by
      rintro key command rfl
      cases hc
      exact hother key command rfl
    have hrun := Performs.run (w := w.holding found') hother'
    rw [run_holding h hc] at hrun
    exact hrun

/-- Commands with their answers at one archive, and with the same answers at another. -/
def SameAnswers (s s' : List (Command × Answer)) : Prop :=
  List.Forall₂ (fun x y => x.1.Respells y.1 ∧ y.2 = x.2) s s'

/-- **What is answered in a session may be answered at the other archive**, under any schedule. -/
theorem Session.holding {s s' : List (Command × Answer)} (hsession : w.Session s w')
    (h : w.found.Respells found') (hs : SameAnswers s s') :
    ∃ found'', (w.holding found').Session s' (w'.holding found'') := by
  induction hsession generalizing found' s' with
  | nil w =>
    cases hs
    exact ⟨found', .nil _⟩
  | command hperforms _ ih =>
    cases hs with
    | @cons _ y _ rest hfirst hrest =>
      obtain ⟨c', a'⟩ := y
      obtain ⟨hc, rfl⟩ := hfirst
      obtain ⟨hfound, hperforms'⟩ := hperforms.holding h hc
      obtain ⟨found'', hsession⟩ := ih hfound hrest
      exact ⟨found'', .command hperforms' hsession⟩
  | work hd hstep hkeeps _ ih =>
    rw [← hkeeps.found] at h
    obtain ⟨found'', hsession⟩ := ih h hs
    exact ⟨found'', .work hd hstep (hkeeps.holding found') hsession⟩

theorem sameAnswers_zip {commands commands' : List Command}
    (hcommands : List.Forall₂ Command.Respells commands commands') (answers : List Answer) :
    SameAnswers (commands.zip answers) (commands'.zip answers) := by
  induction hcommands generalizing answers with
  | nil => exact .nil
  | cons hc _ ih =>
    cases answers with
    | nil => exact .nil
    | cons a rest => exact .cons ⟨hc, rfl⟩ (ih rest)

/-- The functions answer the same, and leave the same behind apart from what the place holds. -/
theorem runAll_holding {commands commands' : List Command} (h : w.found.Respells found')
    (hcommands : List.Forall₂ Command.Respells commands commands') :
    ((w.holding found').runAll commands').1.map Prod.snd =
        (w.runAll commands).1.map Prod.snd ∧
      ∃ found'', ((w.holding found').runAll commands').2 =
        (w.runAll commands).2.holding found'' := by
  induction hcommands generalizing w found' with
  | nil => exact ⟨rfl, found', rfl⟩
  | @cons c c' rest rest' hc _ ih =>
    obtain ⟨hanswers, found'', hlast⟩ := ih (found_run_respells h hc)
    refine ⟨?_, found'', ?_⟩
    · simp only [runAll, run_holding h hc, List.map_cons, hanswers]
    · simp only [runAll, run_holding h hc, hlast]

/-- **Nobody can tell archives apart that are spelled and stored differently.** The same commands
are given at two workbenches whose places hold archives of the same parts, and go on to do so where
a command replaces them. Then the functions give the same answers and leave the same reader behind,
with its map of ids; and under any schedule of the publishers the one may answer just what the other
may. -/
theorem answers_of_respells {commands commands' : List Command} (h : w.found.Respells found')
    (hcommands : List.Forall₂ Command.Respells commands commands') :
    ((w.holding found').runAll commands').1.map Prod.snd =
        (w.runAll commands).1.map Prod.snd ∧
      ((w.holding found').runAll commands').2.reader = (w.runAll commands).2.reader ∧
      ∀ answers, (∃ w', w.Session (commands.zip answers) w') ↔
        ∃ w', (w.holding found').Session (commands'.zip answers) w' := by
  obtain ⟨hanswers, found'', hlast⟩ := runAll_holding h hcommands
  refine ⟨hanswers, by rw [hlast]; rfl, fun answers => ⟨?_, ?_⟩⟩
  · rintro ⟨w', hsession⟩
    obtain ⟨last, hsession'⟩ := hsession.holding h (sameAnswers_zip hcommands answers)
    exact ⟨_, hsession'⟩
  · rintro ⟨w', hsession⟩
    have hback : List.Forall₂ Command.Respells commands' commands :=
      hcommands.flip.imp fun _ _ hc => hc.symm
    have hfound : (w.holding found').found.Respells w.found := h.symm
    obtain ⟨last, hsession'⟩ := hsession.holding hfound (sameAnswers_zip hback answers)
    rw [holding_holding, holding_self] at hsession'
    exact ⟨_, hsession'⟩

/-- A workbook with one sheet, in which every part but the root relationships is wanted. -/
def quietBook : Archive := ⟨[
  ("xl/workbook.xml", Text.Utf8.encode
    "<workbook><sheets><sheet name='Data' r:id='rId1'/></sheets></workbook>"),
  ("xl/_rels/workbook.xml.rels", Text.Utf8.encode
    "<Relationships><Relationship Id='rId1' Target='sheet.xml'/></Relationships>"),
  ("xl/sharedStrings.xml", Text.Utf8.encode "<sst><si><t>name</t></si></sst>"),
  ("xl/sheet.xml", Text.Utf8.encode
    "<sheetData><row><c t='s'><v>0</v></c></row><row><c><v>1</v></c></row></sheetData>")]⟩

/-- The same parts in the opposite order, with capitals in all names. -/
def loudBook : Archive :=
  ⟨quietBook.parts.reverse.map fun part => (String.ofList (part.1.toList.map Char.toUpper), part.2)⟩

theorem respells_loudBook : quietBook.Respells loudBook where
  distinct := by decide +kernel
  parts := ⟨quietBook.parts.reverse, List.reverse_perm _, by decide +kernel⟩

/-- A workbench at the one workbook. -/
def quietBench : Workbench := .start "book.xlsx" .standard (.archive quietBook)

/-- A schema is made and its table scanned; then the place holds the other workbook instead, and a
schema is made of that. -/
def quietCommands : List Command :=
  [.createSchema "book", .query ⟨"Data", none, none⟩, .replace (.archive loudBook),
    .createSchema "book", .tableNames]

/-- The same, the other way round. -/
def loudCommands : List Command :=
  [.createSchema "book", .query ⟨"Data", none, none⟩, .replace (.archive quietBook),
    .createSchema "book", .tableNames]

theorem answers_of_respells_loudBook :
    quietBench.found.Respells (.archive loudBook) ∧
      List.Forall₂ Command.Respells quietCommands loudCommands ∧
      (quietBench.runAll quietCommands).2.reader.tableNames = ["Data"] ∧
      ((quietBench.holding (.archive loudBook)).runAll loudCommands).1.map Prod.snd =
        (quietBench.runAll quietCommands).1.map Prod.snd ∧
      ((quietBench.holding (.archive loudBook)).runAll loudCommands).2.reader =
        (quietBench.runAll quietCommands).2.reader ∧
      ∀ answers, (∃ w', quietBench.Session (quietCommands.zip answers) w') ↔
        ∃ w', (quietBench.holding (.archive loudBook)).Session (loudCommands.zip answers) w' := by
  have hfound : quietBench.found.Respells (.archive loudBook) := .archive respells_loudBook
  have hcommands : List.Forall₂ Command.Respells quietCommands loudCommands :=
    .cons (.same _) (.cons (.same _) (.cons (.replace (.archive respells_loudBook.symm))
      (.cons (.same _) (.cons (.same _) .nil))))
  have hnames : (quietBench.runAll quietCommands).2.reader.tableNames = ["Data"] := by
    decide +kernel
  exact ⟨hfound, hcommands, hnames, answers_of_respells hfound hcommands⟩

end Workbench

end WorkbookTables
