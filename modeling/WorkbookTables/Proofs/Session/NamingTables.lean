import WorkbookTables.Proofs.Session.Scanning
import WorkbookTables.Proofs.Table.SessionLog

/-!
# Naming the tables of a workbook

A schema names the columns of one table after another. A table gets a session of its own as soon as
the probe of its sheet has succeeded with a row that defines its columns, and not before: a probe
that fails, or that comes upon no such row, leaves the strategy alone. Columns that are left out are
not asked for. If a probe fails, the sessions of the tables before it have been closed already, and
no session starts any more.

So whatever a workbench has been through, successful or not, the log of naming is balanced. A
strategy of the caller may answer by the log, and then the names of a table depend on what was named
before. That is why the tables are told one after another here, each with the log that it found.

## Main definitions

* `definingRow?`, `namedTables` — the sheets whose columns are named, with the rows that define them
* `Table.answers` — the requests for the columns of a table, with the names given
* `NamesInTurn` — tables are named one after another
* `Workbench.NamesTables` — what a schema tells the strategy

## Main results

* `discoverColumns_eq` — what the columns of one table do to the log
* `Reader.namesInTurn_of_discoverTables` — the tables of sheets
* `Workbench.closesSessions_after` — a workbench after a session
-/

namespace WorkbookTables

/-- The row that defines the columns of a sheet, if there is one, unless the probe of the sheet
fails. -/
def definingRow? (settings : Settings) (p : Package) (entry : Manifest.Entry) :
    Except SheetFailure (Option Row) :=
  match (p.worksheet entry.internalId).2 with
  | .error e => .error (.error e)
  | .ok (d, context) =>
    (Probe.run settings entry.name context d).2.map fun _ =>
      ((RowReading.allRows context settings.skipBlankRows d).1.toList.dropWhile
        (Probe.isAboveHeader settings)).head?

/-- The sheets that have a row which defines their columns, up to the first whose probe fails. -/
def namedTables (settings : Settings) (p : Package) :
    List Manifest.Entry → List (Manifest.Entry × Row)
  | [] => []
  | entry :: rest =>
    match definingRow? settings p entry with
    | .error _ => []
    | .ok none => namedTables settings p rest
    | .ok (some d) => (entry, d) :: namedTables settings p rest

/-- The requests for the columns of a table, with the names given. A header is the text of the row
that defines the columns, if there is a header row. -/
def Table.answers (settings : Settings) (t : Table) (d : Row) : List (NameRequest × String) :=
  t.columns.map fun column =>
    (⟨t.name, if settings.headerRow.isSome then (d.cell column.ordinal).text else none,
      column.ordinal⟩, column.name)

/-- Tables are named one after another, each in a session of its own, in which its columns are asked
for at ascending positions. Beside each table stands the row that defines its columns. -/
inductive NamesInTurn (settings : Settings) (p : Package) :
    NamingLog → List (Table × Row) → NamingLog → Prop where
  /-- There are no tables. -/
  | nil (log : NamingLog) : NamesInTurn settings p log [] log
  /-- A table comes first. Its columns are those of its sheet, after what has been named before. -/
  | cons {log last : NamingLog} {t : Table} {d : Row} {tables : List (Table × Row)}
      (hcolumns : (discoverColumns settings t.name log p t.internalId).2.2 = .ok t.columns)
      (hascending : (t.columns.map (·.ordinal)).Pairwise (· < ·))
      (hrest : NamesInTurn settings p (log.afterSession (t.answers settings d)) tables last) :
      NamesInTurn settings p log ((t, d) :: tables) last

theorem NamesInTurn.balanced {settings : Settings} {p : Package} {log last : NamingLog}
    {tables : List (Table × Row)} (h : NamesInTurn settings p log tables last)
    (hlog : log.Balanced) : last.Balanced := by
  induction h with
  | nil => exact hlog
  | cons _ _ _ ih => exact ih (hlog.afterSession _)

/-! ### One table -/

/-- **What is asked for the columns of a probe**: every one of them, and no others. -/
theorem Probe.snd_columns (settings : Settings) (table : String) (log : NamingLog) (p : Probe) :
    (p.columns settings table log).2 =
      log.afterSession ((p.columns settings table log).1.map fun column =>
        (p.request settings table column.ordinal, column.name)) := by
  have hlength := p.length_names settings table log
  have hanswers : (p.columns settings table log).1.map (fun column =>
        (p.request settings table column.ordinal, column.name)) =
      ((p.ordinals settings).map (p.request settings table)).zip
        (nameColumns settings.naming log
          ((p.ordinals settings).map (p.request settings table))).1 := by
    refine List.ext_getElem ?_ ?_
    · simp [columns, hlength]
    · intro i _ _
      simp [columns]
  rw [hanswers]
  exact snd_nameColumns _ _ _

/-- The defining row of a probe is the first row that does not stand above the header. -/
theorem Probe.map_definingRow_showAll (settings : Settings) (ending : Except SheetFailure Ending)
    (rows : List Row) :
    ((RowReading.showAll (observe settings) ending none rows).1.map (·.definingRow)) =
      (rows.dropWhile (isAboveHeader settings)).head? := by
  cases hp : (RowReading.showAll (observe settings) ending none rows).1 with
  | none =>
    rw [dropWhile_eq_nil_of_showAll hp]
    rfl
  | some p =>
    cases hd : rows.dropWhile (isAboveHeader settings) with
    | nil =>
      rw [showAll_observe, hd] at hp
      cases hp
    | cons d rest =>
      obtain ⟨hdefines, -⟩ := eq_of_showAll hd hp
      exact congrArg some hdefines

section Discovery

variable {settings : Settings} {log : NamingLog} {p p' : Package} {entry : Manifest.Entry}

/-- The row that defines the columns of a sheet is that of its probe. -/
theorem definingRow?_eq {d : Markup.Document} {context : SheetContext}
    (h : (p.worksheet entry.internalId).2 = .ok (d, context)) :
    definingRow? settings p entry =
      (Probe.run settings entry.name context d).2.map fun _ =>
        (Probe.run settings entry.name context d).1.map (·.definingRow) := by
  have hrun : Probe.run settings entry.name context d = _ :=
    RowReading.deliver_eq context settings.skipBlankRows (Probe.observe settings) none d
  simp only [definingRow?, h]
  rw [hrun, Probe.map_definingRow_showAll]

/-- **What the columns of one table do to the log.** -/
theorem discoverColumns_eq (settings : Settings) (log : NamingLog) (p : Package)
    (entry : Manifest.Entry) :
    match definingRow? settings p entry with
    | .error failure =>
      (discoverColumns settings entry.name log p entry.internalId).2 = (log, .error failure)
    | .ok none => (discoverColumns settings entry.name log p entry.internalId).2 = (log, .ok [])
    | .ok (some d) => ∃ columns,
      (discoverColumns settings entry.name log p entry.internalId).2 =
        (log.afterSession (Table.answers settings ⟨entry.name, columns, entry.internalId⟩ d),
          .ok columns) ∧
      (columns.map (·.ordinal)).Pairwise (· < ·) := by
  rw [discoverColumns]
  cases hsheet : p.worksheet entry.internalId with
  | mk p' result =>
    cases result with
    | error e => simp [definingRow?, hsheet]
    | ok found =>
      obtain ⟨d, context⟩ := found
      rw [definingRow?_eq (congrArg Prod.snd hsheet)]
      rcases hrun : Probe.run settings entry.name context d with ⟨_ | probe, failure | ending⟩
      · simp [discoverIn, hrun, Except.map]
      · simp [discoverIn, hrun, Except.map]
      · simp [discoverIn, hrun, Except.map]
      · simp only [discoverIn, hrun, Except.map, Option.map_some]
        refine ⟨(probe.columns settings entry.name log).1, ?_, ?_⟩
        · rw [Probe.snd_columns]
          rfl
        · rw [(Probe.columns_eq settings entry.name log probe).1]
          exact Probe.pairwise_ordinals settings probe

/-! ### All tables -/

namespace Reader

/-- **The tables of sheets are named in turn**, up to the first whose probe fails. If there is none,
the tables that have not been named have no columns. -/
theorem namesInTurn_of_discoverTables (hp' : p'.Resembles p) (settings : Settings)
    (log : NamingLog) (entries : List Manifest.Entry) :
    ∃ named, named.map (fun t => (t.1.entry, t.2)) = namedTables settings p entries ∧
      NamesInTurn settings p log named (discoverTables settings log p' entries).1 ∧
      ∀ tables, (discoverTables settings log p' entries).2 = .ok tables →
        (named.map (·.1)).Sublist tables ∧
          ∀ t ∈ tables, t ∈ named.map (·.1) ∨ t.columns = [] := by
  induction entries generalizing log p' with
  | nil =>
    refine ⟨[], rfl, .nil log, fun tables h => ?_⟩
    obtain rfl := Except.ok.inj h
    exact ⟨.slnil, nofun⟩
  | cons entry rest ih =>
    obtain ⟨hused, hsame⟩ := hp'.discoverColumns settings entry.name log entry.internalId
    have hfound := discoverColumns_eq settings log p entry
    rw [← hsame] at hfound
    rcases hcolumns : discoverColumns settings entry.name log p' entry.internalId with ⟨p₁, after⟩
    rw [hcolumns] at hused hsame hfound
    rw [namedTables]
    cases hdefines : definingRow? settings p entry with
    | error failure =>
      rw [hdefines] at hfound
      obtain rfl : after = (log, .error failure) := hfound
      rw [discoverTables_cons_of_error hcolumns]
      exact ⟨[], rfl, .nil log, nofun⟩
    | ok definingRow =>
      rw [hdefines] at hfound
      cases definingRow with
      | none =>
        obtain rfl : after = (log, .ok []) := hfound
        obtain ⟨named, hnamed, hturn, hall⟩ := ih hused log
        rw [discoverTables_cons_of_ok hcolumns]
        refine ⟨named, hnamed, hturn, fun tables h => ?_⟩
        obtain ⟨others, hothers, rfl⟩ := exists_of_map_cons h
        obtain ⟨hsublist, hunnamed⟩ := hall others hothers
        exact ⟨hsublist.cons _, List.forall_mem_cons.2 ⟨.inr rfl, hunnamed⟩⟩
      | some d =>
        obtain ⟨columns, rfl, hascending⟩ := hfound
        let t : Table := ⟨entry.name, columns, entry.internalId⟩
        obtain ⟨named, hnamed, hturn, hall⟩ := ih hused (log.afterSession (t.answers settings d))
        rw [discoverTables_cons_of_ok hcolumns]
        refine ⟨(t, d) :: named, ?_, ?_, fun tables h => ?_⟩
        · rw [List.map_cons, hnamed]
          rfl
        · exact .cons (congrArg Prod.snd hsame.symm) hascending hturn
        · obtain ⟨others, hothers, rfl⟩ := exists_of_map_cons h
          obtain ⟨hsublist, hunnamed⟩ := hall others hothers
          refine ⟨hsublist.cons_cons t, List.forall_mem_cons.2 ⟨.inl List.mem_cons_self, ?_⟩⟩
          exact fun other hother => (hunnamed other hother).imp_left (List.mem_cons_of_mem t)

end Reader

end Discovery

/-! ### Sessions of a workbench -/

namespace Workbench

/-- **What a schema tells the strategy.** -/
structure NamesTables (w : Workbench) (name : String) : Prop where
  /-- If the list of sheets cannot be read to its end, no session starts. -/
  unread : ∀ e, (w.reader.listing w.found).failure? = some e →
    (w.run (.createSchema name)).1.reader.log = w.reader.log
  /-- Otherwise the sheets that have a row which defines their columns are named in turn, up to the
  first whose probe fails. In a schema that has been made, the other tables have no columns. -/
  inTurn : ∀ p, w.reader.listing w.found = .complete p →
    ∃ named, named.map (fun t => (t.1.entry, t.2)) = namedTables w.reader.settings p p.sheets ∧
      NamesInTurn w.reader.settings p w.reader.log named
        (w.run (.createSchema name)).1.reader.log ∧
      ∀ schema, (w.run (.createSchema name)).2 = .schema schema →
        (named.map (·.1)).Sublist schema.tables ∧
          ∀ t ∈ schema.tables, t ∈ named.map (·.1) ∨ t.columns = []

theorem namesTables (w : Workbench) (name : String) : w.NamesTables name := by
  have hreader : (w.run (.createSchema name)).1.reader =
      (w.reader.createSchema w.found name).1 :=
    (w.run_eq (.createSchema name)).1
  refine ⟨?_, ?_⟩
  · intro e hfailure
    rw [hreader, Reader.createSchema_eq]
    cases hlisting : w.reader.listing w.found with
    | complete p =>
      rw [hlisting] at hfailure
      cases hfailure
    | _ => rfl
  · intro p hlisting
    obtain ⟨named, hnamed, hturn, hall⟩ :=
      Reader.namesInTurn_of_discoverTables (.refl p) w.reader.settings w.reader.log p.sheets
    refine ⟨named, hnamed, ?_, ?_⟩
    · rw [hreader, Reader.createSchema_eq, hlisting]
      exact hturn
    · intro schema hschema
      rw [snd_run_createSchema, Reader.createSchema_eq, hlisting] at hschema
      cases htables : (Reader.discoverTables w.reader.settings w.reader.log p p.sheets).2 with
      | error failure =>
        simp only [htables] at hschema
        cases hschema
      | ok tables =>
        simp only [htables] at hschema
        cases hschema
        exact hall tables htables

/-- Only a schema tells the strategy anything. -/
theorem log_run (w : Workbench) {c : Command} (hc : ∀ name, c ≠ .createSchema name) :
    (w.run c).1.reader.log = w.reader.log := by
  rw [(w.run_eq c).1]
  cases c with
  | createSchema name => exact absurd rfl (hc name)
  | refresh =>
    rw [readerAfter, Reader.refresh_eq]
  | _ => rfl

/-- **A command keeps the log balanced.** -/
theorem balanced_run {w : Workbench} (h : w.reader.log.Balanced) (c : Command) :
    (w.run c).1.reader.log.Balanced := by
  by_cases hc : ∃ name, c = .createSchema name
  · obtain ⟨name, rfl⟩ := hc
    obtain ⟨hunread, hinTurn⟩ := w.namesTables name
    cases hlisting : w.reader.listing w.found with
    | complete p =>
      obtain ⟨named, -, hturn, -⟩ := hinTurn p hlisting
      exact hturn.balanced h
    | _ =>
      rw [hunread _ (congrArg Listing.failure? hlisting)]
      exact h
  · rw [log_run w fun name hname => hc ⟨name, hname⟩]
    exact h

theorem settings_run (w : Workbench) (c : Command) :
    (w.run c).1.reader.settings = w.reader.settings := by
  obtain ⟨ids, log, hsame⟩ := exists_readerAfter_eq w.reader w.found c
  rw [(w.run_eq c).1, hsame]

/-- A workbench closes the sessions that it starts. -/
structure ClosesSessions (w : Workbench) (settings : Settings) : Prop where
  /-- The choices of the caller are these. -/
  settings : w.reader.settings = settings
  /-- All sessions have been closed. -/
  balanced : w.reader.log.Balanced
  /-- A schema has the sessions of its tables. -/
  schema : ∀ name, w.NamesTables name
  /-- Other commands have none. -/
  other : ∀ c, (∀ name, c ≠ .createSchema name) → (w.run c).1.reader.log = w.reader.log
  /-- A session is told the same if its owner closes it and if its owner only lets it go. -/
  owner : ∀ closes log requests,
    SessionOwner.run closes w.reader.settings.naming log requests =
      nameColumns w.reader.settings.naming log requests

/-- **A command keeps sessions closed.** -/
theorem ClosesSessions.run {settings : Settings} {w : Workbench} (h : w.ClosesSessions settings)
    (c : Command) : (w.run c).1.ClosesSessions settings where
  settings := (w.settings_run c).trans h.settings
  balanced := balanced_run h.balanced c
  schema name := namesTables _ name
  other _ hc := log_run _ hc
  owner closes log requests := SessionOwner.run_eq closes _ log requests

/-- **A workbench after a session** has closed all sessions of its strategy, whatever the strategy
is and whether its schemas could be made or not. -/
theorem closesSessions_after (place : String) (settings : Settings) (found : Container)
    (commands : List Command) :
    ((start place settings found).after commands).ClosesSessions settings := by
  have hstart : (start place settings found).ClosesSessions settings :=
    ⟨rfl, NamingLog.balanced_nil, namesTables _, fun _ hc => log_run _ hc,
      fun closes log requests => SessionOwner.run_eq closes _ log requests⟩
  generalize start place settings found = w at hstart
  induction commands generalizing w with
  | nil => exact hstart
  | cons c rest ih => exact ih _ (hstart.run c)

/-- The caller numbers the columns. The second sheet is cut short, so there is a session for the
first alone, in which its blank column is not asked for. -/
example :
    let naming := NamingStrategy.caller fun log _ => toString log.length
    let found := Container.archive ⟨[
      ("xl/workbook.xml", Text.Utf8.encode <|
        "<workbook><sheets><sheet name='One' r:id='rId1'/><sheet name='Two' r:id='rId2'/>" ++
          "<sheet name='Three' r:id='rId1'/></sheets></workbook>"),
      ("xl/_rels/workbook.xml.rels", Text.Utf8.encode <|
        "<Relationships><Relationship Id='rId1' Target='one.xml'/>" ++
          "<Relationship Id='rId2' Target='two.xml'/></Relationships>"),
      ("xl/one.xml", Text.Utf8.encode <|
        "<sheetData><row><c t='str'><v>a</v></c><c/><c><v>7</v></c></row></sheetData>"),
      ("xl/two.xml", Text.Utf8.encode "<sheetData><row><c>")]⟩
    let w := start "book.xlsx" { Settings.standard with skipBlankColumns := true, naming } found
    (w.after [.createSchema "book", .tableNames]).reader.log =
      [.closed 0, .named 0 ⟨"One", some "7", 2⟩ "2", .named 0 ⟨"One", some "a", 0⟩ "1",
        .started 0] := by
  decide +kernel

end Workbench

end WorkbookTables
