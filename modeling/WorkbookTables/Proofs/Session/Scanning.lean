import WorkbookTables.Proofs.Session.Schema
import WorkbookTables.Proofs.Table.Noting

/-!
# Tables that have been discovered can be scanned

A scan finds its worksheet by the name of its table, through the map of ids and in a package of its
own; a schema finds it by the list of sheets, in a package that it shares among all tables. As long
as the place holds the same workbook, both come upon the same worksheet with the same context, and
whatever a session does in between, the map keeps the id.

So what the probe of a table has seen, a scan will send: the rows that were sampled are among the
rows of a scan without a cap, in front of any failure. A sheet that the probe has read to its end
gives no failure to any scan, and is complete for a scan without a cap.

## Main definitions

* `Workbench.Holds` — a workbench at whose place a package is found, and which knows its sheets
* `Dataset.Foretold` — a dataset gives what the probe of its sheet has told

## Main results

* `Workbench.Holds.run`, `Workbench.Holds.after` — no command but a replacement changes that
* `Reader.foretold_start` — a scan gives what a probe has told of its sheet
* `Workbench.scan_discovered` — tables that have been discovered can be scanned
-/

namespace WorkbookTables

/-! ### Sessions in which nothing is replaced -/

namespace Workbench

variable {w : Workbench} {p : Package}

/-- A workbench at whose place a package is found, whose list of sheets is complete, and which knows
the sheets of the package. -/
structure Holds (w : Workbench) (settings : Settings) (p : Package) : Prop where
  /-- The package is found. -/
  opened : w.reader.openPackage w.found = .ok p
  /-- All its sheets are listed. -/
  listing : w.reader.listing w.found = .complete p
  /-- The choices of the caller are these. -/
  settings : w.reader.settings = settings
  /-- The sheets are known. -/
  ids : ∀ e ∈ p.sheets, w.reader.ids.get? e.name = some e.internalId

/-- A command changes nothing of a reader but its map and its log. -/
theorem exists_readerAfter_eq (r : Reader) (found : Container) (c : Command) :
    ∃ ids log, readerAfter r found c = { r with ids, log } := by
  cases c with
  | createSchema name =>
    rw [readerAfter, Reader.createSchema_eq]
    cases r.listing found <;> exact ⟨_, _, rfl⟩
  | refresh =>
    rw [readerAfter, Reader.refresh_eq]
    exact ⟨_, _, rfl⟩
  | _ => exact ⟨r.ids, r.log, rfl⟩

/-- **No command but a replacement changes what is held.** -/
theorem Holds.run {settings : Settings} (h : w.Holds settings p) {c : Command}
    (hc : ∀ found, c ≠ .replace found) : (w.run c).1.Holds settings p := by
  obtain ⟨hreader, hfound⟩ := w.run_eq c
  obtain ⟨ids, log, hsame⟩ := exists_readerAfter_eq w.reader w.found c
  have hkept : foundAfter w.found c = w.found := by
    cases c with
    | replace found => exact absurd rfl (hc found)
    | _ => rfl
  rw [hsame] at hreader
  rw [hkept] at hfound
  refine ⟨?_, ?_, ?_, ?_⟩
  · rw [hfound, hreader]
    exact h.opened
  · rw [hfound, hreader]
    exact h.listing
  · rw [hreader]
    exact h.settings
  · intro e he
    rw [get?_run, h.listing]
    have hid := Package.idOf?_of_mem_sheets he
    cases c with
    | createSchema name => exact hid
    | refresh =>
      show (Manifest.idOf? p.sheets e.name).or _ = _
      rw [hid]
      rfl
    | _ => exact h.ids e he

theorem Holds.after {settings : Settings} (h : w.Holds settings p) {commands : List Command}
    (hkept : ∀ c ∈ commands, ∀ found, c ≠ .replace found) :
    (w.after commands).Holds settings p := by
  induction commands generalizing w with
  | nil => exact h
  | cons c rest ih =>
    exact ih (h.run (hkept c List.mem_cons_self)) fun c' hc' =>
      hkept c' (List.mem_cons_of_mem _ hc')

/-- **The table of a sheet can be scanned**, whatever else is said of the table. -/
theorem Holds.query_eq {settings : Settings} (h : w.Holds settings p) {entry : Manifest.Entry}
    (hentry : entry ∈ p.sheets) {t : Table} (ht : t.name = entry.name) (columns : List Column)
    (maxRows : Option Nat) :
    w.reader.query w.found t columns maxRows =
      .ok (.start (w.reader.scanOf t columns maxRows)
        (.ofPackage p entry.internalId settings.skipBlankRows)) := by
  have hid := h.ids entry hentry
  have hcontains : p.contains entry.internalId = true := Package.contains_of_mem_sheets hentry
  simp only [Reader.query, ht, hid, h.opened, if_pos hcontains, h.settings]

/-- **The making of a schema leaves a workbench that knows the sheets** of a complete list, also if
a table is in the way of the schema. -/
theorem holds_run_createSchema (h : w.reader.listing w.found = .complete p) (name : String) :
    (w.run (.createSchema name)).1.Holds w.reader.settings p := by
  obtain ⟨hreader, hfound⟩ := w.run_eq (.createSchema name)
  obtain ⟨ids, log, hsame⟩ := exists_readerAfter_eq w.reader w.found (.createSchema name)
  rw [hsame] at hreader
  refine ⟨?_, ?_, ?_, ?_⟩
  · rw [hfound, hreader]
    exact Reader.openPackage_of_complete h
  · rw [hfound, hreader]
    exact h
  · rw [hreader]
  · intro e he
    rw [get?_run, h]
    exact Package.idOf?_of_mem_sheets he

/-- A schema that has been made leaves a workbench that knows its sheets. -/
theorem holds_of_createSchema {w₁ : Workbench} {name : String} {schema : Schema}
    (h : w.run (.createSchema name) = (w₁, .schema schema)) :
    ∃ p, w₁.Holds w.reader.settings p ∧ w.reader.openPackage w.found = .ok p ∧
      schema.tables.map Table.entry = p.sheets ∧
      ∀ t ∈ schema.tables, ∃ log,
        (discoverColumns w.reader.settings t.name log p t.internalId).2.2 = .ok t.columns := by
  have hanswer := w.snd_run_createSchema name
  rw [h] at hanswer
  split at hanswer
  next schema' hschema =>
    cases hanswer
    obtain ⟨p, hopen, hlisting, -, htables, hcolumns⟩ :=
      Reader.exists_package_of_createSchema (Prod.ext rfl hschema)
    have hholds := holds_run_createSchema hlisting name
    rw [h] at hholds
    exact ⟨p, hholds, hopen, htables, hcolumns⟩
  next => cases hanswer

end Workbench

/-! ### Scans of what has been probed -/

/-- A dataset gives what the probe of its sheet has told beforehand: `sampled` are the rows that the
probe has sampled, and `ending` is how it ended. -/
structure Dataset.Foretold (d : Dataset) (columns : List Column) (maxRows : Option Nat)
    (sampled : List Row) (ending : Ending) : Prop where
  /-- A drain goes through the scan to its end. -/
  drains : ∃ h, d.History h d.drain.2 ∧ Dataset.Exhausts h ∧
    d.drain.1 = .ofItems (Dataset.itemsOf h)
  /-- Without a cap, whoever goes through the scan gets the sampled rows before any failure. -/
  sampled : maxRows = none → ∀ h d', d.History h d' → Dataset.Exhausts h →
    ∃ rows failure, Dataset.itemsOf h = Dataset.itemsOfRows rows failure ∧
      sampled.length ≤ rows.length ∧
      ∃ got, List.Sublist got rows ∧ List.Forall₂ (Row.Selects columns) sampled got
  /-- If the probe has come to the end, nobody ever gets a failure. -/
  unfailing : ending = .complete → ∀ h d', d.History h d' →
    ∀ item ∈ Dataset.itemsOf h, ∃ row, item = .ok row
  /-- Without a cap the scan is complete then. -/
  complete : ending = .complete → maxRows = none → ∀ h d', d.History h d' → Dataset.Exhausts h →
    d'.outcome = some .complete

namespace Reader

variable (r : Reader) (table : Table) (columns : List Column) (p : Package) (id : String)

/-- Without a cap all rows below the header are sent, whatever comes behind them. -/
theorem exists_items_uncapped :
    let feed := Feed.ofPackage p id r.settings.skipBlankRows
    ∃ failure, (r.scanOf table columns none).items feed = Dataset.itemsOfRows
      (selected columns (rowsBelow r.settings.headerRow feed.rows)) failure := by
  intro feed
  have hstream : (r.scanOf table columns none).stream feed = _ := Scan.stream_of_uncapped nofun
  obtain ⟨failure, hfailure⟩ : ∃ failure : Option Error,
      Message.items table.name ((r.scanOf table columns none).report feed.ending) =
        failure.toList.map .error := by
    cases feed.ending with
    | ok ending => exact ⟨none, rfl⟩
    | error failure =>
      cases failure with
      | error e => exact ⟨some (e.within (tableContext table.name)), rfl⟩
      | outsideRow => exact ⟨some (.publisher table.name), rfl⟩
  refine ⟨failure, ?_⟩
  rw [Scan.items, hstream]
  exact items_rowMessage r table columns none _ hfailure

/-- A sheet that can be read to its end gives no failure. -/
theorem exists_items_of_complete (maxRows : Option Nat)
    (h : (Feed.ofPackage p id r.settings.skipBlankRows).ending = .ok .complete) :
    let feed := Feed.ofPackage p id r.settings.skipBlankRows
    let scan := r.scanOf table columns maxRows
    (∃ rows, scan.items feed = Dataset.itemsOfRows rows none) ∧
      (maxRows = none → scan.ending? feed = some .complete) := by
  intro feed scan
  have hyields := yields_scanOf r table columns maxRows p id
  cases maxRows with
  | none =>
    obtain ⟨rows, hitems, -, hending⟩ := hyields.complete nofun .complete h
    exact ⟨⟨rows, hitems⟩, fun _ => hending⟩
  | some cap =>
    refine ⟨?_, nofun⟩
    by_cases hle : cap ≤ (rowsBelow r.settings.headerRow feed.rows).length
    · obtain ⟨rows, hitems, -, -⟩ := hyields.capped cap rfl hle
      exact ⟨rows, hitems⟩
    · obtain ⟨rows, hitems, -, -⟩ := hyields.complete (by simpa using hle) .complete h
      exact ⟨rows, hitems⟩

variable {p id}

/-- **A scan gives what a probe has told of its sheet.** -/
theorem foretold_start (maxRows : Option Nat) {context : SheetContext} {document : Markup.Document}
    {name : String} {probe : Option Probe} {ending : Ending}
    (hsheet : (p.worksheet id).2 = .ok (document, context))
    (hrun : Probe.run r.settings name context document = (probe, .ok ending)) :
    (Dataset.start (r.scanOf table columns maxRows)
      (Feed.ofPackage p id r.settings.skipBlankRows)).Foretold columns maxRows
      (Probe.sampledRows r.settings name context document) ending := by
  let feed := Feed.ofPackage p id r.settings.skipBlankRows
  let scan := r.scanOf table columns maxRows
  refine ⟨Dataset.drains_start scan feed, ?_, ?_, ?_⟩
  · rintro rfl h d' hh hend
    obtain ⟨hgiven, -⟩ := hh.given_of_exhausts hend
    obtain ⟨failure, hitems⟩ := exists_items_uncapped r table columns p id
    have hsampled := Probe.sampledRows_sublist r.settings name hsheet
    have hgot : List.Sublist (selected columns (Probe.sampledRows r.settings name context document))
        (selected columns (rowsBelow r.settings.headerRow feed.rows)) := hsampled.map _
    refine ⟨_, failure, hgiven.trans hitems, ?_, _, hgot, selects_selected _ _⟩
    rw [selected, List.length_map]
    exact hsampled.length_le
  · rintro rfl h d' hh item hitem
    obtain ⟨⟨rows, hitems⟩, -⟩ := exists_items_of_complete r table columns p id maxRows
      (Probe.complete_of_run hsheet hrun)
    have hmem : item ∈ Dataset.itemsOfRows rows none := hitems ▸ hh.items_isPrefix.subset hitem
    obtain ⟨row, -, rfl⟩ : ∃ row ∈ rows, .ok row = item := by
      simpa [Dataset.itemsOfRows] using hmem
    exact ⟨row, rfl⟩
  · rintro rfl rfl h d' hh hend
    obtain ⟨-, hcomplete⟩ := exists_items_of_complete r table columns p id none
      (Probe.complete_of_run hsheet hrun)
    exact (hh.given_of_exhausts hend).2.trans (hcomplete rfl)

end Reader

namespace Workbench

/-- **Tables that have been discovered can be scanned**, as long as the place is not replaced. The
probe has told what their scans give: at least the rows that it has spent its budget on. -/
theorem scan_discovered {w w₁ : Workbench} {name : String} {schema : Schema}
    {commands : List Command} {t : Table}
    (hschema : w.run (.createSchema name) = (w₁, .schema schema))
    (hkept : ∀ c ∈ commands, ∀ found, c ≠ .replace found) (ht : t ∈ schema.tables) :
    ∃ p document context probe ending, w.reader.openPackage w.found = .ok p ∧
      (p.worksheet t.internalId).2 = .ok (document, context) ∧
      Probe.run w.reader.settings t.name context document = (probe, .ok ending) ∧
      (Probe.sampledRows w.reader.settings t.name context document).length +
        Probe.budget w.reader.settings probe = w.reader.settings.eagerness ∧
      ∀ columns maxRows, ∃ d,
        (w₁.after commands).reader.query (w₁.after commands).found t columns maxRows = .ok d ∧
        d.Foretold columns maxRows
          (Probe.sampledRows w.reader.settings t.name context document) ending := by
  obtain ⟨p, hholds, hopen, htables, hcolumns⟩ := holds_of_createSchema hschema
  obtain ⟨log, hfound⟩ := hcolumns t ht
  obtain ⟨document, context, probe, ending, hsheet, hrun, -⟩ :=
    exists_probe_of_discoverColumns hfound
  have hspent := Probe.length_sampledRows w.reader.settings t.name context document
  rw [hrun] at hspent
  refine ⟨p, document, context, probe, ending, hopen, hsheet, hrun, hspent, ?_⟩
  intro columns maxRows
  have hafter := hholds.after hkept
  have hentry : t.entry ∈ p.sheets := htables ▸ List.mem_map_of_mem ht
  have hid : (w₁.after commands).reader.ids.get? t.name = some t.internalId :=
    hafter.ids t.entry hentry
  have hcontains : p.contains t.internalId = true := Package.contains_of_mem_sheets hentry
  rw [← hafter.settings] at hrun ⊢
  refine ⟨_, ?_, Reader.foretold_start _ t columns maxRows hsheet hrun⟩
  simp only [Reader.query, hid, hafter.opened, if_pos hcontains]

/-- A workbench at a workbook whose sheet is torn off below its first row of data, which is all that
is sampled of it. -/
def tornBookBench : Workbench :=
  .start "book.xlsx" (Settings.standard.withEagerness 1) <| .archive ⟨[
  ("xl/workbook.xml", Text.Utf8.encode
    "<workbook><sheets><sheet name='Data' r:id='rId1'/></sheets></workbook>"),
  ("xl/_rels/workbook.xml.rels", Text.Utf8.encode
    "<Relationships><Relationship Id='rId1' Target='sheet.xml'/></Relationships>"),
  ("xl/sheet.xml", Text.Utf8.encode
    "<sheetData><row><c t='str'><v>name</v></c></row><row><c><v>1</v></c></row><row>")]⟩

/-- The sheet is scanned after the list of sheets has been read again. -/
theorem scan_discovered_tornBook :
    ∃ w₁ schema t p document context probe ending,
      tornBookBench.run (.createSchema "book") = (w₁, .schema schema) ∧
      (∀ c ∈ [Command.refresh], ∀ found, c ≠ .replace found) ∧
      t ∈ schema.tables ∧ t.name = "Data" ∧
      tornBookBench.reader.openPackage tornBookBench.found = .ok p ∧
      (p.worksheet t.internalId).2 = .ok (document, context) ∧
      Probe.run tornBookBench.reader.settings t.name context document = (probe, .ok ending) ∧
      ∀ columns maxRows, ∃ d,
        (w₁.after [.refresh]).reader.query (w₁.after [.refresh]).found t columns maxRows = .ok d ∧
        d.Foretold columns maxRows
          (Probe.sampledRows tornBookBench.reader.settings t.name context document) ending := by
  have hbook : (match (tornBookBench.run (.createSchema "book")).2 with
      | .schema s => s.tableNames
      | _ => []) = ["Data"] := by
    decide +kernel
  split at hbook
  next schema hanswer =>
    have hkept : ∀ c ∈ [Command.refresh], ∀ found, c ≠ .replace found := by simp
    have hschema : tornBookBench.run (.createSchema "book") =
        ((tornBookBench.run (.createSchema "book")).1, .schema schema) := by
      rw [← hanswer]
    obtain ⟨t, ht, hname⟩ : ∃ t ∈ schema.tables, t.name = "Data" := by
      have hmem : "Data" ∈ schema.tableNames := hbook ▸ List.mem_singleton_self _
      exact List.mem_map.1 hmem
    obtain ⟨p, document, context, probe, ending, hopen, hsheet, hrun, -, hscans⟩ :=
      scan_discovered hschema hkept ht
    exact ⟨_, schema, t, p, document, context, probe, ending, hschema, hkept, ht, hname, hopen,
      hsheet, hrun, hscans⟩
  next => cases hbook

end Workbench

end WorkbookTables
