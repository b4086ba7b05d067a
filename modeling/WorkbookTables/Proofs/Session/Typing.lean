import WorkbookTables.Proofs.Session.Scanning
import WorkbookTables.Proofs.Table.Soundness

/-!
# The rows of a scan bear out the types of their columns

A type is found out from the first rows of data, and a scan that asks for all columns returns the
same rows first. So as far as both agree on what the rows of data are, a column that is not said to
hold texts holds what its type says in each of the first rows that a scan returns, as many as were
looked at.

They do not agree everywhere. A scan returns every row behind the one that defines the columns; for
the types a row behind it counts only if its number is greater. A row further down with another
number has never been looked at, and may hold anything. Without a header row even the sheets are
affected whose numbers merely go down somewhere.

## Main definitions

* `Row.BearsOut` — a row has what the types of columns say
* `Dataset.BearsOut` — the first rows that a dataset gives do

## Main results

* `Workbench.bearsOut_discovered` — scans of tables whose columns have been discovered
* `Workbench.not_bearsOut` — not every row among the first does
-/

namespace WorkbookTables

/-- Holds of a row with one cell for each column, in which each cell is admitted by the type of its
column unless that type is texts. -/
def Row.BearsOut (row : Row) (numeric : Bool) (columns : List Column) : Prop :=
  ∀ (i : Nat) (column : Column), columns[i]? = some column → column.type ≠ .string →
    column.type.Admits numeric (row.cell i)

/-- The first rows that a dataset gives bear out the types of its columns, as many as types are
found out from; `defining` is the row that defines the columns. -/
structure Dataset.BearsOut (d : Dataset) (settings : Settings) (columns : List Column)
    (defining : Row) : Prop where
  /-- A drain goes through the scan to its end. -/
  drains : ∃ h, d.History h d.drain.2 ∧ Dataset.Exhausts h ∧
    d.drain.1 = .ofItems (Dataset.itemsOf h)
  /-- Whoever goes through the scan gets rows, the first of which bear out the types if their
  numbers are greater than that of the defining row. If there is no header row, the very first one
  does in any case. -/
  rows : ∀ h d', d.History h d' → Dataset.Exhausts h →
    ∃ rows failure, Dataset.itemsOf h = Dataset.itemsOfRows rows failure ∧
      ∀ row ∈ rows.take settings.eagerness,
        defining.number < row.number ∨ (settings.headerRow = none ∧ rows.head? = some row) →
        row.BearsOut settings.widenNumbers columns

/-! ### The columns of a sheet -/

section Columns

variable {settings : Settings} {table : String} {log : NamingLog} {p : Package} {id : String}
  {columns : List Column} {d : Row} {rest : List Row}

theorem isEmpty_of_mem_ofPackage {row : Row} (h : row ∈ (Feed.ofPackage p id true).rows) :
    row.isEmpty = false := by
  rw [Feed.ofPackage] at h
  split at h
  next => cases h
  next => exact RowReading.isEmpty_of_mem_allRows h

/-- Columns that have been discovered may be asked for, and have the types that the sampled rows of
their sheet make. -/
theorem types_of_discoverColumns
    (h : (discoverColumns settings table log p id).2.2 = .ok columns)
    (hd : (Feed.ofPackage p id settings.skipBlankRows).rows.dropWhile
      (Probe.isAboveHeader settings) = d :: rest) :
    ∀ column ∈ columns, column.queryable = true ∧
      column.type = Probe.sampledType settings d rest column.ordinal := by
  obtain ⟨document, context, probe, ending, hsheet, hrun, rfl⟩ := exists_probe_of_discoverColumns h
  have hprobe := congrArg Prod.fst ((Probe.run_eq_showAll settings table hsheet).symm.trans hrun)
  cases probe with
  | none => exact nofun
  | some probe =>
    intro column hmem
    obtain ⟨-, -, htypes⟩ := Probe.eq_of_showAll hd hprobe
    refine ⟨Probe.queryable_columns settings table log probe column hmem, ?_⟩
    rw [(Probe.columns_eq settings table log probe).2 column hmem, htypes]

/-- Without a row that defines them no columns are discovered. -/
theorem eq_nil_of_discoverColumns
    (h : (discoverColumns settings table log p id).2.2 = .ok columns)
    (hnone : (Feed.ofPackage p id settings.skipBlankRows).rows.dropWhile
      (Probe.isAboveHeader settings) = []) : columns = [] := by
  obtain ⟨document, context, probe, ending, hsheet, hrun, rfl⟩ := exists_probe_of_discoverColumns h
  have hprobe := congrArg Prod.fst ((Probe.run_eq_showAll settings table hsheet).symm.trans hrun)
  rw [Probe.showAll_observe, hnone] at hprobe
  obtain rfl : none = probe := hprobe
  rfl

/-- A sampled row bears out the types once it is reduced to the columns. -/
theorem bearsOut_project {row : Row} (hrow : row ∈ Probe.sampled settings d rest)
    (hcells : row.isEmpty = false)
    (hcolumns : ∀ column ∈ columns, column.queryable = true ∧
      column.type = Probe.sampledType settings d rest column.ordinal) :
    (row.project ((columns.filter (·.queryable)).map (·.ordinal))).BearsOut
      settings.widenNumbers columns := by
  intro i column hcolumn htype
  have hall : columns.filter (·.queryable) = columns :=
    List.filter_eq_self.2 fun column hmem => (hcolumns column hmem).1
  obtain ⟨-, hmade⟩ := hcolumns column (List.mem_of_getElem? hcolumn)
  have hcell := (Row.selects_project columns row).cell i column (hall.symm ▸ hcolumn)
  rw [Row.cell, hcell, Option.getD_some, hmade]
  rw [hmade] at htype
  exact Probe.admits_of_mem_sampled hrow hcells htype

end Columns

/-! ### Scans -/

namespace Reader

variable {log : NamingLog} {p : Package} {d : Row} {rest : List Row}

/-- **The rows of a scan bear out the types of the columns of their sheet.** -/
theorem bearsOut_start (r : Reader) (t : Table) (hblank : r.settings.skipBlankRows = true)
    (hcolumns : (discoverColumns r.settings t.name log p t.internalId).2.2 = .ok t.columns)
    (hd : (Feed.ofPackage p t.internalId r.settings.skipBlankRows).rows.dropWhile
      (Probe.isAboveHeader r.settings) = d :: rest) :
    (Dataset.start (r.scanOf t t.columns none)
      (Feed.ofPackage p t.internalId r.settings.skipBlankRows)).BearsOut
        r.settings t.columns d := by
  let feed := Feed.ofPackage p t.internalId r.settings.skipBlankRows
  have htypes := types_of_discoverColumns hcolumns hd
  have hbelow : rowsBelow r.settings.headerRow feed.rows = Probe.dataRows r.settings d rest := by
    rw [Probe.rowsBelow_eq, hd]
  have hbears (row : Row) (hrow : row ∈ Probe.sampled r.settings d rest) :
      (row.project ((t.columns.filter (·.queryable)).map (·.ordinal))).BearsOut
        r.settings.widenNumbers t.columns := by
    refine bearsOut_project hrow ?_ htypes
    have hmem : row ∈ feed.rows := by
      refine (List.dropWhile_sublist (Probe.isAboveHeader r.settings)).subset ?_
      rw [hd]
      exact Probe.mem_of_mem_sampled hrow
    simp only [feed, hblank] at hmem
    exact isEmpty_of_mem_ofPackage hmem
  refine ⟨Dataset.drains_start _ _, ?_⟩
  intro h d' hh hend
  obtain ⟨hgiven, -⟩ := hh.given_of_exhausts hend
  obtain ⟨failure, hitems⟩ := exists_items_uncapped r t t.columns p t.internalId
  refine ⟨_, failure, hgiven.trans hitems, ?_⟩
  rw [hbelow]
  intro row hrow hcounts
  rw [selected, ← List.map_take] at hrow
  obtain ⟨source, hsource, rfl⟩ := List.mem_map.1 hrow
  obtain hlt | ⟨hheader, hfirst⟩ := hcounts
  · exact hbears source (Probe.mem_sampled_of_lt hsource hlt)
  · -- Without a header row the defining row is the first that is returned.
    have hdata : Probe.dataRows r.settings d rest = d :: rest := by
      rw [Probe.dataRows, hheader]
      rfl
    rw [selected, hdata] at hfirst
    rw [← Option.some.inj hfirst]
    exact hbears d (Probe.mem_sampled_self hheader)

end Reader

namespace Workbench

/-- **The first rows of a scan bear out the types of the columns** that have been discovered, as
long as the place is not replaced. -/
theorem bearsOut_discovered {w w₁ : Workbench} {name : String} {schema : Schema}
    {commands : List Command} {t : Table} (hblank : w.reader.settings.skipBlankRows = true)
    (hschema : w.run (.createSchema name) = (w₁, .schema schema))
    (hkept : ∀ c ∈ commands, ∀ found, c ≠ .replace found) (ht : t ∈ schema.tables) :
    ∃ p d, w.reader.openPackage w.found = .ok p ∧
      (w₁.after commands).reader.query (w₁.after commands).found t t.columns none = .ok d ∧
      (t.columns = [] ∨ ∃ defining rest,
        (Feed.ofPackage p t.internalId w.reader.settings.skipBlankRows).rows.dropWhile
          (Probe.isAboveHeader w.reader.settings) = defining :: rest ∧
        d.BearsOut w.reader.settings t.columns defining) := by
  obtain ⟨p, hholds, hopen, htables, hcolumns⟩ := holds_of_createSchema hschema
  obtain ⟨log, hfound⟩ := hcolumns t ht
  have hafter := hholds.after hkept
  have hentry : t.entry ∈ p.sheets := htables ▸ List.mem_map_of_mem ht
  refine ⟨p, _, hopen, hafter.query_eq hentry rfl t.columns none, ?_⟩
  rw [← hafter.settings] at hblank hfound ⊢
  cases hrows : (Feed.ofPackage p t.internalId
      (w₁.after commands).reader.settings.skipBlankRows).rows.dropWhile
        (Probe.isAboveHeader (w₁.after commands).reader.settings) with
  | nil => exact .inl (eq_nil_of_discoverColumns hfound hrows)
  | cons defining rest =>
    exact .inr ⟨defining, rest, rfl, Reader.bearsOut_start _ t hblank hfound hrows⟩

/-- A workbench at a sheet without header row whose numbers go down once, at a row that holds a text
where all others hold numbers. -/
def unorderedBench : Workbench := .start "book.xlsx" (Settings.standard.withHeaderLine none) <|
  .archive ⟨[
    ("xl/workbook.xml", Text.Utf8.encode
      "<workbook><sheets><sheet name='Data' r:id='rId1'/></sheets></workbook>"),
    ("xl/_rels/workbook.xml.rels", Text.Utf8.encode
      "<Relationships><Relationship Id='rId1' Target='sheet.xml'/></Relationships>"),
    ("xl/sheet.xml", Text.Utf8.encode <|
      "<sheetData><row r='2'><c><v>1</v></c></row><row r='1'><c t='str'><v>x</v></c></row>" ++
        "<row r='3'><c><v>3</v></c></row></sheetData>")]⟩

/-- The tables of a schema, if the answer is one. -/
def answeredTables : Answer → List Table
  | .schema s => s.tables
  | _ => []

/-- The rows of a drain, if the answer is one. -/
def answeredRows : Answer → List Row
  | .drained items _ => items.rows
  | _ => []

theorem exists_schema_of_answeredTables {done : Workbench × Answer} {t : Table} {rest : List Table}
    (h : answeredTables done.2 = t :: rest) :
    ∃ schema, done = (done.1, .schema schema) ∧ t ∈ schema.tables := by
  obtain ⟨w, answer⟩ := done
  cases answer with
  | schema s =>
    refine ⟨s, rfl, ?_⟩
    rw [show s.tables = t :: rest from h]
    exact List.mem_cons_self
  | _ => cases h

theorem exists_drained_of_answeredRows {answer : Answer} {row : Row} {rest : List Row}
    (h : answeredRows answer = row :: rest) :
    ∃ items outcome, answer = .drained items outcome ∧ items.rows = row :: rest := by
  cases answer with
  | drained items outcome => exact ⟨items, outcome, rfl, h⟩
  | _ => cases h

/-- The only table, whose column is said to hold whole numbers. -/
def unorderedTable : Table := ⟨"Data", [⟨"column[0]", .integer, 0, true⟩], "rId1"⟩

/-- What is answered: the text comes second. -/
theorem answers_unorderedBench :
    answeredTables (unorderedBench.run (.createSchema "book")).2 = [unorderedTable] ∧
      answeredRows ((unorderedBench.run (.createSchema "book")).1.run
        (.query ⟨"Data", none, none⟩)).2 =
          [⟨1, #[⟨some "1", ⟨none, .number⟩⟩]⟩, ⟨0, #[⟨some "x", ⟨none, .formulaString⟩⟩]⟩,
            ⟨2, #[⟨some "3", ⟨none, .number⟩⟩]⟩] := by
  decide +kernel

/-- The table is scanned after the list of sheets has been read again. -/
theorem bearsOut_discovered_unorderedBench :
    ∃ w₁ schema p d, unorderedBench.reader.settings.skipBlankRows = true ∧
      unorderedBench.run (.createSchema "book") = (w₁, .schema schema) ∧
      (∀ c ∈ [Command.refresh], ∀ found, c ≠ .replace found) ∧ unorderedTable ∈ schema.tables ∧
      unorderedBench.reader.openPackage unorderedBench.found = .ok p ∧
      (w₁.after [.refresh]).reader.query (w₁.after [.refresh]).found unorderedTable
        unorderedTable.columns none = .ok d ∧
      ∃ defining rest, (Feed.ofPackage p unorderedTable.internalId true).rows.dropWhile
          (Probe.isAboveHeader unorderedBench.reader.settings) = defining :: rest ∧
        d.BearsOut unorderedBench.reader.settings unorderedTable.columns defining := by
  obtain ⟨schema, hschema, ht⟩ := exists_schema_of_answeredTables answers_unorderedBench.1
  have hkept : ∀ c ∈ [Command.refresh], ∀ found, c ≠ .replace found := by simp
  have hblank : unorderedBench.reader.settings.skipBlankRows = true := rfl
  obtain ⟨p, d, hopen, hquery, hempty | hbears⟩ := bearsOut_discovered hblank hschema hkept ht
  · cases hempty
  · exact ⟨_, schema, p, d, hblank, hschema, hkept, ht, hopen, hquery, hbears⟩

/-- **Not every row among the first bears out the types**: the row with the text is returned as the
second, and has not been looked at. -/
theorem not_bearsOut :
    ¬∀ (w w₁ : Workbench) (name : String) (schema : Schema) (t : Table)
      (items : Dataset.Drained) (outcome : Option Ending),
      w.reader.settings.detectTypes = true → w.reader.settings.skipBlankRows = true →
      w.run (.createSchema name) = (w₁, .schema schema) → t ∈ schema.tables →
      (w₁.run (.query ⟨t.name, none, none⟩)).2 = .drained items outcome →
      ∀ row ∈ items.rows.take w.reader.settings.eagerness,
        row.BearsOut w.reader.settings.widenNumbers t.columns := by
  intro hbears
  obtain ⟨schema, hschema, ht⟩ := exists_schema_of_answeredTables answers_unorderedBench.1
  obtain ⟨items, outcome, hquery, hitems⟩ :=
    exists_drained_of_answeredRows answers_unorderedBench.2
  have hsecond : ⟨0, #[⟨some "x", ⟨none, .formulaString⟩⟩]⟩ ∈
      items.rows.take unorderedBench.reader.settings.eagerness := by
    rw [hitems]
    exact List.mem_cons_of_mem _ List.mem_cons_self
  have hrow := hbears _ _ _ _ unorderedTable _ _ rfl rfl hschema ht hquery _ hsecond
  have hadmits := hrow 0 ⟨"column[0]", .integer, 0, true⟩ rfl (by decide)
  have hcovers : ColumnType.integer.Covers false .string := hadmits.2
  exact hcovers.ne_string (by decide) rfl

end Workbench

end WorkbookTables
