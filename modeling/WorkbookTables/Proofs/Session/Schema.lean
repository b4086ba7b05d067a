import WorkbookTables.Proofs.Session.Recollection
import WorkbookTables.Proofs.Table.Columns

/-!
# What a schema is made of

A schema has a table for each sheet of the manifest that has a worksheet, and its tables and their
columns are found by their names, because no name comes twice. Each table is what its sheet alone
makes of it: as if the package had been opened for this table only, and as if no other table had
been named before.

## Main definitions

* `Schema.IsMadeOf` — a schema is made of the sheets of a package

## Main results

* `Reader.tables_of_discoverTables` — the tables of sheets, one by one
* `Reader.createSchema_isMadeOf` — a schema that has been made
-/

namespace WorkbookTables

/-! ### Look-ups -/

/-- A table is found by its name, if no other has it. -/
theorem Schema.table?_of_mem {s : Schema} (h : s.tableNames.Nodup) {t : Table}
    (ht : t ∈ s.tables) : s.table? t.name = some t :=
  find?_of_nodup h ht

/-- A column is found by its name, if no other has it. -/
theorem Table.column?_of_mem {t : Table} (h : t.columnNames.Nodup) {c : Column}
    (hc : c ∈ t.columns) : t.column? c.name = some c :=
  find?_of_nodup h hc

/-! ### Schemas -/

/-- The sheet that a table is made of. -/
def Table.entry (t : Table) : Manifest.Entry := ⟨t.name, t.internalId⟩

/-- A schema is made of the sheets of a package. -/
structure Schema.IsMadeOf (settings : Settings) (p : Package) (s : Schema) : Prop where
  /-- There is a table for each sheet that has a worksheet, the first of each name, in the order of
  the manifest. -/
  tables : s.tables.map Table.entry = p.sheets
  /-- The tables have different names. -/
  names : s.tableNames.Nodup
  /-- The columns of a table are those of its sheet, whatever has been named before. -/
  columns : ∀ t ∈ s.tables, ∀ log,
    (discoverColumns settings t.name log p t.internalId).2.2 = .ok t.columns
  /-- They are well-formed. -/
  wellFormed : ∀ t ∈ s.tables, Probe.WellFormed settings
    (Feed.ofPackage p t.internalId settings.skipBlankRows).rows t.columns
  /-- A table is found by its name. -/
  table? : ∀ t ∈ s.tables, s.table? t.name = some t
  /-- A column of a table is found by its name. -/
  column? : ∀ t ∈ s.tables, ∀ c ∈ t.columns, t.column? c.name = some c

namespace Reader

variable {settings : Settings} {log log₁ : NamingLog} {p p' p₁ : Package}
  {entry : Manifest.Entry} {entries : List Manifest.Entry} {tables : List Table}

/-- No table is looked at behind one that fails. -/
theorem discoverTables_cons_of_error {failure : SheetFailure}
    (h : discoverColumns settings entry.name log p entry.internalId = (p₁, log₁, .error failure)) :
    discoverTables settings log p (entry :: entries) =
      (log₁, .error (failure.within (tableContext entry.name))) := by
  rw [discoverTables, h]

theorem discoverTables_cons_of_ok {columns : List Column}
    (h : discoverColumns settings entry.name log p entry.internalId = (p₁, log₁, .ok columns)) :
    discoverTables settings log p (entry :: entries) =
      ((discoverTables settings log₁ p₁ entries).1,
        (discoverTables settings log₁ p₁ entries).2.map
          (⟨entry.name, columns, entry.internalId⟩ :: ·)) := by
  rw [discoverTables, h]

/-- A table comes before others just if these have been made. -/
theorem exists_of_map_cons {result : Except SheetFailure (List Table)} {t : Table}
    (h : result.map (t :: ·) = .ok tables) : ∃ others, result = .ok others ∧
      tables = t :: others := by
  cases result with
  | error failure => cases h
  | ok others => exact ⟨others, rfl, (Except.ok.inj h).symm⟩

/-- **The tables of sheets** have the columns that their sheets make in a fresh package. -/
theorem tables_of_discoverTables (hp' : p'.Resembles p)
    (h : (discoverTables settings log p' entries).2 = .ok tables) :
    tables.map Table.entry = entries ∧ ∀ t ∈ tables, ∃ log',
      (discoverColumns settings t.name log' p t.internalId).2.2 = .ok t.columns := by
  induction entries generalizing log p' tables with
  | nil =>
    obtain rfl := Except.ok.inj h
    exact ⟨rfl, nofun⟩
  | cons entry rest ih =>
    obtain ⟨hused, hcolumns⟩ := hp'.discoverColumns settings entry.name log entry.internalId
    rcases hfound : discoverColumns settings entry.name log p' entry.internalId with
      ⟨p₁, log₁, failure | columns⟩
    · rw [discoverTables_cons_of_error hfound] at h
      cases h
    · rw [discoverTables_cons_of_ok hfound] at h
      rw [hfound] at hused hcolumns
      obtain ⟨others, hothers, rfl⟩ := exists_of_map_cons h
      obtain ⟨hentries, htables⟩ := ih hused hothers
      refine ⟨?_, List.forall_mem_cons.2 ⟨⟨log, congrArg Prod.snd hcolumns.symm⟩, htables⟩⟩
      rw [List.map_cons, hentries]
      rfl

variable {r r' : Reader} {found : Container} {name : String} {schema : Schema}

/-- A schema that has been made has the tables of the sheets of a package. -/
theorem exists_package_of_createSchema (h : r.createSchema found name = (r', .ok schema)) :
    ∃ p, r.openPackage found = .ok p ∧ r.listing found = .complete p ∧ schema.name = name ∧
      schema.tables.map Table.entry = p.sheets ∧
      ∀ t ∈ schema.tables, ∃ log,
        (discoverColumns r.settings t.name log p t.internalId).2.2 = .ok t.columns := by
  rw [createSchema_eq] at h
  cases hlisting : r.listing found with
  | complete p =>
    rw [hlisting] at h
    refine ⟨p, openPackage_of_complete hlisting, rfl, ?_⟩
    cases hdiscover : discoverTables r.settings r.log p p.sheets with
    | mk log result =>
      simp only [hdiscover] at h
      cases result with
      | error failure => cases h
      | ok tables =>
        cases h
        exact ⟨rfl, tables_of_discoverTables (.refl p) (congrArg Prod.snd hdiscover)⟩
  | _ =>
    rw [hlisting] at h
    cases h

/-- **A schema that has been made** under a built-in strategy is made of the sheets of the package
that is found. -/
theorem createSchema_isMadeOf (hnaming : r.settings.naming.IsBuiltIn)
    (h : r.createSchema found name = (r', .ok schema)) :
    schema.name = name ∧ ∃ p, r.openPackage found = .ok p ∧ schema.IsMadeOf r.settings p := by
  obtain ⟨p, hopen, -, hname, htables, hcolumns⟩ := exists_package_of_createSchema h
  have hnames : schema.tableNames.Nodup := by
    have hentries := p.nodup_sheets
    rw [← htables, List.map_map] at hentries
    exact hentries
  have hwell (t : Table) (ht : t ∈ schema.tables) : Probe.WellFormed r.settings
      (Feed.ofPackage p t.internalId r.settings.skipBlankRows).rows t.columns := by
    obtain ⟨log, hfound⟩ := hcolumns t ht
    exact wellFormed_of_discoverColumns hnaming hfound
  refine ⟨hname, p, hopen, htables, hnames, ?_, hwell, ?_, ?_⟩
  · intro t ht log
    obtain ⟨log', hfound⟩ := hcolumns t ht
    rw [discoverColumns_congr hnaming t.name log' log, hfound]
  · intro t ht
    exact Schema.table?_of_mem hnames ht
  · intro t ht c hc
    exact Table.column?_of_mem (hwell t ht).names hc

/-- A workbook that lists a sheet twice and one that has no worksheet, and whose headers collide
with the names that are made from them. -/
def crowdedBook : Container := .archive ⟨[
  ("xl/workbook.xml", Text.Utf8.encode <|
    "<workbook><sheets><sheet name='Data' r:id='rId1'/><sheet name='Chart' r:id='rId3'/>" ++
      "<sheet name='Data' r:id='rId2'/><sheet name='More' r:id='rId2'/></sheets></workbook>"),
  ("xl/_rels/workbook.xml.rels", Text.Utf8.encode <|
    "<Relationships><Relationship Id='rId1' Target='one.xml'/>" ++
      "<Relationship Id='rId2' Target='two.xml'/></Relationships>"),
  ("xl/one.xml", Text.Utf8.encode <|
    "<sheetData><row><c t='str'><v>a</v></c><c t='str'><v> </v></c><c t='str'><v>a_3</v></c>" ++
      "<c t='str'><v> a </v></c></row><row><c><v>1</v></c></row></sheetData>"),
  ("xl/two.xml", Text.Utf8.encode "<sheetData><row><c t='str'><v>a</v></c></row></sheetData>")]⟩

/-- A reader that leaves out columns without header. -/
def crowdedBookReader : Reader :=
  .new "book.xlsx" { Settings.standard with skipBlankColumns := true }

/-- The second sheet of a name is passed over, and so is a blank header; the second column of a name
is given a number that is free. -/
theorem createSchema_isMadeOf_crowdedBook :
    ∃ r' schema p, crowdedBookReader.settings.naming.IsBuiltIn ∧
      crowdedBookReader.createSchema crowdedBook "book" = (r', .ok schema) ∧
      schema.tables.map (fun t => (t.name, t.columnNames)) =
        [("Data", ["a", "a_3", "a_3_2"]), ("More", ["a"])] ∧
      crowdedBookReader.openPackage crowdedBook = .ok p ∧
      schema.IsMadeOf crowdedBookReader.settings p := by
  have hbook : (crowdedBookReader.createSchema crowdedBook "book").2.toOption.map
      (fun s => s.tables.map fun t => (t.name, t.columnNames)) =
        some [("Data", ["a", "a_3", "a_3_2"]), ("More", ["a"])] := by
    decide +kernel
  cases hschema : crowdedBookReader.createSchema crowdedBook "book" with
  | mk r' result =>
    rw [hschema] at hbook
    cases result with
    | error failure => cases hbook
    | ok schema =>
      have hnaming : crowdedBookReader.settings.naming.IsBuiltIn := trivial
      obtain ⟨-, p, hopen, hmade⟩ := createSchema_isMadeOf hnaming hschema
      exact ⟨r', schema, p, hnaming, rfl, Option.some.inj hbook, hopen, hmade⟩

end Reader

end WorkbookTables
