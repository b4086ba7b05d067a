import WorkbookTables.Scan.Dataset
import WorkbookTables.Table.Discovery

/-!
# Readers of workbooks

A reader belongs to one place where a workbook is kept, and knows the ids of the sheets it has
seen there. Every operation looks at the place afresh, so what it finds there is an argument here:
the same reader may see another workbook the next time. What is remembered between operations is
the map of ids and the log of naming, and nothing else.

A schema replaces the map of ids by the sheets of its workbook as soon as they are known, whether
the columns of every table can be found out or not. A refresh of the map keeps the sheets that have
disappeared. A scan takes the id of its table from the map, so a table that no schema and no
refresh has seen is unknown, whatever the place holds.

A scan opens its container once and reads it through to the end, however long that takes. So the
rows of a scan are those of the container that was found when it began. The assumption behind this
is that no container is written to while it is read: the place may come to hold another one, or
none, of which an open scan takes no notice.

## Main definitions

* `Reader`, `Reader.new` — what is remembered
* `Reader.createSchema`, `Reader.refresh`, `Reader.query` — the three operations
-/

namespace WorkbookTables

/-- A reader of workbooks. -/
structure Reader where
  /-- The name of the place in messages. -/
  place : String
  /-- What the caller has chosen. -/
  settings : Settings
  /-- The ids of the sheets by name. -/
  ids : IdMap
  /-- What has happened in naming. -/
  log : NamingLog

namespace Reader

/-- A reader that has seen nothing. -/
def new (place : String) (settings : Settings) : Reader :=
  ⟨place, settings, .empty, []⟩

/-- Opens what is found at the place. -/
def openPackage (r : Reader) (found : Container) : Except Error Package :=
  (Package.ofContainer r.place found).mapError (Error.within r.place)

/-- Opens what is found and reads the list of sheets. Sheets enter the map of ids as they are
read. -/
def readCatalog (r : Reader) (found : Container) :
    Reader × Except Error (Package × List Manifest.Entry) :=
  match r.openPackage found with
  | .error e => (r, .error e)
  | .ok p =>
    match p.readCatalog r.ids with
    | (ids, .error e) => ({ r with ids }, .error (e.within p.name))
    | (ids, .ok entries) => ({ r with ids }, .ok (p, entries))

/-- The tables of sheets one after another, up to the first whose columns cannot be found out. -/
def discoverTables (settings : Settings) (log : NamingLog) (p : Package) :
    List Manifest.Entry → NamingLog × Except SheetFailure (List Table)
  | [] => (log, .ok [])
  | entry :: rest =>
    match discoverColumns settings entry.name log p entry.internalId with
    | (_, log, .error failure) => (log, .error (failure.within (tableContext entry.name)))
    | (p, log, .ok columns) =>
      let (log, tables) := discoverTables settings log p rest
      (log, tables.map (⟨entry.name, columns, entry.internalId⟩ :: ·))

/-- The schema of the workbook that is found. -/
def createSchema (r : Reader) (found : Container) (name : String) :
    Reader × Except SheetFailure Schema :=
  match r.readCatalog found with
  | (r, .error e) => (r, .error (.error e))
  | (r, .ok (p, entries)) =>
    let ids := r.ids.retain fun name => entries.any (·.name == name)
    let (log, tables) := discoverTables r.settings r.log p entries
    ({ r with ids, log }, tables.map (⟨name, ·⟩))

/-- Reads the list of sheets again. -/
def refresh (r : Reader) (found : Container) : Reader × Except Error Unit :=
  match r.readCatalog found with
  | (r, .error e) => (r, .error e)
  | (r, .ok _) => (r, .ok ())

/-- The scan that is wanted of a table. -/
def scanOf (r : Reader) (table : Table) (columns : List Column) (maxRows : Option Nat) : Scan :=
  { table := table.name
    positions := (columns.filter (·.queryable)).map (·.ordinal)
    headerRow := r.settings.headerRow
    maxRows }

/-- Begins a scan of a table with the cells of some columns, up to a number of rows. The scan keeps
the container that is found now, and nobody writes to it while the scan is open. -/
def query (r : Reader) (found : Container) (table : Table) (columns : List Column)
    (maxRows : Option Nat) : Except Error Dataset :=
  match r.ids.get? table.name with
  | none => .error (.unknownTable table.name)
  | some id =>
    match r.openPackage found with
    | .error e => .error e
    | .ok p =>
      if p.contains id then
        .ok (.start (r.scanOf table columns maxRows) (.ofPackage p id r.settings.skipBlankRows))
      else .error (.unknownRelationship p.name id)

/-- The names of the tables that are known, in ascending order. -/
def tableNames (r : Reader) : List String := r.ids.names

/-- The id of the sheet behind a table. -/
def internalId? (r : Reader) (name : String) : Option String := r.ids.get? name

end Reader

end WorkbookTables
