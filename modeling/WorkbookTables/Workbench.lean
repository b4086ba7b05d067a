import WorkbookTables.Reader

/-!
# Working with a reader

A workbench is one reader at one place, together with the datasets that are open and the schema
that was made last. Commands are carried out one after another; each has an answer.

What the place holds may be replaced at any time, of which scans that are open already take no
notice. This takes for granted that a scan keeps the container that it was opened on: to replace it
is to put another file into the place, or to take the file away. To overwrite a file in place under
an open scan is something else, and not among the commands.

A command that names a table means the table of the last schema, or, if that has none of the name,
a table without columns, so that the reader decides whether it is known.

## Main definitions

* `Workbench` — the state
* `Command`, `Answer` — what is asked, and what is answered
* `Workbench.run` — a command
-/

namespace WorkbookTables

/-- A reader with what surrounds it. -/
structure Workbench where
  /-- The reader. -/
  reader : Reader
  /-- What its place holds now. -/
  found : Container
  /-- The schema that was made last. -/
  schema : Option Schema
  /-- The datasets that are open, by key. -/
  datasets : List (String × Dataset)

/-- A scan as a command asks for it. -/
structure ScanRequest where
  /-- The name of the table. -/
  table : String
  /-- The positions of the columns, and whether each may be asked for; none means all columns of
  the table. -/
  columns : Option (List (Nat × Bool))
  /-- How many rows are wanted at most, if there is a cap. -/
  maxRows : Option Nat
  deriving DecidableEq, Repr

/-- What is asked of an open dataset. -/
inductive DatasetCommand where
  /-- Whether there is another item. -/
  | hasNext
  /-- The next item. -/
  | next
  /-- Everything up to the end. -/
  | drain
  /-- To stop. -/
  | cancel
  /-- To end the scan. -/
  | close
  /-- How it stands. -/
  | status
  /-- To end the scan and forget the dataset. -/
  | drop
  deriving DecidableEq, Repr

/-- What is asked of a workbench. -/
inductive Command where
  /-- To make a schema. -/
  | createSchema (name : String)
  /-- To read the list of sheets again. -/
  | refresh
  /-- The names of the tables that are known. -/
  | tableNames
  /-- The id behind a table. -/
  | internalId (name : String)
  /-- A column of a table of the last schema. -/
  | lookUp (table column : String)
  /-- To replace what the place holds: by another file, or by none. The file itself is not written
  to, so scans that are open keep what they were opened on. -/
  | replace (found : Container)
  /-- To scan a table to its end. -/
  | query (request : ScanRequest)
  /-- To open a dataset. -/
  | open (key : String) (request : ScanRequest)
  /-- To do something with an open dataset. -/
  | dataset (key : String) (command : DatasetCommand)
  deriving DecidableEq, Repr

/-- What is answered. -/
inductive Answer where
  /-- A schema. -/
  | schema (s : Schema)
  /-- The list of sheets has been read. -/
  | refreshed
  /-- Names of tables. -/
  | names (names : List String)
  /-- The id behind a table, if it is known. -/
  | id (id : Option String)
  /-- The names of the columns of a table, and one of them. -/
  | columns (names : Option (List String)) (column : Option Column)
  /-- What the place holds has been replaced. -/
  | replaced
  /-- What has been pulled, and how the reading ended. -/
  | drained (items : Dataset.Drained) (outcome : Option Ending)
  /-- A dataset is open. -/
  | opened (table : String)
  /-- Whether there is another item. -/
  | hasNext (answer : Bool)
  /-- The next item, if there is one. -/
  | item (item : Option (Except Error Row))
  /-- Whether the publisher has been asked to stop. -/
  | cancelled (answer : Bool)
  /-- The scan has ended. -/
  | closed
  /-- How a dataset stands. -/
  | status (outcome : Option Ending) (cancelled : Bool)
  /-- The dataset has been forgotten. -/
  | dropped
  /-- No dataset of the key is open. -/
  | noDataset
  /-- The command has failed. -/
  | failed (failure : SheetFailure)

namespace Workbench

/-- A workbench with a reader that has seen nothing. -/
def start (place : String) (settings : Settings) (found : Container) : Workbench :=
  ⟨.new place settings, found, none, []⟩

/-- The dataset of a key. -/
def dataset? (w : Workbench) (key : String) : Option Dataset :=
  w.datasets.lookup key

/-- Forgets the dataset of a key. -/
def forget (w : Workbench) (key : String) : Workbench :=
  { w with datasets := w.datasets.filter (·.1 != key) }

/-- Keeps a dataset under a key, instead of the one that was there. -/
def keep (w : Workbench) (key : String) (d : Dataset) : Workbench :=
  { w with datasets := (key, d) :: (w.forget key).datasets }

/-- The table of a name. -/
def table (w : Workbench) (name : String) : Table :=
  ((w.schema.bind (·.table? name))).getD ⟨name, [], ""⟩

/-- The columns of a table that a request asks for. -/
def requestedColumns (table : Table) (request : ScanRequest) : List Column :=
  match request.columns with
  | none => table.columns
  | some columns => columns.map fun (ordinal, queryable) => ⟨"", .string, ordinal, queryable⟩

/-- Begins the scan that is asked for. -/
def scan (w : Workbench) (request : ScanRequest) : Except Error Dataset :=
  let table := w.table request.table
  w.reader.query w.found table (requestedColumns table request) request.maxRows

/-- Does something with a dataset, which is then kept. -/
def runDataset (w : Workbench) (key : String) (d : Dataset) : DatasetCommand → Workbench × Answer
  | .hasNext =>
    let (answer, d) := d.hasNext
    (w.keep key d, .hasNext answer)
  | .next =>
    let (item, d) := d.next
    (w.keep key d, .item item)
  | .drain =>
    let (items, d) := d.drain
    (w.keep key d, .drained items d.outcome)
  | .cancel => (w.keep key d.cancel, .cancelled d.cancel.isCancelled)
  | .close => (w.keep key d.close, .closed)
  | .status => (w, .status d.outcome d.isCancelled)
  | .drop => (w.forget key, .dropped)

/-- Carries out a command. -/
def run (w : Workbench) : Command → Workbench × Answer
  | .createSchema name =>
    match w.reader.createSchema w.found name with
    | (reader, .ok schema) => ({ w with reader, schema := some schema }, .schema schema)
    | (reader, .error failure) => ({ w with reader }, .failed failure)
  | .refresh =>
    match w.reader.refresh w.found with
    | (reader, .ok ()) => ({ w with reader }, .refreshed)
    | (reader, .error e) => ({ w with reader }, .failed (.error e))
  | .tableNames => (w, .names w.reader.tableNames)
  | .internalId name => (w, .id (w.reader.internalId? name))
  | .lookUp table column =>
    let table := w.schema.bind (·.table? table)
    (w, .columns (table.map (·.columnNames)) (table.bind (·.column? column)))
  | .replace found => ({ w with found }, .replaced)
  | .query request =>
    match w.scan request with
    | .ok d =>
      let (items, d) := d.drain
      (w, .drained items d.outcome)
    | .error e => (w, .failed (.error e))
  | .open key request =>
    match w.scan request with
    | .ok d => (w.keep key d, .opened d.table)
    | .error e => (w, .failed (.error e))
  | .dataset key command =>
    match w.dataset? key with
    | some d => w.runDataset key d command
    | none => (w, .noDataset)

end Workbench

end WorkbookTables
