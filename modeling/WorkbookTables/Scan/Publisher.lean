import WorkbookTables.Sheet.RowReading

/-!
# Publishing the rows of a table

The publisher of a scan goes through the rows of a sheet and sends the wanted cells of each row of
data through a channel, up to the cap of the scan. At the end it reports how the reading ended, or
the error that ended it. It stops early when it is cancelled or when nobody receives any more; that
is looked at whenever the reading has a row for it.

Everything above the first row at or below the header row is no data, and neither is that row
itself.

The rows of the sheet are given beforehand, with what ends them. This is the same as reading them
on demand, because nothing that a reading hands over depends on what comes later.

## Main definitions

* `Scan` — which rows and cells are wanted
* `Feed` — the rows of a sheet with what ends them
* `Message` — what is sent through the channel
* `Publisher`, `Publisher.Phase` — where the publisher stands
-/

namespace WorkbookTables

/-- Which rows and cells of a table are wanted. -/
structure Scan where
  /-- The name of the table. -/
  table : String
  /-- The positions of the wanted cells, in the order in which they are wanted. -/
  positions : List Nat
  /-- The row with the names of the columns, if there is one. -/
  headerRow : Option Nat
  /-- How many rows are wanted at most, if there is a cap. -/
  maxRows : Option Nat
  deriving DecidableEq, Repr

/-- The rows of a sheet and what ends them. -/
structure Feed where
  /-- The rows in the order of the sheet. -/
  rows : List Row
  /-- How they end. -/
  ending : Except SheetFailure Ending

/-- The rows of the worksheet with the given id. -/
def Feed.ofPackage (p : Package) (id : String) (withholdBlank : Bool) : Feed :=
  match (p.worksheet id).2 with
  | .error e => ⟨[], .error (.error e)⟩
  | .ok (d, context) =>
    let (rows, ending) := RowReading.allRows context withholdBlank d
    ⟨rows.toList, ending⟩

/-- What a publisher sends. -/
inductive Message where
  /-- The wanted cells of a row. -/
  | row (row : Row)
  /-- The error that ended the reading. -/
  | failed (e : Error)
  /-- How the reading ended. -/
  | finished (ending : Ending)
  deriving DecidableEq, Repr

/-- Where a publisher stands. -/
inductive Publisher.Phase where
  /-- The reading goes on. -/
  | reading
  /-- A row is to be sent. -/
  | sending (row : Row)
  /-- The reading has ended and a report is to be sent. -/
  | reporting (report : Message) (outcome : Option Ending)
  /-- Nothing more happens. -/
  | exited (outcome : Option Ending)
  deriving DecidableEq, Repr

/-- The publisher of a scan. -/
structure Publisher where
  /-- What is wanted. -/
  scan : Scan
  /-- The rows that the reading has not handed over. -/
  rows : List Row
  /-- How the reading ends after them. -/
  ending : Except SheetFailure Ending
  /-- Whether the header is still to come. -/
  awaitingHeader : Bool
  /-- How many rows have been sent. -/
  published : Nat
  /-- Where the publisher stands. -/
  phase : Publisher.Phase

namespace Publisher

/-- A publisher at its start. -/
def start (scan : Scan) (feed : Feed) : Publisher :=
  ⟨scan, feed.rows, feed.ending, scan.headerRow.isSome, 0, .reading⟩

/-- Stops the reading. -/
def stop (p : Publisher) : Publisher :=
  { p with phase := .reporting (.finished .stopped) (some .stopped) }

/-- Holds if a row ends the rows that are no data. -/
def isHeader (scan : Scan) (row : Row) : Bool :=
  match scan.headerRow with
  | some header => header ≤ row.number
  | none => true

/-- Takes the next row that the reading hands over. -/
def take (p : Publisher) (row : Row) (rest : List Row) : Publisher :=
  if p.awaitingHeader then
    { p with rows := rest, awaitingHeader := !isHeader p.scan row }
  else { p with rows := rest, phase := .sending (row.project p.scan.positions) }

/-- What becomes of a publisher when there are no more rows. A failure that is no error leaves
nothing to report. -/
def conclude (p : Publisher) : Publisher :=
  match p.ending with
  | .ok ending => { p with phase := .reporting (.finished ending) (some ending) }
  | .error (.error e) =>
    { p with phase := .reporting (.failed (e.within (tableContext p.scan.table))) none }
  | .error .outsideRow => { p with phase := .exited none }

/-- What becomes of a publisher that has sent a row. -/
def sent (p : Publisher) : Publisher :=
  let published := p.published + 1
  let p := { p with published }
  match p.scan.maxRows with
  | some maxRows => if maxRows ≤ published then p.stop else { p with phase := .reading }
  | none => { p with phase := .reading }

/-- How the reading ended, once the publisher has exited. -/
def outcome (p : Publisher) : Option Ending :=
  match p.phase with
  | .exited outcome => outcome
  | _ => none

/-- More steps than the publisher can take. -/
def budget (p : Publisher) : Nat := 2 * p.rows.length + 3

end Publisher

end WorkbookTables
