import WorkbookTables.Sheet.RowParser
import WorkbookTables.Table.Sampler
import WorkbookTables.Table.Schema
import WorkbookTables.Table.Settings

/-!
# Discovering the columns of a table

The columns of a table are found out from the first rows of its sheet. The first row at or below
the header row defines them: it tells how many there are and, if there is a header row, what they
are called. Types are found out from rows of data after it, until enough have been seen, and then
no further row is wanted. A sheet without a defining row has no columns.

Without a header row the defining row is the first row of data itself. A row that stands further
down but has a smaller number than the defining row is no row of data here.

## Main definitions

* `Probe`, `Probe.observe` — the defining row with the sampler, and what it makes of a row
* `Probe.run` — the probe of a whole sheet
* `Probe.columns` — the columns that a probe makes
* `discoverColumns` — the columns of the table of a worksheet
-/

namespace WorkbookTables

/-- What the rows of a sheet have told, once the row that defines the columns has been seen. -/
structure Probe where
  /-- The row that defines the columns. -/
  definingRow : Row
  /-- What is known of their types. -/
  sampler : Sampler
  deriving DecidableEq, Repr

namespace Probe

/-- The probe that a row begins. Without a header row it is a row of data itself. -/
def define (settings : Settings) (row : Row) : Probe :=
  let sampler := Sampler.new row.size settings.eagerness settings.widenNumbers
  match settings.headerRow with
  | some _ => ⟨row, sampler⟩
  | none => ⟨row, sampler.sample row⟩

/-- Holds if a row stands above the header row. -/
def isAboveHeader (settings : Settings) (row : Row) : Bool :=
  match settings.headerRow with
  | some header => row.number < header
  | none => false

/-- What a row tells, and whether another is wanted. -/
def observe (settings : Settings) (probe : Option Probe) (row : Row) : Option Probe × Bool :=
  match probe with
  | some p =>
    if settings.detectTypes ∧ p.definingRow.number < row.number then
      let sampler := p.sampler.sample row
      (some { p with sampler }, sampler.wantsMore)
    else (some p, settings.detectTypes)
  | none =>
    if isAboveHeader settings row then (none, true)
    else
      let p := define settings row
      (some p, settings.detectTypes && p.sampler.wantsMore)

/-- What the rows of a sheet tell. -/
def run (settings : Settings) (table : String) (context : SheetContext) (d : Markup.Document) :
    Option Probe × Except SheetFailure Ending :=
  ((RowParser.new table).parse context settings.skipBlankRows (observe settings) none d).2

/-- How many positions there are, in the defining row or in a row of data. -/
def width (p : Probe) : Nat := max p.sampler.width p.definingRow.size

/-- Holds if the position has something other than blanks in the defining row. -/
def isFilled (p : Probe) (position : Nat) : Bool :=
  match (p.definingRow.cell position).text with
  | some text => !(Text.trim text).isEmpty
  | none => false

/-- The positions that become columns. -/
def ordinals (settings : Settings) (p : Probe) : List Nat :=
  (List.range p.width).filter fun position => !settings.skipBlankColumns || p.isFilled position

/-- The request for the name of a column. Its cell in the defining row is a header only if there is
a header row. -/
def request (settings : Settings) (table : String) (p : Probe) (ordinal : Nat) : NameRequest :=
  { table
    header := if settings.headerRow.isSome then (p.definingRow.cell ordinal).text else none
    ordinal }

/-- The type of a column. -/
def typeAt (settings : Settings) (p : Probe) (ordinal : Nat) : ColumnType :=
  if settings.detectTypes then p.sampler.typeAt ordinal else .string

/-- The columns of a table, and the log of naming afterwards. -/
def columns (settings : Settings) (table : String) (log : NamingLog) (p : Probe) :
    List Column × NamingLog :=
  let ordinals := p.ordinals settings
  let (names, log) := nameColumns settings.naming log (ordinals.map (p.request settings table))
  (names.zipWith (fun name ordinal => ⟨name, p.typeAt settings ordinal, ordinal, true⟩) ordinals,
    log)

end Probe

/-- The columns that the rows of a sheet make; without a defining row no name is asked for. -/
def discoverIn (settings : Settings) (table : String) (log : NamingLog) (context : SheetContext)
    (d : Markup.Document) : NamingLog × Except SheetFailure (List Column) :=
  match Probe.run settings table context d with
  | (_, .error failure) => (log, .error failure)
  | (none, .ok _) => (log, .ok [])
  | (some probe, .ok _) =>
    let (columns, log) := probe.columns settings table log
    (log, .ok columns)

/-- The columns of the table of a worksheet, with the package and the log of naming afterwards. -/
def discoverColumns (settings : Settings) (table : String) (log : NamingLog) (p : Package)
    (id : String) : Package × NamingLog × Except SheetFailure (List Column) :=
  match p.worksheet id with
  | (p, .error e) => (p, log, .error (.error e))
  | (p, .ok (d, context)) => (p, discoverIn settings table log context d)

end WorkbookTables
