import WorkbookTables.Text.Blank
import WorkbookTables.Text.Utf8
import WorkbookTables.Text.LineEnd
import WorkbookTables.Number.Numeral
import WorkbookTables.Number.Binary64
import WorkbookTables.Number.Decimal
import WorkbookTables.Calendar
import WorkbookTables.Markup.Fault
import WorkbookTables.Markup.Document
import WorkbookTables.Error
import WorkbookTables.Markup.Attribute
import WorkbookTables.Markup.Reading
import WorkbookTables.Markup.StringItem
import WorkbookTables.Cell.Reference
import WorkbookTables.Cell.Style
import WorkbookTables.Cell.NumberFormat
import WorkbookTables.Cell.Serial
import WorkbookTables.Cell.Display
import WorkbookTables.Book.Archive
import WorkbookTables.Book.PartPath
import WorkbookTables.Book.IdMap
import WorkbookTables.Book.FormatTable
import WorkbookTables.Book.StringTable
import WorkbookTables.Book.Manifest
import WorkbookTables.Book.Package
import WorkbookTables.Sheet.Row
import WorkbookTables.Sheet.RowReading
import WorkbookTables.Sheet.RowParser
import WorkbookTables.Table.ColumnType
import WorkbookTables.Table.Sampler
import WorkbookTables.Table.Naming
import WorkbookTables.Table.Settings
import WorkbookTables.Table.Schema
import WorkbookTables.Table.Discovery
import WorkbookTables.Scan.Publisher
import WorkbookTables.Scan.Bridge
import WorkbookTables.Scan.Dataset
import WorkbookTables.Reader
import WorkbookTables.Workbench
import WorkbookTables.Proofs.Scan.Delivery
import WorkbookTables.Proofs.Scan.Consumer
import WorkbookTables.Proofs.Scan.Tracking
import WorkbookTables.Proofs.Scan.Pulling
import WorkbookTables.Proofs.Scan.Protocol
import WorkbookTables.Proofs.Markup.Failures
import WorkbookTables.Proofs.Sheet.Actions
import WorkbookTables.Proofs.Sheet.Failures
import WorkbookTables.Proofs.Sheet.Observer
import WorkbookTables.Proofs.Scan.Rows
import WorkbookTables.Proofs.Table.Sampling
import WorkbookTables.Proofs.Table.Agreement
import WorkbookTables.Proofs.Text.Encoding
import WorkbookTables.Proofs.Number.Spelling
import WorkbookTables.Proofs.Cell.ReferenceRoundTrip
import WorkbookTables.Proofs.Cell.ReferenceGrammar
import WorkbookTables.Proofs.Calendar.Counting
import WorkbookTables.Proofs.Number.WholeNumbers
import WorkbookTables.Proofs.Cell.WholeSerials
import WorkbookTables.Proofs.Markup.Passing
import WorkbookTables.Proofs.Markup.Scanning
import WorkbookTables.Proofs.Markup.Lookup
import WorkbookTables.Proofs.Markup.WrittenText
import WorkbookTables.Proofs.Markup.Truncation
import WorkbookTables.Proofs.Sheet.Placing
import WorkbookTables.Proofs.Sheet.Written
import WorkbookTables.Proofs.Sheet.RoundTrip
import WorkbookTables.Proofs.Sheet.Truncation
import WorkbookTables.Proofs.Book.Catalog
import WorkbookTables.Proofs.Book.Failures
import WorkbookTables.Proofs.Session.Recollection
import WorkbookTables.Proofs.Book.UsedPackages
import WorkbookTables.Proofs.Table.Columns
import WorkbookTables.Proofs.Session.Schema
import WorkbookTables.Proofs.Session.Scanning
import WorkbookTables.Proofs.Scan.Closing
import WorkbookTables.Proofs.Book.Formats
import WorkbookTables.Proofs.Sheet.Fitting
import WorkbookTables.Proofs.Table.Soundness
import WorkbookTables.Proofs.Session.Typing
import WorkbookTables.Proofs.Session.Failing
import WorkbookTables.Proofs.Sheet.Nesting
import WorkbookTables.Proofs.Sheet.Conservation
import WorkbookTables.Proofs.Sheet.Stopping
import WorkbookTables.Proofs.Table.LookAhead
import WorkbookTables.Proofs.Scan.Interleaving
import WorkbookTables.Proofs.Scan.Schedules
import WorkbookTables.Proofs.Scan.Likeness
import WorkbookTables.Proofs.Session.Operations
import WorkbookTables.Proofs.Session.Independence
import WorkbookTables.Proofs.Book.EntryNames
import WorkbookTables.Proofs.Session.Spelling
import WorkbookTables.Proofs.Sheet.EarlyEnd
import WorkbookTables.Proofs.Sheet.Outline
import WorkbookTables.Proofs.Sheet.Shape
import WorkbookTables.Proofs.Sheet.LeftOver
import WorkbookTables.Proofs.Sheet.BlankRows
import WorkbookTables.Proofs.Table.Joining
import WorkbookTables.Proofs.Table.FreeNames
import WorkbookTables.Proofs.Table.NamingSessions
import WorkbookTables.Proofs.Table.SessionLog
import WorkbookTables.Proofs.Session.NamingTables
import WorkbookTables.Proofs.Book.SharedStrings
import WorkbookTables.Proofs.Book.StringTruncation
import WorkbookTables.Proofs.Cell.TimesOfDay
import WorkbookTables.Proofs.Cell.FormatCodes
import WorkbookTables.Proofs.Markup.SpelledTags
import WorkbookTables.Proofs.Markup.WellFormed
import WorkbookTables.Proofs.Book.FormatLists
import WorkbookTables.Proofs.Book.SheetSelection
import WorkbookTables.Proofs.Book.PartPaths
import WorkbookTables.Proofs.Session.Separators
