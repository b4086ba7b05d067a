import WorkbookTables.Table.ColumnType

/-!
# Schemas

A schema has a table for each worksheet, and a table has columns. A column knows the position of
its cells in the rows of the sheet, because columns may be left out.

## Main definitions

* `Column`, `Table`, `Schema`
* `Schema.table?`, `Table.column?` — look-ups by name, where the first match counts
-/

namespace WorkbookTables

/-- A column of a table. -/
structure Column where
  /-- The name, which no other column of the table has. -/
  name : String
  /-- What its cells hold. -/
  type : ColumnType
  /-- The position of its cells in the rows. -/
  ordinal : Nat
  /-- Whether it may be asked for. -/
  queryable : Bool
  deriving DecidableEq, Repr

/-- A table, which is a worksheet seen as rows of columns. -/
structure Table where
  /-- The name of the sheet. -/
  name : String
  /-- The columns in the order of the sheet. -/
  columns : List Column
  /-- The id of the worksheet. -/
  internalId : String
  deriving DecidableEq, Repr

/-- The tables of a workbook in the order of its sheets. -/
structure Schema where
  /-- The name that was asked for. -/
  name : String
  /-- The tables. -/
  tables : List Table
  deriving DecidableEq, Repr

/-- The column of a name. -/
def Table.column? (t : Table) (name : String) : Option Column :=
  t.columns.find? (·.name == name)

/-- The names of the columns. -/
def Table.columnNames (t : Table) : List String :=
  t.columns.map (·.name)

/-- The table of a name. -/
def Schema.table? (s : Schema) (name : String) : Option Table :=
  s.tables.find? (·.name == name)

/-- The names of the tables. -/
def Schema.tableNames (s : Schema) : List String :=
  s.tables.map (·.name)

end WorkbookTables
