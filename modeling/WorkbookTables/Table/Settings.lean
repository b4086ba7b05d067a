import WorkbookTables.Table.Naming

/-!
# Settings

What a caller may choose about tables and their rows. The line with the names of the columns is
counted from 1 when it is set and when it is asked for, and kept as a row counted from 0.

## Main definitions

* `Settings` — the choices, with the usual ones as defaults
* `Settings.withEagerness`, `Settings.withHeaderLine` — choices that are brought into range
-/

namespace WorkbookTables

/-- What a caller may choose. -/
structure Settings where
  /-- Whether the types of columns are found out from rows; otherwise all columns hold texts. -/
  detectTypes : Bool
  /-- From how many rows the types are found out. -/
  eagerness : Nat
  /-- The row with the names of the columns, if there is one. -/
  headerRow : Option Nat
  /-- Whether blank rows are left out. -/
  skipBlankRows : Bool
  /-- Whether columns are left out that have nothing in the row that defines them. -/
  skipBlankColumns : Bool
  /-- Where the names of the columns come from. -/
  naming : NamingStrategy
  /-- Whether numbers with and without a fraction count as the same. -/
  widenNumbers : Bool
  /-- At least one row is looked at. -/
  eagerness_pos : 0 < eagerness

namespace Settings

/-- How many rows are looked at if nothing is chosen. -/
def defaultEagerness : Nat := 1000

/-- The usual choices. -/
def standard : Settings where
  detectTypes := true
  eagerness := defaultEagerness
  headerRow := some 0
  skipBlankRows := true
  skipBlankColumns := false
  naming := .headers
  widenNumbers := false
  eagerness_pos := by decide

/-- Chooses how many rows are looked at; none is raised to one. -/
def withEagerness (s : Settings) (rows : Nat) : Settings :=
  { s with eagerness := max rows 1, eagerness_pos := by omega }

/-- Chooses the line with the names of the columns, counted from 1. Line 0 is no line. -/
def withHeaderLine (s : Settings) (line : Option Nat) : Settings :=
  match line with
  | some (row + 1) => { s with headerRow := some row }
  | _ => { s with headerRow := none }

/-- The line with the names of the columns, counted from 1. -/
def headerLine (s : Settings) : Option Nat :=
  s.headerRow.map (· + 1)

end Settings

end WorkbookTables
