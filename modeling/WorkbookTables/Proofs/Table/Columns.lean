import Mathlib.Data.List.TakeWhile
import WorkbookTables.Proofs.Book.UsedPackages
import WorkbookTables.Proofs.Table.Agreement
import WorkbookTables.Proofs.Table.Naming

/-!
# What callers may rely on in the columns of a table

The columns of a table stand at ascending positions and may all be asked for. They stand at all
positions up to the last if blank columns are kept; otherwise they stand just where the row that
defines them has a text that is more than blanks. Under a built-in strategy their names are
different, and do not depend on which tables have been named before.

A package that has read what its worksheets need answers as it did before, so the columns of a table
do not depend on the tables whose columns were found out from the same package.

## Main definitions

* `Row.HasText` — a cell with a text that is more than blanks
* `Probe.WellFormed` — what callers may rely on

## Main results

* `wellFormed_of_discoverColumns` — columns that have been discovered are well-formed
* `discoverColumns_congr` — they do not depend on what has been named before
* `Package.Resembles.discoverColumns` — they do not depend on what has been read before
-/

namespace WorkbookTables

/-! ### Blank texts -/

namespace Text

/-- Nothing is left of a text by trimming just if all of it is blank. -/
theorem isEmpty_trim (s : String) : (trim s).isEmpty = isAllBlank s := by
  have hends : trimChars s.toList = [] ↔ ∀ c ∈ s.toList, isBlank c = true := by
    rw [trimChars, List.reverse_eq_nil_iff, List.dropWhile_eq_nil_iff]
    simp only [List.mem_reverse]
    refine ⟨fun h c hc => ?_, fun h c hc => h c ((List.dropWhile_sublist _).subset hc)⟩
    -- A character stands in front of the first that is not blank, or behind it.
    rw [← List.takeWhile_append_dropWhile (p := isBlank) (l := s.toList), List.mem_append] at hc
    obtain hfront | hbehind := hc
    · exact List.mem_takeWhile_imp hfront
    · exact h c hbehind
  rw [Bool.eq_iff_iff, isAllBlank, List.all_eq_true, ← hends, trim]
  simp

end Text

/-- Holds if a cell of a row has a text in which not every character is blank. -/
def Row.HasText (r : Row) (position : Nat) : Prop :=
  ∃ text, (r.cell position).text = some text ∧ ∃ c ∈ text.toList, Text.isBlank c = false

namespace Probe

variable {settings : Settings} {table : String} {ending : Except SheetFailure Ending} {p : Probe}

/-! ### Positions -/

theorem isFilled_iff (p : Probe) (position : Nat) :
    p.isFilled position = true ↔ p.definingRow.HasText position := by
  rw [isFilled, Row.HasText]
  cases (p.definingRow.cell position).text with
  | none => simp
  | some text =>
    simp [Text.isEmpty_trim, Text.isAllBlank]

theorem lt_width_of_isFilled {position : Nat} (h : p.isFilled position = true) :
    position < p.width := by
  by_contra hge
  rw [width, Nat.not_lt] at hge
  have hcell : p.definingRow.cell position = Cell.empty := by
    have hsize : p.definingRow.cells.size ≤ position := (Nat.le_max_right _ _).trans hge
    simp [Row.cell, hsize]
  simp [isFilled, hcell, Cell.empty] at h

theorem pairwise_ordinals (settings : Settings) (p : Probe) :
    (p.ordinals settings).Pairwise (· < ·) :=
  List.pairwise_lt_range.filter _

theorem ordinals_of_keepBlank (h : settings.skipBlankColumns = false) (p : Probe) :
    p.ordinals settings = List.range p.width := by
  simp [ordinals, h]

theorem mem_ordinals_iff (h : settings.skipBlankColumns = true) (p : Probe) (position : Nat) :
    position ∈ p.ordinals settings ↔ p.definingRow.HasText position := by
  simp only [ordinals, h, List.mem_filter, List.mem_range, Bool.not_true, Bool.false_or,
    ← isFilled_iff]
  exact ⟨fun hmem => hmem.2, fun hfilled => ⟨lt_width_of_isFilled hfilled, hfilled⟩⟩

/-! ### Columns -/

theorem queryable_columns (settings : Settings) (table : String) (log : NamingLog) (p : Probe) :
    ∀ column ∈ (p.columns settings table log).1, column.queryable = true := by
  intro column hmem
  obtain ⟨i, hi, rfl⟩ := List.getElem_of_mem hmem
  simp [columns]

/-- The names of the columns are those of their session. -/
theorem names_columns (settings : Settings) (table : String) (log : NamingLog) (p : Probe) :
    (p.columns settings table log).1.map (·.name) =
      (nameColumns settings.naming log
        ((p.ordinals settings).map (p.request settings table))).1 := by
  have hlength := p.length_names settings table log
  refine List.ext_getElem ?_ ?_
  · simp [columns, hlength]
  · intro i _ _
    simp [columns]

/-- Columns that are named by a built-in strategy do not depend on what has been named before. -/
theorem columns_congr (h : settings.naming.IsBuiltIn) (table : String) (log log' : NamingLog)
    (p : Probe) : (p.columns settings table log').1 = (p.columns settings table log).1 := by
  simp only [columns, nameColumns_congr h log log']

/-- What callers may rely on in columns that are made of rows. -/
structure WellFormed (settings : Settings) (rows : List Row) (columns : List Column) : Prop where
  /-- The columns have different names. -/
  names : (columns.map (·.name)).Nodup
  /-- They stand at ascending positions. -/
  ascending : (columns.map (·.ordinal)).Pairwise (· < ·)
  /-- All of them may be asked for. -/
  queryable : ∀ column ∈ columns, column.queryable = true
  /-- Without a row that defines them there are none. -/
  none : rows.dropWhile (isAboveHeader settings) = [] → columns = []
  /-- They stand at all positions from the first on, if blank ones are kept. -/
  all : settings.skipBlankColumns = false →
    columns.map (·.ordinal) = List.range columns.length
  /-- Otherwise they stand where the row that defines them has more than blanks. -/
  filled : settings.skipBlankColumns = true →
    ∀ d rest, rows.dropWhile (isAboveHeader settings) = d :: rest →
      ∀ position, position ∈ columns.map (·.ordinal) ↔ d.HasText position

/-- **The columns of a probe are well-formed.** -/
theorem wellFormed_of_showAll (hnaming : settings.naming.IsBuiltIn) (table : String)
    (log : NamingLog) {rows : List Row}
    (hp : (RowReading.showAll (observe settings) ending none rows).1 = some p) :
    WellFormed settings rows (p.columns settings table log).1 := by
  obtain ⟨hordinals, -⟩ := columns_eq settings table log p
  refine ⟨?_, ?_, queryable_columns settings table log p, ?_, ?_, ?_⟩
  · rw [names_columns]
    exact nodup_nameColumns hnaming _ _
  · rw [hordinals]
    exact pairwise_ordinals settings p
  · intro hnone
    rw [showAll_observe, hnone] at hp
    cases hp
  · intro hkeep
    have hlength := congrArg List.length hordinals
    rw [List.length_map, ordinals_of_keepBlank hkeep, List.length_range] at hlength
    rw [hordinals, ordinals_of_keepBlank hkeep, hlength]
  · intro hskip d rest hd position
    rw [hordinals, mem_ordinals_iff hskip, (eq_of_showAll hd hp).1]

/-- A probe that has not begun has no columns to make. -/
theorem wellFormed_nil {rows : List Row}
    (hp : (RowReading.showAll (observe settings) ending none rows).1 = none) :
    WellFormed settings rows [] := by
  refine ⟨List.nodup_nil, .nil, nofun, fun _ => rfl, fun _ => rfl, ?_⟩
  intro _ d rest hd
  rw [dropWhile_eq_nil_of_showAll hp] at hd
  cases hd

end Probe

/-! ### Discovered columns -/

section Discovery

variable {settings : Settings} {table : String} {log : NamingLog} {p : Package} {id : String}
  {columns : List Column}

/-- A probe is shown the rows of its sheet. -/
theorem Probe.run_eq_showAll (settings : Settings) (table : String) {d : Markup.Document}
    {context : SheetContext} (h : (p.worksheet id).2 = .ok (d, context)) :
    Probe.run settings table context d =
      RowReading.showAll (observe settings)
        (Feed.ofPackage p id settings.skipBlankRows).ending none
        (Feed.ofPackage p id settings.skipBlankRows).rows := by
  simp only [Feed.ofPackage, h]
  exact RowReading.deliver_eq context settings.skipBlankRows (observe settings) none d

/-- **Columns that have been discovered** are those of the probe of their sheet, if it has begun. -/
theorem exists_probe_of_discoverColumns
    (h : (discoverColumns settings table log p id).2.2 = .ok columns) :
    ∃ d context probe ending, (p.worksheet id).2 = .ok (d, context) ∧
      Probe.run settings table context d = (probe, .ok ending) ∧
      columns = (probe.map fun probe => (probe.columns settings table log).1).getD [] := by
  rw [discoverColumns] at h
  split at h
  next => cases h
  next p' d context hsheet =>
    cases hrun : Probe.run settings table context d with
    | mk probe result =>
      cases result with
      | error failure =>
        simp only [discoverIn, hrun] at h
        cases h
      | ok ending =>
        refine ⟨d, context, probe, ending, congrArg Prod.snd hsheet, hrun, ?_⟩
        cases probe <;> (simp only [discoverIn, hrun] at h; exact (Except.ok.inj h).symm)

/-- **Columns that have been discovered are well-formed.** -/
theorem wellFormed_of_discoverColumns (hnaming : settings.naming.IsBuiltIn)
    (h : (discoverColumns settings table log p id).2.2 = .ok columns) :
    Probe.WellFormed settings (Feed.ofPackage p id settings.skipBlankRows).rows columns := by
  obtain ⟨d, context, probe, ending, hsheet, hrun, rfl⟩ := exists_probe_of_discoverColumns h
  have hprobe := congrArg Prod.fst ((Probe.run_eq_showAll settings table hsheet).symm.trans hrun)
  cases probe with
  | none => exact Probe.wellFormed_nil hprobe
  | some probe => exact Probe.wellFormed_of_showAll hnaming table log hprobe

/-- **Columns do not depend on what has been named before**, under a built-in strategy. -/
theorem discoverColumns_congr (hnaming : settings.naming.IsBuiltIn) (table : String)
    (log log' : NamingLog) (p : Package) (id : String) :
    (discoverColumns settings table log' p id).2.2 =
      (discoverColumns settings table log p id).2.2 := by
  rw [discoverColumns, discoverColumns]
  split
  next => rfl
  next d context _ =>
    simp only [discoverIn]
    rcases Probe.run settings table context d with ⟨_ | probe, _ | ending⟩
    · rfl
    · rfl
    · rfl
    · exact congrArg Except.ok (Probe.columns_congr hnaming table log log' probe)

end Discovery

/-! ### Packages that have been used -/

namespace Package

variable {p p' : Package}

/-- **Columns do not depend on what has been read from their package before.** -/
theorem Resembles.discoverColumns (h : p'.Resembles p) (settings : Settings) (table : String)
    (log : NamingLog) (id : String) :
    (discoverColumns settings table log p' id).1.Resembles p ∧
      (discoverColumns settings table log p' id).2 =
        (discoverColumns settings table log p id).2 := by
  obtain ⟨hpackage, hsheet⟩ := h.worksheet id
  rw [WorkbookTables.discoverColumns, WorkbookTables.discoverColumns]
  rcases hused : p'.worksheet id with ⟨used, result⟩
  rcases hfresh : p.worksheet id with ⟨fresh, result'⟩
  rw [hused] at hpackage hsheet
  rw [hfresh] at hsheet
  obtain rfl : result = result' := hsheet
  cases result with
  | error e => exact ⟨hpackage, rfl⟩
  | ok found => exact ⟨hpackage, rfl⟩

end Package

end WorkbookTables
