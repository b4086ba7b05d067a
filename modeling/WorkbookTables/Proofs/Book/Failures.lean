import WorkbookTables.Proofs.Book.Catalog
import WorkbookTables.Proofs.Sheet.Failures
import WorkbookTables.Reader

/-!
# What a workbook can fail with

A workbook that cannot be opened, or of which the list of sheets cannot be read, lacks a part or is
malformed in one. The columns of its tables fail with what their worksheets fail with. None of this
is ever an unknown table, which is a matter of the map of ids alone.

## Main results

* `Package.kind_of_ofContainer` — a container that cannot be opened
* `Package.kind_of_damage?` — a list of sheets that cannot be read to its end
* `Reader.kind_of_discoverTables` — columns that cannot be found out
-/

namespace WorkbookTables

open Markup

/-! ### Lists of sheets -/

namespace Manifest

theorem kind_of_entryOf {tag : Tag} {e : Error} (h : entryOf tag = .error e) : e.kind = .parse := by
  rw [entryOf] at h
  split at h
  next herror => cases h; exact Tag.kind_of_attribute? herror
  next =>
    split at h
    next herror => cases h; exact kind_of_foundText herror
    next => cases h

theorem kind_of_listing {fault : Option Fault} {events : List Event} {e : Error}
    (h : (listing fault events).2 = some e) : e.kind = .parse := by
  induction events with
  | nil =>
    cases fault <;> cases h <;> rfl
  | cons event rest ih =>
    cases event with
    | opening tag =>
      rw [listing] at h
      split at h
      · split at h
        next herror => cases h; exact kind_of_entryOf herror
        next => exact ih h
      · exact ih h
    | closing name =>
      rw [listing] at h
      split at h
      · cases h
      · exact ih h
    | text => exact ih h
    | characterData => exact ih h
    | reference => exact ih h
    | aside => exact ih h

end Manifest

/-! ### Packages -/

namespace Package

theorem kind_of_findManifest {a : Archive} {e : Error} (h : findManifest a = .error e) :
    e.kind = .parse := by
  rw [findManifest] at h
  split at h
  · cases h
  next d _ =>
    cases hread : (Relationships.manifestReading.read () d).2 with
    | ok path => rw [hread] at h; cases h
    | error error =>
      rw [hread] at h
      cases h
      refine Reading.FailsOnly.read (P := (·.kind = .parse)) ?_ hread
      refine ⟨fun {s s' event error} hstep => ?_, fun hend => (by cases hend), fun _ => rfl⟩
      cases event with
      | opening tag =>
        simp only [Relationships.manifestReading] at hstep
        split at hstep
        · split at hstep
          next herror => cases hstep; exact Tag.kind_of_attribute? herror
          next =>
            split at hstep
            · split at hstep
              next herror => cases hstep; exact Tag.kind_of_attribute? herror
              next => cases hstep
              next => cases hstep
            · cases hstep
        · cases hstep
      | _ => cases hstep

theorem kind_of_worksheetPaths {directory : String} {d : Document} {e : Error}
    (h : Relationships.worksheetPaths directory d = .error e) : e.kind = .parse := by
  cases hread : ((Relationships.worksheetReading directory).read ∅ d).2 with
  | ok u =>
    simp only [Relationships.worksheetPaths, hread] at h
    cases h
  | error error =>
    simp only [Relationships.worksheetPaths, hread] at h
    cases h
    refine Reading.FailsOnly.read (P := (·.kind = .parse)) ?_ hread
    refine ⟨fun {s s' event error} hstep => ?_, fun hend => (by cases hend), fun _ => rfl⟩
    cases event with
    | opening tag =>
      simp only [Relationships.worksheetReading, Relationships.step] at hstep
      split at hstep
      · split at hstep
        next => cases hstep
        next herror => cases hstep; exact Tag.kind_of_attribute? herror
        next herror _ => cases hstep; exact Tag.kind_of_attribute? herror
        next herror _ _ => cases hstep; exact Tag.kind_of_attribute? herror
      · cases hstep
    | _ => cases hstep

/-- **A container that cannot be opened** is none, lacks a part, or is malformed in one. -/
theorem kind_of_ofContainer {name : String} {c : Container} {e : Error}
    (h : ofContainer name c = .error e) : e.kind = .container ∨ e.kind = .parse := by
  rw [ofContainer] at h
  cases c with
  | other octets => cases h; exact .inl rfl
  | missing => cases h; exact .inl rfl
  | archive a =>
    simp only [Container.archive?, ofArchive] at h
    split at h
    next herror => cases h; exact .inr (kind_of_findManifest herror)
    next =>
      split at h
      next herror => cases h; exact .inl (kind_of_require herror)
      next =>
        split at h
        next herror => cases h; exact .inr (kind_of_worksheetPaths herror)
        next => cases h

/-- **A list of sheets that cannot be read to its end** is not there or is malformed. -/
theorem kind_of_damage? {p : Package} {e : Error} (h : p.damage? = some e) :
    e.kind = .container ∨ e.kind = .parse := by
  rw [damage?] at h
  split at h
  next herror => cases h; exact .inl (kind_of_require herror)
  next => exact .inr (Manifest.kind_of_listing h)

end Package

/-! ### Columns -/

/-- The columns of a table fail with what its worksheet or its rows fail with. -/
theorem kind_of_discoverColumns {settings : Settings} {table : String} {log log' : NamingLog}
    {p p' : Package} {id : String} {e : Error}
    (h : discoverColumns settings table log p id = (p', log', .error (.error e))) :
    e.kind ≠ .unknownTable := by
  rw [discoverColumns] at h
  split at h
  next p₁ e₁ herror =>
    cases h
    obtain hkind | hkind := Package.kind_of_worksheet (congrArg Prod.snd herror) <;> simp [hkind]
  next p₁ d context _ =>
    cases hrun : Probe.run settings table context d with
    | mk probe ending =>
      cases ending with
      | error failure =>
        simp only [discoverIn, hrun] at h
        cases h
        have hmalformed := (RowReading.failsOnly_reading context settings.skipBlankRows
          (Probe.observe settings)).read (congrArg Prod.snd hrun) e rfl
        simp [hmalformed]
      | ok ending => cases probe <;> simp [discoverIn, hrun] at h

/-- **Columns that cannot be found out** are no unknown table. -/
theorem Reader.kind_of_discoverTables {settings : Settings} {log log' : NamingLog} {p : Package}
    {entries : List Manifest.Entry} {e : Error}
    (h : discoverTables settings log p entries = (log', .error (.error e))) :
    e.kind ≠ .unknownTable := by
  induction entries generalizing log log' p with
  | nil => cases h
  | cons entry rest ih =>
    rw [discoverTables] at h
    split at h
    next log₁ failure hcolumns =>
      cases failure with
      | error e' =>
        cases h
        rw [Error.kind_within]
        exact kind_of_discoverColumns hcolumns
      | outsideRow => cases h
    next p₁ log₁ columns hcolumns =>
      cases hrest : discoverTables settings log₁ p₁ rest with
      | mk log₂ result =>
        rw [hrest] at h
        cases result with
        | ok tables => cases h
        | error failure =>
          cases h
          exact ih hrest

end WorkbookTables
