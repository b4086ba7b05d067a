import WorkbookTables.Proofs.Book.Failures
import WorkbookTables.Workbench

/-!
# What a session remembers of sheets

The map of ids is all that a reader remembers of workbooks, and it changes in two commands only.
How it changes can be told from what the place holds at that moment: the workbook cannot be opened,
its list of sheets is damaged behind some of them, or it is complete. A schema of a complete list
forgets whatever was known before, and all else that is learnt overrides it by name.

So what is known at any moment of a session is told by going through the commands, without a look
at the map. It is also what decides whether a scan finds its table unknown, before anything is
opened; no other command ever fails for that reason.

## Main definitions

* `Workbench.after` — a workbench after a session
* `Listing`, `Reader.listing` — what a container tells of its sheets
* `Listing.learnt`, `Workbench.known` — what a command makes known, and a session
* `Workbench.Recalls` — a workbench remembers what is known, and answers by it

## Main results

* `Reader.createSchema_eq`, `Reader.refresh_eq` — the two commands, told by the listing
* `Workbench.get?_run` — what a command makes known
* `Workbench.recalls_after` — a workbench after a session
-/

namespace WorkbookTables

/-- What a container tells of its sheets. -/
inductive Listing where
  /-- Nothing, for it cannot be opened. -/
  | unopened (e : Error)
  /-- Those of a package, behind which its list of sheets cannot be read. -/
  | damaged (p : Package) (e : Error)
  /-- Those of a package, and they are all. -/
  | complete (p : Package)

namespace Listing

/-- Why the list of sheets cannot be read to its end, if it cannot. -/
def failure? : Listing → Option Error
  | unopened e => some e
  | damaged _ e => some e
  | complete _ => none

/-- The sheets that become known. -/
def sheets : Listing → List Manifest.Entry
  | unopened _ => []
  | damaged p _ => p.sheets
  | complete p => p.sheets

/-- What is known by name after a command, if this was known before. Sheets override what was known
of their names; a schema of a complete list forgets all other names. -/
def learnt (l : Listing) (known : String → Option String) (c : Command) (name : String) :
    Option String :=
  match c, l with
  | .createSchema _, complete p => Manifest.idOf? p.sheets name
  | .createSchema _, _ => (Manifest.idOf? l.sheets name).or (known name)
  | .refresh, _ => (Manifest.idOf? l.sheets name).or (known name)
  | _, _ => known name

theorem nodup_sheets (l : Listing) : (l.sheets.map (·.name)).Nodup := by
  cases l with
  | unopened e => exact List.nodup_nil
  | damaged p e => exact p.nodup_sheets
  | complete p => exact p.nodup_sheets

end Listing

/-! ### Readers -/

namespace Reader

/-- What a reader is told of the sheets in a container. Its own map has no part in it. -/
def listing (r : Reader) (found : Container) : Listing :=
  match r.openPackage found with
  | .error e => .unopened e
  | .ok p =>
    match (p.readCatalog .empty).2 with
    | .error e => .damaged p (e.within p.name)
    | .ok _ => .complete p

variable {r : Reader} {found : Container} {p : Package} {e : Error}

theorem listing_eq (r : Reader) (found : Container) :
    r.listing found =
      match r.openPackage found with
      | .error e => .unopened e
      | .ok p => (p.damage?.map fun e => .damaged p (e.within p.name)).getD (.complete p) := by
  rw [listing]
  split
  · rfl
  next p _ =>
    rw [Package.readCatalog_eq]
    cases p.damage? <;> rfl

/-- **What the reading of the list of sheets does**: the map is overridden by the sheets, and the
reading fails just where the list cannot be read to its end. -/
theorem readCatalog_eq (r : Reader) (found : Container) :
    r.readCatalog found =
      ({ r with ids := r.ids.override (r.listing found).sheets },
        match r.listing found with
        | .unopened e => .error e
        | .damaged _ e => .error e
        | .complete p => .ok (p, p.sheets)) := by
  rw [listing_eq, readCatalog]
  cases r.openPackage found with
  | error e => rfl
  | ok p =>
    simp only [Package.readCatalog_eq]
    cases p.damage? <;> rfl

theorem kind_of_openPackage (h : r.openPackage found = .error e) : e.kind ≠ .unknownTable := by
  rw [openPackage] at h
  cases hopen : Package.ofContainer r.place found with
  | ok p =>
    rw [hopen] at h
    cases h
  | error e' =>
    rw [hopen] at h
    obtain rfl := Except.error.inj h
    rw [Error.kind_within]
    obtain hkind | hkind := Package.kind_of_ofContainer hopen <;> simp [hkind]

/-- What is wrong with a list of sheets is no unknown table. -/
theorem kind_of_failure? (h : (r.listing found).failure? = some e) : e.kind ≠ .unknownTable := by
  rw [listing_eq] at h
  cases hopen : r.openPackage found with
  | error e' =>
    rw [hopen] at h
    obtain rfl := Option.some.inj h
    exact kind_of_openPackage hopen
  | ok p =>
    cases hdamage : p.damage? with
    | none =>
      simp only [hopen, hdamage] at h
      cases h
    | some e' =>
      simp only [hopen, hdamage] at h
      obtain rfl := Option.some.inj h
      rw [Error.kind_within]
      obtain hkind | hkind := Package.kind_of_damage? hdamage <;> simp [hkind]

/-- A complete list of sheets is that of the package that is opened. -/
theorem openPackage_of_complete (h : r.listing found = .complete p) :
    r.openPackage found = .ok p := by
  rw [listing] at h
  split at h
  · cases h
  next hopen =>
    rw [hopen]
    split at h <;> cases h
    rfl

/-- **What a schema does.** The columns of its tables are found out only if the list of sheets is
complete; the map has been settled by then. -/
theorem createSchema_eq (r : Reader) (found : Container) (name : String) :
    r.createSchema found name =
      match r.listing found with
      | .unopened e => (r, .error (.error e))
      | .damaged p e => ({ r with ids := r.ids.override p.sheets }, .error (.error e))
      | .complete p =>
        let (log, tables) := discoverTables r.settings r.log p p.sheets
        ({ r with
            ids := (r.ids.override p.sheets).retain fun name => p.sheets.any (·.name == name)
            log },
          tables.map (⟨name, ·⟩)) := by
  rw [createSchema, readCatalog_eq]
  cases r.listing found <;> rfl

/-- **What a refresh does.** -/
theorem refresh_eq (r : Reader) (found : Container) :
    r.refresh found =
      ({ r with ids := r.ids.override (r.listing found).sheets },
        Manifest.unlessDamaged () (r.listing found).failure?) := by
  rw [refresh, readCatalog_eq]
  cases r.listing found <;> rfl

/-- **What a schema makes known.** -/
theorem get?_createSchema (r : Reader) (found : Container) (schemaName name : String) :
    (r.createSchema found schemaName).1.ids.get? name =
      (r.listing found).learnt r.ids.get? (.createSchema schemaName) name := by
  rw [createSchema_eq]
  cases r.listing found with
  | unopened e => rfl
  | damaged p e => exact r.ids.get?_override p.nodup_sheets name
  | complete p => exact p.get?_retain_override r.ids name

/-- **What a refresh makes known.** -/
theorem get?_refresh (r : Reader) (found : Container) (name : String) :
    (r.refresh found).1.ids.get? name = (r.listing found).learnt r.ids.get? .refresh name := by
  rw [refresh_eq]
  exact r.ids.get?_override (r.listing found).nodup_sheets name

/-- A schema fails where the list of sheets cannot be read. -/
theorem snd_createSchema_of_failure? (h : (r.listing found).failure? = some e) (name : String) :
    (r.createSchema found name).2 = .error (.error e) := by
  rw [createSchema_eq]
  cases hlisting : r.listing found with
  | complete p =>
    rw [hlisting] at h
    cases h
  | _ =>
    rw [hlisting] at h
    cases h
    rfl

/-- A schema never fails for an unknown table. -/
theorem kind_of_createSchema {name : String}
    (h : (r.createSchema found name).2 = .error (.error e)) : e.kind ≠ .unknownTable := by
  rw [createSchema_eq] at h
  cases hlisting : r.listing found with
  | complete p =>
    rw [hlisting] at h
    cases hdiscover : discoverTables r.settings r.log p p.sheets with
    | mk log result =>
      simp only [hdiscover] at h
      cases result with
      | ok tables => cases h
      | error failure =>
        obtain rfl := Except.error.inj h
        exact kind_of_discoverTables hdiscover
  | _ =>
    rw [hlisting] at h
    cases h
    exact kind_of_failure? (congrArg Listing.failure? hlisting)

/-- **A scan finds its table unknown just where the map has no id for its name**, whatever the place
holds. -/
theorem query_unknown_iff (r : Reader) (found : Container) (table : Table) (columns : List Column)
    (maxRows : Option Nat) :
    (∃ e, r.query found table columns maxRows = .error e ∧ e.kind = .unknownTable) ↔
      r.ids.get? table.name = none := by
  rw [query]
  cases hid : r.ids.get? table.name with
  | none => simp [Error.kind]
  | some id =>
    refine iff_of_false ?_ (by simp)
    rintro ⟨e, h, hkind⟩
    dsimp only at h
    split at h
    next e' hopen =>
      obtain rfl := Except.error.inj h
      exact kind_of_openPackage hopen hkind
    next p hopen =>
      split at h
      · cases h
      · obtain rfl := Except.error.inj h
        cases hkind

end Reader

/-! ### Sessions -/

namespace Workbench

/-- A workbench after a session. -/
def after (w : Workbench) (commands : List Command) : Workbench :=
  commands.foldl (fun w c => (w.run c).1) w

/-- What is known after a session, told command by command from what the place holds then. -/
def known (w : Workbench) (before : String → Option String) :
    List Command → String → Option String
  | [] => before
  | c :: rest => (w.run c).1.known ((w.reader.listing w.found).learnt before c) rest

/-- What becomes of a reader by a command. -/
def readerAfter (r : Reader) (found : Container) : Command → Reader
  | .createSchema name => (r.createSchema found name).1
  | .refresh => (r.refresh found).1
  | _ => r

/-- What the place holds after a command. -/
def foundAfter (found : Container) : Command → Container
  | .replace found => found
  | _ => found

/-- **What a command does to a workbench**, apart from its datasets and its last schema. -/
theorem run_eq (w : Workbench) (c : Command) :
    (w.run c).1.reader = readerAfter w.reader w.found c ∧
      (w.run c).1.found = foundAfter w.found c := by
  cases c with
  | createSchema name =>
    simp only [run, readerAfter, foundAfter]
    rcases w.reader.createSchema w.found name with ⟨reader, _ | _⟩ <;> exact ⟨rfl, rfl⟩
  | refresh =>
    simp only [run, readerAfter, foundAfter]
    rcases w.reader.refresh w.found with ⟨reader, _ | _⟩ <;> exact ⟨rfl, rfl⟩
  | query request =>
    rw [run]
    split <;> exact ⟨rfl, rfl⟩
  | «open» key request =>
    rw [run]
    split <;> exact ⟨rfl, rfl⟩
  | dataset key command =>
    rw [run]
    split
    · cases command <;> exact ⟨rfl, rfl⟩
    · exact ⟨rfl, rfl⟩
  | tableNames => exact ⟨rfl, rfl⟩
  | internalId => exact ⟨rfl, rfl⟩
  | lookUp => exact ⟨rfl, rfl⟩
  | replace => exact ⟨rfl, rfl⟩

/-- **What a command makes known.** -/
theorem get?_run (w : Workbench) (c : Command) :
    (w.run c).1.reader.ids.get? = (w.reader.listing w.found).learnt w.reader.ids.get? c := by
  funext name
  rw [(w.run_eq c).1]
  cases c with
  | createSchema schemaName => exact w.reader.get?_createSchema w.found schemaName name
  | refresh => exact w.reader.get?_refresh w.found name
  | _ => rfl

theorem snd_run_createSchema (w : Workbench) (name : String) :
    (w.run (.createSchema name)).2 =
      match (w.reader.createSchema w.found name).2 with
      | .ok schema => .schema schema
      | .error failure => .failed failure := by
  rw [run]
  rcases w.reader.createSchema w.found name with ⟨reader, _ | _⟩ <;> rfl

theorem snd_run_refresh (w : Workbench) :
    (w.run .refresh).2 =
      match (w.reader.listing w.found).failure? with
      | none => .refreshed
      | some e => .failed (.error e) := by
  rw [run, Reader.refresh_eq]
  cases (w.reader.listing w.found).failure? <;> rfl

/-- A workbench remembers what is known, and answers by it. -/
structure Recalls (w : Workbench) (known : String → Option String) : Prop where
  /-- The map has the ids that are known, and no others. -/
  ids : ∀ name, w.reader.ids.get? name = known name
  /-- Schemas and refreshes fail where the list of sheets cannot be read to its end. -/
  failed : ∀ e, (w.reader.listing w.found).failure? = some e →
    (w.run .refresh).2 = .failed (.error e) ∧
      ∀ name, (w.run (.createSchema name)).2 = .failed (.error e)
  /-- Otherwise a refresh succeeds. -/
  refreshed : (w.reader.listing w.found).failure? = none → (w.run .refresh).2 = .refreshed
  /-- A scan finds its table unknown just where its name is not known, whatever the place holds. -/
  unknown : ∀ found table columns maxRows,
    (∃ e, w.reader.query found table columns maxRows = .error e ∧ e.kind = .unknownTable) ↔
      known table.name = none
  /-- Schemas and refreshes never fail for an unknown table. -/
  kind : ∀ e, (w.run .refresh).2 = .failed (.error e) ∨
    (∃ name, (w.run (.createSchema name)).2 = .failed (.error e)) → e.kind ≠ .unknownTable

/-- A workbench recalls what its own map says. -/
theorem recalls_get? (w : Workbench) : w.Recalls w.reader.ids.get? where
  ids _ := rfl
  failed := by
    intro e h
    refine ⟨?_, fun name => ?_⟩
    · rw [snd_run_refresh, h]
    · rw [snd_run_createSchema, Reader.snd_createSchema_of_failure? h]
  refreshed := by
    intro h
    rw [snd_run_refresh, h]
  unknown found table columns maxRows := w.reader.query_unknown_iff found table columns maxRows
  kind := by
    rintro e (hrefresh | ⟨name, hschema⟩)
    · rw [snd_run_refresh] at hrefresh
      split at hrefresh
      · cases hrefresh
      next hfailure =>
        cases hrefresh
        exact Reader.kind_of_failure? hfailure
    · rw [snd_run_createSchema] at hschema
      split at hschema
      · cases hschema
      next hfailure =>
        cases hschema
        exact Reader.kind_of_createSchema hfailure

/-- **What a session makes known.** -/
theorem get?_after (w : Workbench) (commands : List Command) :
    (w.after commands).reader.ids.get? = w.known w.reader.ids.get? commands := by
  induction commands generalizing w with
  | nil => rfl
  | cons c rest ih =>
    rw [known, ← get?_run]
    exact ih (w.run c).1

/-- **A workbench after a session** remembers what the commands have made known. -/
theorem recalls_after (w : Workbench) (commands : List Command) :
    (w.after commands).Recalls (w.known w.reader.ids.get? commands) := by
  rw [← get?_after]
  exact recalls_get? _

end Workbench

end WorkbookTables
