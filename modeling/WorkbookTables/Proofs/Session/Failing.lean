import WorkbookTables.Proofs.Session.Scanning

/-!
# A schema and a scan fail alike

A schema fails at the first sheet whose columns cannot be found out. By then the list of sheets has
been read, so the table is known and can be asked for, and a scan of it comes upon the same failure:
the probe has stopped nowhere before it, and a scan without a cap stops nowhere at all. The rows in
front of the failure are returned first, however many the probe has looked at.

On both ways the failure is put into the context of the table once, and on neither is it put into
another. A context is a text written before an error and leaves its kind as it is, in any number.

## Main definitions

* `Error.withinAll` — an error in contexts, one inside the other
* `Dataset.FailsWith` — a dataset gives rows and then a failure

## Main results

* `Reader.failed_of_discoverTables` — the table at which a schema fails
* `ending_of_discoverColumns` — what a probe fails with is what the rows of its sheet end with
* `Workbench.failures_agree` — the failure of a schema is that of the scan
-/

namespace WorkbookTables

/-! ### Contexts -/

namespace Error

/-- An error with contexts written before it, the first one next to it. -/
def withinAll (e : Error) (contexts : List String) : Error :=
  contexts.foldl (fun e context => e.within context) e

theorem kind_withinAll (e : Error) (contexts : List String) :
    (e.withinAll contexts).kind = e.kind := by
  induction contexts generalizing e with
  | nil => rfl
  | cons context rest ih => exact (ih (e.within context)).trans (kind_within context e)

theorem withinAll_unknownTable (table : String) (contexts : List String) :
    (unknownTable table).withinAll contexts = .unknownTable table := by
  induction contexts with
  | nil => rfl
  | cons context rest ih => exact ih

end Error

/-! ### The failure of a schema -/

section Discovery

variable {settings : Settings} {log : NamingLog} {p p' : Package} {entries : List Manifest.Entry}
  {failure : SheetFailure}

/-- **What a probe fails with is what the rows of its sheet end with.** -/
theorem ending_of_discoverColumns {table id : String}
    (h : (discoverColumns settings table log p id).2.2 = .error failure) :
    (Feed.ofPackage p id settings.skipBlankRows).ending = .error failure := by
  rw [discoverColumns] at h
  split at h
  next p₁ e hsheet =>
    obtain rfl := Except.error.inj h
    simp only [Feed.ofPackage, hsheet]
  next p₁ d context hsheet =>
    have hrun := Probe.run_eq_showAll settings table (congrArg Prod.snd hsheet)
    have hends := RowReading.snd_showAll (Probe.observe settings)
      (Feed.ofPackage p id settings.skipBlankRows).ending none
      (Feed.ofPackage p id settings.skipBlankRows).rows
    rw [← hrun] at hends
    cases hprobe : Probe.run settings table context d with
    | mk probe result =>
      rw [hprobe] at hends
      cases result with
      | ok ending => cases probe <;> (simp only [discoverIn, hprobe] at h; cases h)
      | error failure' =>
        simp only [discoverIn, hprobe] at h
        obtain rfl := Except.error.inj h
        obtain hends | hstopped := hends
        · exact hends.symm
        · cases hstopped

/-- A schema fails at one of its sheets: the columns of those before it have been found out, and
its own cannot be, in a package that has been used or not. -/
structure FailsAt (settings : Settings) (p : Package) (entries : List Manifest.Entry)
    (entry : Manifest.Entry) (failure : SheetFailure) : Prop where
  /-- The sheets before it give columns. -/
  earlier : ∃ before after, entries = before ++ entry :: after ∧
    ∀ e ∈ before, ∃ log columns,
      (discoverColumns settings e.name log p e.internalId).2.2 = .ok columns
  /-- It does not. -/
  fails : ∃ log, (discoverColumns settings entry.name log p entry.internalId).2.2 = .error failure

theorem FailsAt.mem {entry : Manifest.Entry} (h : FailsAt settings p entries entry failure) :
    entry ∈ entries := by
  obtain ⟨before, after, rfl, -⟩ := h.earlier
  exact List.mem_append_right before List.mem_cons_self

/-- **The table at which a schema fails.** The failure is put into its context. -/
theorem Reader.failed_of_discoverTables (hp' : p'.Resembles p)
    (h : (discoverTables settings log p' entries).2 = .error failure) :
    ∃ entry cause, FailsAt settings p entries entry cause ∧
      failure = cause.within (tableContext entry.name) := by
  induction entries generalizing log p' with
  | nil => cases h
  | cons entry rest ih =>
    obtain ⟨hused, hcolumns⟩ := hp'.discoverColumns settings entry.name log entry.internalId
    rw [discoverTables] at h
    split at h
    next p₁ log₁ cause hfound =>
      rw [hfound] at hcolumns
      have hnone : ∀ e ∈ ([] : List Manifest.Entry), ∃ log columns,
          (discoverColumns settings e.name log p e.internalId).2.2 = .ok columns := by
        intro e he
        cases he
      refine ⟨entry, cause, ⟨⟨[], rest, rfl, hnone⟩, log, ?_⟩, (Except.error.inj h).symm⟩
      exact congrArg Prod.snd hcolumns.symm
    next p₁ log₁ columns hfound =>
      rw [hfound] at hused hcolumns
      cases hrest : (discoverTables settings log₁ p₁ rest).2 with
      | ok tables =>
        simp only [hrest] at h
        cases h
      | error failure' =>
        simp only [hrest] at h
        obtain rfl := Except.error.inj h
        obtain ⟨failing, cause, ⟨⟨before, after, rfl, hbefore⟩, hfails⟩, rfl⟩ := ih hused hrest
        refine ⟨failing, cause, ⟨⟨entry :: before, after, rfl, ?_⟩, hfails⟩, rfl⟩
        refine List.forall_mem_cons.2 ⟨⟨log, columns, ?_⟩, hbefore⟩
        exact congrArg Prod.snd hcolumns.symm

namespace Reader

variable {r r₁ r' : Reader} {found : Container} {name : String} {e : Error}

/-- A list of sheets that can be read to its end is complete. -/
theorem listing_of_readCatalog (h : r.readCatalog found = (r₁, .ok (p, entries))) :
    r.listing found = .complete p ∧ entries = p.sheets := by
  rw [readCatalog_eq] at h
  have hresult := (Prod.mk.inj h).2
  cases hlisting : r.listing found with
  | complete p' =>
    rw [hlisting] at hresult
    obtain ⟨rfl, rfl⟩ := Prod.mk.inj (Except.ok.inj hresult)
    exact ⟨rfl, rfl⟩
  | _ =>
    rw [hlisting] at hresult
    cases hresult

/-- A schema whose sheets are all listed fails at one of them. -/
theorem failed_of_createSchema (hlisting : r.listing found = .complete p)
    (h : (r.createSchema found name).2 = .error (.error e)) :
    ∃ entry cause, FailsAt r.settings p p.sheets entry (.error cause) ∧
      e = cause.within (tableContext entry.name) := by
  rw [createSchema_eq, hlisting] at h
  cases hdiscover : discoverTables r.settings r.log p p.sheets with
  | mk log result =>
    simp only [hdiscover] at h
    cases result with
    | ok tables => cases h
    | error failure =>
      obtain rfl := Except.error.inj h
      obtain ⟨entry, cause, hfails, hcause⟩ :=
        failed_of_discoverTables (.refl p) (congrArg Prod.snd hdiscover)
      cases cause with
      | error cause => exact ⟨entry, cause, hfails, SheetFailure.error.inj hcause⟩
      | outsideRow => cases hcause

end Reader

end Discovery

/-! ### The failure of a scan -/

/-- A dataset gives rows and then the failure `e`, and never says how the reading ended. -/
structure Dataset.FailsWith (d : Dataset) (e : Error) : Prop where
  /-- A drain goes through the scan to its end. -/
  drains : ∃ h, d.History h d.drain.2 ∧ Dataset.Exhausts h ∧
    d.drain.1 = .ofItems (Dataset.itemsOf h)
  /-- Whoever goes through the scan gets the failure once, behind all rows. -/
  fails : ∀ h d', d.History h d' → Dataset.Exhausts h →
    (∃ rows, Dataset.itemsOf h = Dataset.itemsOfRows rows (some e)) ∧ d'.outcome = none

/-- **A scan without a cap fails with what the rows of its sheet end with**, in the context of its
table. -/
theorem Reader.failsWith_start (r : Reader) (table : Table) (columns : List Column) {p : Package}
    {id : String} {cause : Error}
    (h : (Feed.ofPackage p id r.settings.skipBlankRows).ending = .error (.error cause)) :
    (Dataset.start (r.scanOf table columns none)
      (Feed.ofPackage p id r.settings.skipBlankRows)).FailsWith
        (cause.within (tableContext table.name)) := by
  let feed := Feed.ofPackage p id r.settings.skipBlankRows
  let scan := r.scanOf table columns none
  have hstream : scan.stream feed =
      (rowsBelow r.settings.headerRow feed.rows).map scan.rowMessage ++
        [.failed (cause.within (tableContext table.name))] := by
    have huncapped : scan.stream feed = _ := Scan.stream_of_uncapped nofun
    rw [huncapped, h]
    rfl
  refine ⟨Dataset.drains_start scan feed, ?_⟩
  intro h d' hh hend
  obtain ⟨hgiven, houtcome⟩ := hh.given_of_exhausts hend
  have hitems : scan.items feed = Dataset.itemsOfRows _
      (some (cause.within (tableContext table.name))) :=
    (congrArg _ hstream).trans (items_rowMessage r table columns none _ rfl)
  have hending : scan.ending? feed = none :=
    (congrArg _ hstream).trans (Message.ending?_append scan _ _)
  exact ⟨⟨_, hgiven.trans hitems⟩, houtcome.trans hending⟩

namespace Workbench

/-- **The failure of a schema is that of the scan.** If the list of sheets can be read but a schema
fails, it fails at one of the tables. This table is known from then on, as long as the place is not
replaced, and a scan of it without a cap, whatever its columns, gives the same failure.

Contexts never change the kind of an error, and an unknown table is never put into one. -/
theorem failures_agree :
    (∀ {w w₁ : Workbench} {r₁ : Reader} {p : Package} {entries : List Manifest.Entry}
        {name : String} {e : Error} {commands : List Command},
      w.reader.readCatalog w.found = (r₁, .ok (p, entries)) →
      w.run (.createSchema name) = (w₁, .failed (.error e)) →
      (∀ c ∈ commands, ∀ found, c ≠ .replace found) →
      ∃ entry cause, FailsAt w.reader.settings p entries entry (.error cause) ∧
        e = cause.within (tableContext entry.name) ∧
        (w₁.after commands).reader.ids.get? entry.name = some entry.internalId ∧
        ∀ (t : Table) (columns : List Column), t.name = entry.name → ∃ d,
          (w₁.after commands).reader.query (w₁.after commands).found t columns none = .ok d ∧
          d.FailsWith e) ∧
      ∀ (e : Error) (contexts : List String), (e.withinAll contexts).kind = e.kind ∧
        ∀ table, e = .unknownTable table → e.withinAll contexts = .unknownTable table := by
  refine ⟨?_, ?_⟩
  · intro w w₁ r₁ p entries name e commands hcatalog hschema hkept
    obtain ⟨hlisting, rfl⟩ := Reader.listing_of_readCatalog hcatalog
    have hfailed : (w.reader.createSchema w.found name).2 = .error (.error e) := by
      have hanswer := w.snd_run_createSchema name
      rw [hschema] at hanswer
      split at hanswer
      · cases hanswer
      next hresult =>
        cases hanswer
        exact hresult
    obtain ⟨entry, cause, hfails, rfl⟩ := Reader.failed_of_createSchema hlisting hfailed
    have hholds := holds_run_createSchema hlisting name
    rw [hschema] at hholds
    have hafter := hholds.after hkept
    refine ⟨entry, cause, hfails, rfl, hafter.ids entry hfails.mem, ?_⟩
    intro t columns hname
    refine ⟨_, hafter.query_eq hfails.mem hname columns none, ?_⟩
    obtain ⟨log, hfound⟩ := hfails.fails
    rw [← hafter.settings] at hfound ⊢
    rw [← hname]
    exact Reader.failsWith_start _ t columns (ending_of_discoverColumns hfound)
  · intro e contexts
    refine ⟨e.kind_withinAll contexts, ?_⟩
    rintro table rfl
    exact Error.withinAll_unknownTable table contexts

/-- A workbench at a workbook whose second sheet refers to a shared string, where there is none. -/
def danglingBench : Workbench := .start "book.xlsx" .standard <| .archive ⟨[
  ("xl/workbook.xml", Text.Utf8.encode <|
    "<workbook><sheets><sheet name='Good' r:id='rId1'/>" ++
      "<sheet name='Dangling' r:id='rId2'/></sheets></workbook>"),
  ("xl/_rels/workbook.xml.rels", Text.Utf8.encode <|
    "<Relationships><Relationship Id='rId1' Target='good.xml'/>" ++
      "<Relationship Id='rId2' Target='dangling.xml'/></Relationships>"),
  ("xl/good.xml", Text.Utf8.encode "<sheetData><row><c><v>1</v></c></row></sheetData>"),
  ("xl/dangling.xml", Text.Utf8.encode <|
    "<sheetData><row><c t='str'><v>name</v></c></row>" ++
      "<row><c t='s'><v>7</v></c></row></sheetData>")]⟩

/-- The names of the sheets that are listed, if the list can be read. -/
def listedNames : Reader × Except Error (Package × List Manifest.Entry) → List String
  | (_, .ok (_, entries)) => entries.map (·.name)
  | _ => []

/-- The wording of the failure, if the answer is one that is an error. -/
def failureMessage? : Answer → Option String
  | .failed (.error e) => some e.message
  | _ => none

theorem exists_of_listedNames {listed : Reader × Except Error (Package × List Manifest.Entry)}
    {first : String} {rest : List String} (h : listedNames listed = first :: rest) :
    ∃ r p entries, listed = (r, .ok (p, entries)) ∧ entries.map (·.name) = first :: rest := by
  obtain ⟨r, e | ⟨p, entries⟩⟩ := listed
  · cases h
  · exact ⟨r, p, entries, rfl, h⟩

theorem exists_of_failureMessage? {done : Workbench × Answer} {message : String}
    (h : failureMessage? done.2 = some message) :
    ∃ w e, done = (w, .failed (.error e)) ∧ e.message = message := by
  obtain ⟨w, answer⟩ := done
  cases answer with
  | failed failure =>
    cases failure with
    | error e => exact ⟨w, e, rfl, Option.some.inj h⟩
    | outsideRow => cases h
  | _ => cases h

theorem answers_danglingBench :
    listedNames (danglingBench.reader.readCatalog danglingBench.found) = ["Good", "Dangling"] ∧
      failureMessage? (danglingBench.run (.createSchema "book")).2 =
        some "Table 'Dangling': A2: Shared string index 7 out of range (0 strings)" := by
  decide +kernel

/-- The second table is scanned after the list of sheets has been read again. -/
theorem failures_agree_danglingBench :
    ∃ w₁ r₁ p entries e entry cause,
      danglingBench.reader.readCatalog danglingBench.found = (r₁, .ok (p, entries)) ∧
      danglingBench.run (.createSchema "book") = (w₁, .failed (.error e)) ∧
      (∀ c ∈ [Command.refresh], ∀ found, c ≠ .replace found) ∧
      entries.map (·.name) = ["Good", "Dangling"] ∧
      e.message = "Table 'Dangling': A2: Shared string index 7 out of range (0 strings)" ∧
      FailsAt danglingBench.reader.settings p entries entry (.error cause) ∧
      e = cause.within (tableContext entry.name) ∧
      (w₁.after [.refresh]).reader.ids.get? entry.name = some entry.internalId ∧
      ∀ (t : Table) (columns : List Column), t.name = entry.name → ∃ d,
        (w₁.after [.refresh]).reader.query (w₁.after [.refresh]).found t columns none = .ok d ∧
        d.FailsWith e := by
  obtain ⟨r₁, p, entries, hcatalog, hnames⟩ := exists_of_listedNames answers_danglingBench.1
  obtain ⟨w₁, e, hschema, hmessage⟩ := exists_of_failureMessage? answers_danglingBench.2
  have hkept : ∀ c ∈ [Command.refresh], ∀ found, c ≠ .replace found := by simp
  obtain ⟨entry, cause, hfails, hcause, hid, hscans⟩ :=
    failures_agree.1 hcatalog hschema hkept
  exact ⟨w₁, r₁, p, entries, e, entry, cause, hcatalog, hschema, hkept, hnames, hmessage, hfails,
    hcause, hid, hscans⟩

end Workbench

end WorkbookTables
