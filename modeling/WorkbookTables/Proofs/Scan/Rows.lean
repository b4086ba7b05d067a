import WorkbookTables.Proofs.Scan.Pulling
import WorkbookTables.Proofs.Sheet.Failures
import WorkbookTables.Proofs.Sheet.Observer
import WorkbookTables.Reader
import Mathlib.Data.List.Forall2

/-!
# The rows that a scan yields

What a scan is about are the rows of a sheet below its header. Who goes through the scan to its end
gets them one by one, each reduced to the wanted cells, and behind them the failure that ended the
reading, if there was one. A cap that is reached cuts this off: what stands behind the last wanted
row is not looked at, so it is neither returned nor an error.

A cap that equals the number of rows is reached. The scan is said to have been stopped then,
although nothing is left out.

## Main definitions

* `rowsBelow` — the rows below a header
* `Row.Selects` — a row reduced to the wanted cells
* `Feed.Yields` — what a scan of a feed returns and says

## Main results

* `Scan.messages_of_deliver` — publishing while the document is read sends the same messages
* `Scan.stream_of_capped`, `Scan.stream_of_uncapped` — the stream of a scan
* `Reader.query_yields` — what a query yields
-/

namespace WorkbookTables

/-- The rows below the header, which is the first row with at least the given number. Without a
header row they are all rows. -/
def rowsBelow (headerRow : Option Nat) (rows : List Row) : List Row :=
  match headerRow with
  | none => rows
  | some header => (rows.dropWhile fun row => row.number < header).tail

namespace Scan

/-! ### The messages of a reading -/

/-- What is known of a scan whose rows are published while the document is read. -/
structure Posting where
  /-- Whether the header is still to come. -/
  awaitingHeader : Bool
  /-- How many rows have been sent. -/
  published : Nat
  /-- What has been sent. -/
  sent : List Message

/-- Publishes a row as soon as it has been read. -/
def post (scan : Scan) (p : Posting) (row : Row) : Posting × Bool :=
  if p.awaitingHeader then ({ p with awaitingHeader := !Publisher.isHeader scan row }, true)
  else
    ({ p with
        published := p.published + 1
        sent := p.sent ++ [.row (row.project scan.positions)] },
      !scan.isCapped (p.published + 1))

theorem sent_showAll_post (scan : Scan) (ending : Except SheetFailure Ending) (p : Posting)
    (rows : List Row) :
    (RowReading.showAll scan.post ending p rows).1.sent ++
        scan.report (RowReading.showAll scan.post ending p rows).2 =
      p.sent ++ scan.messages ending p.awaitingHeader p.published rows := by
  induction rows generalizing p with
  | nil => cases p with | mk awaiting published sent => cases awaiting <;> rfl
  | cons row rest ih =>
    obtain ⟨awaiting, published, sent⟩ := p
    cases awaiting with
    | true =>
      rw [RowReading.showAll, messages]
      exact ih _
    | false =>
      rw [RowReading.showAll, messages]
      cases hcap : scan.isCapped (published + 1) with
      | true => simp [post, hcap, report]
      | false =>
        simp only [post, hcap, Bool.false_eq_true, if_false, Bool.not_false]
        rw [ih]
        simp

/-- **Publishing while a document is read sends the messages of its rows**: that the rows of a scan
are given beforehand makes no difference. -/
theorem messages_of_deliver (scan : Scan) (context : SheetContext) (withholdBlank : Bool)
    (d : Markup.Document) :
    let (p, result) := RowReading.deliver context withholdBlank scan.post
      ⟨scan.headerRow.isSome, 0, []⟩ d
    p.sent ++ scan.report result =
      scan.messages (RowReading.allRows context withholdBlank d).2 scan.headerRow.isSome 0
        (RowReading.allRows context withholdBlank d).1.toList := by
  rw [RowReading.deliver_eq]
  exact sent_showAll_post scan _ _ _

/-! ### The stream of a scan -/

/-- The message with the wanted cells of a row. -/
def rowMessage (scan : Scan) (row : Row) : Message :=
  .row (row.project scan.positions)

/-- What stands above the header leaves no message. -/
theorem messages_rowsBelow (scan : Scan) (ending : Except SheetFailure Ending) (published : Nat)
    (rows : List Row) :
    scan.messages ending scan.headerRow.isSome published rows =
      scan.messages ending false published (rowsBelow scan.headerRow rows) := by
  cases hheader : scan.headerRow with
  | none => rfl
  | some header =>
    induction rows with
    | nil => rfl
    | cons row rest ih =>
      rw [Option.isSome_some, messages]
      by_cases habove : row.number < header
      · have hno : Publisher.isHeader scan row = false := by
          simp [Publisher.isHeader, hheader, habove]
        rw [hno]
        simpa [rowsBelow, habove] using ih
      · have hyes : Publisher.isHeader scan row = true := by
          simpa [Publisher.isHeader, hheader] using habove
        rw [hyes]
        simp [rowsBelow, habove]

/-- As long as the cap is not reached every row makes a message. -/
theorem messages_of_uncapped {scan : Scan} {ending : Except SheetFailure Ending} {published : Nat}
    {rows : List Row} (h : ∀ cap, scan.maxRows = some cap → published + rows.length < cap) :
    scan.messages ending false published rows = rows.map scan.rowMessage ++ scan.report ending := by
  induction rows generalizing published with
  | nil => rfl
  | cons row rest ih =>
    have hcap : scan.isCapped (published + 1) = false := by
      cases hm : scan.maxRows with
      | none => simp [isCapped, hm]
      | some cap =>
        have hlt := h cap hm
        simp only [List.length_cons] at hlt
        simp only [isCapped, hm, Option.any_some, decide_eq_false_iff_not]
        omega
    have hrest : ∀ cap, scan.maxRows = some cap → published + 1 + rest.length < cap := by
      intro cap hm
      have hlt := h cap hm
      simp only [List.length_cons] at hlt
      omega
    rw [messages, hcap, if_neg Bool.false_ne_true, ih hrest]
    rfl

/-- A cap that is reached cuts off everything behind the last wanted row. -/
theorem messages_of_capped {scan : Scan} {ending : Except SheetFailure Ending} {published cap : Nat}
    {rows : List Row} (hm : scan.maxRows = some cap) (hlt : published < cap)
    (hle : cap ≤ published + rows.length) :
    scan.messages ending false published rows =
      (rows.take (cap - published)).map scan.rowMessage ++ [.finished .stopped] := by
  induction rows generalizing published with
  | nil =>
    simp only [List.length_nil] at hle
    omega
  | cons row rest ih =>
    have hcapped : scan.isCapped (published + 1) = decide (cap ≤ published + 1) := by
      simp [isCapped, hm]
    obtain ⟨wanted, hwanted⟩ : ∃ wanted, cap - published = wanted + 1 :=
      ⟨cap - published - 1, by omega⟩
    rw [messages, hcapped, hwanted, List.take_succ_cons, List.map_cons, List.cons_append]
    by_cases hlast : cap ≤ published + 1
    · obtain rfl : wanted = 0 := by omega
      simp [hlast, rowMessage]
    · obtain rfl : wanted = cap - (published + 1) := by omega
      have hrest := @ih (published + 1) (by omega)
        (by simp only [List.length_cons] at hle; omega)
      simp [hlast, hrest, rowMessage]

/-- **The stream of a scan whose cap is reached.** -/
theorem stream_of_capped {scan : Scan} {feed : Feed} {cap : Nat} (hm : scan.maxRows = some cap)
    (hle : cap ≤ (rowsBelow scan.headerRow feed.rows).length) :
    scan.stream feed =
      ((rowsBelow scan.headerRow feed.rows).take cap).map scan.rowMessage ++
        [.finished .stopped] := by
  rw [stream]
  split
  next hzero =>
    obtain rfl : cap = 0 := by simpa [hm] using hzero
    rfl
  next hpos =>
    have hlt : 0 < cap := Nat.pos_of_ne_zero fun hzero => hpos (hzero ▸ hm)
    rw [messages_rowsBelow, messages_of_capped hm hlt (by omega), Nat.sub_zero]

/-- **The stream of a scan whose cap is not reached.** -/
theorem stream_of_uncapped {scan : Scan} {feed : Feed}
    (h : ∀ cap, scan.maxRows = some cap → (rowsBelow scan.headerRow feed.rows).length < cap) :
    scan.stream feed =
      (rowsBelow scan.headerRow feed.rows).map scan.rowMessage ++ scan.report feed.ending := by
  rw [stream]
  split
  next hzero => exact absurd (h 0 hzero) (Nat.not_lt_zero _)
  next => rw [messages_rowsBelow, messages_of_uncapped (by simpa using h)]

end Scan

/-! ### What a consumer makes of it -/

theorem Message.items_append (table : String) (scan : Scan) (rows : List Row)
    (rest : List Message) :
    Message.items table (rows.map scan.rowMessage ++ rest) =
      (rows.map fun row => .ok (row.project scan.positions)) ++ Message.items table rest := by
  induction rows with
  | nil => rfl
  | cons row rows ih =>
    rw [List.map_cons, List.map_cons, List.cons_append, List.cons_append, ← ih]
    rfl

theorem Message.ending?_append (scan : Scan) (rows : List Row) (rest : List Message) :
    Message.ending? (rows.map scan.rowMessage ++ rest) = Message.ending? rest := by
  induction rows with
  | nil => rfl
  | cons row rows ih => exact ih

/-- A pulled row is a row of the sheet with the cells of the wanted columns, one for each of them
and in their order. Where a column lies behind the end of the row there is the empty cell. -/
structure Row.Selects (columns : List Column) (source pulled : Row) : Prop where
  /-- The number is that of the row in the sheet. -/
  number : pulled.number = source.number
  /-- There is one cell for each column that may be asked for. -/
  size : pulled.size = (columns.filter (·.queryable)).length
  /-- It is the cell that stands at the position of the column. -/
  cell : ∀ (i : Nat) (column : Column), (columns.filter (·.queryable))[i]? = some column →
    pulled.cells[i]? = some (source.cell column.ordinal)

theorem Row.selects_project (columns : List Column) (source : Row) :
    Row.Selects columns source
      (source.project ((columns.filter (·.queryable)).map (·.ordinal))) where
  number := rfl
  size := by simp
  cell i column h := by simp [Row.project, h]

/-- What a scan of some columns returns and says of the ending that nobody stops. -/
structure Feed.Yields (feed : Feed) (table : String) (columns : List Column)
    (headerRow maxRows : Option Nat) (items : List (Except Error Row)) (outcome : Option Ending) :
    Prop where
  /-- If there are as many rows as the cap or more, the first of them are returned, and no failure
  behind them. -/
  capped : ∀ cap, maxRows = some cap → cap ≤ (rowsBelow headerRow feed.rows).length →
    ∃ rows, items = Dataset.itemsOfRows rows none ∧
      List.Forall₂ (Row.Selects columns) ((rowsBelow headerRow feed.rows).take cap) rows ∧
      outcome = some .stopped
  /-- Otherwise all rows are returned, and if the reading did not fail, it is complete. -/
  complete : (∀ cap, maxRows = some cap → (rowsBelow headerRow feed.rows).length < cap) →
    ∀ ending, feed.ending = .ok ending →
      ∃ rows, items = Dataset.itemsOfRows rows none ∧
        List.Forall₂ (Row.Selects columns) (rowsBelow headerRow feed.rows) rows ∧
        outcome = some .complete
  /-- If the reading failed, the failure comes behind them, and it names the table. -/
  failed : (∀ cap, maxRows = some cap → (rowsBelow headerRow feed.rows).length < cap) →
    ∀ e, feed.ending = .error (.error e) →
      ∃ rows failure, items = Dataset.itemsOfRows rows (some failure) ∧
        List.Forall₂ (Row.Selects columns) (rowsBelow headerRow feed.rows) rows ∧
        failure.kind = e.kind ∧ failure.message = s!"Table '{table}': {e.message}" ∧
        outcome = none

/-- No reading of all rows ends because nothing more is wanted. -/
theorem Feed.ending_ofPackage {p : Package} {id : String} {withholdBlank : Bool} {ending : Ending}
    (h : (Feed.ofPackage p id withholdBlank).ending = .ok ending) : ending = .complete := by
  cases ending with
  | complete => rfl
  | stopped =>
    rw [Feed.ofPackage] at h
    split at h
    next => cases h
    next d context _ => exact absurd h (RowReading.allRows_ne_stopped context withholdBlank d)

namespace Reader

variable {r : Reader} {found : Container} {table : Table} {p : Package} {id : String}

/-- The rows of a scan, as a consumer gets them. -/
def selected (columns : List Column) (rows : List Row) : List Row :=
  rows.map fun row => row.project ((columns.filter (·.queryable)).map (·.ordinal))

theorem selects_selected (columns : List Column) (rows : List Row) :
    List.Forall₂ (Row.Selects columns) rows (selected columns rows) := by
  rw [selected, List.forall₂_map_right_iff]
  exact List.forall₂_same.2 fun row _ => Row.selects_project columns row

/-- Rows that are sent, with what a consumer makes of the rest of the stream. -/
theorem items_rowMessage (r : Reader) (table : Table) (columns : List Column)
    (maxRows : Option Nat) (rows : List Row) {rest : List Message} {failure : Option Error}
    (hrest : Message.items table.name rest = failure.toList.map .error) :
    Message.items table.name (rows.map (r.scanOf table columns maxRows).rowMessage ++ rest) =
      Dataset.itemsOfRows (selected columns rows) failure := by
  rw [Message.items_append, hrest]
  simp [selected, Dataset.itemsOfRows, scanOf, Function.comp_def]

/-- **The stream of a scan yields the rows below the header.** -/
theorem yields_scanOf (r : Reader) (table : Table) (columns : List Column) (maxRows : Option Nat)
    (p : Package) (id : String) :
    let feed := Feed.ofPackage p id r.settings.skipBlankRows
    let scan := r.scanOf table columns maxRows
    feed.Yields table.name columns r.settings.headerRow maxRows (scan.items feed)
      (scan.ending? feed) := by
  intro feed scan
  refine ⟨?_, ?_, ?_⟩
  · intro cap hm hle
    have hstream := scan.stream_of_capped hm hle
    refine ⟨_, ?_, selects_selected _ _, ?_⟩
    · exact (congrArg _ hstream).trans (items_rowMessage r table columns maxRows _ rfl)
    · exact (congrArg _ hstream).trans (Message.ending?_append scan _ _)
  · intro hcap ending hending
    have hstream := scan.stream_of_uncapped hcap
    obtain rfl := Feed.ending_ofPackage hending
    rw [hending] at hstream
    refine ⟨_, ?_, selects_selected _ _, ?_⟩
    · exact (congrArg _ hstream).trans (items_rowMessage r table columns maxRows _ rfl)
    · exact (congrArg _ hstream).trans (Message.ending?_append scan _ _)
  · intro hcap e hending
    have hstream := scan.stream_of_uncapped hcap
    rw [hending] at hstream
    refine ⟨_, e.within (tableContext table.name), ?_, selects_selected _ _, Error.kind_within _ e,
      Error.message_within_tableContext (Feed.kind_of_ending hending), ?_⟩
    · exact (congrArg _ hstream).trans (items_rowMessage r table columns maxRows _ rfl)
    · exact (congrArg _ hstream).trans (Message.ending?_append scan _ _)

/-- **What a query yields.** A known table of a workbook that can be opened can be queried, a drain
goes through the scan to its end, and whoever does so, with whatever calls that do not stop the
scan, gets the rows below the header and learns how the reading ended. -/
theorem query_yields (columns : List Column) (maxRows : Option Nat)
    (hid : r.ids.get? table.name = some id) (hp : r.openPackage found = .ok p)
    (hc : p.contains id = true) :
    ∃ d, r.query found table columns maxRows = .ok d ∧
      (∃ h, d.History h d.drain.2 ∧ Dataset.Exhausts h ∧
        d.drain.1 = .ofItems (Dataset.itemsOf h)) ∧
      ∀ h d', d.History h d' → Dataset.Exhausts h →
        (Feed.ofPackage p id r.settings.skipBlankRows).Yields table.name columns
          r.settings.headerRow maxRows (Dataset.itemsOf h) d'.outcome := by
  let feed := Feed.ofPackage p id r.settings.skipBlankRows
  let scan := r.scanOf table columns maxRows
  refine ⟨.start scan feed, by simp [query, hid, hp, hc, scan, feed], ?_, ?_⟩
  · obtain ⟨hrun, hdrain⟩ := Dataset.drain_start scan feed
    exact ⟨_, hrun, Dataset.exhausts_pulls _, by rw [hdrain, Dataset.itemsOf_pulls]⟩
  · intro h d' hrun hend
    obtain ⟨hitems, houtcome⟩ := hrun.of_exhausts (Dataset.live_or_ended_start scan feed) hend
    rw [List.nil_append] at hitems
    rw [hitems, houtcome]
    exact yields_scanOf r table columns maxRows p id

/-- A workbook with one sheet, in which a row that cannot be read follows the only row of data. -/
def brokenBook : Container := .archive ⟨[
  ("xl/workbook.xml", Text.Utf8.encode "<workbook/>"),
  ("xl/_rels/workbook.xml.rels", Text.Utf8.encode
    "<Relationships><Relationship Id='rId1' Target='sheet.xml'/></Relationships>"),
  ("xl/sheet.xml", Text.Utf8.encode <|
    "<sheetData><row><c t='str'><v>name</v></c></row><row><c t='str'><v>x</v></c></row>" ++
      "<row r='0'/>")]⟩

/-- A reader that has seen the sheet of that workbook. -/
def brokenBookReader : Reader :=
  { Reader.new "book.xlsx" .standard with ids := IdMap.empty.insert "Data" "rId1" }

/-- With a cap of one row the scan does not get to the row that cannot be read. -/
theorem query_yields_brokenBook :
    ∃ p d, brokenBookReader.ids.get? "Data" = some "rId1" ∧
      brokenBookReader.openPackage brokenBook = .ok p ∧ p.contains "rId1" = true ∧
      brokenBookReader.query brokenBook ⟨"Data", [], "rId1"⟩ [⟨"name", .string, 0, true⟩] (some 1) =
        .ok d ∧
      ∀ h d', d.History h d' → Dataset.Exhausts h →
        (∃ row, Dataset.itemsOf h = [.ok row]) ∧ d'.outcome = some .stopped := by
  have hid : brokenBookReader.ids.get? "Data" = some "rId1" := by
    simp [brokenBookReader, IdMap.get?_insert]
  have hbook : (brokenBookReader.openPackage brokenBook).toOption.any (fun p =>
      p.contains "rId1" && 1 ≤ (rowsBelow (some 0) (Feed.ofPackage p "rId1" true).rows).length) =
      true := by decide +kernel
  cases hp : brokenBookReader.openPackage brokenBook with
  | error e => simp [hp, Except.toOption] at hbook
  | ok p =>
    obtain ⟨hc, hrows⟩ : p.contains "rId1" = true ∧
        1 ≤ (rowsBelow (some 0) (Feed.ofPackage p "rId1" true).rows).length := by
      simpa [hp, Except.toOption] using hbook
    have hname : brokenBookReader.ids.get? (⟨"Data", [], "rId1"⟩ : Table).name = some "rId1" := hid
    obtain ⟨d, hd, -, hyields⟩ :=
      query_yields [⟨"name", .string, 0, true⟩] (some 1) hname hp hc
    refine ⟨p, d, hid, rfl, hc, hd, ?_⟩
    intro h d' hrun hend
    obtain ⟨rows, hitems, hselects, houtcome⟩ := (hyields h d' hrun hend).capped 1 rfl hrows
    have hlength : rows.length = 1 := by
      rw [← hselects.length_eq, List.length_take]
      exact Nat.min_eq_left hrows
    obtain ⟨row, rfl⟩ := List.length_eq_one_iff.1 hlength
    exact ⟨⟨row, hitems⟩, houtcome⟩

end Reader

end WorkbookTables
