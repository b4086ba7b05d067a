import WorkbookTables.Proofs.Scan.Rows
import WorkbookTables.Proofs.Table.Sampling
import WorkbookTables.Table.Discovery

/-!
# Columns are made of the rows that a scan yields

The probe that finds out the columns of a table and the publisher that sends its rows decide for
themselves which rows are data. The probe keeps the row that defines the columns, counts down a
budget and asks every row for its number; the publisher drops rows until the header has come and
then drops none.

They agree on the defining row and on everything behind it, up to one difference: a row further down
whose number is not greater than that of the defining row is data for a scan, and for the probe it
is not. Where numbers ascend there is no such row.

## Main definitions

* `Probe.seen` — the rows that a probe is shown until it wants no more
* `Probe.sampled` — the rows that types are found out from
* `Probe.ColumnsOf` — columns made of rows
* `Probe.AgreesWithScan` — the sampled rows are the first that a scan yields

## Main results

* `Probe.sampler_showAll` — what the sampler of a probe knows in the end
* `discoverColumns_columnsOf` — columns that have been discovered are made of the rows of a scan
-/

namespace WorkbookTables

theorem NamingSession.length_nameAll (strategy : NamingStrategy) (s : NamingSession)
    (log : NamingLog) (requests : List NameRequest) :
    (nameAll strategy s log requests).1.length = requests.length := by
  induction requests generalizing s log with
  | nil => rfl
  | cons r rest ih => simp [nameAll, ih]

/-- Every request is given a name. -/
theorem length_nameColumns (strategy : NamingStrategy) (log : NamingLog)
    (requests : List NameRequest) :
    (nameColumns strategy log requests).1.length = requests.length :=
  NamingSession.length_nameAll strategy _ _ requests

namespace Probe

variable {settings : Settings} {ending : Except SheetFailure Ending} {p : Probe}

/-! ### The rows of a probe -/

/-- The rows behind the defining row whose numbers are greater. -/
def followers (definingRow : Row) (rest : List Row) : List Row :=
  rest.filter fun row => definingRow.number < row.number

/-- The defining row, which is data if there is no header row, and rows behind it. -/
def dataRows (settings : Settings) (definingRow : Row) (rest : List Row) : List Row :=
  if settings.headerRow.isSome then rest else definingRow :: rest

/-- The rows that types are found out from. -/
def sampled (settings : Settings) (definingRow : Row) (rest : List Row) : List Row :=
  (dataRows settings definingRow (followers definingRow rest)).take settings.eagerness

/-- The rows that a probe is shown until it wants no more. -/
def seen (settings : Settings) (rows : List Row) : List Row :=
  RowReading.shown (observe settings) none rows

theorem followers_cons_of_lt {d row : Row} (h : d.number < row.number) (rest : List Row) :
    followers d (row :: rest) = row :: followers d rest := by
  simp [followers, h]

theorem followers_cons_of_not_lt {d row : Row} (h : ¬d.number < row.number) (rest : List Row) :
    followers d (row :: rest) = followers d rest := by
  simp [followers, h]

/-! ### One row -/

/-- Above the header row a probe is not begun. -/
theorem observe_none_of_isAboveHeader {row : Row} (h : isAboveHeader settings row = true) :
    observe settings none row = (none, true) := by
  simp [observe, h]

theorem observe_none {row : Row} (h : isAboveHeader settings row = false) :
    observe settings none row = (some (define settings row),
      settings.detectTypes && (define settings row).sampler.wantsMore) := by
  simp [observe, h]

theorem observe_some_of_lt {row : Row} (hdetect : settings.detectTypes = true)
    (h : p.definingRow.number < row.number) :
    observe settings (some p) row =
      (some { p with sampler := p.sampler.sample row }, (p.sampler.sample row).wantsMore) := by
  simp [observe, hdetect, h]

theorem observe_some_of_not_lt {row : Row} (hdetect : settings.detectTypes = true)
    (h : ¬p.definingRow.number < row.number) :
    observe settings (some p) row = (some p, true) := by
  simp [observe, hdetect, h]

theorem remaining_of_not_wantsMore {s : Sampler} (h : s.wantsMore = false) : s.remaining = 0 := by
  simpa [Sampler.wantsMore] using h

/-! ### The rows behind the defining row -/

/-- **The sampler of a probe has been shown all followers**: those that it was not shown any more,
because its budget was spent, would not have changed it. -/
theorem sampler_showAll (hdetect : settings.detectTypes = true)
    (hp : p.sampler.wantsMore = true) (rest : List Row) :
    (RowReading.showAll (observe settings) ending (some p) rest).1 =
      some { p with sampler := p.sampler.sampleAll (followers p.definingRow rest) } := by
  induction rest generalizing p with
  | nil => rfl
  | cons row rest ih =>
    rw [RowReading.showAll]
    by_cases h : p.definingRow.number < row.number
    · rw [observe_some_of_lt hdetect h, followers_cons_of_lt h, Sampler.sampleAll_cons]
      cases hmore : (p.sampler.sample row).wantsMore with
      | true => exact ih hmore
      | false => rw [Sampler.sampleAll_of_spent (remaining_of_not_wantsMore hmore)]
    · rw [observe_some_of_not_lt hdetect h, followers_cons_of_not_lt h]
      exact ih hp

/-- A probe that stops has been shown as many followers as its budget allows. -/
theorem take_followers_shown (hdetect : settings.detectTypes = true)
    (hp : p.sampler.wantsMore = true) (rest : List Row) :
    (followers p.definingRow (RowReading.shown (observe settings) (some p) rest)).take
        p.sampler.remaining =
      (followers p.definingRow rest).take p.sampler.remaining := by
  induction rest generalizing p with
  | nil => rfl
  | cons row rest ih =>
    rw [RowReading.shown]
    by_cases h : p.definingRow.number < row.number
    · obtain ⟨remaining, hremaining⟩ :=
        Nat.exists_eq_succ_of_ne_zero (show p.sampler.remaining ≠ 0 by
          simpa [Sampler.wantsMore, Nat.pos_iff_ne_zero] using hp)
      have hrest : (p.sampler.sample row).remaining = remaining := by simp [hremaining]
      rw [observe_some_of_lt hdetect h, followers_cons_of_lt h, followers_cons_of_lt h, hremaining,
        List.take_succ_cons, List.take_succ_cons]
      cases hmore : (p.sampler.sample row).wantsMore with
      | true =>
        have hih := ih (p := { p with sampler := p.sampler.sample row }) hmore
        rw [hrest] at hih
        exact congrArg _ hih
      | false =>
        have hzero : remaining = 0 := hrest.symm.trans (remaining_of_not_wantsMore hmore)
        simp [hzero]
    · rw [observe_some_of_not_lt hdetect h, followers_cons_of_not_lt h, followers_cons_of_not_lt h]
      exact ih hp

/-! ### The defining row -/

/-- What becomes of a probe at its defining row and behind it. -/
theorem showAll_observe (ending : Except SheetFailure Ending) (rows : List Row) :
    RowReading.showAll (observe settings) ending none rows =
      match rows.dropWhile (isAboveHeader settings) with
      | [] => (none, ending)
      | d :: rest =>
        if settings.detectTypes && (define settings d).sampler.wantsMore then
          RowReading.showAll (observe settings) ending (some (define settings d)) rest
        else (some (define settings d), .ok .stopped) := by
  induction rows with
  | nil => rfl
  | cons row rest ih =>
    rw [RowReading.showAll]
    cases habove : isAboveHeader settings row with
    | true =>
      rw [observe_none_of_isAboveHeader habove, List.dropWhile_cons_of_pos habove]
      exact ih
    | false =>
      rw [observe_none habove, List.dropWhile_cons_of_neg (by simp [habove])]
      dsimp only
      cases settings.detectTypes && (define settings row).sampler.wantsMore <;> rfl

/-- What a probe is shown from the defining row on. -/
theorem dropWhile_seen (rows : List Row) :
    (seen settings rows).dropWhile (isAboveHeader settings) =
      match rows.dropWhile (isAboveHeader settings) with
      | [] => []
      | d :: rest =>
        d :: if settings.detectTypes && (define settings d).sampler.wantsMore then
          RowReading.shown (observe settings) (some (define settings d)) rest
        else [] := by
  induction rows with
  | nil => rfl
  | cons row rest ih =>
    rw [seen, RowReading.shown]
    cases habove : isAboveHeader settings row with
    | true =>
      rw [observe_none_of_isAboveHeader habove, List.dropWhile_cons_of_pos habove,
        List.dropWhile_cons_of_pos habove]
      exact ih
    | false =>
      have hno : ¬isAboveHeader settings row = true := by simp [habove]
      rw [observe_none habove, List.dropWhile_cons_of_neg hno, List.dropWhile_cons_of_neg hno]
      dsimp only
      cases settings.detectTypes && (define settings row).sampler.wantsMore <;> rfl

@[simp] theorem definingRow_define (settings : Settings) (d : Row) :
    (define settings d).definingRow = d := by
  rw [define]
  split <;> rfl

/-- The sampler that a probe begins with, which has been shown the defining row if that is data. -/
theorem sampler_define (settings : Settings) (d : Row) :
    (define settings d).sampler =
      (Sampler.new d.size settings.eagerness settings.widenNumbers).sampleAll
        (dataRows settings d []) := by
  rw [define, dataRows]
  split
  next h => simp [h]
  next h => simp [h]

theorem remaining_new (settings : Settings) (d : Row) :
    (Sampler.new d.size settings.eagerness settings.widenNumbers).remaining =
      settings.eagerness :=
  Nat.max_eq_left settings.eagerness_pos

theorem dataRows_eq_append (settings : Settings) (d : Row) (rest : List Row) :
    dataRows settings d rest = dataRows settings d [] ++ rest := by
  simp only [dataRows]
  split <;> rfl

theorem remaining_define (settings : Settings) (d : Row) :
    (define settings d).sampler.remaining =
      settings.eagerness - (dataRows settings d []).length := by
  rw [sampler_define]
  rw [dataRows]
  split
  · simp [remaining_new]
  · rw [Sampler.sampleAll_cons, Sampler.sampleAll_nil, Sampler.remaining_sample, remaining_new]
    rfl

/-- **What a probe knows in the end**: its sampler has been shown the rows of data as far as its
budget allowed. -/
theorem probe_of_showAll (hdetect : settings.detectTypes = true) {rows rest : List Row} {d : Row}
    (hd : rows.dropWhile (isAboveHeader settings) = d :: rest) :
    (RowReading.showAll (observe settings) ending none rows).1 =
      some ⟨d, (Sampler.new d.size settings.eagerness settings.widenNumbers).sampleAll
        (dataRows settings d (followers d rest))⟩ := by
  have hall : (Sampler.new d.size settings.eagerness settings.widenNumbers).sampleAll
      (dataRows settings d (followers d rest)) =
        (define settings d).sampler.sampleAll (followers d rest) := by
    rw [dataRows_eq_append, Sampler.sampleAll, List.foldl_append, sampler_define]
    rfl
  rw [showAll_observe, hd, hall, hdetect]
  simp only [Bool.true_and]
  cases hmore : (define settings d).sampler.wantsMore with
  | true =>
    rw [if_pos rfl, sampler_showAll hdetect hmore, definingRow_define]
  | false =>
    rw [Sampler.sampleAll_of_spent (remaining_of_not_wantsMore hmore)]
    exact congrArg some (congrArg (Probe.mk · _) (definingRow_define settings d))

/-- **The rows that types are found out from are among those that the probe has seen.** -/
theorem sampled_seen (hdetect : settings.detectTypes = true) {rows rest rest' : List Row}
    {d d' : Row} (hd : rows.dropWhile (isAboveHeader settings) = d :: rest)
    (hseen : (seen settings rows).dropWhile (isAboveHeader settings) = d' :: rest') :
    sampled settings d' rest' = sampled settings d rest := by
  rw [dropWhile_seen, hd, hdetect] at hseen
  simp only [Bool.true_and] at hseen
  obtain ⟨rfl, hrest⟩ := List.cons_eq_cons.1 hseen
  simp only [sampled]
  rw [dataRows_eq_append, dataRows_eq_append settings d (followers d rest), List.take_append,
    List.take_append, ← remaining_define, ← hrest]
  congr 1
  cases hmore : (define settings d).sampler.wantsMore with
  | true =>
    have htake := take_followers_shown (p := define settings d) hdetect hmore rest
    rw [definingRow_define] at htake
    rw [if_pos rfl, htake]
  | false => rw [remaining_of_not_wantsMore hmore, List.take_zero, List.take_zero]

/-! ### Columns -/

/-- How many positions there are in the defining row and in the rows that types are found out
from. -/
def sampledWidth (settings : Settings) (d : Row) (rest : List Row) : Nat :=
  if settings.detectTypes then Sampler.greatestSize d.size (sampled settings d rest) else d.size

/-- The type that the sampled rows make for a position, texts if they make none. -/
def sampledType (settings : Settings) (d : Row) (rest : List Row) (position : Nat) : ColumnType :=
  if settings.detectTypes then
    (ColumnType.ofCells settings.widenNumbers none
      (columnCells (sampled settings d rest) position)).getD .string
  else .string

/-- Columns are made of rows: the first row that does not stand above the header defines them, and
the sampled rows give them their types. -/
structure ColumnsOf (settings : Settings) (rows : List Row) (columns : List Column) : Prop where
  /-- Without a defining row there are no columns. -/
  none : rows.dropWhile (isAboveHeader settings) = [] → columns = []
  /-- The columns stand at the positions of the rows, blank ones left out if that is wanted. -/
  ordinals : ∀ d rest, rows.dropWhile (isAboveHeader settings) = d :: rest →
    columns.map (·.ordinal) = (List.range (sampledWidth settings d rest)).filter fun position =>
      !settings.skipBlankColumns || (define settings d).isFilled position
  /-- Each column has the type that the sampled rows make at its position. -/
  types : ∀ d rest, rows.dropWhile (isAboveHeader settings) = d :: rest →
    ∀ column ∈ columns, column.type = sampledType settings d rest column.ordinal

theorem length_names (settings : Settings) (table : String) (log : NamingLog) (p : Probe) :
    (nameColumns settings.naming log
        ((p.ordinals settings).map (p.request settings table))).1.length =
      (p.ordinals settings).length := by
  rw [length_nameColumns, List.length_map]

/-- There is a column for each position that is not left out, with the type at that position. -/
theorem columns_eq (settings : Settings) (table : String) (log : NamingLog) (p : Probe) :
    (p.columns settings table log).1.map (·.ordinal) = p.ordinals settings ∧
      ∀ column ∈ (p.columns settings table log).1,
        column.type = p.typeAt settings column.ordinal := by
  have hlength := p.length_names settings table log
  refine ⟨List.ext_getElem ?_ ?_, ?_⟩
  · simp [columns, hlength]
  · intro i _ _
    simp [columns]
  · intro column hmem
    obtain ⟨i, hi, rfl⟩ := List.getElem_of_mem hmem
    simp [columns]

/-- **What the probe of a sheet makes of its rows.** -/
theorem eq_of_showAll {rows rest : List Row} {d : Row}
    (hd : rows.dropWhile (isAboveHeader settings) = d :: rest)
    (hp : (RowReading.showAll (observe settings) ending none rows).1 = some p) :
    p.definingRow = d ∧ p.width = sampledWidth settings d rest ∧
      ∀ position, p.typeAt settings position = sampledType settings d rest position := by
  cases hdetect : settings.detectTypes with
  | true =>
    rw [probe_of_showAll hdetect hd] at hp
    obtain rfl := Option.some.inj hp
    refine ⟨rfl, ?_, ?_⟩
    · rw [width, sampledWidth, hdetect, if_pos rfl, Sampler.width_sampleAll, remaining_new,
        Sampler.width_new]
      exact Nat.max_eq_left (Sampler.le_greatestSize _ _)
    · intro position
      rw [typeAt, sampledType, hdetect, if_pos rfl, if_pos rfl, Sampler.typeAt_eq,
        Sampler.known_sampleAll, remaining_new, Sampler.known_new]
      rfl
  | false =>
    rw [showAll_observe, hd, hdetect] at hp
    obtain rfl := Option.some.inj hp
    refine ⟨definingRow_define settings d, ?_, ?_⟩
    · rw [width, sampledWidth, hdetect, if_neg Bool.false_ne_true, definingRow_define,
        sampler_define, Sampler.width_sampleAll, remaining_new, Sampler.width_new]
      rw [Sampler.greatestSize_of_forall_le fun row hrow => ?_, Nat.max_self]
      obtain rfl : row = d := by
        have hmem := List.mem_of_mem_take hrow
        rw [dataRows] at hmem
        split at hmem
        · simp at hmem
        · simpa using hmem
      exact Nat.le_refl _
    · intro position
      rw [typeAt, sampledType, hdetect]
      rfl

/-- The first of the rows that a scan yields are those that types are found out from, but for the
rows whose numbers do not ascend. -/
structure AgreesWithScan (settings : Settings) (feed : Feed) : Prop where
  /-- A probe sees the first rows of the sheet. -/
  isPrefix : seen settings feed.rows <+: feed.rows
  /-- A scan without a cap sends the rows below the header. -/
  published : ∀ scan : Scan, scan.headerRow = settings.headerRow → scan.maxRows = none →
    scan.stream feed =
      (rowsBelow settings.headerRow feed.rows).map scan.rowMessage ++ scan.report feed.ending
  /-- Without a defining row there are none. -/
  none : (seen settings feed.rows).dropWhile (isAboveHeader settings) = [] →
    rowsBelow settings.headerRow feed.rows = []
  /-- They are the rows behind the defining row, which comes first if it is data itself, and those
  that types are found out from are the first of them whose numbers are greater. -/
  some : ∀ d rest, (seen settings feed.rows).dropWhile (isAboveHeader settings) = d :: rest →
    ∃ rest', rowsBelow settings.headerRow feed.rows = dataRows settings d rest' ∧
      (settings.detectTypes = true → sampled settings d rest = sampled settings d rest')

/-- The rows below the header are those behind the defining row, or start with it. -/
theorem rowsBelow_eq (settings : Settings) (rows : List Row) :
    rowsBelow settings.headerRow rows =
      match rows.dropWhile (isAboveHeader settings) with
      | [] => []
      | d :: rest => dataRows settings d rest := by
  simp only [rowsBelow, dataRows]
  cases hheader : settings.headerRow with
  | none =>
    have hall : rows.dropWhile (isAboveHeader settings) = rows := by
      cases rows with
      | nil => rfl
      | cons row rest => rw [List.dropWhile_cons_of_neg (by simp [isAboveHeader, hheader])]
    rw [hall]
    cases rows <;> rfl
  | some header =>
    have habove : isAboveHeader settings = fun row => decide (row.number < header) := by
      funext row
      simp [isAboveHeader, hheader]
    rw [habove]
    dsimp only
    cases rows.dropWhile fun row => decide (row.number < header) <;> rfl

theorem agreesWithScan (settings : Settings) (feed : Feed) : AgreesWithScan settings feed where
  isPrefix := RowReading.shown_isPrefix _ _ _
  published scan hheader hm := by
    rw [← hheader]
    exact Scan.stream_of_uncapped fun cap hcap => by simp [hm] at hcap
  none h := by
    rw [dropWhile_seen] at h
    cases hall : feed.rows.dropWhile (isAboveHeader settings) with
    | nil => rw [rowsBelow_eq, hall]
    | cons d rest => simp [hall] at h
  some d rest h := by
    have hseen := h
    rw [dropWhile_seen] at h
    split at h
    next => simp at h
    next d' rest' hall =>
      obtain ⟨rfl, -⟩ := List.cons_eq_cons.1 h
      refine ⟨rest', by rw [rowsBelow_eq, hall], ?_⟩
      intro hdetect
      exact sampled_seen hdetect hall hseen

/-- The columns of a probe are made of the rows that it has seen. -/
theorem columnsOf_of_showAll (table : String) (log : NamingLog) {rows : List Row}
    (hp : (RowReading.showAll (observe settings) ending none rows).1 = some p) :
    ColumnsOf settings (seen settings rows) (p.columns settings table log).1 := by
  obtain ⟨hordinals, htypes⟩ := columns_eq settings table log p
  have hmade : ∀ d rest, (seen settings rows).dropWhile (isAboveHeader settings) = d :: rest →
      p.definingRow = d ∧ p.width = sampledWidth settings d rest ∧
        ∀ position, p.typeAt settings position = sampledType settings d rest position := by
    intro d rest hseen
    have h := hseen
    rw [dropWhile_seen] at h
    split at h
    next => simp at h
    next d' rest' hall =>
      obtain ⟨rfl, -⟩ := List.cons_eq_cons.1 h
      obtain ⟨hd, hwidth, htype⟩ := eq_of_showAll hall hp
      cases hdetect : settings.detectTypes with
      | true =>
        have hsampled := sampled_seen hdetect hall hseen
        refine ⟨hd, ?_, ?_⟩
        · rw [hwidth, sampledWidth, sampledWidth, hsampled]
        · intro position
          rw [htype, sampledType, sampledType, hsampled]
      | false =>
        refine ⟨hd, ?_, ?_⟩
        · rw [hwidth, sampledWidth, sampledWidth, hdetect]
          rfl
        · intro position
          rw [htype, sampledType, sampledType, hdetect]
          rfl
  refine ⟨?_, ?_, ?_⟩
  · intro hnone
    rw [dropWhile_seen] at hnone
    cases hall : rows.dropWhile (isAboveHeader settings) with
    | nil => simp [showAll_observe, hall] at hp
    | cons d rest => simp [hall] at hnone
  · intro d rest hseen
    obtain ⟨hd, hwidth, -⟩ := hmade d rest hseen
    rw [hordinals, ordinals, hwidth]
    simp only [isFilled, hd, definingRow_define]
  · intro d rest hseen column hmem
    rw [htypes column hmem, (hmade d rest hseen).2.2]

/-- A probe that has not begun has been shown no defining row. -/
theorem dropWhile_eq_nil_of_showAll {rows : List Row}
    (hp : (RowReading.showAll (observe settings) ending none rows).1 = none) :
    rows.dropWhile (isAboveHeader settings) = [] := by
  rw [showAll_observe] at hp
  cases hall : rows.dropWhile (isAboveHeader settings) with
  | nil => rfl
  | cons d rest =>
    rw [hall] at hp
    dsimp only at hp
    split at hp
    next hmore =>
      rw [Bool.and_eq_true] at hmore
      rw [sampler_showAll hmore.1 hmore.2] at hp
      simp at hp
    next => simp at hp

theorem columnsOf_nil {rows : List Row}
    (hp : (RowReading.showAll (observe settings) ending none rows).1 = none) :
    ColumnsOf settings (seen settings rows) [] := by
  have hnone : (seen settings rows).dropWhile (isAboveHeader settings) = [] := by
    rw [dropWhile_seen, dropWhile_eq_nil_of_showAll hp]
  refine ⟨fun _ => rfl, ?_, ?_⟩
  · intro d rest hseen
    simp [hnone] at hseen
  · intro d rest hseen
    simp [hnone] at hseen

end Probe

/-- **Columns that have been discovered are made of the rows that a scan of the table yields**, for
every sheet and all settings. -/
theorem discoverColumns_columnsOf {settings : Settings} {table : String} {log log' : NamingLog}
    {p p' : Package} {id : String} {columns : List Column}
    (h : discoverColumns settings table log p id = (p', log', .ok columns)) :
    Probe.ColumnsOf settings
        (Probe.seen settings (Feed.ofPackage p id settings.skipBlankRows).rows) columns ∧
      Probe.AgreesWithScan settings (Feed.ofPackage p id settings.skipBlankRows) := by
  refine ⟨?_, Probe.agreesWithScan settings _⟩
  rw [discoverColumns] at h
  split at h
  next => simp at h
  next p₁ d context hsheet =>
    have hfeed : Feed.ofPackage p id settings.skipBlankRows =
        ⟨(RowReading.allRows context settings.skipBlankRows d).1.toList,
          (RowReading.allRows context settings.skipBlankRows d).2⟩ := by
      simp only [Feed.ofPackage, hsheet]
    have hrun : Probe.run settings table context d =
        RowReading.showAll (Probe.observe settings)
          (RowReading.allRows context settings.skipBlankRows d).2 none
          (RowReading.allRows context settings.skipBlankRows d).1.toList := by
      rw [← RowReading.deliver_eq]
      rfl
    obtain ⟨-, h⟩ := Prod.mk.inj h
    rw [discoverIn] at h
    rw [hfeed]
    split at h
    next => simp at h
    next ending hresult =>
      obtain rfl := Except.ok.inj (Prod.mk.inj h).2
      have hnone := congrArg Prod.fst (hrun.symm.trans hresult)
      exact Probe.columnsOf_nil hnone
    next probe ending hresult =>
      obtain rfl := Except.ok.inj (Prod.mk.inj h).2
      have hsome := congrArg Prod.fst (hrun.symm.trans hresult)
      exact Probe.columnsOf_of_showAll table log hsome

/-- A probe that looks at one row does not get to the row that cannot be read. -/
theorem discoverColumns_columnsOf_brokenBook :
    let settings := Settings.standard.withEagerness 1
    ∃ p p' log' columns, Reader.brokenBookReader.openPackage Reader.brokenBook = .ok p ∧
      discoverColumns settings "Data" [] p "rId1" = (p', log', .ok columns) ∧
      Probe.ColumnsOf settings (Probe.seen settings (Feed.ofPackage p "rId1" true).rows) columns ∧
      Probe.AgreesWithScan settings (Feed.ofPackage p "rId1" true) := by
  have hbook : (Reader.brokenBookReader.openPackage Reader.brokenBook).toOption.any
      (fun p => (discoverColumns (Settings.standard.withEagerness 1) "Data" [] p "rId1").2.2.isOk) =
        true := by
    decide +kernel
  cases hp : Reader.brokenBookReader.openPackage Reader.brokenBook with
  | error e => simp [hp, Except.toOption] at hbook
  | ok p =>
    cases hd : discoverColumns (Settings.standard.withEagerness 1) "Data" [] p "rId1" with
    | mk p' found =>
      obtain ⟨log', failure | columns⟩ := found
      · simp [hp, hd, Except.toOption, Except.isOk, Except.toBool] at hbook
      · exact ⟨p, p', log', columns, rfl, hd, discoverColumns_columnsOf hd⟩

end WorkbookTables
