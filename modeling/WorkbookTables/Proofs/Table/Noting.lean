import WorkbookTables.Proofs.Table.Columns

/-!
# The rows that a probe has sampled

A probe that notes every row at which the budget of its sampler goes down notes rows that a scan
without a cap sends: they stand below the header, and they are noted in the order of the sheet. If
the probe wants rows until there are none left, the rows end for the scan as they ended for it.

## Main definitions

* `Probe.budget` — how many rows a probe may still sample
* `Probe.noting`, `Probe.sampledRows` — a probe that notes what it samples, and its notes

## Main results

* `Probe.length_sampledRows` — as many rows are sampled as the budget goes down
* `Probe.sampledRows_sublist` — the sampled rows stand below the header
* `Probe.complete_of_run` — a probe that has come to the end has seen all rows
-/

namespace WorkbookTables

namespace Probe

/-- How many rows a probe may still sample. -/
def budget (settings : Settings) : Option Probe → Nat
  | none => settings.eagerness
  | some p => p.sampler.remaining

/-- A probe that notes the rows at which its budget goes down. -/
def noting (settings : Settings) (noted : List Row × Option Probe) (row : Row) :
    (List Row × Option Probe) × Bool :=
  let (probe, wantsMore) := observe settings noted.2 row
  ((if budget settings probe < budget settings noted.2 then noted.1 ++ [row] else noted.1, probe),
    wantsMore)

/-- The rows that the probe of a sheet samples. -/
def sampledRows (settings : Settings) (table : String) (context : SheetContext)
    (d : Markup.Document) : List Row :=
  ((RowParser.new table).parse context settings.skipBlankRows (noting settings) ([], none) d).2.1.1

variable (settings : Settings)

/-- A row costs a probe nothing, or one of its budget. -/
theorem budget_observe (probe : Option Probe) (row : Row) :
    budget settings (observe settings probe row).1 = budget settings probe ∨
      budget settings (observe settings probe row).1 + 1 = budget settings probe := by
  cases probe with
  | some p =>
    rw [observe]
    split
    · have hsample : (p.sampler.sample row).remaining = p.sampler.remaining - 1 :=
        Sampler.remaining_sample _ _
      simp only [budget]
      omega
    · exact .inl rfl
  | none =>
    rw [observe]
    split
    · exact .inl rfl
    · have hdefine := remaining_define settings row
      have hdata : (dataRows settings row []).length ≤ 1 := by
        rw [dataRows]
        split <;> simp
      have hpos := settings.eagerness_pos
      simp only [budget]
      omega

/-- What is noted of a row: the row itself or nothing, as often as it costs something. The probe
takes no notice of that. -/
theorem exists_noted_row (noted : List Row × Option Probe) (row : Row) :
    ∃ here, List.Sublist here [row] ∧
      noting settings noted row =
        ((noted.1 ++ here, (observe settings noted.2 row).1), (observe settings noted.2 row).2) ∧
      here.length + budget settings (observe settings noted.2 row).1 = budget settings noted.2 := by
  rw [noting]
  by_cases hlt : budget settings (observe settings noted.2 row).1 < budget settings noted.2
  · refine ⟨[row], .refl _, by simp [hlt], ?_⟩
    have hcost := budget_observe settings noted.2 row
    rw [List.length_singleton]
    omega
  · refine ⟨[], List.nil_sublist _, by simp [hlt], ?_⟩
    have hcost := budget_observe settings noted.2 row
    rw [List.length_nil]
    omega

/-- What is noted are some of the rows, in their order, and as many as they cost. -/
theorem exists_noted (ending : Except SheetFailure Ending) (noted : List Row × Option Probe)
    (rows : List Row) :
    let observed := RowReading.showAll (observe settings) ending noted.2 rows
    ∃ sampled, List.Sublist sampled rows ∧
      RowReading.showAll (noting settings) ending noted rows =
        ((noted.1 ++ sampled, observed.1), observed.2) ∧
      sampled.length + budget settings observed.1 = budget settings noted.2 := by
  induction rows generalizing noted with
  | nil => exact ⟨[], .slnil, by simp [RowReading.showAll], Nat.zero_add _⟩
  | cons row rest ih =>
    obtain ⟨here, hhere, hnoted, hcost⟩ := exists_noted_row settings noted row
    rw [RowReading.showAll, RowReading.showAll, hnoted]
    cases hobserve : observe settings noted.2 row with
    | mk probe wantsMore =>
      rw [hobserve] at hcost
      cases wantsMore with
      | true =>
        obtain ⟨sampled, hsampled, hrest, hcosts⟩ := ih (noted.1 ++ here, probe)
        refine ⟨here ++ sampled, hhere.append hsampled, ?_, ?_⟩
        · simpa only [List.append_assoc] using hrest
        · simp only at hcosts hcost ⊢
          rw [List.length_append]
          omega
      | false =>
        exact ⟨here, hhere.trans (List.singleton_sublist.2 List.mem_cons_self), rfl, hcost⟩

/-- The defining row is noted only if it is data itself. -/
theorem noting_define {settings : Settings} {row : Row} (header : Nat)
    (hheader : settings.headerRow = some header)
    (habove : isAboveHeader settings row = false) (noted : List Row) :
    (noting settings (noted, none) row).1.1 = noted := by
  rw [noting, observe_none habove]
  refine if_neg ?_
  simp [budget, define, hheader, remaining_new]

/-- **What is noted stands below the header.** -/
theorem noted_sublist (ending : Except SheetFailure Ending) (rows : List Row) :
    List.Sublist (RowReading.showAll (noting settings) ending ([], none) rows).1.1
      (rowsBelow settings.headerRow rows) := by
  cases hheader : settings.headerRow with
  | none =>
    obtain ⟨sampled, hsampled, hnoted, -⟩ := exists_noted settings ending ([], none) rows
    rw [hnoted]
    exact hsampled
  | some header =>
    induction rows with
    | nil => exact List.nil_sublist _
    | cons row rest ih =>
      by_cases habove : isAboveHeader settings row = true
      · have hstep : noting settings ([], none) row = (([], none), true) := by
          rw [noting, observe_none_of_isAboveHeader habove]
          simp
        have hlt : row.number < header := by simpa [isAboveHeader, hheader] using habove
        rw [RowReading.showAll, hstep]
        simpa [rowsBelow, hlt] using ih
      · have hbelow : isAboveHeader settings row = false := by simpa using habove
        have hge : ¬row.number < header := by simpa [isAboveHeader, hheader] using hbelow
        have hrows : rowsBelow (some header) (row :: rest) = rest := by simp [rowsBelow, hge]
        have hdefine := noting_define header hheader hbelow []
        rw [hrows, RowReading.showAll]
        split
        next noted' hshow =>
          rw [hshow] at hdefine
          obtain ⟨sampled, hsampled, hnoted, -⟩ := exists_noted settings ending noted' rest
          rw [hnoted, hdefine]
          exact hsampled
        next noted' hshow =>
          rw [hshow] at hdefine
          rw [hdefine]
          exact List.nil_sublist _

/-- **There are as many sampled rows as the probe has spent of its budget.** -/
theorem length_sampledRows (table : String) (context : SheetContext) (d : Markup.Document) :
    (sampledRows settings table context d).length +
      budget settings (run settings table context d).1 = settings.eagerness := by
  have hparse := RowReading.deliver_eq context settings.skipBlankRows (noting settings) ([], none) d
  have hrun := RowReading.deliver_eq context settings.skipBlankRows (observe settings) none d
  obtain ⟨sampled, -, hnoted, hcost⟩ := exists_noted settings
    (RowReading.allRows context settings.skipBlankRows d).2 ([], none)
    (RowReading.allRows context settings.skipBlankRows d).1.toList
  rw [hnoted] at hparse
  have hsampled : sampledRows settings table context d = sampled := congrArg (·.1.1) hparse
  have hprobe : (run settings table context d).1 = _ := congrArg Prod.fst hrun
  rw [hsampled, hprobe]
  exact hcost

variable {p : Package} {id : String} {d : Markup.Document} {context : SheetContext}

/-- **The sampled rows are rows that a scan without a cap sends.** -/
theorem sampledRows_sublist (table : String)
    (h : (p.worksheet id).2 = .ok (d, context)) :
    List.Sublist (sampledRows settings table context d)
      (rowsBelow settings.headerRow (Feed.ofPackage p id settings.skipBlankRows).rows) := by
  have hnoted : sampledRows settings table context d =
      (RowReading.showAll (noting settings) (Feed.ofPackage p id settings.skipBlankRows).ending
        ([], none) (Feed.ofPackage p id settings.skipBlankRows).rows).1.1 := by
    simp only [Feed.ofPackage, h, sampledRows]
    exact congrArg (·.1.1)
      (RowReading.deliver_eq context settings.skipBlankRows (noting settings) ([], none) d)
  rw [hnoted]
  exact noted_sublist _ _ _

/-- **A probe that has come to the end has seen all rows.** -/
theorem complete_of_run {settings : Settings} {table : String} {probe : Option Probe}
    (h : (p.worksheet id).2 = .ok (d, context))
    (hrun : Probe.run settings table context d = (probe, .ok .complete)) :
    (Feed.ofPackage p id settings.skipBlankRows).ending = .ok .complete := by
  rw [run_eq_showAll settings table h] at hrun
  have hending := congrArg Prod.snd hrun
  obtain hall | hstopped := RowReading.snd_showAll (observe settings)
    (Feed.ofPackage p id settings.skipBlankRows).ending none
    (Feed.ofPackage p id settings.skipBlankRows).rows
  · exact hall.symm.trans hending
  · cases hstopped.symm.trans hending

end Probe

end WorkbookTables
