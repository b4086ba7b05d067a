import WorkbookTables.Proofs.Markup.WrittenText
import WorkbookTables.Proofs.Table.Columns

/-!
# Types and the cells that they are made of

A type other than that of texts speaks for every cell that it was made of: it is what the cell
speaks for itself, or the cell holds a whole number, numbers may be widened, and the type is that of
all numbers. In particular each of the cells has a text. A cell that is missing would have made a
text of the column, so a row counts whether it reaches the column or not, as long as it has any cell
at all; where blank rows are left out, every row has one.

## Main definitions

* `ColumnType.Covers`, `ColumnType.Admits` — what a type says of the cells of its column

## Main results

* `ColumnType.covers_of_ofCells` — a type covers what it was made of
* `RowReading.isEmpty_of_mem_allRows` — rows that are not withheld have cells
* `Probe.admits_of_mem_sampled` — the types of columns and the rows that they were found out from
-/

namespace WorkbookTables

/-! ### One column -/

namespace ColumnType

variable {numeric : Bool} {s t u : ColumnType} {c : Cell}

/-- Holds if a column of the type `t` may hold a cell that speaks for `s`. -/
def Covers (numeric : Bool) (t s : ColumnType) : Prop :=
  s = t ∨ numeric = true ∧ t = .double ∧ s = .integer

/-- Holds of cells with a text that is not empty, which speak for a type that `t` covers. -/
def Admits (numeric : Bool) (t : ColumnType) (c : Cell) : Prop :=
  (∃ text, c.text = some text ∧ text ≠ "") ∧ t.Covers numeric (ofCell c)

theorem Covers.refl (numeric : Bool) (t : ColumnType) : t.Covers numeric t := .inl rfl

theorem Covers.trans (h : t.Covers numeric s) (h' : s.Covers numeric u) : t.Covers numeric u := by
  obtain rfl | ⟨hnumeric, rfl, rfl⟩ := h
  · exact h'
  · obtain rfl | ⟨-, hs, -⟩ := h'
    · exact .inr ⟨hnumeric, rfl, rfl⟩
    · cases hs

/-- Texts are covered by nothing but texts. -/
theorem Covers.ne_string (h : t.Covers numeric s) (ht : t ≠ .string) : s ≠ .string := by
  obtain rfl | ⟨-, -, rfl⟩ := h
  · exact ht
  · exact ColumnType.noConfusion

theorem covers_double (hnumeric : numeric = true) (h : s.isNumeric = true) :
    ColumnType.double.Covers numeric s := by
  cases s with
  | integer => exact .inr ⟨hnumeric, rfl, rfl⟩
  | double => exact .refl numeric .double
  | _ => cases h

/-- A type that has been widened covers both types that it was made of, unless it is texts. -/
theorem covers_widen {current : Option ColumnType} (h : widen numeric current s ≠ .string) :
    (widen numeric current s).Covers numeric s ∧
      ∀ t, current = some t → (widen numeric current s).Covers numeric t := by
  cases current with
  | none => exact ⟨.refl numeric s, nofun⟩
  | some t =>
    simp only [widen] at h ⊢
    by_cases heq : t = s
    · subst heq
      rw [if_pos rfl]
      refine ⟨.refl numeric t, ?_⟩
      intro u hu
      obtain rfl := Option.some.inj hu
      exact .refl numeric t
    · rw [if_neg heq] at h ⊢
      split at h
      next hwiden =>
        obtain ⟨hnumeric, ht, hs⟩ := hwiden
        rw [if_pos ⟨hnumeric, ht, hs⟩]
        refine ⟨covers_double hnumeric hs, ?_⟩
        intro u hu
        obtain rfl := Option.some.inj hu
        exact covers_double hnumeric ht
      next => exact absurd rfl h

/-- **A type covers what it was made of**, unless it is texts. -/
theorem covers_of_ofCells {start : Option ColumnType} {cells : List Cell}
    (h : ofCells numeric start cells = some t) (ht : t ≠ .string) :
    (∀ s, start = some s → t.Covers numeric s) ∧ ∀ c ∈ cells, t.Covers numeric (ofCell c) := by
  induction cells generalizing start with
  | nil =>
    refine ⟨?_, nofun⟩
    rintro s rfl
    obtain rfl := Option.some.inj h
    exact .refl numeric s
  | cons c rest ih =>
    obtain ⟨hwidened, hrest⟩ := ih h
    have hcovers := hwidened _ rfl
    obtain ⟨hcell, hstart⟩ := covers_widen (hcovers.ne_string ht)
    refine ⟨?_, List.forall_mem_cons.2 ⟨hcovers.trans hcell, hrest⟩⟩
    intro s hs
    exact hcovers.trans (hstart s hs)

/-- A cell that speaks for anything but texts has a text. -/
theorem exists_text_of_ofCell (h : ofCell c ≠ .string) :
    ∃ text, c.text = some text ∧ text ≠ "" := by
  cases htext : c.text with
  | none => simp [ofCell, htext] at h
  | some text =>
    refine ⟨text, rfl, ?_⟩
    rintro rfl
    simp [ofCell, htext] at h

theorem Covers.admits (h : t.Covers numeric (ofCell c)) (ht : t ≠ .string) : t.Admits numeric c :=
  ⟨exists_text_of_ofCell (h.ne_string ht), h⟩

end ColumnType

/-! ### Rows that are not withheld -/

theorem Row.isBlank_of_isEmpty {row : Row} (h : row.isEmpty = true) : row.isBlank = true := by
  have hcells : row.cells = #[] := by simpa [Row.isEmpty] using h
  simp [Row.isBlank, hcells]

namespace RowReading

/-- **An action touches the observer only to show it the row that is closed**, which is not to be
withheld. -/
theorem observer_run {τ : Type} (context : SheetContext) (withholdBlank : Bool)
    (onRow : τ → Row → τ × Bool) (a : Action) (s : State τ) :
    (a.run context withholdBlank onRow s).1.observer = s.observer ∨
      ¬(withholdBlank = true ∧ s.row.isBlank = true) ∧
        (a.run context withholdBlank onRow s).1.observer = (onRow s.observer s.row).1 := by
  cases a with
  | readValue item e =>
    left
    rw [Action.run, State.stepValue]
    split <;> rfl
  | openRow tag =>
    left
    rw [Action.run, State.openRow]
    split <;> rfl
  | openCell tag =>
    left
    rw [Action.run, State.openCell]
    split <;> rfl
  | openValue element isValue => exact .inl rfl
  | closeRow =>
    rw [Action.run, State.closeRow]
    by_cases hblank : withholdBlank = true ∧ s.row.isBlank = true
    · rw [if_pos hblank]
      exact .inl rfl
    · rw [if_neg hblank]
      exact .inr ⟨hblank, rfl⟩
  | closeCell =>
    left
    simp only [Action.run, State.closeCell]
    repeat' split
    all_goals rfl
  | finish => exact .inl rfl
  | skip => exact .inl rfl

/-- **Rows that are not withheld have cells**, if blank ones are. -/
theorem isEmpty_of_mem_allRows {d : Markup.Document} {row : Row}
    (h : row ∈ (allRows context true d).1.toList) : row.isEmpty = false := by
  let Filled (s : State (Array Row)) : Prop := ∀ row ∈ s.observer, row.isEmpty = false
  have hstep (s : State (Array Row)) (hs : Filled s) (e : Markup.Event) :
      Filled (s.step context true collect e).1 := by
    intro row hrow
    rw [State.step_eq] at hrow
    obtain hobserver | ⟨hshown, hobserver⟩ := observer_run context true collect (s.action e) s
    · rw [hobserver] at hrow
      exact hs row hrow
    · rw [hobserver] at hrow
      obtain hrow | rfl := Array.mem_push.1 hrow
      · exact hs row hrow
      · by_contra hempty
        exact hshown ⟨rfl, Row.isBlank_of_isEmpty (by simpa using hempty)⟩
  obtain ⟨-, -, hend⟩ := Markup.Reading.run_invariant (r := reading context true collect)
    (I := fun _ s => Filled s) (fun _ hs e => hstep _ hs e) d.fault d.events
    (.nil (State.start #[])) (fun row hrow => absurd hrow (Array.not_mem_empty row))
  exact hend row (Array.mem_toList_iff.1 h)

end RowReading

/-! ### The rows of a probe -/

namespace Probe

variable {settings : Settings} {d row : Row} {rest : List Row}

theorem mem_take_filter {α : Type} {p : α → Bool} {n : Nat} {l : List α} {a : α}
    (h : a ∈ l.take n) (ha : p a = true) : a ∈ (l.filter p).take n := by
  have hprefix : (l.take n).filter p <+: (l.filter p).take n := by
    refine List.prefix_take_iff.2 ⟨(List.take_prefix n l).filter p, ?_⟩
    exact (List.length_filter_le p _).trans (List.length_take_le n l)
  exact hprefix.subset (List.mem_filter.2 ⟨h, ha⟩)

/-- The rows that are sampled are the defining row and rows behind it. -/
theorem mem_of_mem_sampled (h : row ∈ sampled settings d rest) : row ∈ d :: rest := by
  have hdata : row ∈ dataRows settings d (followers d rest) := List.mem_of_mem_take h
  rw [dataRows] at hdata
  split at hdata
  · exact List.mem_cons_of_mem d (List.mem_of_mem_filter hdata)
  · exact (List.filter_sublist.cons_cons d).subset hdata

/-- Without a header row the defining row is sampled first. -/
theorem mem_sampled_self (h : settings.headerRow = none) : d ∈ sampled settings d rest := by
  obtain ⟨n, hn⟩ := Nat.exists_eq_succ_of_ne_zero settings.eagerness_pos.ne'
  have hdata : dataRows settings d (followers d rest) = d :: followers d rest := by
    rw [dataRows, h]
    rfl
  rw [sampled, hdata, hn, List.take_succ_cons]
  exact List.mem_cons_self

/-- The first rows of data are sampled if their numbers are greater than that of the defining
row. -/
theorem mem_sampled_of_lt (h : row ∈ (dataRows settings d rest).take settings.eagerness)
    (hlt : d.number < row.number) : row ∈ sampled settings d rest := by
  have hfollows : decide (d.number < row.number) = true := by simpa using hlt
  cases hheader : settings.headerRow with
  | some header =>
    simp only [sampled, dataRows, hheader, Option.isSome_some, if_true] at h ⊢
    exact mem_take_filter h hfollows
  | none =>
    obtain ⟨n, hn⟩ := Nat.exists_eq_succ_of_ne_zero settings.eagerness_pos.ne'
    simp only [sampled, dataRows, hheader, Option.isSome_none, Bool.false_eq_true, if_false, hn,
      List.take_succ_cons, List.mem_cons] at h ⊢
    obtain rfl | h := h
    · exact .inl rfl
    · exact .inr (mem_take_filter h hfollows)

/-- **The type of a column admits its cells in the rows that it was found out from**, unless it is
texts. -/
theorem admits_of_mem_sampled {position : Nat} (h : row ∈ sampled settings d rest)
    (hcells : row.isEmpty = false) (htype : sampledType settings d rest position ≠ .string) :
    (sampledType settings d rest position).Admits settings.widenNumbers (row.cell position) := by
  rw [sampledType] at htype ⊢
  split at htype
  next hdetect =>
    rw [if_pos hdetect]
    cases hmade : ColumnType.ofCells settings.widenNumbers none
        (columnCells (sampled settings d rest) position) with
    | none =>
      rw [hmade] at htype
      exact absurd rfl htype
    | some t =>
      rw [hmade, Option.getD_some] at htype
      obtain ⟨-, hcovers⟩ := ColumnType.covers_of_ofCells hmade htype
      have hmem : row.cell position ∈ columnCells (sampled settings d rest) position :=
        List.mem_map_of_mem (List.mem_filter.2 ⟨h, by rw [hcells]; rfl⟩)
      exact (hcovers _ hmem).admits htype
  next => exact absurd rfl htype

end Probe

end WorkbookTables
