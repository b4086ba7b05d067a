import WorkbookTables.Proofs.Book.Formats
import WorkbookTables.Proofs.Markup.Failures
import WorkbookTables.Proofs.Sheet.Nesting
import WorkbookTables.Proofs.Sheet.Observer
import WorkbookTables.Proofs.Sheet.Placing
import WorkbookTables.Sheet.RowParser

/-!
# Texts and the kinds of their cells

The kind of a cell says something about its text: a truth value is one of two words, and a number
that is shown as a date is shown in the calendar. The two come apart in time. The opening tag of a
cell sets the style at its position, and the text follows when the cell closes, if the cell has a
value; a value that cannot be shown as the style wants changes the kind together with the text.

One way is left in which a text can stand beside a kind that it does not fit. A cell without a
value, at a position that has been given before in the row, changes the style there and leaves the
text. Wherever a text does not fit, this has happened.

## Main definitions

* `Cell.Fits` — the text of a cell is one that its kind can show
* `RowReading.Reopened` — the text of a cell stood there before the cell was opened

## Main results

* `RowReading.fits_of_renderValue` — what a cell shows for a value fits its kind
* `RowReading.Fitting.step` — what every event keeps
* `RowParser.fits_or_reopened` — the texts of a sheet
* `RowParser.not_fits` — not every text fits
-/

namespace WorkbookTables

open Markup

/-! ### Texts that a kind can show -/

namespace Cell

/-- Holds of the texts that a cell of the given kind can show. -/
def Kind.Shows (system : DateSystem) (text : String) : Kind → Prop
  | .empty => False
  | .boolean => text = "true" ∨ text = "false"
  | .numberDate => ∃ value, Serial.dateText system value = .ok text
  | .numberDateTime => ∃ value, Serial.dateTimeText system value = .ok text
  | .numberTime => ∃ value, Serial.timeText value = .ok text
  | _ => True

/-- Holds of cells without a text and of those whose kind can show their text. -/
def Fits (system : DateSystem) (c : Cell) : Prop :=
  ∀ text, c.text = some text → c.style.kind.Shows system text

theorem fits_of_text_eq_none {system : DateSystem} {c : Cell} (h : c.text = none) :
    c.Fits system := by
  intro text htext
  rw [h] at htext
  cases htext

/-- What is displayed can be shown. -/
theorem Kind.shows_of_displayText {kind : Kind} {system : DateSystem} {raw text : String}
    (hkind : kind ≠ .empty) (h : displayText kind system raw = .ok text) :
    kind.Shows system text := by
  cases kind with
  | empty => exact absurd rfl hkind
  | boolean =>
    obtain rfl := Except.ok.inj h
    show (if isTrue raw then "true" else "false") = "true" ∨
      (if isTrue raw then "true" else "false") = "false"
    split
    · exact .inl rfl
    · exact .inr rfl
  | numberDate => exact ⟨raw, h⟩
  | numberDateTime => exact ⟨raw, h⟩
  | numberTime => exact ⟨raw, h⟩
  | number => trivial
  | isoDateTime => trivial
  | inlineString => trivial
  | sharedString => trivial
  | formulaString => trivial
  | error => trivial

end Cell

/-! ### The texts of a sheet -/

namespace RowReading

variable {context : SheetContext} {withholdBlank : Bool}

theorem storedKind_ne_empty (type : Option String) : storedKind type ≠ .empty := by
  simp only [storedKind]
  split_ifs <;> exact Cell.Kind.noConfusion

theorem kind_styleOf_ne_empty {formats : FormatTable} (h : formats.IsRead) (type : Option String)
    (formatIndex : Option Nat) :
    (styleOf formats (storedKind type) formatIndex).kind ≠ .empty := by
  cases hstored : storedKind type with
  | number =>
    cases formatIndex with
    | none => exact Cell.Kind.noConfusion
    | some index => exact (h.isOfNumber_get index).ne_empty
  | empty => exact absurd hstored (storedKind_ne_empty type)
  | _ => exact Cell.Kind.noConfusion

/-- An opening tag gives a cell a kind. -/
theorem kind_ne_empty_of_describeCell {row next position : Nat} {tag : Tag} {style : Cell.Style}
    (hformats : context.formats.IsRead)
    (h : describeCell context row next tag = .ok (position, style)) : style.kind ≠ .empty := by
  rw [describeCell] at h
  obtain ⟨reference, -, h⟩ := ok_of_bind h
  obtain ⟨position', -, h⟩ := ok_of_bind h
  obtain ⟨type, -, h⟩ := ok_of_bind h
  obtain ⟨format, -, h⟩ := ok_of_bind h
  obtain ⟨index, -, h⟩ := ok_of_bind h
  cases h
  exact kind_styleOf_ne_empty hformats type index

/-- **What a cell shows for a value fits its kind.** -/
theorem fits_of_renderValue {kind kind' : Cell.Kind} {raw : String} {shown : Option String}
    {formatIndex : Option Nat} (hkind : kind ≠ .empty)
    (h : renderValue context kind raw = .ok (shown, kind')) :
    Cell.Fits context.system ⟨shown, ⟨formatIndex, kind'⟩⟩ := by
  rintro text rfl
  cases kind with
  | sharedString =>
    cases htext : sharedText context.strings raw with
    | error e => simp [renderValue, htext, Except.map] at h
    | ok text' =>
      simp only [renderValue, htext, Except.map] at h
      cases h
      trivial
  | inlineString =>
    cases h
    trivial
  | formulaString =>
    cases h
    trivial
  | error =>
    cases h
    trivial
  | _ =>
    simp only [renderValue] at h
    split at h
    · cases h
    split at h
    next text' hdisplay =>
      cases h
      exact Cell.Kind.shows_of_displayText hkind hdisplay
    next =>
      cases h
      trivial

theorem eq_opening_of_action {τ : Type} {s : State τ} {e : Event} {tag : Tag}
    (h : s.action e = .openCell tag) : e = .opening tag := by
  have hrole : s.nesting.role e = .cellTag tag := by rw [State.role_nesting, h, Action.role]
  exact (Nesting.admits_of_role hrole).2.1

/-- Among the events of a sheet there is an opening tag that gave a cell of a row its style when its
text stood there already. -/
def Reopened (context : SheetContext) (withholdBlank : Bool) (events : List Event) (row : Row)
    (position : Nat) : Prop :=
  ∃ before tag after s, events = before ++ .opening tag :: after ∧
    (reading context withholdBlank collect).Passes (.start #[]) before s ∧
    s.action (.opening tag) = .openCell tag ∧
    s.row.number = row.number ∧ (s.row.cell position).text = (row.cell position).text ∧
    describeCell context s.row.number s.nextPosition tag =
      .ok (position, (row.cell position).style)

/-- What holds of a row at a position. -/
def FitsOrReopened (context : SheetContext) (withholdBlank : Bool) (events : List Event) (row : Row)
    (position : Nat) : Prop :=
  (row.cell position).Fits context.system ∨ Reopened context withholdBlank events row position

variable {events first : List Event} {row row' : Row} {position : Nat}

/-- It goes on to hold as long as the cell stays as it is. -/
theorem FitsOrReopened.mono (h : FitsOrReopened context withholdBlank first row position)
    (hfirst : first <+: events) (hnumber : row'.number = row.number)
    (hcell : row'.cell position = row.cell position) :
    FitsOrReopened context withholdBlank events row' position := by
  obtain hfits | ⟨before, tag, after, s, rfl, hpasses, haction, hn, ht, hdescribe⟩ := h
  · left
    rwa [hcell]
  · obtain ⟨rest, rfl⟩ := hfirst
    right
    refine ⟨before, tag, after ++ rest, s, ?_, hpasses, haction, hn.trans hnumber.symm, ?_, ?_⟩
    · rw [List.append_assoc, List.cons_append]
    · rw [hcell, ht]
    · rw [hcell, hdescribe]

/-- What a reading of the rows keeps with every event. -/
structure Fitting (context : SheetContext) (withholdBlank : Bool) (events : List Event)
    (s : State (Array Row)) : Prop where
  /-- The texts of the row under construction fit, or their cells have been reopened. -/
  row : ∀ position, FitsOrReopened context withholdBlank events s.row position
  /-- The cell that is open has a kind, if the row has it. -/
  kind : ∀ position, s.position = some position → position < s.row.size →
    (s.row.cell position).style.kind ≠ .empty
  /-- The rows that have been handed over are like the one under construction. -/
  kept : ∀ row ∈ s.observer, ∀ position, FitsOrReopened context withholdBlank events row position

namespace Fitting

variable {s s' : State (Array Row)} {e : Event} {tag : Tag}

/-- What leaves the row and the open cell alone, keeps it. -/
theorem mono (h : Fitting context withholdBlank first s) (hfirst : first <+: events)
    (hrow : s'.row = s.row) (hobserver : s'.observer = s.observer)
    (hposition : s'.position = s.position ∨ s'.position = none) :
    Fitting context withholdBlank events s' where
  row position := (h.row position).mono hfirst (by rw [hrow]) (by rw [hrow])
  kind position hopen hlt := by
    obtain hposition | hposition := hposition
    · rw [hposition] at hopen
      rw [hrow] at hlt ⊢
      exact h.kind position hopen hlt
    · rw [hposition] at hopen
      cases hopen
  kept row hmem position := by
    rw [hobserver] at hmem
    exact (h.kept row hmem position).mono hfirst rfl rfl

theorem openRow (h : Fitting context withholdBlank first s) (hfirst : first <+: events)
    (tag : Tag) : Fitting context withholdBlank events (s.openRow tag).1 := by
  rw [State.openRow]
  split
  · exact h.mono hfirst rfl rfl (.inl rfl)
  · refine ⟨?_, ?_, ?_⟩
    · intro position
      exact .inl (Cell.fits_of_text_eq_none (by rw [Row.cell_start, Cell.empty]))
    · intro position _ hlt
      exact absurd hlt (Nat.not_lt_zero position)
    · intro row hmem position
      exact (h.kept row hmem position).mono hfirst rfl rfl

/-- A cell without a text fits; a text that the opened cell finds is what being reopened means. -/
theorem openCell (h : Fitting context withholdBlank first s) (hformats : context.formats.IsRead)
    (hpasses : (reading context withholdBlank collect).Passes (.start #[]) first s)
    (haction : s.action (.opening tag) = .openCell tag) :
    Fitting context withholdBlank (first ++ [.opening tag]) (s.openCell context tag).1 := by
  have hfirst : first <+: first ++ [.opening tag] := List.prefix_append _ _
  rw [State.openCell]
  split
  next => exact h.mono hfirst rfl rfl (.inl rfl)
  next position style hdescribe =>
    have hcell := s.row.cell_placeStyle_self position style
    refine ⟨?_, ?_, ?_⟩
    · intro q
      by_cases hq : q = position
      · subst hq
        cases htext : (s.row.cell q).text with
        | none =>
          left
          refine Cell.fits_of_text_eq_none ?_
          rw [hcell]
          exact htext
        | some text =>
          right
          refine ⟨first, tag, [], s, rfl, hpasses, haction, rfl, ?_, ?_⟩
          · rw [hcell]
          · rw [hcell]
            exact hdescribe
      · exact (h.row q).mono hfirst rfl (s.row.cell_placeStyle_of_ne position style hq)
    · intro q hopen _
      obtain rfl := Option.some.inj hopen
      show ((s.row.placeStyle position style).cell position).style.kind ≠ .empty
      rw [hcell]
      exact kind_ne_empty_of_describeCell hformats hdescribe
    · intro row hmem q
      exact (h.kept row hmem q).mono hfirst rfl rfl

theorem closeCell (h : Fitting context withholdBlank first s) (hfirst : first <+: events) :
    Fitting context withholdBlank events (s.closeCell context).1 := by
  simp only [State.closeCell]
  split
  next position raw hopen _ =>
    split
    next hlt =>
      split
      next => exact h.mono hfirst rfl rfl (.inr rfl)
      next text kind hrender =>
        refine ⟨?_, ?_, ?_⟩
        · intro q
          by_cases hq : q = position
          · subst hq
            left
            show ((s.row.placeText q text kind).cell q).Fits context.system
            rw [s.row.cell_placeText_self hlt]
            exact fits_of_renderValue (h.kind q hopen hlt) hrender
          · exact (h.row q).mono hfirst rfl (s.row.cell_placeText_of_ne position hq text kind)
        · intro q hclosed _
          cases hclosed
        · intro row hmem q
          exact (h.kept row hmem q).mono hfirst rfl rfl
    next => exact h.mono hfirst rfl rfl (.inr rfl)
  next => exact h.mono hfirst rfl rfl (.inr rfl)

theorem closeRow (h : Fitting context withholdBlank first s) (hfirst : first <+: events) :
    Fitting context withholdBlank events (s.closeRow withholdBlank collect).1 := by
  simp only [State.closeRow, collect]
  split
  · exact h.mono hfirst rfl rfl (.inl rfl)
  · refine ⟨?_, h.kind, ?_⟩
    · intro q
      exact (h.row q).mono hfirst rfl rfl
    · intro row hmem q
      obtain hmem | rfl := Array.mem_push.1 hmem
      · exact (h.kept row hmem q).mono hfirst rfl rfl
      · exact (h.row q).mono hfirst rfl rfl

/-- **Every event keeps it.** -/
theorem step (h : Fitting context withholdBlank first s) (hformats : context.formats.IsRead)
    (hpasses : (reading context withholdBlank collect).Passes (.start #[]) first s) (e : Event) :
    Fitting context withholdBlank (first ++ [e]) (s.step context withholdBlank collect e).1 := by
  have hfirst : first <+: first ++ [e] := List.prefix_append _ _
  rw [State.step_eq]
  cases haction : s.action e with
  | readValue item e' =>
    show Fitting _ _ _ (s.stepValue item e').1
    rw [State.stepValue]
    split <;> exact h.mono hfirst rfl rfl (.inl rfl)
  | openRow tag => exact h.openRow hfirst tag
  | openCell tag =>
    obtain rfl := eq_opening_of_action haction
    exact h.openCell hformats hpasses haction
  | openValue element isValue => exact h.mono hfirst rfl rfl (.inl rfl)
  | closeRow => exact h.closeRow hfirst
  | closeCell => exact h.closeCell hfirst
  | finish => exact h.mono hfirst rfl rfl (.inl rfl)
  | skip => exact h.mono hfirst rfl rfl (.inl rfl)

theorem start (context : SheetContext) (withholdBlank : Bool) :
    Fitting context withholdBlank [] (.start #[]) where
  row position := .inl (Cell.fits_of_text_eq_none (by rw [State.start, Row.cell_start, Cell.empty]))
  kind position hopen _ := by cases hopen
  kept row hmem := absurd hmem (Array.not_mem_empty row)

end Fitting

/-- All rows of a document are like this. -/
theorem fitsOrReopened_allRows (hformats : context.formats.IsRead) {d : Document}
    (hrow : row ∈ (allRows context withholdBlank d).1.toList) (position : Nat) :
    FitsOrReopened context withholdBlank d.events row position := by
  obtain ⟨first, hfirst, hend⟩ := Reading.run_invariant
    (r := reading context withholdBlank collect)
    (fun hpasses hs e => Fitting.step hs hformats hpasses e) d.fault d.events
    (.nil (State.start #[])) (Fitting.start context withholdBlank)
  exact (hend.kept row (Array.mem_toList_iff.1 hrow) position).mono hfirst rfl rfl

end RowReading

namespace RowParser

variable {τ : Type}

/-- **Every text that a parser hands over fits the kind of its cell, or the cell has been
reopened**: then the text stood at its position before the tag was read that gave the cell its
style. -/
theorem fits_or_reopened (p : RowParser) (context : SheetContext) (withholdBlank : Bool)
    (onRow : τ → Row → τ × Bool) (observer : τ) (d : Document)
    (hformats : context.formats.IsRead) :
    ∀ row ∈ (p.parse context withholdBlank (RowReading.keeping onRow) ([], observer) d).2.1.1,
      ∀ position, (row.cell position).Fits context.system ∨
        RowReading.Reopened context withholdBlank d.events row position := by
  intro row hmem position
  rw [parse] at hmem
  split at hmem
  · change row ∈ (RowReading.deliver context withholdBlank (RowReading.keeping onRow)
      ([], observer) d).1.1 at hmem
    rw [RowReading.kept_deliver] at hmem
    have hall := (RowReading.shown_isPrefix onRow observer _).subset hmem
    exact RowReading.fitsOrReopened_allRows hformats hall position
  · cases hmem

/-- A row in which one position is given twice, the second time without a value. -/
def givenTwice : Octets :=
  Text.Utf8.encode <|
    "<sheetData><row><c r='A1' t='b'><v>1</v></c><c r='B1' t='str'><v>maybe</v></c>" ++
      "<c r='B1' t='b'/></row></sheetData>"

/-- What is read of it: the text stays where it stands. -/
def givenTwiceRow : Row :=
  ⟨0, #[⟨some "true", ⟨none, .boolean⟩⟩, ⟨some "maybe", ⟨none, .boolean⟩⟩]⟩

/-- A workbook without shared strings and without styles. -/
def plain : SheetContext := ⟨#[], .empty, .from1900⟩

theorem parse_givenTwice :
    ((new "Data").parse plain true (RowReading.keeping RowReading.collect) ([], #[])
      (.ofOctets givenTwice)).2.1.1 = [givenTwiceRow] := by
  decide +kernel

theorem fits_or_reopened_givenTwice :
    plain.formats.IsRead ∧ ∃ row ∈ ((new "Data").parse plain true
        (RowReading.keeping RowReading.collect) ([], #[]) (.ofOctets givenTwice)).2.1.1,
      row.size = 2 ∧ ∀ position, (row.cell position).Fits plain.system ∨
        RowReading.Reopened plain true (Document.ofOctets givenTwice).events row position := by
  have hformats : plain.formats.IsRead := .inl rfl
  have hmem := List.mem_singleton_self givenTwiceRow
  rw [← parse_givenTwice] at hmem
  exact ⟨hformats, _, hmem, rfl, fits_or_reopened (new "Data") plain true RowReading.collect #[]
    (.ofOctets givenTwice) hformats _ hmem⟩

/-- **Not every text fits the kind of its cell.** -/
theorem not_fits :
    ¬∀ (p : RowParser) (context : SheetContext) (withholdBlank : Bool) (d : Document),
      context.formats.IsRead →
      ∀ row ∈ (p.parse context withholdBlank (RowReading.keeping RowReading.collect)
        ([], #[]) d).2.1.1, ∀ position, (row.cell position).Fits context.system := by
  intro hfits
  have hmem := List.mem_singleton_self givenTwiceRow
  rw [← parse_givenTwice] at hmem
  obtain h | h :=
    hfits (new "Data") plain true (.ofOctets givenTwice) (.inl rfl) _ hmem 1 "maybe" rfl
  · exact absurd h (by decide)
  · exact absurd h (by decide)

end RowParser

end WorkbookTables
