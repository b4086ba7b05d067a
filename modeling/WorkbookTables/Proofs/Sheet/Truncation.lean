import WorkbookTables.Proofs.Markup.Truncation
import WorkbookTables.Proofs.Markup.WrittenText
import WorkbookTables.Proofs.Sheet.Failures
import WorkbookTables.Proofs.Sheet.Observer
import WorkbookTables.Sheet.RowParser

/-!
# Sheets that are cut short

A sheet that is cut short has the first events of the whole and then at most a text. The reading of
the whole either ends among those first events, and then the reading of the part ends in the same
way, or it goes through them. In the second case nothing is left for the part that could bring it to
a good end: a text closes no row and no sheet, and the end of a document is a failure.

So it is told exactly where a sheet has to be cut for its rows to be reported as complete: behind
the bracket of the tag with which the element of the rows ends.

## Main definitions

* `RowReading.EndsRows` — octets that end with the tag at which the rows end
* `RowParser.Delivers` — what a parser makes of a document, whoever takes its rows

## Main results

* `RowReading.exists_error_texts` — nothing but a text does not end the rows well
* `RowParser.parse_cutShort` — the rows and the ending of a sheet that is cut short
-/

namespace WorkbookTables

open Markup

namespace RowReading

variable {τ : Type} {context : SheetContext} {withholdBlank : Bool} {onRow : τ → Row → τ × Bool}

/-! ### An event that fails -/

/-- An event with which a reading fails is the end of it. -/
theorem snd_deliver_of_failed {observer : τ} {d : Document} {before after : List Event}
    {e : Event} {s s' : State τ} {failure : SheetFailure} (hd : d.events = before ++ e :: after)
    (hpasses : (reading context withholdBlank onRow).Passes (.start observer) before s)
    (hstep : (reading context withholdBlank onRow).step s e = (s', .failed failure)) :
    (deliver context withholdBlank onRow observer d).2 = .error failure := by
  simp only [deliver, Reading.read, hd, hpasses.run_eq, Reading.run_cons_failed hstep]

/-! ### The end of the rows -/

/-- The octets end with the tag at which the rows end: its end is the last event that is recognised
in them, what stands before it is gone through, and it finds no row and no value open. -/
def EndsRows (context : SheetContext) (withholdBlank : Bool) (octets : Octets) : Prop :=
  ∃ events s, (Scanner.start.scan (dropByteOrderMark octets)).events.toList =
      events ++ [.closing sheetDataName] ∧
    (reading context withholdBlank collect).Passes (.start #[]) events s ∧
    s.item = none ∧ s.inRow = false

/-- **An action finishes the reading in two cases only**: at the end of the rows they are complete,
and at the end of a row it stops. -/
theorem eq_of_run_finished {a : Action} {s s' : State τ} {ending : Ending}
    (h : a.run context withholdBlank onRow s = (s', .finished ending)) :
    a = .finish ∧ ending = .complete ∨ a = .closeRow ∧ ending = .stopped := by
  cases a with
  | finish =>
    cases h
    exact .inl ⟨rfl, rfl⟩
  | closeRow =>
    simp only [Action.run, State.closeRow] at h
    split at h
    · cases h
    · split at h
      · cases h
      · cases h
        exact .inr ⟨rfl, rfl⟩
  | readValue item e' =>
    simp only [Action.run, State.stepValue] at h
    split at h <;> cases h
  | openRow tag =>
    simp only [Action.run, State.openRow] at h
    split at h <;> cases h
  | openCell tag =>
    simp only [Action.run, State.openCell] at h
    split at h <;> cases h
  | openValue element isValue => cases h
  | closeCell =>
    simp only [Action.run, State.closeCell] at h
    split at h
    · split at h
      · split at h <;> cases h
      · cases h
    · cases h
  | skip => cases h

theorem action_of_finished {s s' : State τ} {e : Event} {ending : Ending}
    (h : (reading context withholdBlank onRow).step s e = (s', .finished ending)) :
    s.action e = .finish ∧ ending = .complete ∨ s.action e = .closeRow ∧ ending = .stopped := by
  change s.step context withholdBlank onRow e = _ at h
  rw [State.step_eq] at h
  exact eq_of_run_finished h

/-- **The rows are complete by one action only.** -/
theorem action_of_complete {s s' : State τ} {e : Event}
    (h : (reading context withholdBlank onRow).step s e = (s', .finished .complete)) :
    s.action e = .finish := by
  obtain ⟨haction, -⟩ | ⟨-, hending⟩ := action_of_finished h
  · exact haction
  · cases hending

/-- The reader finishes at the end of the element of the rows, outside rows and values. -/
theorem eq_closing_of_action {s : State τ} {e : Event} (h : s.action e = .finish) :
    e = .closing sheetDataName ∧ s.item = none ∧ s.inRow = false := by
  rw [State.action] at h
  cases hitem : s.item with
  | some item =>
    rw [hitem] at h
    cases h
  | none =>
    rw [hitem] at h
    cases e with
    | closing name =>
      simp only [State.actionOutside] at h
      split at h
      · cases h
      · split at h
        · cases h
        · split at h
          next hsheet => exact ⟨by rw [hsheet.2], rfl, hsheet.1⟩
          next => cases h
    | opening tag =>
      simp only [State.actionOutside] at h
      split at h
      · cases h
      · split at h
        · cases h
        · split at h
          · cases h
          · split at h <;> cases h
    | _ => cases h

/-! ### The end of a part -/

/-- A text ends nothing: it is read, passed over, or refused. -/
theorem step_text (context : SheetContext) (withholdBlank : Bool) (onRow : τ → Row → τ × Bool)
    (s : State τ) (content : Octets) :
    ∃ s', s'.observer = s.observer ∧
      ((reading context withholdBlank onRow).step s (.text content) = (s', .more) ∨
        ∃ e, e.kind = .parse ∧ (reading context withholdBlank onRow).step s (.text content) =
          (s', .failed (.error e))) := by
  cases hitem : s.item with
  | none =>
    have haction : s.action (.text content) = .skip := by
      rw [State.action, hitem]
      rfl
    exact ⟨s, rfl, .inl (step_of_action haction)⟩
  | some item =>
    have haction : s.action (.text content) = .readValue item (.text content) := by
      rw [State.action, hitem]
    rw [step_of_action haction, Action.run, State.stepValue]
    cases hread : item.step (.text content) with
    | mk item' progress =>
      cases progress with
      | more => exact ⟨{ s with item := some item' }, rfl, .inl rfl⟩
      | finished text => exact ⟨{ s with item := none, value := some text }, rfl, .inl rfl⟩
      | failed e => exact ⟨s, rfl, .inr ⟨e, StringItem.kind_of_step hread, rfl⟩⟩

/-- The end of a document is a failure, and shows no row to anyone. -/
theorem exists_error_nil (context : SheetContext) (withholdBlank : Bool)
    (onRow : τ → Row → τ × Bool) (fault : Option Fault) (s : State τ) :
    ∃ e, e.kind = .parse ∧
      (reading context withholdBlank onRow).run fault s [] = (s, .error (.error e)) := by
  cases fault with
  | none => exact ⟨.documentEnd (octetsText s.openElement), rfl, rfl⟩
  | some fault => exact ⟨.markup fault, rfl, rfl⟩

/-- **Where nothing but a text is left, the reading fails**, and no row is shown to anyone. -/
theorem exists_error_texts (context : SheetContext) (withholdBlank : Bool)
    (onRow : τ → Row → τ × Bool) (fault : Option Fault) (s : State τ) {texts : List Event}
    (htexts : texts = [] ∨ ∃ content, texts = [.text content]) :
    ∃ e s', e.kind = .parse ∧ s'.observer = s.observer ∧
      (reading context withholdBlank onRow).run fault s texts = (s', .error (.error e)) := by
  obtain rfl | ⟨content, rfl⟩ := htexts
  · obtain ⟨e, hkind, hrun⟩ := exists_error_nil context withholdBlank onRow fault s
    exact ⟨e, s, hkind, rfl, hrun⟩
  · obtain ⟨s', hobserver, hmore | ⟨e, hkind, hfailed⟩⟩ :=
      step_text context withholdBlank onRow s content
    · obtain ⟨e, hkind, hrun⟩ := exists_error_nil context withholdBlank onRow fault s'
      exact ⟨e, s', hkind, hobserver, (Reading.run_cons_more hmore).trans hrun⟩
    · exact ⟨e, s', hkind, hobserver, Reading.run_cons_failed hfailed⟩

/-! ### The rows of a part -/

/-- A reading that keeps all rows adds to those it has. -/
theorem exists_observer_run (context : SheetContext) (withholdBlank : Bool)
    (fault : Option Fault) (s : State (Array Row)) (events : List Event) :
    ∃ rows : List Row, ((reading context withholdBlank collect).run fault s events).1.observer =
      s.observer ++ rows.toArray := by
  obtain ⟨rows, ending, -, hrun⟩ := exists_rows_of_run context withholdBlank fault
    ⟨s.row, s.lastRow, s.inRow, s.nextPosition, s.position, s.value, s.item, ()⟩ events
  have hobserver := congrArg Prod.fst (hrun collect s.observer)
  have hall : showAll collect ending s.observer rows = (rows.foldl Array.push s.observer, ending) :=
    showAll_of_wantsMore ending s.observer rows
  rw [hall, foldl_push] at hobserver
  exact ⟨rows, hobserver⟩

variable {s : State (Array Row)} {events : List Event} {d : Document}

/-- What has been gone through gives the first rows of a document. -/
theorem observer_isPrefix_allRows {later : List Event} (hd : d.events = events ++ later)
    (h : (reading context withholdBlank collect).Passes (.start #[]) events s) :
    s.observer.toList <+: (allRows context withholdBlank d).1.toList := by
  obtain ⟨rows, hrows⟩ := exists_observer_run context withholdBlank d.fault s later
  simp only [allRows, deliver, Reading.read, hd, h.run_eq, hrows, Array.toList_append]
  exact List.prefix_append _ _

/-- With nothing but a text behind it there are no further rows and a failure. -/
theorem exists_allRows_eq_error {texts : List Event} (hd : d.events = events ++ texts)
    (htexts : texts = [] ∨ ∃ content, texts = [.text content])
    (h : (reading context withholdBlank collect).Passes (.start #[]) events s) :
    ∃ e, e.kind = .parse ∧
      allRows context withholdBlank d = (s.observer, .error (.error e)) := by
  obtain ⟨e, s', hkind, hobserver, hrun⟩ :=
    exists_error_texts context withholdBlank collect d.fault s htexts
  refine ⟨e, hkind, ?_⟩
  simp only [allRows, deliver, Reading.read, hd, h.run_eq, hrun, hobserver]

/-- With the end of the element of the rows behind it there are no further rows, and these are
all. -/
theorem allRows_eq_complete {later : List Event}
    (hd : d.events = events ++ .closing sheetDataName :: later)
    (h : (reading context withholdBlank collect).Passes (.start #[]) events s)
    (hitem : s.item = none) (hinRow : s.inRow = false) :
    allRows context withholdBlank d = (s.observer, .ok .complete) := by
  have hstep : (reading context withholdBlank collect).step s (.closing sheetDataName) =
      (s, .finished .complete) := step_of_action (s.action_closeSheet hitem hinRow)
  simp only [allRows, deliver, Reading.read, hd, h.run_eq, Reading.run_cons_finished hstep]

/-- Rows that are complete have been gone through up to the end of their element. -/
theorem exists_passes_of_complete (h : (allRows context withholdBlank d).2 = .ok .complete) :
    ∃ events s later, d.events = events ++ .closing sheetDataName :: later ∧
      (reading context withholdBlank collect).Passes (.start #[]) events s ∧
      s.item = none ∧ s.inRow = false := by
  obtain ⟨events, e, later, s, hd, hpasses, hstep⟩ := Reading.exists_step_of_run_ok
    (r := reading context withholdBlank collect) (fun _ _ => nofun) (Prod.ext rfl h)
  obtain ⟨rfl, hitem, hinRow⟩ := eq_closing_of_action (action_of_complete hstep)
  exact ⟨events, s, later, hd, hpasses, hitem, hinRow⟩

/-! ### The octets of a part -/

/-- **The rows of a sheet that is cut short are the first rows of the sheet.** -/
theorem allRows_isPrefix {cut octets : Octets} (h : cut <+: octets) :
    (allRows context withholdBlank (.ofOctets cut)).1.toList <+:
      (allRows context withholdBlank (.ofOctets octets)).1.toList := by
  obtain ⟨texts, hcut, htexts⟩ := exists_events_ofOctets cut
  obtain ⟨texts', hall, -⟩ := exists_events_ofOctets octets
  obtain ⟨more, hmore⟩ := events_dropByteOrderMark_isPrefix h
  rw [← hmore, List.append_assoc] at hall
  obtain ⟨s, hpasses⟩ | ⟨outcome, hends⟩ :=
    (reading context withholdBlank collect).passes_or_ends (.start #[])
      (Scanner.start.scan (dropByteOrderMark cut)).events.toList
  · obtain ⟨e, -, hrows⟩ := exists_allRows_eq_error hcut htexts hpasses
    rw [hrows]
    exact observer_isPrefix_allRows hall hpasses
  · simp only [allRows, deliver, Reading.read, hcut, hall, hends]
    exact List.prefix_rfl

/-- **Where complete rows end**: at one bracket, in front of which a part of the sheet fails and
behind which it has all the rows. -/
theorem exists_split_of_complete {octets : Octets}
    (h : (allRows context withholdBlank (.ofOctets octets)).2 = .ok .complete) :
    ∃ before after, octets = before ++ octet '>' :: after ∧
      EndsRows context withholdBlank (before ++ [octet '>']) ∧
      (∀ cut, cut <+: before → ∃ e, e.kind = .parse ∧
        (allRows context withholdBlank (.ofOctets cut)).2 = .error (.error e)) ∧
      ∀ later, later <+: after →
        allRows context withholdBlank (.ofOctets (before ++ octet '>' :: later)) =
          allRows context withholdBlank (.ofOctets octets) := by
  obtain ⟨events, s, later, hevents, hpasses, hitem, hinRow⟩ := exists_passes_of_complete h
  obtain ⟨before, after, rfl, hbracket, hshort, hlong⟩ := exists_split_ofOctets hevents
  refine ⟨before, after, rfl, ⟨events, s, hbracket, hpasses, hitem, hinRow⟩, ?_, ?_⟩
  · intro cut hcut
    obtain ⟨first, texts, hfirst, hpart, htexts⟩ := hshort cut hcut
    obtain ⟨s', hpasses'⟩ := hpasses.of_isPrefix hfirst
    obtain ⟨e, hkind, hrows⟩ := exists_allRows_eq_error hpart htexts hpasses'
    exact ⟨e, hkind, by rw [hrows]⟩
  · intro part hpart
    have hcomplete (other : Octets) (hother : before ++ [octet '>'] <+: other) :
        allRows context withholdBlank (.ofOctets other) = (s.observer, .ok .complete) := by
      obtain ⟨rest, hrest⟩ := hlong other hother
      exact allRows_eq_complete hrest hpasses hitem hinRow
    rw [hcomplete _ ⟨part, by simp⟩, hcomplete _ ⟨after, by simp⟩]

end RowReading

namespace RowParser

/-! ### Parsers -/

/-- Where a parser stands tells how its run ended, if it has not failed. -/
theorem eq_ok_of_after {result : Except SheetFailure Ending} {ending : Ending}
    (h : Stage.after result = .after (.ok ending)) : result = .ok ending := by
  cases result with
  | error failure => cases ending <;> cases h
  | ok other => cases other <;> cases ending <;> simp_all [Stage.after]

/-- Whoever takes all rows of the octets from a parser that has not run, is handed these and sees
this ending, and the parser stands behind it. -/
def Delivers (context : SheetContext) (withholdBlank : Bool) (octets : Octets) (rows : List Row)
    (ending : Except SheetFailure Ending) : Prop :=
  ∀ (τ : Type) (next : τ → Row → τ) (observer : τ) (sheet : String),
    (RowParser.new sheet).parse context withholdBlank
        (fun observer row => (next observer row, true)) observer (Document.ofOctets octets) =
      (⟨sheet, .after ending⟩, rows.foldl next observer, ending)

theorem delivers_allRows (context : SheetContext) (withholdBlank : Bool) (octets : Octets) :
    Delivers context withholdBlank octets
      (RowReading.allRows context withholdBlank (.ofOctets octets)).1.toList
      (RowReading.allRows context withholdBlank (.ofOctets octets)).2 := by
  intro τ next observer sheet
  simp only [parse, RowParser.new, RowReading.deliver_eq, RowReading.showAll_of_wantsMore]

/-- **The rows of a sheet that is cut short.** They are the first rows of the sheet. If the rows of
the sheet are complete, they end at one bracket, with the tag that ends their element: a part that
does not reach it fails with an error of the kind `parse`, and one that does has all of the rows. -/
theorem parse_cutShort (context : SheetContext) (withholdBlank : Bool) (octets : Octets) :
    ∃ rows ending, Delivers context withholdBlank octets rows ending ∧
      (∀ cut, cut <+: octets → ∃ earlier ending',
        Delivers context withholdBlank cut earlier ending' ∧ earlier <+: rows) ∧
      (ending = .ok .complete → ∃ before after, octets = before ++ octet '>' :: after ∧
        RowReading.EndsRows context withholdBlank (before ++ [octet '>']) ∧
        (∀ cut, cut <+: before → ∃ earlier e, e.kind = .parse ∧
          Delivers context withholdBlank cut earlier (.error (.error e))) ∧
        ∀ later, later <+: after →
          Delivers context withholdBlank (before ++ octet '>' :: later) rows (.ok .complete)) := by
  refine ⟨_, _, delivers_allRows context withholdBlank octets, ?_, ?_⟩
  · intro cut hcut
    exact ⟨_, _, delivers_allRows context withholdBlank cut, RowReading.allRows_isPrefix hcut⟩
  · intro hcomplete
    obtain ⟨before, after, hsplit, hends, hshort, hlong⟩ :=
      RowReading.exists_split_of_complete hcomplete
    refine ⟨before, after, hsplit, hends, ?_, ?_⟩
    · intro cut hcut
      obtain ⟨e, hkind, hending⟩ := hshort cut hcut
      have hdelivers := delivers_allRows context withholdBlank cut
      rw [hending] at hdelivers
      exact ⟨_, e, hkind, hdelivers⟩
    · intro later hlater
      have hdelivers := delivers_allRows context withholdBlank (before ++ octet '>' :: later)
      rw [hlong later hlater, hcomplete] at hdelivers
      exact hdelivers

end RowParser

end WorkbookTables
