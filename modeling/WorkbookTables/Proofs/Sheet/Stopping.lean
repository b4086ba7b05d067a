import WorkbookTables.Proofs.Sheet.Nesting
import WorkbookTables.Proofs.Sheet.Truncation

/-!
# Where a reading stops

An observer that wants no more stops the reading at the tag that ends the row it was shown last. Of
a sheet that has been read so far and no further, only the octets up to the bracket of that tag can
matter. This is said here for all sheets that begin with those octets, among them sheets that are
malformed behind them and the octets alone.

The bracket is not chosen with more care than is needed. With the octets in front of it the row has
not been read yet, and whoever waits for it gets to the end of the document, which is a failure.

## Main definitions

* `Wants` — an observer wants another row after each of some rows
* `EndsRow` — octets that end with the tag that ends a row
* `StopsBehind` — a reading that stops there, whatever follows

## Main results

* `exists_wants_of_passes` — whoever goes through events is shown rows that everyone is shown
* `exists_split_of_stopped` — a reading that stops does so behind the end of a row
-/

namespace WorkbookTables.RowReading

open Markup

variable {τ : Type} {context : SheetContext} {withholdBlank : Bool} {onRow : τ → Row → τ × Bool}

/-! ### Rows that are wanted -/

/-- The observer is shown rows, and wants another after each of them. -/
inductive Wants (onRow : τ → Row → τ × Bool) : τ → List Row → τ → Prop where
  /-- There are none. -/
  | nil (observer : τ) : Wants onRow observer [] observer
  /-- It is shown one, and then the others. -/
  | cons {observer next last : τ} {row : Row} {rest : List Row}
      (h : onRow observer row = (next, true)) (hrest : Wants onRow next rest last) :
      Wants onRow observer (row :: rest) last

/-- What comes behind rows that are wanted is shown after them. -/
theorem Wants.showAll_append {observer last : τ} {rows : List Row}
    (h : Wants onRow observer rows last) (ending : Except SheetFailure Ending) (rest : List Row) :
    showAll onRow ending observer (rows ++ rest) = showAll onRow ending last rest := by
  induction h with
  | nil => rfl
  | cons hrow _ ih =>
    rw [List.cons_append, showAll, hrow]
    exact ih

theorem Wants.shown_append {observer last : τ} {rows : List Row}
    (h : Wants onRow observer rows last) (rest : List Row) :
    shown onRow observer (rows ++ rest) = rows ++ shown onRow last rest := by
  induction h with
  | nil => rfl
  | cons hrow _ ih =>
    rw [List.cons_append, shown, hrow]
    exact congrArg _ ih

/-! ### Events that show rows -/

/-- **Whoever goes through events is shown rows that it wants, and everyone else who wants all rows
is shown the same.** -/
theorem exists_wants_of_passes {s : State Unit} {observer : τ} {s₁ : State τ} {events : List Event}
    (h : (reading context withholdBlank onRow).Passes (s.watchedBy observer) events s₁) :
    ∃ (t : State Unit) (rows : List Row), s₁ = t.watchedBy s₁.observer ∧
      Wants onRow observer rows s₁.observer ∧
        ∀ kept, (reading context withholdBlank collect).Passes (s.watchedBy kept) events
          (t.watchedBy (kept ++ rows.toArray)) := by
  generalize hstart : s.watchedBy observer = start at h
  induction h generalizing s observer with
  | nil =>
    subst hstart
    exact ⟨s, [], rfl, .nil observer, fun kept => by simpa using .nil (s.watchedBy kept)⟩
  | @cons _ next last e rest hstep _ ih =>
    subst hstart
    obtain ⟨s', hgoes⟩ := exists_goes context withholdBlank s e
    cases hgoes with
    | quietly progress hp hall =>
      obtain ⟨hnext, hmore⟩ := Prod.mk.inj (hstep.symm.trans (hall onRow observer))
      subst hmore
      obtain ⟨t, rows, hlast, hwants, hkept⟩ := ih hnext.symm
      exact ⟨t, rows, hlast, hwants, fun kept => .cons (hall collect kept) (hkept kept)⟩
    | showing row hall =>
      obtain ⟨hnext, hmore⟩ := Prod.mk.inj (hstep.symm.trans (hall onRow observer))
      have hwanted : (onRow observer row).2 = true := by
        cases hrow : (onRow observer row).2 with
        | true => rfl
        | false => simp [hrow] at hmore
      obtain ⟨t, rows, hlast, hwants, hkept⟩ := ih hnext.symm
      refine ⟨t, row :: rows, hlast, .cons (Prod.ext rfl hwanted) hwants, ?_⟩
      intro kept
      refine .cons (hall collect kept) ?_
      simpa [collect] using hkept (kept.push row)

/-- A reading stops at a tag that ends a row. -/
theorem eq_closing_of_stopped {s s' : State τ} {e : Event}
    (h : (reading context withholdBlank onRow).step s e = (s', .finished .stopped)) :
    e = .closing rowName := by
  obtain ⟨-, hending⟩ | ⟨haction, -⟩ := action_of_finished h
  · cases hending
  · have hrole : s.nesting.role e = .rowEnd := by rw [State.role_nesting, haction, Action.role]
    exact (Nesting.admits_of_role hrole).2.1

/-- The row at which a reading stops is shown to everyone. -/
theorem exists_row_of_stopped {t : State Unit} {observer : τ} {s' : State τ} {e : Event}
    (h : (reading context withholdBlank onRow).step (t.watchedBy observer) e =
      (s', .finished .stopped)) :
    ∃ (t' : State Unit) (row : Row), onRow observer row = (s'.observer, false) ∧
      ∀ kept, (reading context withholdBlank collect).step (t.watchedBy kept) e =
        (t'.watchedBy (kept.push row), .more) := by
  obtain ⟨t', hgoes⟩ := exists_goes context withholdBlank t e
  cases hgoes with
  | quietly progress hp hall =>
    exact absurd (Prod.mk.inj (h.symm.trans (hall onRow observer))).2.symm hp
  | showing row hall =>
    obtain ⟨hlast, hstopped⟩ := Prod.mk.inj (h.symm.trans (hall onRow observer))
    have hunwanted : (onRow observer row).2 = false := by
      cases hrow : (onRow observer row).2 with
      | true => simp [hrow] at hstopped
      | false => rfl
    refine ⟨t', row, Prod.ext ?_ hunwanted, fun kept => hall collect kept⟩
    rw [hlast]
    rfl

/-! ### Octets that end with a row -/

/-- The octets end with the tag that ends `row`, which stands behind the rows `earlier`: its bracket
is the last octet, and no part that is shorter has the row. -/
structure EndsRow (context : SheetContext) (withholdBlank : Bool) (before : Octets)
    (earlier : List Row) (row : Row) : Prop where
  /-- The end of a row is the last event that is recognised. -/
  tag : ∃ events, (Scanner.start.scan (dropByteOrderMark (before ++ [octet '>']))).events.toList =
    events ++ [.closing rowName]
  /-- The row is the last. -/
  rows : (allRows context withholdBlank (.ofOctets (before ++ [octet '>']))).1.toList =
    earlier ++ [row]
  /-- In front of the bracket there are at most the earlier rows. -/
  shorter : ∀ cut, cut <+: before →
    (allRows context withholdBlank (.ofOctets cut)).1.toList <+: earlier

/-- The reading stops behind the octets, and does not come to a good end in front of them. -/
structure StopsBehind (context : SheetContext) (withholdBlank : Bool) (onRow : τ → Row → τ × Bool)
    (observer : τ) (before : Octets) (last : τ) : Prop where
  /-- A shorter part fails. -/
  shorter : ∀ cut, cut <+: before → ∃ observer' e, e.kind = .parse ∧
    deliver context withholdBlank onRow observer (.ofOctets cut) = (observer', .error (.error e))
  /-- Whatever follows, the reading stops. -/
  longer : ∀ octets, before ++ [octet '>'] <+: octets →
    deliver context withholdBlank onRow observer (.ofOctets octets) = (last, .ok .stopped)

/-- The rows that are kept while some events are gone through come after those that were kept while
the first of them were. -/
theorem observer_isPrefix_of_passes {first events : List Event} {s₁ s : State (Array Row)}
    (hfirst : (reading context withholdBlank collect).Passes (.start #[]) first s₁)
    (hevents : (reading context withholdBlank collect).Passes (.start #[]) events s)
    (h : first <+: events) : s₁.observer.toList <+: s.observer.toList := by
  obtain ⟨later, rfl⟩ := h
  have hrows := observer_isPrefix_allRows (d := ⟨first ++ later, none⟩) rfl hfirst
  obtain ⟨e, -, hall⟩ := exists_allRows_eq_error (d := ⟨first ++ later, none⟩)
    (List.append_nil _).symm (.inl rfl) hevents
  rwa [hall] at hrows

/-- **A reading that stops does so behind the end of a row**: the observer has wanted the earlier
rows, and it wants no more after this one. -/
theorem exists_split_of_stopped {observer last : τ} {octets : Octets}
    (h : deliver context withholdBlank onRow observer (.ofOctets octets) = (last, .ok .stopped)) :
    ∃ before after earlier row next, octets = before ++ octet '>' :: after ∧
      EndsRow context withholdBlank before earlier row ∧
      Wants onRow observer earlier next ∧ onRow next row = (last, false) ∧
      StopsBehind context withholdBlank onRow observer before last := by
  cases hread : (reading context withholdBlank onRow).read (.start observer) (.ofOctets octets) with
  | mk s' result =>
    simp only [deliver, hread] at h
    obtain ⟨rfl, rfl⟩ := Prod.mk.inj h
    obtain ⟨events, e, later, s, hevents, hpasses, hstep⟩ :=
      Reading.exists_step_of_run_ok (r := reading context withholdBlank onRow)
        (fun _ _ hnone => by cases hnone) hread
    obtain rfl := eq_closing_of_stopped hstep
    obtain ⟨t, earlier, hs, hwants, hkept⟩ := exists_wants_of_passes (s := .start ()) hpasses
    rw [hs] at hstep
    obtain ⟨t', row, hrow, hcollect⟩ := exists_row_of_stopped hstep
    obtain ⟨before, after, rfl, hbracket, hshort, hlong⟩ := exists_split_ofOctets hevents
    have hpasses' := hkept #[]
    rw [Array.empty_append] at hpasses'
    refine ⟨before, after, earlier, row, s.observer, rfl, ⟨⟨events, hbracket⟩, ?_, ?_⟩, hwants,
      hrow, ⟨?_, ?_⟩⟩
    · obtain ⟨texts, hpart, htexts⟩ := exists_events_ofOctets (before ++ [octet '>'])
      rw [hbracket] at hpart
      obtain ⟨e, -, hall⟩ := exists_allRows_eq_error hpart htexts
        (hpasses'.append (.one (hcollect earlier.toArray)))
      rw [hall]
      exact Array.toList_push
    · intro cut hcut
      obtain ⟨first, texts, hfirst, hpart, htexts⟩ := hshort cut hcut
      obtain ⟨s₁, hpasses₁⟩ := hpasses'.of_isPrefix hfirst
      obtain ⟨e, -, hall⟩ := exists_allRows_eq_error hpart htexts hpasses₁
      rw [hall]
      exact observer_isPrefix_of_passes hpasses₁ hpasses' hfirst
    · intro cut hcut
      obtain ⟨first, texts, hfirst, hpart, htexts⟩ := hshort cut hcut
      obtain ⟨s₁, hpasses₁⟩ := hpasses.of_isPrefix hfirst
      obtain ⟨e, s₂, hkind, -, hrun⟩ := exists_error_texts context withholdBlank onRow
        (Document.ofOctets cut).fault s₁ htexts
      refine ⟨s₂.observer, e, hkind, ?_⟩
      simp only [deliver, Reading.read, hpart, hpasses₁.run_eq, hrun]
    · intro other hother
      obtain ⟨rest, hrest⟩ := hlong other hother
      rw [hs] at hpasses
      simp only [deliver, Reading.read, hrest, hpasses.run_eq, Reading.run_cons_finished hstep]

end WorkbookTables.RowReading
