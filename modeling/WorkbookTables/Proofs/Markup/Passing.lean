import WorkbookTables.Markup.Reading

/-!
# Events that a reading goes through

A reading takes one event after the other until one of them decides it. Up to that event its states
form a path, and events that stand one behind the other make paths that do. What a whole reading is
worth is then told by the path and by the event that ends it, or by the end of the document.

## Main definitions

* `Reading.Passes` — events that a reading goes through, from one state to another
* `Reading.Ends` — the ways in which a reading ends

## Main results

* `Reading.Passes.append`, `Reading.Passes.of_append` — paths are joined and taken apart
* `Reading.ends_run` — how a reading ends
* `Reading.passes_or_ends` — events are gone through or decide the reading
* `Reading.exists_step_of_run_ok`, `Reading.exists_step_of_run_error` — the event that decides
* `Reading.run_invariant` — what every event keeps holds where a reading ends
-/

namespace WorkbookTables.Markup.Reading

variable {σ ε ρ : Type} {r : Reading σ ε ρ}

/-! ### Paths -/

/-- Events that a reading goes through without an end or a failure. -/
inductive Passes (r : Reading σ ε ρ) : σ → List Event → σ → Prop where
  /-- There are none. -/
  | nil (s : σ) : Passes r s [] s
  /-- The first one is gone through, and the others after it. -/
  | cons {s s' s'' : σ} {e : Event} {rest : List Event} (h : r.step s e = (s', .more))
      (hrest : Passes r s' rest s'') : Passes r s (e :: rest) s''

theorem Passes.one {s s' : σ} {e : Event} (h : r.step s e = (s', .more)) : r.Passes s [e] s' :=
  .cons h (.nil s')

theorem Passes.append {s s' s'' : σ} {first second : List Event} (h : r.Passes s first s')
    (h' : r.Passes s' second s'') : r.Passes s (first ++ second) s'' := by
  induction h with
  | nil => exact h'
  | cons hstep _ ih => exact .cons hstep (ih h')

/-- What is gone through can be halted anywhere. -/
theorem Passes.of_append {s s'' : σ} {first second : List Event}
    (h : r.Passes s (first ++ second) s'') :
    ∃ s', r.Passes s first s' ∧ r.Passes s' second s'' := by
  induction first generalizing s with
  | nil => exact ⟨s, .nil s, h⟩
  | cons e rest ih =>
    cases h with
    | cons hstep hrest =>
      obtain ⟨s', hfirst, hsecond⟩ := ih hrest
      exact ⟨s', .cons hstep hfirst, hsecond⟩

/-- Where events are gone through, so are the first of them. -/
theorem Passes.of_isPrefix {s s' : σ} {first events : List Event} (h : r.Passes s events s')
    (hfirst : first <+: events) : ∃ s₁, r.Passes s first s₁ := by
  obtain ⟨rest, rfl⟩ := hfirst
  obtain ⟨s₁, hpasses, -⟩ := h.of_append
  exact ⟨s₁, hpasses⟩

/-- Events after each of which the reading stands where it stood. -/
theorem Passes.of_forall {s : σ} {events : List Event}
    (h : ∀ e ∈ events, r.step s e = (s, .more)) : r.Passes s events s := by
  induction events with
  | nil => exact .nil s
  | cons e rest ih =>
    obtain ⟨he, hrest⟩ := List.forall_mem_cons.1 h
    exact .cons he (ih hrest)

/-- What is gone through can be taken off the events. -/
theorem Passes.run_eq {s s' : σ} {events : List Event} (h : r.Passes s events s')
    (fault : Option Fault) (rest : List Event) :
    r.run fault s (events ++ rest) = r.run fault s' rest := by
  induction h with
  | nil => rfl
  | cons hstep _ ih => exact (run_cons_more hstep).trans ih

/-! ### Outcomes -/

/-- How a reading ends with a state and an outcome: at the end of a document of which it has gone
through everything, or by an event in front of which it has gone through everything. -/
inductive Ends (r : Reading σ ε ρ) (fault : Option Fault) (s : σ) (events : List Event) (s' : σ)
    (outcome : Except ε ρ) : Prop where
  /-- The document has ended. -/
  | atEnd (hfault : fault = none) (hpasses : r.Passes s events s') (h : r.atEnd s' = outcome)
  /-- The document is malformed further on. -/
  | onFault (f : Fault) (hfault : fault = some f) (hpasses : r.Passes s events s')
    (h : .error (r.onFault f) = outcome)
  /-- An event gives the result. -/
  | finished {first : List Event} {e : Event} {rest : List Event} {s₁ : σ} {result : ρ}
    (hevents : events = first ++ e :: rest) (hpasses : r.Passes s first s₁)
    (hstep : r.step s₁ e = (s', .finished result)) (h : .ok result = outcome)
  /-- The reading fails with an event. -/
  | failed {first : List Event} {e : Event} {rest : List Event} {s₁ : σ} {error : ε}
    (hevents : events = first ++ e :: rest) (hpasses : r.Passes s first s₁)
    (hstep : r.step s₁ e = (s', .failed error)) (h : .error error = outcome)

/-- One more event in front of which the reading stands. -/
theorem Ends.cons {fault : Option Fault} {s s₁ s' : σ} {e : Event} {rest : List Event}
    {outcome : Except ε ρ} (hstep : r.step s e = (s₁, .more))
    (h : r.Ends fault s₁ rest s' outcome) : r.Ends fault s (e :: rest) s' outcome := by
  cases h with
  | atEnd hfault hpasses h => exact .atEnd hfault (.cons hstep hpasses) h
  | onFault f hfault hpasses h => exact .onFault f hfault (.cons hstep hpasses) h
  | finished hevents hpasses hlast h =>
    subst hevents
    exact .finished rfl (.cons hstep hpasses) hlast h
  | failed hevents hpasses hlast h =>
    subst hevents
    exact .failed rfl (.cons hstep hpasses) hlast h

/-- **How a reading ends.** -/
theorem ends_run (r : Reading σ ε ρ) (fault : Option Fault) (s : σ) (events : List Event) :
    r.Ends fault s events (r.run fault s events).1 (r.run fault s events).2 := by
  induction events generalizing s with
  | nil =>
    cases fault with
    | none => exact .atEnd rfl (.nil s) rfl
    | some f => exact .onFault f rfl (.nil s) rfl
  | cons e rest ih =>
    cases hstep : r.step s e with
    | mk s₁ progress =>
      cases progress with
      | more =>
        rw [run_cons_more hstep]
        exact .cons hstep (ih s₁)
      | finished result =>
        rw [run_cons_finished hstep]
        exact .finished rfl (.nil s) hstep rfl
      | failed error =>
        rw [run_cons_failed hstep]
        exact .failed rfl (.nil s) hstep rfl

section Ends

variable {fault : Option Fault} {s s' : σ} {events : List Event} {result : ρ}

theorem ends_of_run {outcome : Except ε ρ} (h : r.run fault s events = (s', outcome)) :
    r.Ends fault s events s' outcome := by
  have hends := r.ends_run fault s events
  rwa [h] at hends

/-- **Events are gone through, or they decide the reading**, whatever follows them. -/
theorem passes_or_ends (r : Reading σ ε ρ) (s : σ) (events : List Event) :
    (∃ s', r.Passes s events s') ∨
      ∃ outcome, ∀ fault rest, r.run fault s (events ++ rest) = outcome := by
  obtain ⟨⟨s', outcome⟩, hrun⟩ : ∃ ending, r.run none s events = ending := ⟨_, rfl⟩
  cases ends_of_run hrun with
  | atEnd _ hpasses _ => exact .inl ⟨s', hpasses⟩
  | onFault _ _ hpasses _ => exact .inl ⟨s', hpasses⟩
  | @finished _ _ _ _ result hevents hpasses hstep _ =>
    refine .inr ⟨(s', .ok result), fun fault rest => ?_⟩
    rw [hevents, List.append_assoc, hpasses.run_eq]
    exact run_cons_finished hstep
  | @failed _ _ _ _ error hevents hpasses hstep _ =>
    refine .inr ⟨(s', .error error), fun fault rest => ?_⟩
    rw [hevents, List.append_assoc, hpasses.run_eq]
    exact run_cons_failed hstep

/-- A reading that has a result at the end of a document only, has gone through all of it. -/
theorem passes_of_run_ok (hnever : ∀ s e result, (r.step s e).2 ≠ .finished result)
    (h : r.run fault s events = (s', .ok result)) :
    fault = none ∧ r.Passes s events s' ∧ r.atEnd s' = .ok result := by
  cases ends_of_run h with
  | atEnd hfault hpasses h => exact ⟨hfault, hpasses, h⟩
  | onFault _ _ _ h => cases h
  | finished _ _ hstep _ => exact absurd (congrArg Prod.snd hstep) (hnever _ _ _)
  | failed _ _ _ h => cases h

/-- A reading for which the end of a document is a failure has a result by an event. -/
theorem exists_step_of_run_ok (hatEnd : ∀ s result, r.atEnd s ≠ .ok result)
    (h : r.run fault s events = (s', .ok result)) :
    ∃ first e rest s₁, events = first ++ e :: rest ∧ r.Passes s first s₁ ∧
      r.step s₁ e = (s', .finished result) := by
  cases ends_of_run h with
  | atEnd _ _ h => exact absurd h (hatEnd s' result)
  | onFault _ _ _ h => cases h
  | finished hevents hpasses hstep h =>
    cases h
    exact ⟨_, _, _, _, hevents, hpasses, hstep⟩
  | failed _ _ _ h => cases h

/-- A reading that fails with something that no end of a document means, fails by an event. -/
theorem exists_step_of_run_error {failure : ε} (hatEnd : ∀ s, r.atEnd s ≠ .error failure)
    (honFault : ∀ fault, r.onFault fault ≠ failure)
    (h : r.run fault s events = (s', .error failure)) :
    ∃ first e rest s₁, events = first ++ e :: rest ∧ r.Passes s first s₁ ∧
      r.step s₁ e = (s', .failed failure) := by
  cases ends_of_run h with
  | atEnd _ _ h => exact absurd h (hatEnd s')
  | onFault f _ _ h => exact absurd (Except.error.inj h) (honFault f)
  | finished _ _ _ h => cases h
  | failed hevents hpasses hstep h =>
    cases h
    exact ⟨_, _, _, _, hevents, hpasses, hstep⟩

/-- A result is given by an event or by the end of the document. -/
theorem step_or_atEnd_of_run (h : r.run fault s events = (s', .ok result)) :
    (∃ s₁ e, r.step s₁ e = (s', .finished result)) ∨ r.atEnd s' = .ok result := by
  cases ends_of_run h with
  | atEnd _ _ h => exact .inr h
  | onFault _ _ _ h => cases h
  | finished _ _ hstep h =>
    cases h
    exact .inl ⟨_, _, hstep⟩
  | failed _ _ _ h => cases h

end Ends

/-! ### Invariants -/

/-- What a reading keeps with every event, holds of the state and the events that it ends with. -/
theorem run_invariant {I : List Event → σ → Prop} {start : σ}
    (hstep : ∀ {before s}, r.Passes start before s → I before s →
      ∀ e, I (before ++ [e]) (r.step s e).1)
    (fault : Option Fault) (events : List Event) {before : List Event} {s : σ}
    (hpasses : r.Passes start before s) (hs : I before s) :
    ∃ first, first <+: events ∧ I (before ++ first) (r.run fault s events).1 := by
  induction events generalizing before s with
  | nil =>
    refine ⟨[], List.prefix_rfl, ?_⟩
    rw [List.append_nil]
    cases fault with
    | none => exact hs
    | some fault => exact hs
  | cons e rest ih =>
    have hkept := hstep hpasses hs e
    cases hnext : r.step s e with
    | mk s₁ progress =>
      rw [hnext] at hkept
      cases progress with
      | more =>
        obtain ⟨first, hfirst, hend⟩ := ih (hpasses.append (.one hnext)) hkept
        refine ⟨e :: first, List.cons_prefix_cons.2 ⟨rfl, hfirst⟩, ?_⟩
        rw [run_cons_more hnext]
        rwa [List.append_assoc] at hend
      | finished result =>
        refine ⟨[e], List.cons_prefix_cons.2 ⟨rfl, List.nil_prefix⟩, ?_⟩
        rwa [run_cons_finished hnext]
      | failed error =>
        refine ⟨[e], List.cons_prefix_cons.2 ⟨rfl, List.nil_prefix⟩, ?_⟩
        rwa [run_cons_failed hnext]

end WorkbookTables.Markup.Reading
