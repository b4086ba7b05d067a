import WorkbookTables.Error
import WorkbookTables.Markup.Document

/-!
# Reading a document from its events

What a reader of documents does is said by what it does with one event: it goes on, it is finished,
or it fails. Its state is kept in each case, so that what was learnt before a failure is not lost.
A reader that is finished or has failed looks at no further event, and so never at the fault that
may end the document.

## Main definitions

* `Progress` — what becomes of a reading after an event
* `Reading` — a reader, given by its step and by what it makes of the end
* `Reading.run` — the reader on a list of events
-/

namespace WorkbookTables.Markup

/-- What becomes of a reading after an event. -/
inductive Progress (ε ρ : Type) where
  /-- The next event is wanted. -/
  | more
  /-- There is a result, and no further event is wanted. -/
  | finished (result : ρ)
  /-- The reading has failed. -/
  | failed (error : ε)

/-- A reader of documents with states `σ`, errors `ε` and results `ρ`. -/
structure Reading (σ ε ρ : Type) where
  /-- The state after an event, and whether to go on. -/
  step : σ → Event → σ × Progress ε ρ
  /-- What a document means that ends in a state. -/
  atEnd : σ → Except ε ρ
  /-- The error for a document that is malformed further on. -/
  onFault : Fault → ε

namespace Reading

variable {σ ε ρ : Type}

/-- Reads the events, which `fault` ends, from a state on. -/
def run (r : Reading σ ε ρ) (fault : Option Fault) : σ → List Event → σ × Except ε ρ
  | s, [] =>
    match fault with
    | some f => (s, .error (r.onFault f))
    | none => (s, r.atEnd s)
  | s, e :: rest =>
    match r.step s e with
    | (s', .more) => run r fault s' rest
    | (s', .finished result) => (s', .ok result)
    | (s', .failed error) => (s', .error error)

/-- Reads a document. -/
def read (r : Reading σ ε ρ) (s : σ) (d : Document) : σ × Except ε ρ :=
  r.run d.fault s d.events

/-- An event after which the reader goes on can be taken off the list. -/
theorem run_cons_more {r : Reading σ ε ρ} {fault : Option Fault} {s s' : σ} {e : Event}
    {rest : List Event} (h : r.step s e = (s', .more)) :
    r.run fault s (e :: rest) = r.run fault s' rest := by
  rw [run, h]

/-- A reader that is finished looks at nothing further. -/
theorem run_cons_finished {r : Reading σ ε ρ} {fault : Option Fault} {s s' : σ} {e : Event}
    {rest : List Event} {result : ρ} (h : r.step s e = (s', .finished result)) :
    r.run fault s (e :: rest) = (s', .ok result) := by
  rw [run, h]

/-- A reader that has failed looks at nothing further. -/
theorem run_cons_failed {r : Reading σ ε ρ} {fault : Option Fault} {s s' : σ} {e : Event}
    {rest : List Event} {error : ε} (h : r.step s e = (s', .failed error)) :
    r.run fault s (e :: rest) = (s', .error error) := by
  rw [run, h]

end Reading

end WorkbookTables.Markup
