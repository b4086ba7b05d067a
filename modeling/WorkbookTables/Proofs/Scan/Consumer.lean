import WorkbookTables.Proofs.Scan.Delivery

/-!
# Calls of a consumer under every schedule

`Dataset.hasNext` and its companions let the publisher run as far as it can whenever the consumer
waits. That is one schedule. Here a call is a relation between the state before, the answer and the
state after, and the publisher may take any number of steps before, between and during calls. The
functions are one way for the calls to go, so what holds of every history holds of them.

A call that waits is only over when there is something to go on with: a message, or an exit of the
publisher. A close is over when the publisher has exited; between the request to stop and the
consumer's leaving the publisher may still get on.

## Main definitions

* `Dataset.Call`, `Dataset.Reply` — what a consumer may do, and what it is told
* `Dataset.Performs` — a call under some schedule
* `Dataset.History` — calls one after another, with steps of the publisher in between
* `Dataset.performAll` — calls under the schedule of the functions

## Main results

* `Dataset.performs_perform`, `Dataset.history_performAll` — the functions are one such schedule
-/

namespace WorkbookTables

namespace Dataset

/-- What a consumer may do. -/
inductive Call where
  /-- Ask whether there is another item. -/
  | hasNext
  /-- Pull the next item. -/
  | next
  /-- Ask the publisher to stop. -/
  | cancel
  /-- End the scan. -/
  | close
  /-- Ask how the reading ended. -/
  | outcome
  deriving DecidableEq, Repr

/-- What a consumer is told. -/
inductive Reply where
  /-- Whether there is another item. -/
  | available (answer : Bool)
  /-- The item pulled, if there was one. -/
  | item (item : Option (Except Error Row))
  /-- Nothing. -/
  | done
  /-- How the reading ended, if that is known. -/
  | ending (outcome : Option Ending)

/-! ### Calls as relations -/

/-- Ending the scan. -/
inductive Closes (d : Dataset) : Dataset → Prop where
  /-- A second time nothing happens. -/
  | again (h : d.closed = true) : Closes d d
  /-- The publisher is asked to stop, the consumer leaves, and the publisher exits. -/
  | first (b b' : Bridge) (outcome : Option Ending) (h : d.closed = false)
      (hasked : ({ d.bridge with cancelled := true } : Bridge).Reaches b)
      (hleft : ({ b with queue := [], connected := false } : Bridge).Reaches b')
      (hexit : b'.publisher.phase = .exited outcome) :
      Closes d { d with bridge := b', closed := true, outcome := d.outcome.or outcome }

/-- What a message means for the consumer. -/
inductive Accepts (d : Dataset) : Option Message → Dataset → Prop where
  /-- A row is kept. -/
  | row (row : Row) : Accepts d (some (.row row)) { d with pending := some (.ok row) }
  /-- A failure is kept, and the scan is over. -/
  | failed (e : Error) (d' : Dataset) (h : { d with pending := some (.error e) }.Closes d') :
      Accepts d (some (.failed e)) d'
  /-- The reading has ended, and the scan is over. -/
  | finished (ending : Ending) (d' : Dataset) (h : { d with outcome := some ending }.Closes d') :
      Accepts d (some (.finished ending)) d'
  /-- The publisher has exited without a report. -/
  | silence (d' : Dataset)
      (h : { d with pending := some (.error (.publisher d.table)) }.Closes d') : Accepts d none d'

/-- Waiting for a message. -/
inductive Receives (d : Dataset) : Dataset → Prop where
  /-- There is one, perhaps after a while. -/
  | message (b : Bridge) (m : Message) (rest : List Message) (d' : Dataset)
      (hwait : d.bridge.Reaches b) (hq : b.queue = m :: rest)
      (haccept : { d with bridge := { b with queue := rest } }.Accepts (some m) d') :
      Receives d d'
  /-- There will be none, because the publisher has exited. -/
  | silence (b : Bridge) (outcome : Option Ending) (d' : Dataset) (hwait : d.bridge.Reaches b)
      (hq : b.queue = []) (hexit : b.publisher.phase = .exited outcome)
      (haccept : { d with bridge := b }.Accepts none d') :
      Receives d d'

/-- Fetching an item. -/
inductive Fills (d : Dataset) : Dataset → Prop where
  /-- One waits already, or nothing more is fetched. -/
  | ready (h : d.pending.isSome = true ∨ d.closed = true) : Fills d d
  /-- The scan has been cancelled. -/
  | cancelled (d' : Dataset) (hp : d.pending = none) (ho : d.closed = false)
      (hc : d.isCancelled = true) (h : d.Closes d') : Fills d d'
  /-- A message is waited for. -/
  | receives (d' : Dataset) (hp : d.pending = none) (ho : d.closed = false)
      (hc : d.isCancelled = false) (h : d.Receives d') : Fills d d'

/-- A call, the answer to it and the state afterwards. -/
inductive Performs (d : Dataset) : Call → Reply → Dataset → Prop where
  /-- Asking fetches an item and leaves it. -/
  | hasNext (d' : Dataset) (h : d.Fills d') :
      Performs d .hasNext (.available d'.pending.isSome) d'
  /-- Pulling fetches an item and takes it. -/
  | next (d' : Dataset) (h : d.Fills d') :
      Performs d .next (.item d'.pending) { d' with pending := none }
  /-- Cancelling sets a mark. -/
  | cancel : Performs d .cancel .done d.cancel
  /-- Closing ends the scan. -/
  | close (d' : Dataset) (h : d.Closes d') : Performs d .close .done d'
  /-- Asking for the outcome changes nothing. -/
  | outcome : Performs d .outcome (.ending d.outcome) d

/-- Calls one after another with their answers, and steps of the publisher between them. -/
inductive History : Dataset → List (Call × Reply) → Dataset → Prop where
  /-- Nothing has happened. -/
  | nil (d : Dataset) : History d [] d
  /-- A call comes first. -/
  | call {d d' d'' : Dataset} {c : Call} {reply : Reply} {h : List (Call × Reply)}
      (hcall : d.Performs c reply d') (hrest : History d' h d'') : History d ((c, reply) :: h) d''
  /-- A step of the publisher comes first. -/
  | work {d d' : Dataset} {b : Bridge} {h : List (Call × Reply)}
      (hstep : d.bridge.advance? = some b) (hrest : History { d with bridge := b } h d') :
      History d h d'

/-- A history can be cut after any call. -/
theorem History.split {d d'' : Dataset} {h h' : List (Call × Reply)}
    (hrun : d.History (h ++ h') d'') : ∃ d', d.History h d' ∧ d'.History h' d'' := by
  generalize hall : h ++ h' = all at hrun
  induction hrun generalizing h with
  | nil d =>
    obtain ⟨rfl, rfl⟩ := List.append_eq_nil_iff.1 hall
    exact ⟨d, .nil d, .nil d⟩
  | @call d d' _ c reply rest hcall hrest ih =>
    cases h with
    | nil =>
      obtain rfl : h' = (c, reply) :: rest := hall
      exact ⟨d, .nil d, .call hcall hrest⟩
    | cons first h =>
      obtain ⟨rfl, hrest'⟩ := List.cons_eq_cons.1 hall
      obtain ⟨e, hbefore, hafter⟩ := ih hrest'
      exact ⟨e, .call hcall hbefore, hafter⟩
  | work hstep _ ih =>
    obtain ⟨e, hbefore, hafter⟩ := ih hall
    exact ⟨e, .work hstep hbefore, hafter⟩

/-! ### The functions are one schedule -/

theorem closes_close (d : Dataset) : d.Closes d.close := by
  rw [close]
  split
  next h => exact .again h
  next h =>
    obtain ⟨outcome, hexit⟩ := Bridge.exited_settle_of_not_connected
      (b := { d.bridge with queue := [], cancelled := true, connected := false }) rfl
    have houtcome : d.bridge.abandon.publisher.outcome = outcome := by
      simp [Bridge.abandon, Publisher.outcome, hexit]
    rw [← houtcome] at hexit
    exact .first _ _ _ (by simpa using h) .refl (Bridge.reaches_settle _) hexit

theorem accepts_accept (d : Dataset) (m : Option Message) : d.Accepts m (d.accept m) := by
  rcases m with _ | row | e | ending
  · exact .silence _ (closes_close _)
  · exact .row row
  · exact .failed e _ (closes_close _)
  · exact .finished ending _ (closes_close _)

theorem receives_receive (d : Dataset) : d.Receives d.receive := by
  rw [receive]
  have hwait := Bridge.reaches_settle d.bridge
  cases hq : d.bridge.settle.queue with
  | nil =>
    obtain ⟨outcome, hexit⟩ := Bridge.exited_settle_of_queue_eq_nil hq
    refine .silence _ outcome _ hwait hq hexit ?_
    have hsame : ({ d.bridge.settle with queue := [] } : Bridge) = d.bridge.settle := by rw [← hq]
    simpa [hq, hsame] using accepts_accept { d with bridge := d.bridge.settle } none
  | cons m rest =>
    exact .message _ m rest _ hwait hq (by simpa [hq] using accepts_accept _ (some m))

theorem fills_fill (d : Dataset) : d.Fills d.fill := by
  rw [fill]
  split
  next h => exact .ready h
  next h =>
    obtain ⟨hp, ho⟩ := not_or.1 h
    have hp : d.pending = none := by simpa using hp
    have ho : d.closed = false := by simpa using ho
    split
    next hc => exact .cancelled _ hp ho hc (closes_close d)
    next hc => exact .receives _ hp ho (by simpa using hc) (receives_receive d)

/-- A call under the schedule of the functions. -/
def perform (d : Dataset) : Call → Reply × Dataset
  | .hasNext => (.available d.hasNext.1, d.hasNext.2)
  | .next => (.item d.next.1, d.next.2)
  | .cancel => (.done, d.cancel)
  | .close => (.done, d.close)
  | .outcome => (.ending d.outcome, d)

/-- Calls one after another under the schedule of the functions. -/
def performAll (d : Dataset) : List Call → List (Call × Reply) × Dataset
  | [] => ([], d)
  | c :: rest =>
    let (reply, d) := d.perform c
    let (h, d) := performAll d rest
    ((c, reply) :: h, d)

theorem performs_perform (d : Dataset) (c : Call) :
    d.Performs c (d.perform c).1 (d.perform c).2 := by
  cases c with
  | hasNext => exact .hasNext _ (fills_fill d)
  | next => exact .next _ (fills_fill d)
  | cancel => exact .cancel
  | close => exact .close _ (closes_close d)
  | outcome => exact .outcome

/-- **The functions carry out every row of calls, and what they answer is a history.** -/
theorem history_performAll (d : Dataset) (calls : List Call) :
    d.History (d.performAll calls).1 (d.performAll calls).2 := by
  induction calls generalizing d with
  | nil => exact .nil d
  | cons c rest ih => exact .call (performs_perform d c) (ih _)

end Dataset

end WorkbookTables
