import WorkbookTables.Proofs.Scan.Pulling

/-!
# Publisher and consumer step by step

In a history a call is one step, and nobody but the publisher is busy while it lasts. Here a call is
taken apart: the consumer begins it, waits, takes a message out of the channel, looks whether the
scan has been cancelled meanwhile, asks the publisher to stop, leaves the channel, waits for the
exit, and is answered. The publisher may get on between any two of these steps, and anybody who has
a handle may cancel the scan at any time.

What happens by itself is kept apart from what somebody starts. A call is begun by the consumer when
it is in no other; from then on it needs nobody's help. There is always a step that brings it nearer
to its answer, its own or one of the publisher, and there are only so many of them. So nothing
blocks: a consumer waits for a channel that is empty only while the publisher has something to do,
and a publisher waits for a channel that is full only while there is a consumer to make room.

Once the consumer has left, nothing is put into the channel any more. The publisher is stopped by
the next row that the reading has for it, and does not take it.

## Main definitions

* `Stage`, `Moment` — where the consumer stands, and the dataset with it
* `Moment.Works`, `Moment.Starts` — what happens by itself, and what is started
* `Moment.Runs` — steps one after another, with the answers that are given
* `Moment.Orderly` — how the dataset and the stage fit together

## Main results

* `Moment.Runs.orderly` — every moment is orderly
* `Moment.Orderly.exists_works` — whoever is in a call is not stuck
* `Moment.Works.effort_lt` — what happens by itself comes to an end
* `Bridge.Deserted.reaches` — what a publisher does whose consumer has left
-/

namespace WorkbookTables

namespace Dataset

/-! ### Steps -/

/-- Where a consumer stands. -/
inductive Stage where
  /-- It is in no call. -/
  | ready
  /-- It waits for a message. -/
  | waiting (c : Call)
  /-- It has taken a message, or has learnt that there will be none. -/
  | holding (c : Call) (m : Option Message)
  /-- It has asked the publisher to stop. -/
  | leaving (c : Call)
  /-- It has left the channel and waits for the exit of the publisher. -/
  | left (c : Call)

/-- The call that a consumer is in. -/
def Stage.call? : Stage → Option Call
  | .ready => none
  | .waiting c | .holding c _ | .leaving c | .left c => some c

/-- How many steps a call may still take by itself. -/
def Stage.effort : Stage → Nat
  | .ready => 0
  | .left _ => 1
  | .leaving _ => 2
  | .holding _ _ => 3
  | .waiting _ => 4

/-- A dataset and where its consumer stands. -/
structure Moment where
  /-- The dataset, with the publisher and the channel. -/
  dataset : Dataset
  /-- Where the consumer stands. -/
  stage : Stage

/-- Holds of the calls that fetch an item. -/
def Call.Fetches (c : Call) : Prop := c = .hasNext ∨ c = .next

/-- The answer to a call that is over, and the dataset then. -/
def answer (d : Dataset) : Call → Reply × Dataset
  | .hasNext => (.available d.pending.isSome, d)
  | .next => (.item d.pending, { d with pending := none })
  | .cancel => (.done, d.cancel)
  | .close => (.done, d)
  | .outcome => (.ending d.outcome, d)

namespace Moment

/-- A consumer in no call, and nothing has happened yet. -/
def start (scan : Scan) (feed : Feed) : Moment := ⟨.start scan feed, .ready⟩

/-- The end of a call: it is answered. -/
def answered (d : Dataset) (c : Call) : Moment := ⟨(d.answer c).2, .ready⟩

/-- The first step of ending a scan: nothing more is fetched, and the publisher is asked to stop. -/
def closing (d : Dataset) (c : Call) : Moment := ⟨{ d.cancel with closed := true }, .leaving c⟩

/-- What happens by itself: the publisher gets on, or the call of the consumer does. -/
inductive Works : Moment → Option (Call × Reply) → Moment → Prop where
  /-- The publisher takes a step. -/
  | publish {d : Dataset} {stage : Stage} {b : Bridge} (h : d.bridge.advance? = some b) :
      Works ⟨d, stage⟩ none ⟨{ d with bridge := b }, stage⟩
  /-- The oldest message is taken out of the channel. -/
  | receive {d : Dataset} {c : Call} {m : Message} {rest : List Message}
      (hq : d.bridge.queue = m :: rest) :
      Works ⟨d, .waiting c⟩ none
        ⟨{ d with bridge := { d.bridge with queue := rest } }, .holding c (some m)⟩
  /-- The channel is empty, and the publisher has exited. -/
  | disconnect {d : Dataset} {c : Call} {outcome : Option Ending} (hq : d.bridge.queue = [])
      (hexit : d.bridge.publisher.phase = .exited outcome) :
      Works ⟨d, .waiting c⟩ none ⟨d, .holding c none⟩
  /-- A row is kept. -/
  | keep {d : Dataset} {c : Call} {row : Row} (hc : d.isCancelled = false) :
      Works ⟨d, .holding c (some (.row row))⟩
        (some (c, ({ d with pending := some (.ok row) }.answer c).1))
        (answered { d with pending := some (.ok row) } c)
  /-- A row is dropped, because the scan has been cancelled. -/
  | drop {d : Dataset} {c : Call} {row : Row} (hc : d.isCancelled = true) :
      Works ⟨d, .holding c (some (.row row))⟩ none (closing d c)
  /-- A failure is kept, and the scan is over. -/
  | failed {d : Dataset} {c : Call} {e : Error} :
      Works ⟨d, .holding c (some (.failed e))⟩ none
        (closing { d with pending := some (.error e) } c)
  /-- The reading has ended, and the scan is over. -/
  | finished {d : Dataset} {c : Call} {ending : Ending} :
      Works ⟨d, .holding c (some (.finished ending))⟩ none
        (closing { d with outcome := some ending } c)
  /-- The publisher has exited without a report, which is a failure. -/
  | silence {d : Dataset} {c : Call} (hc : d.isCancelled = false) :
      Works ⟨d, .holding c none⟩ none
        (closing { d with pending := some (.error (.publisher d.table)) } c)
  /-- There is nothing to wait for, because the scan has been cancelled. -/
  | giveUp {d : Dataset} {c : Call} (hc : d.isCancelled = true) :
      Works ⟨d, .holding c none⟩ none (closing d c)
  /-- The consumer leaves the channel, and what is in it is lost. -/
  | leave {d : Dataset} {c : Call} :
      Works ⟨d, .leaving c⟩ none
        ⟨{ d with bridge := { d.bridge with queue := [], connected := false } }, .left c⟩
  /-- The publisher has exited, and says how the reading ended unless that is known. -/
  | exit {d : Dataset} {c : Call} {outcome : Option Ending}
      (hexit : d.bridge.publisher.phase = .exited outcome) :
      Works ⟨d, .left c⟩ (some (c, ({ d with outcome := d.outcome.or outcome }.answer c).1))
        (answered { d with outcome := d.outcome.or outcome } c)

/-- What somebody starts. -/
inductive Starts : Moment → Option (Call × Reply) → Moment → Prop where
  /-- An item is there already, or nothing more is fetched. -/
  | atOnce {d : Dataset} {c : Call} (hf : c.Fetches)
      (h : d.pending.isSome = true ∨ d.closed = true) :
      Starts ⟨d, .ready⟩ (some (c, (d.answer c).1)) (answered d c)
  /-- An item is to be fetched. -/
  | fetch {d : Dataset} {c : Call} (hf : c.Fetches) (hp : d.pending = none)
      (ho : d.closed = false) (hc : d.isCancelled = false) :
      Starts ⟨d, .ready⟩ none ⟨d, .waiting c⟩
  /-- An item is to be fetched, but the scan has been cancelled. -/
  | refuse {d : Dataset} {c : Call} (hf : c.Fetches) (hp : d.pending = none)
      (ho : d.closed = false) (hc : d.isCancelled = true) : Starts ⟨d, .ready⟩ none (closing d c)
  /-- The scan is to be ended. -/
  | close {d : Dataset} (ho : d.closed = false) : Starts ⟨d, .ready⟩ none (closing d .close)
  /-- It has been ended already. -/
  | closeAgain {d : Dataset} (ho : d.closed = true) :
      Starts ⟨d, .ready⟩ (some (.close, .done)) ⟨d, .ready⟩
  /-- The consumer asks for the outcome. -/
  | outcome {d : Dataset} : Starts ⟨d, .ready⟩ (some (.outcome, .ending d.outcome)) ⟨d, .ready⟩
  /-- Somebody cancels the scan, whatever the consumer is doing. -/
  | cancel {d : Dataset} {stage : Stage} :
      Starts ⟨d, stage⟩ (some (.cancel, .done)) ⟨d.cancel, stage⟩

/-- Steps one after another, with the answers that are given on the way. -/
inductive Runs (first : Moment) : List (Call × Reply) → Moment → Prop where
  /-- Nothing has happened. -/
  | nil : Runs first [] first
  /-- The last step happens by itself. -/
  | works {h : List (Call × Reply)} {m m' : Moment} {given : Option (Call × Reply)}
      (hrun : Runs first h m) (hstep : m.Works given m') : Runs first (h ++ given.toList) m'
  /-- The last step is started by somebody. -/
  | starts {h : List (Call × Reply)} {m m' : Moment} {given : Option (Call × Reply)}
      (hrun : Runs first h m) (hstep : m.Starts given m') : Runs first (h ++ given.toList) m'

end Moment

end Dataset

/-! ### Publishers whose consumer has left -/

namespace Bridge

variable {b b' : Bridge}

/-- The consumer has left: the channel is empty for good, and the publisher is asked to stop or has
exited. -/
structure Deserted (b : Bridge) : Prop where
  /-- Nobody receives. -/
  connected : b.connected = false
  /-- Nothing is in the channel. -/
  queue : b.queue = []
  /-- The publisher is asked to stop, unless it has exited. -/
  asked : b.cancelled = true ∨ ∃ outcome, b.publisher.phase = .exited outcome

theorem Step.ne_exited {outcome : Option Ending} (h : b.Step b') :
    b.publisher.phase ≠ .exited outcome := by
  cases h <;> simp [*]

theorem rows_sent (p : Publisher) : p.sent.rows = p.rows := by
  cases hcap : p.scan.isCapped (p.published + 1) with
  | true => rw [Publisher.sent_of_isCapped hcap, Publisher.stop]
  | false => rw [Publisher.sent_of_not_isCapped hcap]

theorem rows_conclude (p : Publisher) : p.conclude.rows = p.rows := by
  rw [Publisher.conclude]
  split <;> rfl

/-- **A publisher that is asked to stop takes no further row.** -/
theorem Step.rows_eq (h : b.Step b') (hc : b.cancelled = true) :
    b'.publisher.rows = b.publisher.rows := by
  cases h with
  | conclude hp hr => exact rows_conclude _
  | take row rest hp hr hno => simp [hc] at hno
  | send row hp hx => exact rows_sent _
  | _ => rfl

theorem Reaches.rows_eq (h : b.Reaches b') (hc : b.cancelled = true) :
    b'.publisher.rows = b.publisher.rows := by
  induction h with
  | refl => rfl
  | tail hreach hstep ih =>
    have hc' := (Reaches.cancelled_eq hreach).trans hc
    rw [(step_of_advance? hstep).rows_eq hc', ih]

/-- A step of the publisher does not bring the consumer back, and puts nothing into the channel. -/
theorem Deserted.step (hd : b.Deserted) (h : b.Step b') : b'.Deserted where
  connected := h.connected_eq.trans hd.connected
  queue := by
    have hx := hd.connected
    cases h with
    | send row hp hgone => simp [hx] at hgone
    | report m outcome hp hgone => simp [hx] at hgone
    | _ => exact hd.queue
  asked := hd.asked.imp h.cancelled_eq.trans fun ⟨_, hexit⟩ => absurd hexit h.ne_exited

theorem Deserted.cancelled_of_step (hd : b.Deserted) (h : b.Step b') : b.cancelled = true :=
  hd.asked.resolve_right fun ⟨_, hexit⟩ => h.ne_exited hexit

/-- **What a publisher does whose consumer has left**: it publishes nothing, takes no row, and does
not wait. -/
theorem Deserted.reaches (hd : b.Deserted) (h : b.Reaches b') :
    b'.Deserted ∧ b'.publisher.rows = b.publisher.rows ∧
      (b'.advance? = none → ∃ outcome, b'.publisher.phase = .exited outcome) := by
  have hkept : b'.Deserted ∧ b'.publisher.rows = b.publisher.rows := by
    induction h with
    | refl => exact ⟨hd, rfl⟩
    | tail _ hstep ih =>
      have hstep := step_of_advance? hstep
      exact ⟨ih.1.step hstep, (hstep.rows_eq (ih.1.cancelled_of_step hstep)).trans ih.2⟩
  refine ⟨hkept.1, hkept.2, fun hhalt => ?_⟩
  obtain ⟨hconnected, -⟩ | hexit := waits_or_exited hhalt
  · simp [hkept.1.connected] at hconnected
  · exact hexit

theorem runFor_of_exited {outcome : Option Ending} (hexit : b.publisher.phase = .exited outcome)
    (steps : Nat) : b.runFor steps = b :=
  (reaches_runFor steps b).eq_of_exited hexit

/-- A report that nobody receives is followed by the exit. -/
theorem Deserted.exited_of_reporting (hd : b.Deserted) {report : Message} {outcome : Option Ending}
    (hp : b.publisher.phase = .reporting report outcome) (steps : Nat) :
    (b.runFor (steps + 1)).publisher.phase = .exited outcome := by
  have hstep : b.advance? =
      some { b with publisher := { b.publisher with phase := .exited outcome } } := by
    simp [advance?, hp, hd.connected]
  rw [runFor, hstep]
  dsimp only
  rw [@runFor_of_exited _ outcome rfl]

/-- **A publisher whose consumer has left exits within two steps.** -/
theorem Deserted.exists_exited (hd : b.Deserted) :
    ∃ outcome, (b.runFor 2).publisher.phase = .exited outcome := by
  cases hstep : b.advance? with
  | none =>
    obtain ⟨outcome, hexit⟩ := (hd.reaches .refl).2.2 hstep
    exact ⟨outcome, by rw [runFor_of_exited hexit, hexit]⟩
  | some b' =>
    have hrun : b.runFor 2 = b'.runFor 1 := by rw [runFor, hstep]
    have hd' := hd.step (step_of_advance? hstep)
    have hc := hd.cancelled_of_step (step_of_advance? hstep)
    rw [hrun]
    cases step_of_advance? hstep with
    | conclude hp hr =>
      obtain ⟨report, -, hreport⟩ | hexit := b.publisher.phase_conclude
      · exact ⟨_, hd'.exited_of_reporting hreport 0⟩
      · exact ⟨_, by rw [runFor_of_exited hexit, hexit]⟩
    | stop hp hasked => exact ⟨_, hd'.exited_of_reporting rfl 0⟩
    | take row rest hp hr hno => simp [hc] at hno
    | send row hp hx => simp [hd.connected] at hx
    | report m outcome hp hx => simp [hd.connected] at hx
    | giveUp row hp hx => exact ⟨_, hd'.exited_of_reporting rfl 0⟩
    | exit m outcome hp hx => exact ⟨outcome, by rw [@runFor_of_exited _ outcome rfl]⟩

end Bridge

namespace Dataset

/-! ### Calls that are over -/

variable {d : Dataset} {c : Call}

theorem Call.ne_cancel (hc : c.Fetches ∨ c = .close) : c ≠ .cancel := by
  rintro rfl
  simp [Call.Fetches] at hc

theorem bridge_answer (d : Dataset) (hc : c ≠ .cancel) : (d.answer c).2.bridge = d.bridge := by
  cases c with
  | cancel => exact absurd rfl hc
  | _ => rfl

theorem publisher_answer (d : Dataset) (c : Call) :
    (d.answer c).2.bridge.publisher = d.bridge.publisher := by
  cases c <;> rfl

theorem closed_answer (d : Dataset) (c : Call) : (d.answer c).2.closed = d.closed := by
  cases c <;> rfl

theorem table_answer (d : Dataset) (c : Call) : (d.answer c).2.table = d.table := by
  cases c <;> rfl

theorem outcome_answer (d : Dataset) (c : Call) : (d.answer c).2.outcome = d.outcome := by
  cases c <;> rfl

/-- An answer takes away what it returns, and nothing else. -/
theorem items_answer (d : Dataset) (c : Call) :
    (d.answer c).1.items ++ (d.answer c).2.pending.toList = d.pending.toList := by
  cases c <;> simp [answer, cancel]

theorem pending_answer_eq_none (d : Dataset) (c : Call) (hp : d.pending = none) :
    (d.answer c).2.pending = none := by
  cases c with
  | next => rfl
  | _ => exact hp

/-- An answer that there is no further item means that none has been fetched. -/
theorem pending_of_saysEnd (h : (d.answer c).1.SaysEnd) : d.pending = none := by
  rw [Reply.SaysEnd] at h
  cases c with
  | hasNext => simpa [answer] using h
  | next => simpa [answer] using h
  | _ => simp [answer] at h

namespace Moment

variable {m m' : Moment} {given : Option (Call × Reply)} {h : List (Call × Reply)}

/-! ### How dataset and stage fit together -/

/-- How the dataset and the stage of its consumer fit together. -/
inductive Orderly : Moment → Prop where
  /-- In no call, and items are still fetched. -/
  | opened (d : Dataset) (ho : d.closed = false) (hx : d.bridge.connected = true) :
      Orderly ⟨d, .ready⟩
  /-- In no call, and nothing more is fetched. -/
  | ended (d : Dataset) (outcome : Option Ending) (ho : d.closed = true) (hd : d.bridge.Deserted)
      (hexit : d.bridge.publisher.phase = .exited outcome) : Orderly ⟨d, .ready⟩
  /-- Waiting for a message. -/
  | waiting (d : Dataset) (c : Call) (hf : c.Fetches) (hp : d.pending = none)
      (ho : d.closed = false) (hx : d.bridge.connected = true) : Orderly ⟨d, .waiting c⟩
  /-- With a message in hand. -/
  | holding (d : Dataset) (c : Call) (m : Message) (hf : c.Fetches) (hp : d.pending = none)
      (ho : d.closed = false) (hx : d.bridge.connected = true) : Orderly ⟨d, .holding c (some m)⟩
  /-- Without a message, because there will be none. -/
  | silent (d : Dataset) (c : Call) (outcome : Option Ending) (hf : c.Fetches)
      (hp : d.pending = none) (ho : d.closed = false) (hx : d.bridge.connected = true)
      (hq : d.bridge.queue = []) (hexit : d.bridge.publisher.phase = .exited outcome) :
      Orderly ⟨d, .holding c none⟩
  /-- The publisher has been asked to stop. -/
  | leaving (d : Dataset) (c : Call) (hc : c.Fetches ∨ c = .close) (ho : d.closed = true)
      (hx : d.bridge.connected = true) (hasked : d.bridge.cancelled = true) :
      Orderly ⟨d, .leaving c⟩
  /-- The consumer has left. -/
  | left (d : Dataset) (c : Call) (hc : c.Fetches ∨ c = .close) (ho : d.closed = true)
      (hd : d.bridge.Deserted) : Orderly ⟨d, .left c⟩

theorem orderly_start (scan : Scan) (feed : Feed) : (start scan feed).Orderly := by
  by_cases hm : scan.maxRows = some 0
  · rw [start, start_of_maxRows_eq hm]
    exact .ended _ none rfl ⟨rfl, rfl, .inr ⟨none, rfl⟩⟩ rfl
  · rw [start, start_of_maxRows_ne hm]
    exact .opened _ rfl rfl

/-- The first step of ending a scan. -/
theorem orderly_closing {d : Dataset} {c : Call} (hc : c.Fetches ∨ c = .close)
    (hx : d.bridge.connected = true) : (closing d c).Orderly :=
  .leaving _ c hc rfl hx rfl

/-- An answer of an open dataset. -/
theorem orderly_answered {d : Dataset} {c : Call} (hc : c.Fetches ∨ c = .close)
    (ho : d.closed = false) (hx : d.bridge.connected = true) : (answered d c).Orderly :=
  .opened _ ((closed_answer d c).trans ho) (by rw [bridge_answer d (Call.ne_cancel hc), hx])

/-- An answer of a dataset that is over. -/
theorem orderly_answered_over {d : Dataset} {c : Call} {outcome : Option Ending}
    (hc : c.Fetches ∨ c = .close) (ho : d.closed = true) (hd : d.bridge.Deserted)
    (hexit : d.bridge.publisher.phase = .exited outcome) : (answered d c).Orderly := by
  have hbridge := bridge_answer d (Call.ne_cancel hc)
  refine .ended _ outcome ((closed_answer d c).trans ho) ?_ ?_
  · rwa [hbridge]
  · rwa [hbridge]

/-- A step of the publisher leaves a moment orderly. -/
theorem Orderly.publish {d : Dataset} {stage : Stage} {b : Bridge} (hm : Orderly ⟨d, stage⟩)
    (hstep : d.bridge.Step b) : Orderly ⟨{ d with bridge := b }, stage⟩ := by
  have hx := hstep.connected_eq
  cases hm with
  | opened _ ho hconnected => exact .opened _ ho (hx.trans hconnected)
  | ended _ outcome ho hd hexit => exact absurd hexit hstep.ne_exited
  | waiting _ c hf hp ho hconnected => exact .waiting _ c hf hp ho (hx.trans hconnected)
  | holding _ c m hf hp ho hconnected => exact .holding _ c m hf hp ho (hx.trans hconnected)
  | silent _ c outcome hf hp ho hconnected hq hexit => exact absurd hexit hstep.ne_exited
  | leaving _ c hc ho hconnected hasked =>
    exact .leaving _ c hc ho (hx.trans hconnected) (hstep.cancelled_eq.trans hasked)
  | left _ c hc ho hd => exact .left _ c hc ho (hd.step hstep)

/-- **What happens by itself leaves a moment orderly.** -/
theorem Works.orderly (hstep : m.Works given m') (hm : m.Orderly) : m'.Orderly := by
  cases hstep with
  | publish hb => exact hm.publish (Bridge.step_of_advance? hb)
  | receive hq =>
    cases hm with
    | waiting _ _ hf hp ho hx => exact .holding _ _ _ hf hp ho hx
  | disconnect hq hexit =>
    cases hm with
    | waiting _ _ hf hp ho hx => exact .silent _ _ _ hf hp ho hx hq hexit
  | keep hc =>
    cases hm with
    | holding _ _ _ hf hp ho hx => exact orderly_answered (.inl hf) ho hx
  | drop hc =>
    cases hm with
    | holding _ _ _ hf hp ho hx => exact orderly_closing (.inl hf) hx
  | failed =>
    cases hm with
    | holding _ _ _ hf hp ho hx => exact orderly_closing (.inl hf) hx
  | finished =>
    cases hm with
    | holding _ _ _ hf hp ho hx => exact orderly_closing (.inl hf) hx
  | silence hc =>
    cases hm with
    | silent _ _ outcome hf hp ho hx hq hexit => exact orderly_closing (.inl hf) hx
  | giveUp hc =>
    cases hm with
    | silent _ _ outcome hf hp ho hx hq hexit => exact orderly_closing (.inl hf) hx
  | leave =>
    cases hm with
    | leaving _ _ hc ho hx hasked => exact .left _ _ hc ho ⟨rfl, rfl, .inl hasked⟩
  | exit hexit =>
    cases hm with
    | left _ _ hc ho hd => exact orderly_answered_over hc ho hd hexit

/-- **So does what somebody starts.** -/
theorem Starts.orderly (hstep : m.Starts given m') (hm : m.Orderly) : m'.Orderly := by
  cases hstep with
  | atOnce hf hready =>
    cases hm with
    | opened _ ho hx => exact orderly_answered (.inl hf) ho hx
    | ended _ outcome ho hd hexit => exact orderly_answered_over (.inl hf) ho hd hexit
  | fetch hf hp ho hc =>
    cases hm with
    | opened _ _ hx => exact .waiting _ _ hf hp ho hx
    | ended _ outcome hclosed hd hexit => simp [ho] at hclosed
  | refuse hf hp ho hc =>
    cases hm with
    | opened _ _ hx => exact orderly_closing (.inl hf) hx
    | ended _ outcome hclosed hd hexit => simp [ho] at hclosed
  | close ho =>
    cases hm with
    | opened _ _ hx => exact orderly_closing (.inr rfl) hx
    | ended _ outcome hclosed hd hexit => simp [ho] at hclosed
  | closeAgain ho => exact hm
  | outcome => exact hm
  | cancel =>
    cases hm with
    | opened _ ho hx => exact .opened _ ho hx
    | ended _ outcome ho hd hexit =>
      exact .ended _ outcome ho ⟨hd.connected, hd.queue, .inl rfl⟩ hexit
    | waiting _ c hf hp ho hx => exact .waiting _ c hf hp ho hx
    | holding _ c m hf hp ho hx => exact .holding _ c m hf hp ho hx
    | silent _ c outcome hf hp ho hx hq hexit =>
      exact .silent _ c outcome hf hp ho hx hq hexit
    | leaving _ c hc ho hx hasked => exact .leaving _ c hc ho hx rfl
    | left _ c hc ho hd => exact .left _ c hc ho ⟨hd.connected, hd.queue, .inl rfl⟩

/-- **Every moment is orderly.** -/
theorem Runs.orderly {first : Moment} (hrun : first.Runs h m) (hfirst : first.Orderly) :
    m.Orderly := by
  induction hrun with
  | nil => exact hfirst
  | works _ hstep ih => exact hstep.orderly ih
  | starts _ hstep ih => exact hstep.orderly ih

/-! ### Nothing blocks -/

/-- **Whoever is in a call is not stuck.** -/
theorem Orderly.exists_works (hm : m.Orderly) (hcall : m.stage ≠ .ready) :
    ∃ given m', m.Works given m' := by
  cases hm with
  | opened d ho hx => exact absurd rfl hcall
  | ended d outcome ho hd hexit => exact absurd rfl hcall
  | waiting d c hf hp ho hx =>
    cases hq : d.bridge.queue with
    | cons m rest => exact ⟨_, _, .receive hq⟩
    | nil =>
      -- The channel is empty, and so not full.
      cases hstep : d.bridge.advance? with
      | some b => exact ⟨_, _, .publish hstep⟩
      | none =>
        obtain ⟨-, hfull⟩ | ⟨outcome, hexit⟩ := Bridge.waits_or_exited hstep
        · simp [hq, Bridge.capacity] at hfull
        · exact ⟨_, _, .disconnect hq hexit⟩
  | holding d c m hf hp ho hx =>
    cases m with
    | row row =>
      cases hc : d.isCancelled with
      | true => exact ⟨_, _, .drop hc⟩
      | false => exact ⟨_, _, .keep hc⟩
    | failed e => exact ⟨_, _, .failed⟩
    | finished ending => exact ⟨_, _, .finished⟩
  | silent d c outcome hf hp ho hx hq hexit =>
    cases hc : d.isCancelled with
    | true => exact ⟨_, _, .giveUp hc⟩
    | false => exact ⟨_, _, .silence hc⟩
  | leaving d c hc ho hx hasked => exact ⟨_, _, .leave⟩
  | left d c hc ho hd =>
    -- Nobody receives, and so the publisher does not wait.
    cases hstep : d.bridge.advance? with
    | some b => exact ⟨_, _, .publish hstep⟩
    | none =>
      obtain ⟨outcome, hexit⟩ := (hd.reaches .refl).2.2 hstep
      exact ⟨_, _, .exit hexit⟩

/-- A consumer that is in no call may begin any. -/
theorem exists_starts (d : Dataset) (c : Call) :
    ∃ given m', Starts ⟨d, .ready⟩ given m' ∧
      (m'.stage.call? = some c ∨ ∃ reply, given = some (c, reply)) := by
  have hfetch (hf : c.Fetches) : ∃ given m', Starts ⟨d, .ready⟩ given m' ∧
      (m'.stage.call? = some c ∨ ∃ reply, given = some (c, reply)) := by
    by_cases hready : d.pending.isSome = true ∨ d.closed = true
    · exact ⟨_, _, .atOnce hf hready, .inr ⟨_, rfl⟩⟩
    · obtain ⟨hp, ho⟩ := not_or.1 hready
      have hp : d.pending = none := by simpa using hp
      have ho : d.closed = false := by simpa using ho
      cases hc : d.isCancelled with
      | true => exact ⟨_, _, .refuse hf hp ho hc, .inl rfl⟩
      | false => exact ⟨_, _, .fetch hf hp ho hc, .inl rfl⟩
  cases c with
  | hasNext => exact hfetch (.inl rfl)
  | next => exact hfetch (.inr rfl)
  | cancel => exact ⟨_, _, .cancel, .inr ⟨_, rfl⟩⟩
  | outcome => exact ⟨_, _, .outcome, .inr ⟨_, rfl⟩⟩
  | close =>
    cases ho : d.closed with
    | true => exact ⟨_, _, .closeAgain ho, .inr ⟨_, rfl⟩⟩
    | false => exact ⟨_, _, .close ho, .inl rfl⟩

/-- More steps than may happen by themselves. -/
def effort (m : Moment) : Nat := m.dataset.bridge.publisher.effort + m.stage.effort

/-- **What happens by itself comes to an end**: every step leaves fewer to be done. -/
theorem Works.effort_lt (hstep : m.Works given m') : m'.effort < m.effort := by
  cases hstep with
  | publish hb => exact Nat.add_lt_add_right (Bridge.step_of_advance? hb).effort_lt _
  | keep hc =>
    simp only [effort, answered, publisher_answer]
    exact Nat.add_lt_add_left (by simp [Stage.effort]) _
  | exit hexit =>
    simp only [effort, answered, publisher_answer]
    exact Nat.add_lt_add_left (by simp [Stage.effort]) _
  | _ => exact Nat.add_lt_add_left (by simp [closing, Stage.effort]) _

/-! ### The end that is seen -/

/-- In no call, with nothing fetched, and nothing more is fetched. -/
structure Exhausted (m : Moment) : Prop where
  /-- No call is under way. -/
  stage : m.stage = .ready
  /-- Nothing more is fetched. -/
  closed : m.dataset.closed = true
  /-- Nothing has been fetched. -/
  pending : m.dataset.pending = none

/-- A call that is answered with nothing fetched leaves a closed dataset exhausted. -/
theorem exhausted_answered {d : Dataset} {c : Call} (ho : d.closed = true)
    (hp : d.pending = none) : (answered d c).Exhausted :=
  ⟨rfl, (closed_answer d c).trans ho, pending_answer_eq_none d c hp⟩

/-- An exhausted dataset stays so: its publisher has exited, and calls are answered at once. -/
theorem Works.not_exhausted (hstep : m.Works given m') (hm : m.Orderly) : ¬m.Exhausted := by
  rintro ⟨hstage, hclosed, -⟩
  cases hm with
  | opened d ho hx => simp [ho] at hclosed
  | ended d outcome ho hd hexit =>
    cases hstep with
    | publish hb => exact (Bridge.step_of_advance? hb).ne_exited hexit
  | _ => cases hstage

theorem Starts.exhausted (hstep : m.Starts given m') (he : m.Exhausted) : m'.Exhausted := by
  obtain ⟨hstage, hclosed, hp⟩ := he
  cases hstep with
  | atOnce hf hready => exact exhausted_answered hclosed hp
  | closeAgain ho => exact ⟨hstage, hclosed, hp⟩
  | outcome => exact ⟨hstage, hclosed, hp⟩
  | cancel => exact ⟨hstage, hclosed, hp⟩
  | fetch hf hp' ho hc => simp [ho] at hclosed
  | refuse hf hp' ho hc => simp [ho] at hclosed
  | close ho => simp [ho] at hclosed

/-- An answer that there is no further item is given when the dataset is exhausted. -/
theorem Works.exhausted_of_saysEnd {c : Call} {reply : Reply}
    (hstep : m.Works (some (c, reply)) m') (hm : m.Orderly) (hend : reply.SaysEnd) :
    m'.Exhausted := by
  cases hstep with
  | keep hc => cases pending_of_saysEnd hend
  | exit hexit =>
    cases hm with
    | left _ _ hc ho hd => exact exhausted_answered ho (pending_of_saysEnd hend)

theorem Starts.exhausted_of_saysEnd {c : Call} {reply : Reply}
    (hstep : m.Starts (some (c, reply)) m') (hend : reply.SaysEnd) : m'.Exhausted := by
  cases hstep with
  | @atOnce d _ hf hready =>
    have hp : d.pending = none := pending_of_saysEnd hend
    exact exhausted_answered (hready.resolve_left (by simp [hp])) hp
  | closeAgain ho => simp [Reply.SaysEnd] at hend
  | outcome => simp [Reply.SaysEnd] at hend
  | cancel => simp [Reply.SaysEnd] at hend

/-- **Once it has been said that there is no further item, the dataset is exhausted.** -/
theorem Runs.exhausted {first : Moment} (hrun : first.Runs h m) (hfirst : first.Orderly)
    (hend : ∃ call ∈ h, call.2.SaysEnd) : m.Exhausted := by
  induction hrun with
  | nil => simp at hend
  | works hbefore hstep ih =>
    have hm := hbefore.orderly hfirst
    obtain ⟨⟨c, reply⟩, hmem, hsays⟩ := hend
    obtain hearlier | hlast := List.mem_append.1 hmem
    · exact absurd (ih ⟨_, hearlier, hsays⟩) (hstep.not_exhausted hm)
    · obtain rfl := Option.mem_toList.1 hlast
      exact hstep.exhausted_of_saysEnd hm hsays
  | starts hbefore hstep ih =>
    obtain ⟨⟨c, reply⟩, hmem, hsays⟩ := hend
    obtain hearlier | hlast := List.mem_append.1 hmem
    · exact hstep.exhausted (ih ⟨_, hearlier, hsays⟩)
    · obtain rfl := Option.mem_toList.1 hlast
      exact hstep.exhausted_of_saysEnd hsays

end Moment

end Dataset

end WorkbookTables
