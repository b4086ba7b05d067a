import WorkbookTables.Scan.Dataset
import Mathlib.Logic.Relation

/-!
# What a publisher is going to send

Publisher and consumer are decoupled by the channel, and how far the one is ahead of the other
depends on the schedule. What does not depend on it is the row of messages made of those that wait
in the channel and those the publisher has yet to send. As long as nobody asks the publisher to
stop, its steps only move messages from the second part to the first.

So a scan has one stream of messages, fixed when it starts. Whatever is said about the items that a
consumer gets is said about this stream.

## Main definitions

* `Scan.messages` — the messages that rows make, with the report behind them
* `Publisher.upcoming` — the messages a publisher has yet to send
* `Bridge.inFlight` — those in the channel and those to come
* `Bridge.Truthful` — a report tells how the publisher has exited
* `Bridge.Reaches` — some steps of the publisher, whatever the schedule

## Main results

* `Bridge.Step.inFlight_eq` — an undisturbed step changes nothing about what is in flight
* `Bridge.advance?_settle` — a publisher that has been left to itself waits or has exited
-/

namespace WorkbookTables

/-! ### Messages -/

namespace Message

/-- Whether a message holds a row. -/
def isRow : Message → Bool
  | .row _ => true
  | _ => false

/-- How the reading ended according to a message. -/
def outcome : Message → Option Ending
  | .finished ending => some ending
  | _ => none

@[simp] theorem isRow_row (row : Row) : (Message.row row).isRow = true := rfl

@[simp] theorem isRow_failed (e : Error) : (failed e).isRow = false := rfl

@[simp] theorem isRow_finished (ending : Ending) : (finished ending).isRow = false := rfl

@[simp] theorem outcome_failed (e : Error) : (failed e).outcome = none := rfl

@[simp] theorem outcome_finished (ending : Ending) : (finished ending).outcome = some ending := rfl

end Message

namespace Scan

/-- Holds if so many rows are all that is wanted. -/
def isCapped (scan : Scan) (published : Nat) : Bool :=
  scan.maxRows.any (· ≤ published)

/-- The report on rows that have come to their end. There is none on a failure that is no error. -/
def report (scan : Scan) (ending : Except SheetFailure Ending) : List Message :=
  match ending with
  | .ok ending => [.finished ending]
  | .error (.error e) => [.failed (e.within (tableContext scan.table))]
  | .error .outsideRow => []

/-- The messages that rows make for a scan of which so many rows have been published. -/
def messages (scan : Scan) (ending : Except SheetFailure Ending) :
    Bool → Nat → List Row → List Message
  | _, _, [] => scan.report ending
  | true, published, row :: rest =>
    messages scan ending (!Publisher.isHeader scan row) published rest
  | false, published, row :: rest =>
    .row (row.project scan.positions) ::
      if scan.isCapped (published + 1) then [.finished .stopped]
      else messages scan ending false (published + 1) rest

end Scan

namespace Publisher

/-- What a publisher sends behind the row that it is sending. -/
def afterRow (p : Publisher) : List Message :=
  if p.scan.isCapped (p.published + 1) then [.finished .stopped]
  else p.scan.messages p.ending p.awaitingHeader (p.published + 1) p.rows

/-- The messages that a publisher has yet to send if nobody asks it to stop. -/
def upcoming (p : Publisher) : List Message :=
  match p.phase with
  | .reading => p.scan.messages p.ending p.awaitingHeader p.published p.rows
  | .sending row => .row row :: p.afterRow
  | .reporting report _ => [report]
  | .exited _ => []

theorem upcoming_of_reading {p : Publisher} (hp : p.phase = .reading) :
    p.upcoming = p.scan.messages p.ending p.awaitingHeader p.published p.rows := by
  simp [upcoming, hp]

theorem upcoming_of_sending {p : Publisher} {row : Row} (hp : p.phase = .sending row) :
    p.upcoming = .row row :: p.afterRow := by
  simp [upcoming, hp]

theorem upcoming_of_exited {p : Publisher} {outcome : Option Ending}
    (hp : p.phase = .exited outcome) : p.upcoming = [] := by
  simp [upcoming, hp]

theorem upcoming_stop (p : Publisher) : p.stop.upcoming = [.finished .stopped] := rfl

theorem sent_of_isCapped {p : Publisher} (h : p.scan.isCapped (p.published + 1) = true) :
    p.sent = { p with published := p.published + 1 }.stop := by
  cases hm : p.scan.maxRows with
  | none => simp [Scan.isCapped, hm] at h
  | some cap =>
    have hcap : cap ≤ p.published + 1 := by simpa [Scan.isCapped, hm] using h
    simp [sent, hm, hcap]

theorem sent_of_not_isCapped {p : Publisher} (h : p.scan.isCapped (p.published + 1) = false) :
    p.sent = { p with published := p.published + 1, phase := .reading } := by
  cases hm : p.scan.maxRows with
  | none => simp [sent, hm]
  | some cap =>
    have hcap : ¬cap ≤ p.published + 1 := by simpa [Scan.isCapped, hm] using h
    simp [sent, hm, hcap]

theorem upcoming_sent (p : Publisher) : p.sent.upcoming = p.afterRow := by
  cases h : p.scan.isCapped (p.published + 1) with
  | true => rw [sent_of_isCapped h, upcoming_stop, afterRow, if_pos h]
  | false => rw [sent_of_not_isCapped h, upcoming_of_reading rfl, afterRow, h]; rfl

theorem upcoming_conclude (p : Publisher) : p.conclude.upcoming = p.scan.report p.ending := by
  rcases h : p.ending with (e | _) | ending <;> simp [conclude, upcoming, Scan.report, h]

/-- A publisher without further rows reports, or exits without a report. -/
theorem phase_conclude (p : Publisher) :
    (∃ report : Message, report.isRow = false ∧
      p.conclude.phase = .reporting report report.outcome) ∨ p.conclude.phase = .exited none := by
  rcases h : p.ending with (e | _) | ending
  · exact .inl ⟨.failed (e.within (tableContext p.scan.table)), rfl, by simp [conclude, h]⟩
  · exact .inr (by simp [conclude, h])
  · exact .inl ⟨.finished ending, rfl, by simp [conclude, h]⟩

theorem upcoming_take {p : Publisher} {row : Row} {rest : List Row} (hp : p.phase = .reading) :
    (p.take row rest).upcoming =
      p.scan.messages p.ending p.awaitingHeader p.published (row :: rest) := by
  cases h : p.awaitingHeader with
  | true => simp [take, upcoming, Scan.messages, h, hp]
  | false => simp [take, upcoming, Scan.messages, afterRow, h]

/-- How many steps a publisher can take at most. -/
def effort (p : Publisher) : Nat :=
  match p.phase with
  | .reading => 2 * p.rows.length + 2
  | .sending _ => 2 * p.rows.length + 3
  | .reporting _ _ => 1
  | .exited _ => 0

theorem effort_le_budget (p : Publisher) : p.effort ≤ p.budget := by
  rw [effort, budget]
  split <;> omega

theorem effort_conclude (p : Publisher) : p.conclude.effort ≤ 1 := by
  rcases h : p.ending with (e | _) | ending <;> simp [conclude, effort, h]

theorem effort_take_lt {p : Publisher} {row : Row} {rest : List Row} (hp : p.phase = .reading) :
    (p.take row rest).effort < 2 * (rest.length + 1) + 2 := by
  cases h : p.awaitingHeader with
  | true => simp [take, effort, h, hp]
  | false => simp [take, effort, h]; omega

theorem effort_sent_lt (p : Publisher) : p.sent.effort < 2 * p.rows.length + 3 := by
  cases h : p.scan.isCapped (p.published + 1) with
  | true => simp [sent_of_isCapped h, stop, effort]
  | false => simp [sent_of_not_isCapped h, effort]

end Publisher

namespace Bridge

/-! ### Steps of the publisher -/

/-- Everything that a step of the publisher can be. -/
inductive Step (b : Bridge) : Bridge → Prop where
  /-- There are no more rows. -/
  | conclude (hp : b.publisher.phase = .reading) (hr : b.publisher.rows = []) :
      Step b { b with publisher := b.publisher.conclude }
  /-- There is a row, and the publisher is asked to stop. -/
  | stop (hp : b.publisher.phase = .reading) (hc : b.cancelled = true) :
      Step b { b with publisher := b.publisher.stop }
  /-- There is a row, and it is taken. -/
  | take (row : Row) (rest : List Row) (hp : b.publisher.phase = .reading)
      (hr : b.publisher.rows = row :: rest) (hc : b.cancelled = false) :
      Step b { b with publisher := b.publisher.take row rest }
  /-- A row goes into the channel. -/
  | send (row : Row) (hp : b.publisher.phase = .sending row) (hx : b.connected = true) :
      Step b { b with publisher := b.publisher.sent, queue := b.queue ++ [.row row] }
  /-- The report goes into the channel. -/
  | report (m : Message) (outcome : Option Ending) (hp : b.publisher.phase = .reporting m outcome)
      (hx : b.connected = true) :
      Step b { b with
        publisher := { b.publisher with phase := .exited outcome }, queue := b.queue ++ [m] }
  /-- A row cannot be sent because the consumer has left. -/
  | giveUp (row : Row) (hp : b.publisher.phase = .sending row) (hx : b.connected = false) :
      Step b { b with publisher := b.publisher.stop }
  /-- The report cannot be sent because the consumer has left. -/
  | exit (m : Message) (outcome : Option Ending) (hp : b.publisher.phase = .reporting m outcome)
      (hx : b.connected = false) :
      Step b { b with publisher := { b.publisher with phase := .exited outcome } }

theorem step_of_advance? {b b' : Bridge} (h : b.advance? = some b') : b.Step b' := by
  rw [advance?] at h
  split at h
  next hp =>
    split at h
    next hr => exact Option.some.inj h ▸ .conclude hp hr
    next row rest hr =>
      split at h
      next hc => exact Option.some.inj h ▸ .stop hp hc
      next hc => exact Option.some.inj h ▸ .take row rest hp hr (by simpa using hc)
  next row hp =>
    split at h
    next hx =>
      simp only [send?] at h
      split at h
      · exact Option.some.inj h ▸ .send row hp hx
      · cases h
    next hx => exact Option.some.inj h ▸ .giveUp row hp (by simpa using hx)
  next m outcome hp =>
    dsimp only at h
    split at h
    next hx =>
      simp only [send?] at h
      split at h
      · exact Option.some.inj h ▸ .report m outcome hp hx
      · cases h
    next hx => exact Option.some.inj h ▸ .exit m outcome hp (by simpa using hx)
  next => cases h

/-- A publisher that has no step has exited, or waits for room in the channel. -/
theorem waits_or_exited {b : Bridge} (h : b.advance? = none) :
    (b.connected = true ∧ capacity ≤ b.queue.length) ∨
      ∃ outcome, b.publisher.phase = .exited outcome := by
  rw [advance?] at h
  cases hp : b.publisher.phase with
  | reading =>
    simp only [hp] at h
    split at h
    · cases h
    · split at h <;> cases h
  | sending row =>
    simp only [hp, send?] at h
    split at h
    · exact .inl ⟨‹_›, by grind⟩
    · cases h
  | reporting m outcome =>
    simp only [hp, send?] at h
    split at h
    · exact .inl ⟨‹_›, by grind⟩
    · cases h
  | exited outcome => exact .inr ⟨outcome, rfl⟩

/-- Only the consumer cancels. -/
theorem Step.cancelled_eq {b b' : Bridge} (h : b.Step b') : b'.cancelled = b.cancelled := by
  cases h <;> rfl

/-- Only the consumer leaves. -/
theorem Step.connected_eq {b b' : Bridge} (h : b.Step b') : b'.connected = b.connected := by
  cases h <;> rfl

/-- Every step brings the publisher nearer to its exit. -/
theorem Step.effort_lt {b b' : Bridge} (h : b.Step b') :
    b'.publisher.effort < b.publisher.effort := by
  cases h with
  | conclude hp hr =>
    have hle := b.publisher.effort_conclude
    have heq : b.publisher.effort = 2 * b.publisher.rows.length + 2 := by
      simp [Publisher.effort, hp]
    exact show b.publisher.conclude.effort < b.publisher.effort by omega
  | stop hp hc => simp [Publisher.effort, Publisher.stop, hp]
  | take row rest hp hr hc =>
    have hlt := @Publisher.effort_take_lt b.publisher row rest hp
    have heq : b.publisher.effort = 2 * (rest.length + 1) + 2 := by
      simp [Publisher.effort, hp, hr]
    exact heq ▸ hlt
  | send row hp hx =>
    have hlt := b.publisher.effort_sent_lt
    have heq : b.publisher.effort = 2 * b.publisher.rows.length + 3 := by
      simp [Publisher.effort, hp]
    exact heq ▸ hlt
  | report m outcome hp hx => simp [Publisher.effort, hp]
  | giveUp row hp hx => simp [Publisher.effort, Publisher.stop, hp]
  | exit m outcome hp hx => simp [Publisher.effort, hp]

/-! ### What is in flight -/

/-- The messages that the consumer has yet to receive if it lets the publisher go on. -/
def inFlight (b : Bridge) : List Message := b.queue ++ b.publisher.upcoming

/-- **A step moves messages into the channel and makes none**, unless the publisher is stopped,
which leaves nothing but a report to come. -/
theorem Step.inFlight_eq_or {b b' : Bridge} (h : b.Step b') (hx : b.connected = true) :
    b'.inFlight = b.inFlight ∨
      b.cancelled = true ∧ b'.inFlight = b.queue ++ [.finished .stopped] := by
  cases h with
  | conclude hp hr =>
    left
    rw [inFlight, inFlight, Publisher.upcoming_conclude, Publisher.upcoming_of_reading hp, hr,
      Scan.messages]
  | stop hp hc => exact .inr ⟨hc, rfl⟩
  | take row rest hp hr _ =>
    left
    rw [inFlight, inFlight, Publisher.upcoming_take hp, ← hr, Publisher.upcoming_of_reading hp]
  | send row hp _ =>
    left
    rw [inFlight, inFlight, Publisher.upcoming_sent, Publisher.upcoming_of_sending hp,
      List.append_assoc, List.singleton_append]
  | report m outcome hp _ => exact .inl (by simp [inFlight, Publisher.upcoming, hp])
  | giveUp row hp hgone => simp [hx] at hgone
  | exit m outcome hp hgone => simp [hx] at hgone

/-- **An undisturbed step moves messages into the channel and makes none.** -/
theorem Step.inFlight_eq {b b' : Bridge} (h : b.Step b') (hc : b.cancelled = false)
    (hx : b.connected = true) : b'.inFlight = b.inFlight := by
  obtain hsame | ⟨hcancelled, -⟩ := h.inFlight_eq_or hx
  · exact hsame
  · simp [hc] at hcancelled

/-- What the reports of a publisher say is how it exits. -/
structure Truthful (b : Bridge) : Prop where
  /-- A publisher that has a report to send exits as the report says. -/
  reporting : ∀ m outcome, b.publisher.phase = .reporting m outcome →
    m.isRow = false ∧ outcome = m.outcome
  /-- Once a report is in the channel the publisher has exited as it says. -/
  queued : ∀ m ∈ b.queue, m.isRow = false → b.publisher.phase = .exited m.outcome
  /-- A publisher that has exited without a report has nothing to say of the ending. -/
  exited : ∀ outcome, b.publisher.phase = .exited outcome →
    outcome = none ∨ ∃ m ∈ b.queue, m.isRow = false

/-- Before the publisher has exited, the channel holds rows alone. -/
theorem Truthful.isRow_of_mem {b : Bridge} (ht : b.Truthful)
    (hne : ∀ outcome, b.publisher.phase ≠ .exited outcome) {m : Message} (hm : m ∈ b.queue) :
    m.isRow = true := by
  cases hrow : m.isRow with
  | true => rfl
  | false => exact absurd (ht.queued m hm hrow) (hne _)

/-- A channel that holds rows alone has nothing to say of how the publisher has exited. -/
theorem truthful_of_rows {b : Bridge} (hq : ∀ m ∈ b.queue, m.isRow = true)
    (hr : ∀ m outcome, b.publisher.phase = .reporting m outcome →
      m.isRow = false ∧ outcome = m.outcome)
    (he : ∀ outcome, b.publisher.phase = .exited outcome → outcome = none) : b.Truthful where
  reporting := hr
  queued m hm hrow := by simp [hq m hm] at hrow
  exited outcome hp := .inl (he outcome hp)

/-- Truthfulness is kept as long as there is a consumer. -/
theorem Step.truthful {b b' : Bridge} (h : b.Step b') (hx : b.connected = true)
    (ht : b.Truthful) : b'.Truthful := by
  cases h with
  | conclude hp hr =>
    have hq := fun m => ht.isRow_of_mem (m := m) (by simp [hp])
    obtain ⟨report, hrow, hreport⟩ | hexit := b.publisher.phase_conclude
    · refine truthful_of_rows hq ?_ (by simp [hreport])
      intro m outcome h
      obtain ⟨rfl, rfl⟩ : report = m ∧ report.outcome = outcome := by simpa [hreport] using h
      exact ⟨hrow, rfl⟩
    · exact truthful_of_rows hq (by simp [hexit]) (by simp [hexit])
  | stop hp hc =>
    refine truthful_of_rows (fun m => ht.isRow_of_mem (by simp [hp])) ?_ (by simp [Publisher.stop])
    rintro m outcome ⟨⟩
    simp
  | take row rest hp hr hc =>
    refine truthful_of_rows (fun m => ht.isRow_of_mem (by simp [hp])) ?_ ?_ <;>
      cases ha : b.publisher.awaitingHeader <;> simp [Publisher.take, ha, hp]
  | send row hp _ =>
    have hq : ∀ m ∈ b.queue ++ [.row row], m.isRow = true :=
      List.forall_mem_append.2 ⟨fun m => ht.isRow_of_mem (by simp [hp]), by simp⟩
    cases hcap : b.publisher.scan.isCapped (b.publisher.published + 1) with
    | true =>
      rw [Publisher.sent_of_isCapped hcap]
      refine truthful_of_rows hq ?_ (by simp [Publisher.stop])
      rintro m outcome ⟨⟩
      simp
    | false =>
      rw [Publisher.sent_of_not_isCapped hcap]
      exact truthful_of_rows hq (by simp) (by simp)
  | report m outcome hp _ =>
    have hq := fun m => ht.isRow_of_mem (m := m) (by simp [hp])
    obtain ⟨hrow, rfl⟩ := ht.reporting m outcome hp
    refine ⟨by simp, ?_, fun _ _ => .inr ⟨m, by simp, hrow⟩⟩
    intro m' hm' hrow'
    rcases List.mem_append.1 hm' with hold | hnew
    · simp [hq m' hold] at hrow'
    · rw [List.mem_singleton.1 hnew]
  | giveUp row hp hgone => simp [hx] at hgone
  | exit m outcome hp hgone => simp [hx] at hgone

/-! ### Any number of steps -/

/-- The publisher gets from one state to another, in as many steps as the schedule gives it. -/
def Reaches : Bridge → Bridge → Prop :=
  Relation.ReflTransGen fun b b' => b.advance? = some b'

variable {b b' : Bridge}

theorem reaches_runFor (steps : Nat) (b : Bridge) : b.Reaches (b.runFor steps) := by
  induction steps generalizing b with
  | zero => exact .refl
  | succ steps ih =>
    rw [runFor]
    split
    next b' h => exact .head h (ih b')
    next => exact .refl

theorem reaches_settle (b : Bridge) : b.Reaches b.settle := reaches_runFor _ b

theorem advance?_runFor {steps : Nat} (h : b.publisher.effort ≤ steps) :
    (b.runFor steps).advance? = none := by
  induction steps generalizing b with
  | zero =>
    cases hb : b.advance? with
    | none => exact hb
    | some b' => exact absurd (step_of_advance? hb).effort_lt (by omega)
  | succ steps ih =>
    rw [runFor]
    split
    next b' hb =>
      have hlt := (step_of_advance? hb).effort_lt
      exact ih (by omega)
    next hb => exact hb

/-- **A publisher that is left to itself comes to a halt.** -/
theorem advance?_settle (b : Bridge) : b.settle.advance? = none :=
  advance?_runFor b.publisher.effort_le_budget

theorem Reaches.cancelled_eq (h : b.Reaches b') : b'.cancelled = b.cancelled := by
  induction h with
  | refl => rfl
  | tail _ hstep ih => rw [(step_of_advance? hstep).cancelled_eq, ih]

theorem Reaches.connected_eq (h : b.Reaches b') : b'.connected = b.connected := by
  induction h with
  | refl => rfl
  | tail _ hstep ih => rw [(step_of_advance? hstep).connected_eq, ih]

/-- A publisher that has exited does nothing more. -/
theorem Reaches.eq_of_exited {outcome : Option Ending} (h : b.Reaches b')
    (hp : b.publisher.phase = .exited outcome) : b' = b := by
  cases Relation.ReflTransGen.cases_head h with
  | inl heq => exact heq.symm
  | inr hstep =>
    obtain ⟨c, hc, -⟩ := hstep
    simp [advance?, hp] at hc

/-- Without a consumer the publisher does not wait. -/
theorem exited_settle_of_not_connected (hx : b.connected = false) :
    ∃ outcome, b.settle.publisher.phase = .exited outcome := by
  rcases waits_or_exited (advance?_settle b) with ⟨hconnected, -⟩ | hexit
  · rw [(reaches_settle b).connected_eq, hx] at hconnected
    cases hconnected
  · exact hexit

/-- A publisher that has been left to itself has sent something, or has exited. -/
theorem exited_settle_of_queue_eq_nil (hq : b.settle.queue = []) :
    ∃ outcome, b.settle.publisher.phase = .exited outcome := by
  rcases waits_or_exited (advance?_settle b) with ⟨-, hfull⟩ | hexit
  · simp [hq, capacity] at hfull
  · exact hexit

/-- A scan at its start has everything in flight and nothing to report. -/
theorem truthful_start (scan : Scan) (feed : Feed) : (start scan feed).Truthful :=
  truthful_of_rows (by simp [start]) (by simp [start, Publisher.start])
    (by simp [start, Publisher.start])

end Bridge

end WorkbookTables
