import WorkbookTables.Proofs.Scan.Consumer

/-!
# Keeping track of the items of a scan

The stream of messages of a scan fixes the items that a consumer gets and what it learns of the
ending. At any moment an undisturbed dataset splits those items in three: what has been given, what
has been fetched, and what is in flight. `Live` says so of a dataset that is open, `Ended` of one
that has come to its end by itself; every call and every step of the publisher leads from the one
to the other or keeps them.

## Main definitions

* `Message.items`, `Message.ending?` — what a consumer makes of a stream
* `Scan.stream`, `Scan.items`, `Scan.ending?` — the stream of a scan and what is made of it
* `Dataset.Live`, `Dataset.Ended` — the two halves of the invariant

## Main results

* `Dataset.live_or_ended_start` — it holds at the start
* `Dataset.Live.fills` — fetching keeps it
-/

namespace WorkbookTables

/-! ### What a stream means to a consumer -/

namespace Message

/-- The items that a consumer gets from a stream. A stream that breaks off is an error itself. -/
def items (table : String) : List Message → List (Except Error Row)
  | [] => [.error (.publisher table)]
  | .row r :: rest => .ok r :: items table rest
  | .failed e :: _ => [.error e]
  | .finished _ :: _ => []

/-- What a consumer learns from a stream about the ending. -/
def ending? : List Message → Option Ending
  | [] => none
  | .row _ :: rest => ending? rest
  | .failed _ :: _ => none
  | .finished ending :: _ => some ending

end Message

namespace Scan

/-- The messages of a scan, all of them. -/
def stream (scan : Scan) (feed : Feed) : List Message :=
  match scan.maxRows with
  | some 0 => [.finished .stopped]
  | _ => scan.messages feed.ending scan.headerRow.isSome 0 feed.rows

/-- The items of a scan. -/
def items (scan : Scan) (feed : Feed) : List (Except Error Row) :=
  Message.items scan.table (scan.stream feed)

/-- How the reading ends, as far as a consumer learns it. -/
def ending? (scan : Scan) (feed : Feed) : Option Ending :=
  Message.ending? (scan.stream feed)

end Scan

namespace Dataset

variable {all given : List (Except Error Row)} {final : Option Ending} {d d' : Dataset}

/-! ### Fetching and closing -/

/-- A close takes nothing away that has been fetched. -/
theorem Closes.pending_eq (h : d.Closes d') : d'.pending = d.pending := by
  cases h <;> rfl

theorem Closes.closed_eq (h : d.Closes d') : d'.closed = true := by
  cases h with
  | again h => exact h
  | first => rfl

/-- A close of a dataset whose publisher has exited learns how. -/
theorem Closes.outcome_of_exited {outcome : Option Ending} (h : d.Closes d')
    (ho : d.closed = false) (hexit : d.bridge.publisher.phase = .exited outcome) :
    d'.outcome = d.outcome.or outcome := by
  cases h with
  | again hc => simp [ho] at hc
  | first b b' outcome' _ hasked hleft hexit' =>
    obtain rfl := hasked.eq_of_exited hexit
    obtain rfl := hleft.eq_of_exited hexit
    obtain rfl : outcome = outcome' := Publisher.Phase.exited.inj (hexit.symm.trans hexit')
    rfl

/-- After fetching there is an item, or there will be none. -/
theorem Fills.ready_after (h : d.Fills d') : d'.pending.isSome = true ∨ d'.closed = true := by
  have accepts {e : Dataset} {m : Option Message} (h : e.Accepts m d') :
      d'.pending.isSome = true ∨ d'.closed = true := by
    cases h with
    | row row => exact .inl rfl
    | failed e d' h => exact .inr h.closed_eq
    | finished ending d' h => exact .inr h.closed_eq
    | silence d' h => exact .inr h.closed_eq
  cases h with
  | ready h => exact h
  | cancelled d' hp ho hc h => exact .inr h.closed_eq
  | receives d' hp ho hc h =>
    cases h with
    | message b m rest d' hwait hq haccept => exact accepts haccept
    | silence b outcome d' hwait hq hexit haccept => exact accepts haccept

/-- Fetching again changes nothing. -/
theorem Fills.eq_of_ready (h : d.Fills d') (hr : d.pending.isSome = true ∨ d.closed = true) :
    d' = d := by
  cases h with
  | ready => rfl
  | cancelled d' hp ho hc h => simp [hp, ho] at hr
  | receives d' hp ho hc h => simp [hp, ho] at hr

/-! ### The invariant -/

/-- An open dataset that nobody disturbs: what has been given, what has been fetched and what is in
flight make up all items. -/
structure Live (all : List (Except Error Row)) (final : Option Ending)
    (given : List (Except Error Row)) (d : Dataset) : Prop where
  /-- Items are still fetched. -/
  closed : d.closed = false
  /-- The publisher has not been asked to stop. -/
  cancelled : d.bridge.cancelled = false
  /-- The consumer has not left. -/
  connected : d.bridge.connected = true
  /-- A report tells how the publisher has exited. -/
  truthful : d.bridge.Truthful
  /-- Nothing is known of the ending. -/
  outcome : d.outcome = none
  /-- No item is lost and none is made up. -/
  items : given ++ d.pending.toList ++ Message.items d.table d.bridge.inFlight = all
  /-- The ending is in flight. -/
  ending : Message.ending? d.bridge.inFlight = final

/-- A dataset that has come to its end by itself. -/
structure Ended (all : List (Except Error Row)) (final : Option Ending)
    (given : List (Except Error Row)) (d : Dataset) : Prop where
  /-- Nothing more is fetched. -/
  closed : d.closed = true
  /-- Every item has been given or fetched. -/
  items : given ++ d.pending.toList = all
  /-- The ending is known. -/
  outcome : d.outcome = final

/-- A step of the publisher keeps a dataset live, whether there is room in the channel or not. -/
theorem Live.step {b : Bridge} (h : d.Live all final given) (hstep : d.bridge.Step b) :
    ({ d with bridge := b } : Dataset).Live all final given := by
  have hflight := hstep.inFlight_eq h.cancelled h.connected
  exact {
    closed := h.closed
    cancelled := hstep.cancelled_eq.trans h.cancelled
    connected := hstep.connected_eq.trans h.connected
    truthful := hstep.truthful h.connected h.truthful
    outcome := h.outcome
    items := hflight.symm ▸ h.items
    ending := hflight.symm ▸ h.ending }

theorem Live.work {b : Bridge} (h : d.Live all final given) (hstep : d.bridge.advance? = some b) :
    ({ d with bridge := b } : Dataset).Live all final given :=
  h.step (Bridge.step_of_advance? hstep)

/-- A live dataset that has nothing fetched and whose publisher has got on. -/
private theorem Live.reaches {b : Bridge} (h : d.Live all final given)
    (hwait : d.bridge.Reaches b) : ({ d with bridge := b } : Dataset).Live all final given := by
  induction hwait with
  | refl => exact h
  | tail _ hstep ih => exact ih.work hstep

section Received

variable {rest : List Message}

/-- A live dataset whose oldest message is a row is live with that row fetched. -/
theorem Live.keep {row : Row} (h : d.Live all final given) (hp : d.pending = none)
    (hq : d.bridge.queue = .row row :: rest) :
    ({ d with
        bridge := { d.bridge with queue := rest },
        pending := some (.ok row) } : Dataset).Live all final given := by
  have hitems := h.items
  have hending := h.ending
  simp only [Bridge.inFlight, hq, hp, Option.toList_none, List.append_nil, List.cons_append]
    at hitems hending
  refine {
    closed := h.closed
    cancelled := h.cancelled
    connected := h.connected
    truthful := ⟨h.truthful.reporting, fun m hm => ?_, fun outcome hx => ?_⟩
    outcome := h.outcome
    items := ?_
    ending := hending }
  · exact h.truthful.queued m (by rw [hq]; exact List.mem_cons_of_mem _ hm)
  · obtain hnone | ⟨m, hm, hrow⟩ := h.truthful.exited outcome hx
    · exact .inl hnone
    · obtain rfl | hm : m = .row row ∨ m ∈ rest := by simpa [hq] using hm
      · simp at hrow
      · exact .inr ⟨m, hm, hrow⟩
  · simpa [Message.items, Bridge.inFlight] using hitems

/-- If its oldest message is a failure, that is the last item. -/
theorem Live.of_failed {e : Error} (h : d.Live all final given) (hp : d.pending = none)
    (hq : d.bridge.queue = .failed e :: rest) :
    given ++ [.error e] = all ∧ final = none ∧ d.bridge.publisher.phase = .exited none := by
  have hitems := h.items
  have hending := h.ending
  simp only [Bridge.inFlight, hq, hp, Option.toList_none, List.append_nil, List.cons_append]
    at hitems hending
  exact ⟨hitems, hending.symm, h.truthful.queued (.failed e) (by simp [hq]) rfl⟩

/-- If it is the end of the reading, there are no more items. -/
theorem Live.of_finished {ending : Ending} (h : d.Live all final given) (hp : d.pending = none)
    (hq : d.bridge.queue = .finished ending :: rest) :
    given = all ∧ final = some ending ∧ d.bridge.publisher.phase = .exited (some ending) := by
  have hitems := h.items
  have hending := h.ending
  simp only [Bridge.inFlight, hq, hp, Option.toList_none, List.append_nil, List.cons_append]
    at hitems hending
  exact ⟨by simpa [Message.items] using hitems, hending.symm,
    h.truthful.queued (.finished ending) (by simp [hq]) rfl⟩

/-- If there is none and the publisher has exited, that is a failure and the last item. -/
theorem Live.of_silence {outcome : Option Ending} (h : d.Live all final given)
    (hp : d.pending = none) (hq : d.bridge.queue = [])
    (hexit : d.bridge.publisher.phase = .exited outcome) :
    given ++ [.error (.publisher d.table)] = all ∧ final = none ∧ outcome = none := by
  have hflight : d.bridge.inFlight = [] := by
    rw [Bridge.inFlight, hq, Publisher.upcoming_of_exited hexit, List.nil_append]
  have hitems := h.items
  have hending := h.ending
  simp only [hflight, hp, Option.toList_none, List.append_nil] at hitems hending
  refine ⟨hitems, hending.symm, ?_⟩
  obtain hnone | ⟨m, hm, -⟩ := h.truthful.exited outcome hexit
  · exact hnone
  · simp [hq] at hm

end Received

/-- **Receiving keeps the invariant.** A row moves from the channel to what has been fetched; any
other message, and the lack of one, is the end. -/
theorem Live.receives (h : d.Live all final given) (hp : d.pending = none) (hr : d.Receives d') :
    d'.Live all final given ∨ d'.Ended all final given := by
  cases hr with
  | message b m rest d' hwait hq haccept =>
    have hb := h.reaches hwait
    cases haccept with
    | row r => exact .inl (hb.keep hp hq)
    | failed e d' hclose =>
      obtain ⟨hitems, hending, hexit⟩ := hb.of_failed hp hq
      refine .inr ⟨hclose.closed_eq, ?_, ?_⟩
      · simpa [hclose.pending_eq] using hitems
      · rw [hclose.outcome_of_exited h.closed hexit, hending]
        simp [h.outcome]
    | finished ending d' hclose =>
      obtain ⟨hitems, hending, hexit⟩ := hb.of_finished hp hq
      refine .inr ⟨hclose.closed_eq, ?_, ?_⟩
      · simpa [hclose.pending_eq, hp] using hitems
      · rw [hclose.outcome_of_exited h.closed hexit, hending]
        simp
  | silence b outcome d' hwait hq hexit haccept =>
    have hb := h.reaches hwait
    obtain ⟨hitems, hending, rfl⟩ := hb.of_silence hp hq hexit
    cases haccept with
    | silence d' hclose =>
      refine .inr ⟨hclose.closed_eq, ?_, ?_⟩
      · simpa [hclose.pending_eq] using hitems
      · rw [hclose.outcome_of_exited h.closed hexit, hending]
        simp [h.outcome]

/-- **Fetching keeps the invariant.** -/
theorem Live.fills (h : d.Live all final given) (hf : d.Fills d') :
    d'.Live all final given ∨ d'.Ended all final given := by
  cases hf with
  | ready => exact .inl h
  | cancelled d' hp ho hc hclose => simp [isCancelled, h.cancelled] at hc
  | receives d' hp ho hc hr => exact h.receives hp hr

theorem Ended.fills (h : d.Ended all final given) (hf : d.Fills d') :
    d'.Ended all final given := by
  rw [hf.eq_of_ready (.inr h.closed)]
  exact h

/-! ### Stopping -/

/-- Holds once a dataset fetches nothing more, because it has been closed or cancelled. -/
def Stopped (d : Dataset) : Prop := d.closed = true ∨ d.isCancelled = true

theorem Fills.of_stopped (hf : d.Fills d') (hs : d.Stopped) :
    d'.pending = d.pending ∧ d'.Stopped := by
  cases hf with
  | ready => exact ⟨rfl, hs⟩
  | cancelled d' hp ho hc hclose => exact ⟨hclose.pending_eq, .inl hclose.closed_eq⟩
  | receives d' hp ho hc hr => simp [Stopped, ho, hc] at hs

/-- The invariant under all calls: what has been given and fetched are the first items of the scan,
and a dataset that has not been stopped has the others ahead. -/
def Sound (all given : List (Except Error Row)) (d : Dataset) : Prop :=
  (∃ final, d.Live all final given) ∨ d.Stopped ∧ given ++ d.pending.toList <+: all

theorem Sound.isPrefix (h : d.Sound all given) : given ++ d.pending.toList <+: all := by
  obtain ⟨final, hl⟩ | ⟨-, hprefix⟩ := h
  · exact ⟨_, hl.items⟩
  · exact hprefix

theorem Sound.work {b : Bridge} (h : d.Sound all given) (hstep : d.bridge.advance? = some b) :
    ({ d with bridge := b } : Dataset).Sound all given := by
  obtain ⟨final, hl⟩ | ⟨hs, hprefix⟩ := h
  · exact .inl ⟨final, hl.work hstep⟩
  · have hcancelled := (Bridge.step_of_advance? hstep).cancelled_eq
    exact .inr ⟨hs.imp_right hcancelled.trans, hprefix⟩

/-- Fetching keeps it, whether the dataset has been stopped or not. -/
theorem Sound.fills (h : d.Sound all given) (hf : d.Fills d') : d'.Sound all given := by
  obtain ⟨final, hl⟩ | ⟨hs, hprefix⟩ := h
  · obtain hl' | he := hl.fills hf
    · exact .inl ⟨final, hl'⟩
    · exact .inr ⟨.inl he.closed, he.items ▸ List.prefix_rfl⟩
  · obtain ⟨hp, hs'⟩ := hf.of_stopped hs
    exact .inr ⟨hs', hp ▸ hprefix⟩

/-! ### The start -/

theorem start_of_maxRows_eq {scan : Scan} {feed : Feed} (h : scan.maxRows = some 0) :
    start scan feed = ⟨scan.table, .idle scan, none, some .stopped, true⟩ := by
  simp [start, h]

theorem start_of_maxRows_ne {scan : Scan} {feed : Feed} (h : scan.maxRows ≠ some 0) :
    start scan feed = ⟨scan.table, .start scan feed, none, none, false⟩ := by
  rw [start]
  split
  · exact absurd ‹_› h
  · rfl

theorem pending_start (scan : Scan) (feed : Feed) : (start scan feed).pending = none := by
  rw [start]
  split <;> rfl

/-- **A dataset at its start has everything ahead of it.** -/
theorem live_or_ended_start (scan : Scan) (feed : Feed) :
    (start scan feed).Live (scan.items feed) (scan.ending? feed) [] ∨
      (start scan feed).Ended (scan.items feed) (scan.ending? feed) [] := by
  by_cases hm : scan.maxRows = some 0
  · have hstream : scan.stream feed = [.finished .stopped] := by simp [Scan.stream, hm]
    rw [start_of_maxRows_eq hm]
    refine .inr ⟨rfl, ?_, ?_⟩ <;>
      simp [Scan.items, Scan.ending?, hstream, Message.items, Message.ending?]
  · have hstream : scan.stream feed = (Bridge.start scan feed).inFlight := by
      rw [Scan.stream]
      split
      · exact absurd ‹_› hm
      · rfl
    rw [start_of_maxRows_ne hm]
    exact .inl {
      closed := rfl
      cancelled := rfl
      connected := rfl
      truthful := Bridge.truthful_start scan feed
      outcome := rfl
      items := by simp [Scan.items, hstream]
      ending := by simp [Scan.ending?, hstream] }

end Dataset

end WorkbookTables
