import WorkbookTables.Proofs.Scan.Interleaving

/-!
# All schedules give the same items

The schedule to compare with is the simplest one: the publisher runs to its end first, through a
channel that is never full, and then the consumer pulls everything. Its steps are those of a
publisher at work, only that it never waits.

Two invariants are carried through a run, both with the items that have been given so far. `Within`
holds whatever is done: those items, what has been fetched, and what may still be seen are the
beginning of all items. `Intact` holds while nobody stops the scan, and says that nothing is
missing. A message in the hand of the consumer counts as if it were back in the channel.

## Main definitions

* `Bridge.RunsOut` — the publisher runs to its end, and never waits
* `Moment.Within`, `Moment.Intact` — the two invariants
* `Moment.ScheduleIndependent` — what is the same under every schedule

## Main results

* `Dataset.drain_of_runsOut` — what is pulled from a publisher that has run to its end
* `Moment.Runs.within`, `Moment.Runs.intact` — a run keeps the invariants
* `Moment.scheduleIndependent_start` — every schedule gives the same
-/

namespace WorkbookTables

/-! ### The schedule to compare with -/

namespace Bridge

variable {b b' : Bridge}

/-- The publisher runs to its end through a channel that is never full. -/
def RunsOut (b b' : Bridge) : Prop :=
  Relation.ReflTransGen Step b b' ∧ ∃ outcome, b'.publisher.phase = .exited outcome

theorem exists_step_or_exited (b : Bridge) :
    (∃ b', b.Step b') ∨ ∃ outcome, b.publisher.phase = .exited outcome := by
  cases hp : b.publisher.phase with
  | reading =>
    left
    cases hr : b.publisher.rows with
    | nil => exact ⟨_, .conclude hp hr⟩
    | cons row rest =>
      cases hc : b.cancelled with
      | true => exact ⟨_, .stop hp hc⟩
      | false => exact ⟨_, .take row rest hp hr hc⟩
  | sending row =>
    left
    cases hx : b.connected with
    | true => exact ⟨_, .send row hp hx⟩
    | false => exact ⟨_, .giveUp row hp hx⟩
  | reporting report outcome =>
    left
    cases hx : b.connected with
    | true => exact ⟨_, .report report outcome hp hx⟩
    | false => exact ⟨_, .exit report outcome hp hx⟩
  | exited outcome => exact .inr ⟨outcome, rfl⟩

/-- **Every publisher can run to its end.** -/
theorem exists_runsOut (b : Bridge) : ∃ b', b.RunsOut b' := by
  induction hn : b.publisher.effort using Nat.strongRecOn generalizing b with
  | ind n ih =>
    obtain ⟨b₁, hstep⟩ | hexit := b.exists_step_or_exited
    · obtain ⟨b', hrest, hexit⟩ := ih _ (hn ▸ hstep.effort_lt) b₁ rfl
      exact ⟨b', .head hstep hrest, hexit⟩
    · exact ⟨b, .refl, hexit⟩

/-- A message in front of the channel is not in the way of the publisher, if the channel is never
full. -/
theorem Step.prepend (h : b.Step b') (m : Message) :
    ({ b with queue := m :: b.queue } : Bridge).Step { b' with queue := m :: b'.queue } := by
  cases h with
  | conclude hp hr => exact .conclude hp hr
  | stop hp hc => exact .stop hp hc
  | take row rest hp hr hc => exact .take row rest hp hr hc
  | send row hp hx => exact .send row hp hx
  | report m' outcome hp hx => exact .report m' outcome hp hx
  | giveUp row hp hx => exact .giveUp row hp hx
  | exit m' outcome hp hx => exact .exit m' outcome hp hx

end Bridge

namespace Dataset

variable {all given : List (Except Error Row)} {final : Option Ending} {d : Dataset}

/-- The items of a drain. -/
def Drained.items (r : Drained) : List (Except Error Row) := itemsOfRows r.rows r.failure

/-- Running to the end keeps a dataset live, or ended. -/
theorem live_or_ended_runsOut {b : Bridge} (hd : d.Live all final given ∨ d.Ended all final given)
    (hout : d.bridge.RunsOut b) :
    ({ d with bridge := b } : Dataset).Live all final given ∨
      ({ d with bridge := b } : Dataset).Ended all final given := by
  refine hd.imp (fun hl => ?_) fun he => { he with }
  obtain ⟨hreach, -⟩ := hout
  induction hreach with
  | refl => exact hl
  | tail _ hstep ih => exact ih.step hstep

/-- **What is pulled from a publisher that has run to its end**: every item of the scan. -/
theorem drain_of_runsOut {scan : Scan} {feed : Feed} {b : Bridge}
    (hout : (start scan feed).bridge.RunsOut b) :
    let reference := ({ start scan feed with bridge := b } : Dataset).drain
    reference.1.items = scan.items feed ∧ reference.2.outcome = scan.ending? feed := by
  intro reference
  have hd := live_or_ended_runsOut (live_or_ended_start scan feed) hout
  obtain ⟨items, hrun, hitems⟩ := history_drain hd
  obtain ⟨hall, hlearnt⟩ := hrun.of_exhausts hd (exhausts_pulls items)
  rw [itemsOf_pulls, List.nil_append] at hall
  obtain ⟨rows, failure, hrows⟩ := exists_itemsOfRows_of_messages scan.table (scan.stream feed)
  refine ⟨?_, hlearnt⟩
  have hdrained : reference.1 = ⟨rows, failure⟩ := by
    rw [← Drained.ofItems_itemsOfRows, ← hrows]
    exact hitems.trans (by rw [hall]; rfl)
  rw [hdrained]
  exact hrows.symm

/-- A report that nothing more was wanted ends the items, whatever could have come instead. -/
theorem items_finished_isPrefix (table : String) (first later : List Message) (ending : Ending) :
    Message.items table (first ++ [.finished ending]) <+: Message.items table (first ++ later) := by
  induction first with
  | nil => exact List.nil_prefix
  | cons m first ih =>
    cases m with
    | row row => exact List.cons_prefix_cons.2 ⟨rfl, ih⟩
    | failed e => exact List.prefix_rfl
    | finished ending' => exact List.prefix_rfl

/-- **A step of the publisher adds no item to what may still be seen**, and takes some away only if
it stops. -/
theorem items_step_isPrefix {b b' : Bridge} (hstep : b.Step b') (hx : b.connected = true)
    (table : String) (held : List Message) :
    Message.items table (held ++ b'.inFlight) <+: Message.items table (held ++ b.inFlight) := by
  obtain hsame | ⟨-, hstopped⟩ := hstep.inFlight_eq_or hx
  · simp only [hsame, List.prefix_rfl]
  · rw [hstopped, Bridge.inFlight, ← List.append_assoc, ← List.append_assoc]
    exact items_finished_isPrefix table _ _ _

namespace Moment

variable {all given : List (Except Error Row)} {final : Option Ending} {m m' : Moment}
  {reply : Option (Call × Reply)} {h : List (Call × Reply)}

/-! ### What may still be seen -/

/-- The message in the hand of a consumer. -/
def held (m : Moment) : List Message :=
  match m.stage with
  | .holding _ (some message) => [message]
  | _ => []

/-- What has been given, what has been fetched, and what may still be seen, are the first of all
items. -/
structure Within (all given : List (Except Error Row)) (m : Moment) : Prop where
  /-- What has been given and fetched are the first items. -/
  kept : given ++ m.dataset.pending.toList <+: all
  /-- As long as items are fetched, so are those items with all that may still be seen. -/
  ahead : m.dataset.closed = false → given ++ m.dataset.pending.toList ++
    Message.items m.dataset.table (m.held ++ m.dataset.bridge.inFlight) <+: all

theorem within_start (scan : Scan) (feed : Feed) :
    (start scan feed).Within (scan.items feed) [] := by
  obtain hl | he := live_or_ended_start scan feed
  · have hitems : [] ++ (Dataset.start scan feed).pending.toList ++ Message.items
        (Dataset.start scan feed).table ([] ++ (Dataset.start scan feed).bridge.inFlight) <+:
          scan.items feed := hl.items ▸ List.prefix_rfl
    exact ⟨(List.prefix_append _ _).trans hitems, fun _ => hitems⟩
  · refine ⟨he.items ▸ List.prefix_rfl, fun ho => ?_⟩
    have hclosed : (Dataset.start scan feed).closed = true := he.closed
    simp [start, hclosed] at ho

/-- An open dataset has its consumer. -/
theorem Orderly.connected_of_open (hm : m.Orderly) (ho : m.dataset.closed = false) :
    m.dataset.bridge.connected = true := by
  cases hm with
  | opened d _ hx => exact hx
  | waiting d c hf hp _ hx => exact hx
  | holding d c m hf hp _ hx => exact hx
  | silent d c outcome hf hp _ hx hq hexit => exact hx
  | ended d outcome hclosed hd hexit => cases hclosed.symm.trans ho
  | leaving d c hc hclosed hx hasked => cases hclosed.symm.trans ho
  | left d c hc hclosed hd => cases hclosed.symm.trans ho

theorem within_closing {d : Dataset} {c : Call} {all given : List (Except Error Row)}
    (hkept : given ++ d.pending.toList <+: all) : (closing d c).Within all given :=
  ⟨hkept, nofun⟩

/-- An answer moves what it returns from what has been fetched to what has been given. -/
theorem within_answered {d : Dataset} {c : Call} {all given : List (Except Error Row)}
    (hc : c ≠ .cancel) (hd : Within all given ⟨d, .ready⟩) :
    (answered d c).Within all (given ++ itemsOf (some (c, (d.answer c).1)).toList) := by
  have hitems : given ++ itemsOf (some (c, (d.answer c).1)).toList ++
      (d.answer c).2.pending.toList = given ++ d.pending.toList := by
    rw [Option.toList_some, itemsOf_cons, itemsOf_nil, List.append_nil, List.append_assoc,
      items_answer]
  refine ⟨?_, fun ho => ?_⟩
  · rw [answered, hitems]
    exact hd.kept
  · have hopen : d.closed = false := (closed_answer d c).symm.trans ho
    simp only [answered, hitems, table_answer, bridge_answer d hc]
    exact hd.ahead hopen

/-- What a consumer may see that holds a message and has nothing fetched. -/
theorem Within.of_holding {d : Dataset} {c : Call} {message : Message}
    (h : Within all given ⟨d, .holding c (some message)⟩) (hp : d.pending = none)
    (ho : d.closed = false) :
    given ++ Message.items d.table (message :: d.bridge.inFlight) <+: all := by
  simpa [held, hp] using h.ahead ho

/-- **What happens by itself keeps all within the items.** -/
theorem Works.within (hstep : m.Works reply m') (hm : m.Orderly) (h : m.Within all given) :
    m'.Within all (given ++ itemsOf reply.toList) := by
  cases hstep with
  | @publish d stage b hb =>
    have hb := Bridge.step_of_advance? hb
    refine ⟨by simpa using h.kept, fun ho => ?_⟩
    have hfewer := items_step_isPrefix hb (hm.connected_of_open ho) d.table (held ⟨d, stage⟩)
    simpa [held] using ((List.prefix_append_right_inj _).2 hfewer).trans (h.ahead ho)
  | receive hq =>
    refine ⟨by simpa using h.kept, fun ho => ?_⟩
    simpa [held, Bridge.inFlight, hq] using h.ahead ho
  | disconnect hq hexit =>
    exact ⟨by simpa using h.kept, fun ho => by simpa [held] using h.ahead ho⟩
  | @keep d c row hc =>
    cases hm with
    | holding _ _ _ hf hp ho hx =>
      have hseen := h.of_holding hp ho
      rw [Message.items] at hseen
      refine within_answered (Call.ne_cancel (.inl hf)) ⟨?_, fun _ => by simpa [held] using hseen⟩
      rw [← List.singleton_append, ← List.append_assoc] at hseen
      exact (List.prefix_append _ _).trans hseen
  | drop hc => exact within_closing (by simpa using h.kept)
  | failed =>
    cases hm with
    | holding _ _ _ hf hp ho hx =>
      exact within_closing (by simpa [Message.items] using h.of_holding hp ho)
  | finished => exact within_closing (by simpa using h.kept)
  | @silence d c hc =>
    cases hm with
    | silent _ _ outcome hf hp ho hx hq hexit =>
      have hflight : d.bridge.inFlight = [] := by
        rw [Bridge.inFlight, hq, Publisher.upcoming_of_exited hexit, List.nil_append]
      exact within_closing (by simpa [held, hp, hflight, Message.items] using h.ahead ho)
  | giveUp hc => exact within_closing (by simpa using h.kept)
  | leave =>
    cases hm with
    | leaving _ _ hc ho hx hasked =>
      exact ⟨by simpa using h.kept, fun hopen => by cases ho.symm.trans hopen⟩
  | exit hexit =>
    cases hm with
    | left _ _ hc ho hd =>
      exact within_answered (Call.ne_cancel hc) ⟨h.kept, fun hopen => by cases ho.symm.trans hopen⟩

/-- **So does what somebody starts.** -/
theorem Starts.within (hstep : m.Starts reply m') (h : m.Within all given) :
    m'.Within all (given ++ itemsOf reply.toList) := by
  cases hstep with
  | atOnce hf hready => exact within_answered (Call.ne_cancel (.inl hf)) h
  | fetch hf hp ho hc => exact ⟨by simpa using h.kept, fun ho => by simpa [held] using h.ahead ho⟩
  | refuse hf hp ho hc => exact within_closing (by simpa using h.kept)
  | close ho => exact within_closing (by simpa using h.kept)
  | closeAgain ho => simpa using h
  | outcome => simpa using h
  | cancel =>
    exact ⟨by simpa [Dataset.cancel] using h.kept,
      fun ho => by simpa [Dataset.cancel, held, Bridge.inFlight] using h.ahead ho⟩

/-- **Whatever is done, the items that have been given are the first of all items.** -/
theorem Runs.within {first : Moment} (hrun : first.Runs h m) (hfirst : first.Orderly)
    (hwithin : first.Within all []) : m.Within all (itemsOf h) := by
  induction hrun with
  | nil => exact hwithin
  | works hbefore hstep ih =>
    rw [itemsOf_append]
    exact hstep.within (hbefore.orderly hfirst) ih
  | starts hbefore hstep ih =>
    rw [itemsOf_append]
    exact hstep.within ih

/-! ### Nothing is missing -/

/-- A dataset that is about to end by itself: the publisher has exited, and nothing is left to be
received. -/
structure Ends (all : List (Except Error Row)) (final : Option Ending)
    (given : List (Except Error Row)) (d : Dataset) : Prop where
  /-- Nothing more is fetched. -/
  closed : d.closed = true
  /-- Every item has been given or fetched. -/
  items : given ++ d.pending.toList = all
  /-- The ending is known, or told by the exit. -/
  outcome : ∃ outcome, d.bridge.publisher.phase = .exited outcome ∧ d.outcome.or outcome = final

/-- The dataset with a message back at the front of the channel. -/
def putBack (d : Dataset) (message : Message) : Dataset :=
  { d with bridge := { d.bridge with queue := message :: d.bridge.queue } }

/-- Nobody has stopped the scan, and no item is missing. A consumer in a call fetches an item. -/
inductive Intact (all : List (Except Error Row)) (final : Option Ending)
    (given : List (Except Error Row)) : Moment → Prop where
  /-- In no call, and items are still fetched. -/
  | live (d : Dataset) (h : d.Live all final given) : Intact all final given ⟨d, .ready⟩
  /-- In no call, and the scan has come to its end. -/
  | ended (d : Dataset) (h : d.Ended all final given) : Intact all final given ⟨d, .ready⟩
  /-- Waiting for a message. -/
  | waiting (d : Dataset) (c : Call) (hf : c.Fetches) (hp : d.pending = none)
      (h : d.Live all final given) : Intact all final given ⟨d, .waiting c⟩
  /-- With a message in hand, which belongs in front of the channel. -/
  | holding (d : Dataset) (c : Call) (message : Message) (hf : c.Fetches) (hp : d.pending = none)
      (h : (putBack d message).Live all final given) :
      Intact all final given ⟨d, .holding c (some message)⟩
  /-- Without a message. -/
  | silent (d : Dataset) (c : Call) (outcome : Option Ending) (hf : c.Fetches)
      (hp : d.pending = none) (h : d.Live all final given) (hq : d.bridge.queue = [])
      (hexit : d.bridge.publisher.phase = .exited outcome) :
      Intact all final given ⟨d, .holding c none⟩
  /-- Asking the publisher to stop, which has exited. -/
  | leaving (d : Dataset) (c : Call) (hf : c.Fetches) (h : Ends all final given d) :
      Intact all final given ⟨d, .leaving c⟩
  /-- Leaving the channel, which is empty. -/
  | left (d : Dataset) (c : Call) (hf : c.Fetches) (h : Ends all final given d) :
      Intact all final given ⟨d, .left c⟩

theorem intact_start (scan : Scan) (feed : Feed) :
    (start scan feed).Intact (scan.items feed) (scan.ending? feed) [] := by
  obtain hl | he := live_or_ended_start scan feed
  · exact .live _ hl
  · exact .ended _ he

/-- What an answer returns is moved from what has been fetched to what has been given. -/
theorem intact_answered_live {d : Dataset} {c : Call} (hf : c.Fetches)
    (h : d.Live all final given) :
    (answered d c).Intact all final (given ++ itemsOf (some (c, (d.answer c).1)).toList) := by
  refine .live _ ?_
  obtain rfl | rfl := hf
  · simpa [answer] using h
  · exact { h with items := by simpa [answer] using h.items }

theorem intact_answered_ended {d : Dataset} {c : Call} (h : d.Ended all final given) :
    (answered d c).Intact all final (given ++ itemsOf (some (c, (d.answer c).1)).toList) := by
  refine .ended _ ⟨(closed_answer d c).trans h.closed, ?_, (outcome_answer d c).trans h.outcome⟩
  rw [Option.toList_some, itemsOf_cons, itemsOf_nil, List.append_nil, List.append_assoc,
    items_answer]
  exact h.items

/-- Where the publisher has exited, ending the scan loses nothing. -/
theorem intact_closing {d : Dataset} {c : Call} {outcome : Option Ending} (hf : c.Fetches)
    (hitems : given ++ d.pending.toList = all)
    (hexit : d.bridge.publisher.phase = .exited outcome) (hfinal : d.outcome.or outcome = final) :
    (closing d c).Intact all final given :=
  .leaving _ c hf ⟨rfl, hitems, outcome, hexit, hfinal⟩

/-- A step of the publisher leaves nothing missing. -/
theorem Intact.publish {d : Dataset} {stage : Stage} {b : Bridge}
    (h : Intact all final given ⟨d, stage⟩) (hstep : d.bridge.Step b) :
    Intact all final given ⟨{ d with bridge := b }, stage⟩ := by
  cases h with
  | live _ hl => exact .live _ (hl.step hstep)
  | ended _ he => exact .ended _ { he with }
  | waiting _ c hf hp hl => exact .waiting _ c hf hp (hl.step hstep)
  | holding _ c message hf hp hl =>
    exact .holding _ c message hf hp (hl.step (d := putBack d message) (hstep.prepend message))
  | silent _ c outcome hf hp hl hq hexit => exact absurd hexit hstep.ne_exited
  | leaving _ c hf he =>
    obtain ⟨outcome, hexit, -⟩ := he.outcome
    exact absurd hexit hstep.ne_exited
  | left _ c hf he =>
    obtain ⟨outcome, hexit, -⟩ := he.outcome
    exact absurd hexit hstep.ne_exited

/-- **What happens by itself leaves nothing missing.** -/
theorem Works.intact (hstep : m.Works reply m') (h : m.Intact all final given) :
    m'.Intact all final (given ++ itemsOf reply.toList) := by
  cases hstep with
  | publish hb => simpa using h.publish (Bridge.step_of_advance? hb)
  | @receive d c message rest hq =>
    cases h with
    | waiting _ _ hf hp hl =>
      have hback : putBack { d with bridge := { d.bridge with queue := rest } } message = d := by
        simp only [putBack, ← hq]
      refine .holding _ _ _ hf hp ?_
      simpa [hback] using hl
  | disconnect hq hexit =>
    cases h with
    | waiting _ _ hf hp hl => exact .silent _ _ _ hf hp (by simpa using hl) hq hexit
  | keep hc =>
    cases h with
    | holding _ _ _ hf hp hl => exact intact_answered_live hf (hl.keep hp rfl)
  | drop hc =>
    cases h with
    | holding _ _ _ hf hp hl => cases hl.cancelled.symm.trans hc
  | @failed d c e =>
    cases h with
    | holding _ _ _ hf hp hl =>
      obtain ⟨hitems, hfinal, hexit⟩ := hl.of_failed hp rfl
      have houtcome : d.outcome = none := hl.outcome
      exact intact_closing hf (by simpa using hitems) hexit (by simp [hfinal, houtcome])
  | finished =>
    cases h with
    | holding _ _ _ hf hp hl =>
      obtain ⟨hitems, hfinal, hexit⟩ := hl.of_finished hp rfl
      exact intact_closing hf (by simpa [hp] using hitems) hexit (by simp [hfinal])
  | silence hc =>
    cases h with
    | silent _ _ outcome hf hp hl hq hexit =>
      obtain ⟨hitems, hfinal, rfl⟩ := hl.of_silence hp hq hexit
      exact intact_closing hf (by simpa using hitems) hexit (by simp [hfinal, hl.outcome])
  | giveUp hc =>
    cases h with
    | silent _ _ outcome hf hp hl hq hexit => cases hl.cancelled.symm.trans hc
  | leave =>
    cases h with
    | leaving _ _ hf he => exact .left _ _ hf (by simpa using { he with })
  | @exit d c outcome hexit =>
    cases h with
    | left _ _ hf he =>
      obtain ⟨outcome', hexit', hfinal⟩ := he.outcome
      obtain rfl : outcome = outcome' := Publisher.Phase.exited.inj (hexit.symm.trans hexit')
      exact intact_answered_ended (d := { d with outcome := d.outcome.or outcome })
        ⟨he.closed, he.items, hfinal⟩

/-- So does what somebody starts, unless it is the end of the scan. -/
theorem Starts.intact (hstep : m.Starts reply m') (h : m.Intact all final given)
    (hreply : ∀ call ∈ reply, call.1 ≠ .cancel ∧ call.1 ≠ .close) :
    m'.Intact all final (given ++ itemsOf reply.toList) ∨ m'.stage.call? = some .close := by
  cases hstep with
  | atOnce hf hready =>
    left
    cases h with
    | live _ hl => exact intact_answered_live hf hl
    | ended _ he => exact intact_answered_ended he
  | fetch hf hp ho hc =>
    cases h with
    | live _ hl => exact .inl (.waiting _ _ hf hp (by simpa using hl))
    | ended _ he => cases he.closed.symm.trans ho
  | refuse hf hp ho hc =>
    cases h with
    | live _ hl => cases hl.cancelled.symm.trans hc
    | ended _ he => cases he.closed.symm.trans ho
  | close ho => exact .inr rfl
  | closeAgain ho => exact absurd rfl (hreply _ rfl).2
  | outcome => exact .inl (by simpa using h)
  | cancel => exact absurd rfl (hreply _ rfl).1

/-- A call is under way until it is answered. -/
theorem Works.call_eq {c : Call} (hstep : m.Works reply m') (hcall : m.stage.call? = some c) :
    m'.stage.call? = some c ∨ ∃ answer, reply = some (c, answer) := by
  cases hstep with
  | keep hc => exact .inr ⟨_, by obtain rfl := Option.some.inj hcall; rfl⟩
  | exit hexit => exact .inr ⟨_, by obtain rfl := Option.some.inj hcall; rfl⟩
  | _ => exact .inl hcall

theorem Starts.call_eq {c : Call} (hstep : m.Starts reply m') (hcall : m.stage.call? = some c) :
    reply = some (.cancel, .done) := by
  cases hstep with
  | cancel => rfl
  | _ => cases hcall

/-- **As long as nobody stops the scan, nothing is missing.** -/
theorem Runs.intact {first : Moment} (hrun : first.Runs h m) (hfirst : first.Intact all final [])
    (hh : ∀ call ∈ h, call.1 ≠ .cancel ∧ call.1 ≠ .close) :
    m.Intact all final (itemsOf h) ∨ m.stage.call? = some .close := by
  induction hrun with
  | nil => exact .inl hfirst
  | works _ hstep ih =>
    obtain ⟨hbefore, hlast⟩ := List.forall_mem_append.1 hh
    obtain hintact | hclose := ih hbefore
    · rw [itemsOf_append]
      exact .inl (hstep.intact hintact)
    · obtain hclose | ⟨answer, rfl⟩ := hstep.call_eq hclose
      · exact .inr hclose
      · exact absurd rfl (hlast (.close, answer) (by simp)).2
  | starts _ hstep ih =>
    obtain ⟨hbefore, hlast⟩ := List.forall_mem_append.1 hh
    obtain hintact | hclose := ih hbefore
    · rw [itemsOf_append]
      exact hstep.intact hintact fun call hmem => hlast call (Option.mem_toList.2 hmem)
    · obtain rfl := hstep.call_eq hclose
      exact absurd rfl (hlast (.cancel, .done) (by simp)).1

/-! ### Coming to the end -/

/-- Every answer is the answer that some dataset gives. -/
theorem Runs.exists_answer {first : Moment} (hrun : first.Runs h m) :
    ∀ call ∈ h, ∃ d : Dataset, call.2 = (d.answer call.1).1 := by
  induction hrun with
  | nil => simp
  | works _ hstep ih =>
    refine List.forall_mem_append.2 ⟨ih, ?_⟩
    rintro call hmem
    obtain rfl := Option.mem_toList.1 hmem
    cases hstep <;> exact ⟨_, rfl⟩
  | @starts _ m _ _ _ hstep ih =>
    refine List.forall_mem_append.2 ⟨ih, ?_⟩
    rintro call hmem
    obtain rfl := Option.mem_toList.1 hmem
    cases hstep with
    | atOnce hf hready => exact ⟨_, rfl⟩
    | outcome => exact ⟨_, rfl⟩
    | closeAgain ho => exact ⟨m.dataset, rfl⟩
    | cancel => exact ⟨m.dataset, rfl⟩

/-- Until it is said that there is no further item, every pull returns one. -/
theorem countP_next_le (hanswer : ∀ call ∈ h, ∃ d : Dataset, call.2 = (d.answer call.1).1)
    (hend : ∀ call ∈ h, ¬call.2.SaysEnd) :
    h.countP (fun call => call.1 = .next) ≤ (itemsOf h).length := by
  induction h with
  | nil => exact Nat.le_refl 0
  | cons call h ih =>
    obtain ⟨c, reply⟩ := call
    obtain ⟨⟨d, hreply⟩, hanswers⟩ := List.forall_mem_cons.1 hanswer
    obtain rfl : reply = (d.answer c).1 := hreply
    obtain ⟨hgoesOn, hends⟩ := List.forall_mem_cons.1 hend
    have hrest := ih hanswers hends
    rw [List.countP_cons, itemsOf_cons, List.length_append]
    cases c with
    | next =>
      cases hp : d.pending with
      | none => simp [answer, hp, Reply.SaysEnd] at hgoesOn
      | some item =>
        simp only [answer, hp, Reply.items_item, Option.toList_some, List.length_singleton,
          decide_true, if_true]
        omega
    | _ =>
      simp only [reduceCtorEq, decide_false, Bool.false_eq_true, if_false]
      omega

/-! ### What does not depend on the schedule -/

/-- A moment without a consumer is one whose publisher is deserted. -/
theorem Orderly.deserted (hm : m.Orderly) (hx : m.dataset.bridge.connected = false) :
    m.dataset.bridge.Deserted := by
  cases hm with
  | opened d ho hconnected => cases hconnected.symm.trans hx
  | ended d outcome ho hd hexit => exact hd
  | waiting d c hf hp ho hconnected => cases hconnected.symm.trans hx
  | holding d c m hf hp ho hconnected => cases hconnected.symm.trans hx
  | silent d c outcome hf hp ho hconnected hq hexit => cases hconnected.symm.trans hx
  | leaving d c hc ho hconnected hasked => cases hconnected.symm.trans hx
  | left d c hc ho hd => exact hd

/-- What may be relied on under every schedule, where `reference` is what is pulled under one of
them, with the dataset afterwards. -/
structure ScheduleIndependent (first : Moment) (reference : Drained × Dataset) : Prop where
  /-- Who goes to the end and does not stop the scan gets the same items, and is told the same
  outcome. -/
  same : ∀ h m, first.Runs h m → Exhausts h →
    itemsOf h = reference.1.items ∧ m.dataset.outcome = reference.2.outcome
  /-- Who pulls more often than there are items has been told that there are no more. -/
  ends : ∀ h m, first.Runs h m →
    reference.1.items.length < h.countP (fun call => call.1 = .next) →
    ∃ call ∈ h, call.2.SaysEnd
  /-- In a call the consumer is not stuck. -/
  goesOn : ∀ h m, first.Runs h m → m.stage ≠ .ready → ∃ reply m', m.Works reply m'
  /-- In no call it may begin any. -/
  begins : ∀ h m, first.Runs h m → m.stage = .ready → ∀ c, ∃ reply m', m.Starts reply m' ∧
    (m'.stage.call? = some c ∨ ∃ answer, reply = some (c, answer))
  /-- What happens by itself comes to an end, and so every call is answered. -/
  halts : ∀ (m : Moment) reply m', m.Works reply m' → m'.effort < m.effort
  /-- Whatever is done, the items that have been given are the first of them. -/
  gives : ∀ h m, first.Runs h m → itemsOf h <+: reference.1.items
  /-- A publisher that is asked to stop takes no further row. -/
  takesNone : ∀ h m, first.Runs h m → m.dataset.isCancelled = true →
    ∀ b, m.dataset.bridge.Reaches b → b.publisher.rows = m.dataset.bridge.publisher.rows
  /-- Once the consumer has left, nothing is put into the channel and no row is taken; the publisher
  never waits, and exits within two steps. -/
  leaves : ∀ h m, first.Runs h m → m.dataset.bridge.connected = false →
    (∀ b, m.dataset.bridge.Reaches b → b.queue = [] ∧
      b.publisher.rows = m.dataset.bridge.publisher.rows ∧
      (b.advance? = none → ∃ outcome, b.publisher.phase = .exited outcome)) ∧
    ∃ outcome, (m.dataset.bridge.runFor 2).publisher.phase = .exited outcome
  /-- When a call has ended the scan, the consumer has left and the publisher has exited. -/
  afterwards : ∀ h m, first.Runs h m → m.stage = .ready → m.dataset.closed = true →
    m.dataset.bridge.connected = false ∧
      ∃ outcome, m.dataset.bridge.publisher.phase = .exited outcome

/-- **No schedule gives anything else**: neither items nor outcome of a scan depend on how publisher
and consumer take turns, and none of them gets stuck. -/
theorem scheduleIndependent_start (scan : Scan) (feed : Feed) :
    (∃ b, (Dataset.start scan feed).bridge.RunsOut b) ∧
      ∀ b, (Dataset.start scan feed).bridge.RunsOut b → (start scan feed).ScheduleIndependent
        ({ Dataset.start scan feed with bridge := b } : Dataset).drain := by
  refine ⟨Bridge.exists_runsOut _, fun b hout => ?_⟩
  obtain ⟨hitems, houtcome⟩ := drain_of_runsOut hout
  have horderly := orderly_start scan feed
  have hfirst (h : List (Call × Reply)) (m : Moment) (hrun : (start scan feed).Runs h m) :
      itemsOf h <+: scan.items feed :=
    (List.prefix_append _ _).trans (hrun.within horderly (within_start scan feed)).kept
  refine {
    same := fun h m hrun hend => ?_
    ends := fun h m hrun hcount => ?_
    goesOn := fun h m hrun hcall => (hrun.orderly horderly).exists_works hcall
    begins := fun h m hrun hready c => ?_
    halts := fun m reply m' hstep => hstep.effort_lt
    gives := fun h m hrun => hitems ▸ hfirst h m hrun
    takesNone := fun h m hrun hasked b hreach => hreach.rows_eq hasked
    leaves := fun h m hrun hx => ?_
    afterwards := fun h m hrun hready hclosed => ?_ }
  · have hexhausted := hrun.exhausted horderly hend.toEnd
    rw [hitems, houtcome]
    obtain hintact | hclose := hrun.intact (intact_start scan feed) hend.undisturbed
    · cases hintact with
      | live d hl => cases hl.closed.symm.trans hexhausted.closed
      | ended d he =>
        have hp : d.pending = none := hexhausted.pending
        exact ⟨by simpa [hp] using he.items, he.outcome⟩
      | _ => cases hexhausted.stage
    · simp [hexhausted.stage, Stage.call?] at hclose
  · refine Classical.byContradiction fun hno => ?_
    have hend : ∀ call ∈ h, ¬call.2.SaysEnd := fun call hmem hsays => hno ⟨call, hmem, hsays⟩
    have hpulled := countP_next_le hrun.exists_answer hend
    have hlength := (hfirst h m hrun).length_le
    rw [hitems] at hcount
    omega
  · obtain ⟨d, stage⟩ := m
    obtain rfl : stage = .ready := hready
    exact exists_starts d c
  · have hd := (hrun.orderly horderly).deserted hx
    refine ⟨fun b' hreach => ?_, hd.exists_exited⟩
    obtain ⟨hd', hrows, hhalt⟩ := hd.reaches hreach
    exact ⟨hd'.queue, hrows, hhalt⟩
  · cases hrun.orderly horderly with
    | opened d ho hx => cases ho.symm.trans hclosed
    | ended d outcome ho hd hexit => exact ⟨hd.connected, outcome, hexit⟩
    | _ => cases hready

end Moment

end Dataset

end WorkbookTables
