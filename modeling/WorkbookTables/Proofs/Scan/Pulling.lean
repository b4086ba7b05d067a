import WorkbookTables.Proofs.Scan.Tracking

/-!
# Pulling items

The items of a history are those that its calls returned. They are always the first of all items of
the scan; and if nobody stops the scan, whoever pulls until nothing comes has got all of them, and
is told how the reading ended.

## Main definitions

* `Dataset.itemsOf` — the items that a history returned
* `Dataset.Exhausts` — going through a scan to its end without stopping it
* `Dataset.itemsOfRows` — rows as items, with at most one failure behind them
* `Dataset.Drained.ofItems` — what a drain makes of items

## Main results

* `Dataset.History.items_isPrefix` — no history returns anything but the first items of the scan
* `Dataset.History.of_exhausts` — going to the end returns all of them
* `Dataset.drain_start` — so does a drain
-/

namespace WorkbookTables

namespace Dataset

/-! ### The items of a history -/

/-- The items that an answer returns, none or one. -/
def Reply.items : Reply → List (Except Error Row)
  | .item pulled => pulled.toList
  | _ => []

@[simp] theorem Reply.items_item (pulled : Option (Except Error Row)) :
    (Reply.item pulled).items = pulled.toList := rfl

@[simp] theorem Reply.items_available (answer : Bool) : (Reply.available answer).items = [] := rfl

@[simp] theorem Reply.items_done : Reply.done.items = [] := rfl

@[simp] theorem Reply.items_ending (outcome : Option Ending) :
    (Reply.ending outcome).items = [] := rfl

/-- The items that a history returned. -/
def itemsOf (h : List (Call × Reply)) : List (Except Error Row) :=
  h.flatMap fun call => call.2.items

@[simp] theorem itemsOf_nil : itemsOf [] = [] := rfl

@[simp] theorem itemsOf_cons (c : Call) (reply : Reply) (h : List (Call × Reply)) :
    itemsOf ((c, reply) :: h) = reply.items ++ itemsOf h := rfl

@[simp] theorem itemsOf_append (h h' : List (Call × Reply)) :
    itemsOf (h ++ h') = itemsOf h ++ itemsOf h' := List.flatMap_append

variable {all given : List (Except Error Row)} {final : Option Ending} {d d' : Dataset}
  {c : Call} {reply : Reply} {h : List (Call × Reply)}

/-! ### The first items -/

theorem Sound.performs (hd : d.Sound all given) (hcall : d.Performs c reply d') :
    d'.Sound all (given ++ reply.items) := by
  cases hcall with
  | hasNext d' hf => simpa using hd.fills hf
  | next d' hf =>
    obtain ⟨final, hl⟩ | ⟨hs, hprefix⟩ := hd.fills hf
    · exact .inl ⟨final, { hl with items := by simpa using hl.items }⟩
    · exact .inr ⟨hs, by simpa using hprefix⟩
  | cancel => exact .inr ⟨.inr rfl, by simpa [cancel] using hd.isPrefix⟩
  | close d' hclose =>
    exact .inr ⟨.inl hclose.closed_eq, by simpa [hclose.pending_eq] using hd.isPrefix⟩
  | outcome => simpa using hd

theorem Sound.history (hd : d.Sound all given) (hrun : d.History h d') :
    d'.Sound all (given ++ itemsOf h) := by
  induction hrun generalizing given with
  | nil => simpa using hd
  | call hcall _ ih => simpa using ih (hd.performs hcall)
  | work hstep _ ih => exact ih (hd.work hstep)

theorem sound_start (scan : Scan) (feed : Feed) : (start scan feed).Sound (scan.items feed) [] := by
  obtain hl | he := live_or_ended_start scan feed
  · exact .inl ⟨_, hl⟩
  · exact .inr ⟨.inl he.closed, ⟨[], by simpa using he.items⟩⟩

/-- **No history returns anything but the first items of the scan.** -/
theorem History.items_isPrefix {scan : Scan} {feed : Feed} (hrun : (start scan feed).History h d) :
    itemsOf h <+: scan.items feed := by
  have hsound := (sound_start scan feed).history hrun
  rw [List.nil_append] at hsound
  exact (List.prefix_append _ _).trans hsound.isPrefix

/-! ### All items

Nobody stops the scan here: the calls ask, pull, or do nothing. -/

/-- Holds of the answers that there is no further item. -/
def Reply.SaysEnd (reply : Reply) : Prop :=
  reply = .available false ∨ reply = .item none

/-- Holds of a history that goes through a scan to its end and does not stop it. -/
structure Exhausts (h : List (Call × Reply)) : Prop where
  /-- The scan is neither cancelled nor closed. -/
  undisturbed : ∀ call ∈ h, call.1 ≠ .cancel ∧ call.1 ≠ .close
  /-- It is said that there is no further item. -/
  toEnd : ∃ call ∈ h, call.2.SaysEnd

/-- An answer that there is no further item is the end. -/
theorem Performs.of_saysEnd (hcall : d.Performs c reply d') (hend : reply.SaysEnd) :
    d'.closed = true ∧ d'.pending = none := by
  rw [Reply.SaysEnd] at hend
  cases hcall with
  | hasNext d' hf =>
    have hp : d'.pending = none := by simpa using hend
    exact ⟨hf.ready_after.resolve_left (by simp [hp]), hp⟩
  | next d' hf =>
    have hp : d'.pending = none := by simpa using hend
    exact ⟨hf.ready_after.resolve_left (by simp [hp]), rfl⟩
  | cancel => simp at hend
  | close => simp at hend
  | outcome => simp at hend

/-- Holds of the answers that return no item and announce none. -/
def Reply.IsNothing : Reply → Prop
  | .available answer => answer = false
  | .item pulled => pulled = none
  | .done => True
  | .ending _ => True

/-- A dataset that is closed with nothing fetched has come to its end for good. -/
theorem Performs.of_exhausted (hcall : d.Performs c reply d') (hclosed : d.closed = true)
    (hp : d.pending = none) :
    reply.IsNothing ∧ d'.closed = true ∧ d'.pending = none := by
  cases hcall with
  | hasNext d' hf =>
    obtain rfl := hf.eq_of_ready (.inr hclosed)
    exact ⟨by simp [Reply.IsNothing, hp], hclosed, hp⟩
  | next d' hf =>
    obtain rfl := hf.eq_of_ready (.inr hclosed)
    exact ⟨by simp [Reply.IsNothing, hp], hclosed, rfl⟩
  | cancel => exact ⟨trivial, hclosed, hp⟩
  | close d' hclose => exact ⟨trivial, hclose.closed_eq, hclose.pending_eq.trans hp⟩
  | outcome => exact ⟨trivial, hclosed, hp⟩

theorem History.of_exhausted (hrun : d.History h d') (hclosed : d.closed = true)
    (hp : d.pending = none) :
    (∀ call ∈ h, call.2.IsNothing) ∧ d'.closed = true ∧ d'.pending = none := by
  induction hrun with
  | nil => exact ⟨by simp, hclosed, hp⟩
  | call hcall _ ih =>
    obtain ⟨hreply, hclosed', hp'⟩ := hcall.of_exhausted hclosed hp
    obtain ⟨hreplies, hend⟩ := ih hclosed' hp'
    exact ⟨List.forall_mem_cons.2 ⟨hreply, hreplies⟩, hend⟩
  | work _ _ ih => exact ih hclosed hp

/-- A history of one call is that call, with steps of the publisher before and after it. -/
theorem History.exists_reaches_of_cons (hrun : d.History ((c, reply) :: h) d') :
    ∃ b d'', d.bridge.Reaches b ∧ ({ d with bridge := b } : Dataset).Performs c reply d'' ∧
      d''.History h d' := by
  generalize hcons : (c, reply) :: h = h' at hrun
  induction hrun with
  | nil => simp at hcons
  | @call d d'' _ _ _ _ hcall hrest _ =>
    obtain ⟨⟨rfl, rfl⟩, rfl⟩ : (c = _ ∧ reply = _) ∧ h = _ := by simpa using hcons
    exact ⟨d.bridge, d'', .refl, hcall, hrest⟩
  | work hstep _ ih =>
    obtain ⟨b, d'', hreach, hcall, hrest⟩ := ih hcons
    exact ⟨b, d'', .head hstep hreach, hcall, hrest⟩

theorem History.of_cons (hrun : d.History ((c, reply) :: h) d') :
    ∃ b d'', ({ d with bridge := b } : Dataset).Performs c reply d'' ∧ d''.History h d' := by
  obtain ⟨b, d'', -, hcall, hrest⟩ := hrun.exists_reaches_of_cons
  exact ⟨b, d'', hcall, hrest⟩

/-- After an answer that there is no further item nothing changes any more. -/
theorem History.of_saysEnd (hrun : d.History ((c, reply) :: h) d') (hend : reply.SaysEnd) :
    (∀ call ∈ h, call.2.IsNothing) ∧ d'.closed = true ∧ d'.pending = none := by
  obtain ⟨b, e, hcall, hafter⟩ := hrun.of_cons
  obtain ⟨hclosed, hp⟩ := hcall.of_saysEnd hend
  exact hafter.of_exhausted hclosed hp

/-- **A call that does not stop the scan keeps the invariant.** -/
theorem live_or_ended_performs (hd : d.Live all final given ∨ d.Ended all final given)
    (hcall : d.Performs c reply d') (hc : c ≠ .cancel ∧ c ≠ .close) :
    d'.Live all final (given ++ reply.items) ∨ d'.Ended all final (given ++ reply.items) := by
  have fills {e : Dataset} (hf : d.Fills e) : e.Live all final given ∨ e.Ended all final given := by
    obtain hl | he := hd
    · exact hl.fills hf
    · exact .inr (he.fills hf)
  cases hcall with
  | hasNext d' hf => simpa using fills hf
  | next d' hf =>
    obtain hl | he := fills hf
    · exact .inl { hl with items := by simpa using hl.items }
    · exact .inr { he with items := by simpa using he.items }
  | cancel => exact absurd rfl hc.1
  | close => exact absurd rfl hc.2
  | outcome => simpa using hd

theorem live_or_ended_history (hd : d.Live all final given ∨ d.Ended all final given)
    (hrun : d.History h d') (hc : ∀ call ∈ h, call.1 ≠ .cancel ∧ call.1 ≠ .close) :
    d'.Live all final (given ++ itemsOf h) ∨ d'.Ended all final (given ++ itemsOf h) := by
  induction hrun generalizing given with
  | nil => simpa using hd
  | call hcall _ ih =>
    obtain ⟨hfirst, hrest⟩ := List.forall_mem_cons.1 hc
    simpa using ih (live_or_ended_performs hd hcall hfirst) hrest
  | work hstep _ ih => exact ih (hd.imp (·.work hstep) fun he => { he with }) hc

/-- **Who goes to the end has got every item, and is told the ending.** -/
theorem History.of_exhausts (hd : d.Live all final given ∨ d.Ended all final given)
    (hrun : d.History h d') (he : Exhausts h) : given ++ itemsOf h = all ∧ d'.outcome = final := by
  obtain ⟨⟨c, reply⟩, hmem, hend⟩ := he.toEnd
  obtain ⟨before, after, rfl⟩ := List.append_of_mem hmem
  obtain ⟨e, -, hrest⟩ := hrun.split
  obtain ⟨-, hclosed, hp⟩ := hrest.of_saysEnd hend
  obtain hl | hended := live_or_ended_history hd hrun he.undisturbed
  · simp [hl.closed] at hclosed
  · exact ⟨by simpa [hp] using hended.items, hended.outcome⟩

/-! ### Rows, and at most one failure behind them -/

/-- Rows as items, with the failure behind them if there is one. -/
def itemsOfRows (rows : List Row) (failure : Option Error) : List (Except Error Row) :=
  rows.map .ok ++ failure.toList.map .error

theorem exists_itemsOfRows_of_messages (table : String) (ms : List Message) :
    ∃ rows failure, Message.items table ms = itemsOfRows rows failure := by
  induction ms with
  | nil => exact ⟨[], some (.publisher table), rfl⟩
  | cons m ms ih =>
    cases m with
    | row r =>
      obtain ⟨rows, failure, heq⟩ := ih
      exact ⟨r :: rows, failure, by rw [Message.items, heq]; rfl⟩
    | failed e => exact ⟨[], some e, rfl⟩
    | finished ending => exact ⟨[], none, rfl⟩

/-- The first items of rows with a failure are rows with a failure. -/
theorem exists_itemsOfRows_of_isPrefix {items : List (Except Error Row)} {rows : List Row}
    {failure : Option Error} (h : items <+: itemsOfRows rows failure) :
    ∃ rows' failure', items = itemsOfRows rows' failure' ∧ rows' <+: rows := by
  rw [List.prefix_iff_eq_take, itemsOfRows, List.take_append, ← List.map_take] at h
  by_cases hlength : items.length - (rows.map (Except.ok (ε := Error))).length = 0
  · rw [hlength, List.take_zero, List.append_nil] at h
    exact ⟨rows.take items.length, none, by rw [h]; simp [itemsOfRows], List.take_prefix _ _⟩
  · refine ⟨rows.take items.length, failure, h.trans ?_, List.take_prefix _ _⟩
    rw [itemsOfRows, List.take_of_length_le (l := failure.toList.map _)]
    cases failure with
    | none => simp
    | some e => exact Nat.pos_of_ne_zero hlength

/-! ### Draining -/

/-- The history of pulling the given items and then nothing. -/
def pulls (items : List (Except Error Row)) : List (Call × Reply) :=
  items.map (fun item => (.next, .item (some item))) ++ [(.next, .item none)]

theorem pulls_cons (item : Except Error Row) (items : List (Except Error Row)) :
    pulls (item :: items) = (.next, .item (some item)) :: pulls items := rfl

@[simp] theorem itemsOf_pulls (items : List (Except Error Row)) :
    itemsOf (pulls items) = items := by
  induction items with
  | nil => rfl
  | cons item items ih => rw [pulls_cons, itemsOf_cons, ih]; rfl

theorem exhausts_pulls (items : List (Except Error Row)) : Exhausts (pulls items) where
  undisturbed := by
    rintro ⟨c, reply⟩ hmem
    obtain rfl : c = .next := by
      simp only [pulls, List.mem_append, List.mem_map, List.mem_singleton] at hmem
      obtain ⟨item, -, heq⟩ | heq := hmem
      · exact (Prod.mk.inj heq).1.symm
      · exact (Prod.mk.inj heq).1
    exact ⟨nofun, nofun⟩
  toEnd := ⟨(.next, .item none), by simp [pulls], .inr rfl⟩

/-- What a drain makes of the items that it pulls. -/
def Drained.ofItems : List (Except Error Row) → Drained
  | [] => ⟨[], none⟩
  | .ok row :: rest => { ofItems rest with rows := row :: (ofItems rest).rows }
  | .error e :: rest => { ofItems rest with failure := (ofItems rest).failure.or (some e) }

theorem Drained.ofItems_itemsOfRows (rows : List Row) (failure : Option Error) :
    Drained.ofItems (itemsOfRows rows failure) = ⟨rows, failure⟩ := by
  induction rows with
  | nil => cases failure <;> rfl
  | cons row rows ih =>
    rw [show itemsOfRows (row :: rows) failure = .ok row :: itemsOfRows rows failure from rfl,
      Drained.ofItems, ih]

/-- A drain that is long enough pulls to the end. The numbers bound the items that may still be
pulled. -/
theorem history_pull_of_bounded (bounded : Nat → Dataset → Prop) {bound fuel : Nat}
    (hnext : ∀ bound d item, bounded bound d → d.next.1 = some item →
      ∃ less < bound, bounded less d.next.2) (hd : bounded bound d) (hfuel : bound < fuel) :
    ∃ items, d.History (pulls items) (d.pull fuel).2 ∧ (d.pull fuel).1 = .ofItems items := by
  induction fuel generalizing d bound with
  | zero => omega
  | succ fuel ih =>
    have hcall := performs_perform d .next
    have hrest := hnext bound d
    rw [pull]
    cases hd' : d.next with
    | mk pulled d' =>
      simp only [perform, hd'] at hcall hrest
      cases pulled with
      | none => exact ⟨[], .call hcall (.nil d'), rfl⟩
      | some item =>
        obtain ⟨less, hless, hbounded⟩ := hrest item hd rfl
        obtain ⟨items, hrun, heq⟩ := ih hbounded (by omega)
        cases item with
        | error e => exact ⟨.error e :: items, .call hcall hrun, by simp [heq, Drained.ofItems]⟩
        | ok row => exact ⟨.ok row :: items, .call hcall hrun, by simp [heq, Drained.ofItems]⟩

theorem length_given_le (hd : d.Live all final given ∨ d.Ended all final given) :
    given.length ≤ all.length := by
  obtain hl | he := hd
  · rw [← hl.items, List.length_append, List.length_append]
    omega
  · rw [← he.items, List.length_append]
    omega

/-- A drain of a dataset that nobody has stopped, if it is long enough. -/
theorem history_pull {fuel : Nat} (hd : d.Live all final given ∨ d.Ended all final given)
    (hfuel : all.length < given.length + fuel) :
    ∃ items, d.History (pulls items) (d.pull fuel).2 ∧ (d.pull fuel).1 = .ofItems items := by
  have hgiven := length_given_le hd
  refine history_pull_of_bounded
    (fun bound d => ∃ given, (d.Live all final given ∨ d.Ended all final given) ∧
      bound = all.length - given.length) ?_ ⟨given, hd, rfl⟩ (by omega)
  rintro _ d item ⟨given, hd, rfl⟩ hitem
  have hnext := live_or_ended_performs hd (performs_perform d .next) (by simp)
  have hlength := length_given_le hnext
  refine ⟨_, ?_, _, hnext, rfl⟩
  simp only [perform, hitem, Reply.items_item, Option.toList_some, List.length_append,
    List.length_singleton] at hlength ⊢
  omega

theorem length_items_messages_le (scan : Scan) (ending : Except SheetFailure Ending)
    (table : String) (awaiting : Bool) (published : Nat) (rows : List Row) :
    (Message.items table (scan.messages ending awaiting published rows)).length ≤
      rows.length + 1 := by
  induction rows generalizing awaiting published with
  | nil =>
    rcases ending with (e | _) | ending <;> simp [Scan.messages, Scan.report, Message.items]
  | cons row rest ih =>
    cases awaiting with
    | true =>
      have hle := ih (!Publisher.isHeader scan row) published
      rw [Scan.messages, List.length_cons]
      omega
    | false =>
      have hle := ih false (published + 1)
      rw [Scan.messages, Message.items, List.length_cons, List.length_cons]
      split
      · simp [Message.items]
      · omega

theorem length_items_append_le (table : String) (queue ms : List Message) :
    (Message.items table (queue ++ ms)).length ≤
      queue.length + (Message.items table ms).length := by
  induction queue with
  | nil => simp
  | cons m queue ih =>
    cases m with
    | row row =>
      rw [List.cons_append, Message.items, List.length_cons, List.length_cons]
      omega
    | failed e =>
      rw [List.cons_append, Message.items, List.length_singleton, List.length_cons]
      omega
    | finished ending => exact Nat.zero_le _

theorem length_items_upcoming_le (table : String) (p : Publisher) :
    (Message.items table p.upcoming).length ≤ p.rows.length + 2 := by
  have hmessages (awaiting : Bool) (published : Nat) :=
    length_items_messages_le p.scan p.ending table awaiting published p.rows
  cases hp : p.phase with
  | reading =>
    rw [Publisher.upcoming_of_reading hp]
    exact Nat.le_succ_of_le (hmessages _ _)
  | sending row =>
    rw [Publisher.upcoming_of_sending hp, Message.items, List.length_cons, Publisher.afterRow]
    split
    · simp [Message.items]
    · exact Nat.succ_le_succ (hmessages _ _)
  | reporting report outcome =>
    have hone := length_items_append_le table [report] []
    simp only [Publisher.upcoming, hp]
    simp only [List.append_nil, List.length_singleton, Message.items] at hone
    omega
  | exited outcome =>
    rw [Publisher.upcoming_of_exited hp]
    simp [Message.items]

/-- A drain is long enough, however far the publisher has got. -/
theorem length_lt_itemBound (hd : d.Live all final given ∨ d.Ended all final given) :
    all.length < given.length + d.itemBound := by
  have hpending : d.pending.toList.length ≤ 1 := by cases d.pending <;> simp
  obtain hl | he := hd
  · have hqueued := length_items_append_le d.table d.bridge.queue d.bridge.publisher.upcoming
    have hupcoming := length_items_upcoming_le d.table d.bridge.publisher
    rw [← hl.items, Bridge.inFlight, List.length_append, List.length_append, itemBound]
    omega
  · rw [← he.items, List.length_append, itemBound]
    omega

/-- A drain pulls to the end. -/
theorem history_drain (hd : d.Live all final given ∨ d.Ended all final given) :
    ∃ items, d.History (pulls items) d.drain.2 ∧ d.drain.1 = .ofItems items :=
  history_pull hd (length_lt_itemBound hd)

/-- **A drain pulls every item and learns the ending.** -/
theorem drain_start (scan : Scan) (feed : Feed) :
    (start scan feed).History (pulls (scan.items feed)) (start scan feed).drain.2 ∧
      (start scan feed).drain.1 = .ofItems (scan.items feed) := by
  have hd := live_or_ended_start scan feed
  obtain ⟨items, hrun, heq⟩ := history_drain hd
  obtain rfl : items = scan.items feed := by
    simpa using (hrun.of_exhausts hd (exhausts_pulls items)).1
  exact ⟨hrun, heq⟩

/-- A drain goes through the scan to its end. -/
theorem drains_start (scan : Scan) (feed : Feed) :
    ∃ h, (start scan feed).History h (start scan feed).drain.2 ∧ Exhausts h ∧
      (start scan feed).drain.1 = .ofItems (itemsOf h) := by
  obtain ⟨hrun, hitems⟩ := drain_start scan feed
  exact ⟨_, hrun, exhausts_pulls _, by rw [hitems, itemsOf_pulls]⟩

/-- Whoever goes through the scan to its end gets all of its items and learns its ending. -/
theorem History.given_of_exhausts {scan : Scan} {feed : Feed} {h : List (Call × Reply)}
    (hrun : (start scan feed).History h d') (hend : Exhausts h) :
    itemsOf h = scan.items feed ∧ d'.outcome = scan.ending? feed := by
  obtain ⟨hgiven, houtcome⟩ := hrun.of_exhausts (live_or_ended_start scan feed) hend
  rw [List.nil_append] at hgiven
  exact ⟨hgiven, houtcome⟩

end Dataset

end WorkbookTables
