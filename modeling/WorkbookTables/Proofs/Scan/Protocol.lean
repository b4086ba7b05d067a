import WorkbookTables.Proofs.Scan.Pulling

/-!
# The protocol of a dataset

A dataset is used by calls in any order, some of which may stop it. What a consumer may rely on is
said about whole histories, so that it does not matter when the scan was stopped, or by whom, or
how far the publisher was then.

The one thing that keeps the rules apart from each other is the item that has been fetched and not
pulled. It outlives a cancellation and a close; nothing else does.

## Main definitions

* `Dataset.Stopped` — nothing more will be fetched
* `Dataset.ObeysProtocol` — the rules

## Main results

* `Dataset.obeysProtocol_start` — every dataset obeys them from its start
-/

namespace WorkbookTables

namespace Dataset

variable {all given : List (Except Error Row)} {d d' : Dataset} {c : Call} {reply : Reply}
  {h h' : List (Call × Reply)}

/-! ### A dataset that has been stopped -/

/-- **What a stopped dataset still gives is what had been fetched.** -/
theorem Performs.of_stopped (hcall : d.Performs c reply d') (hs : d.Stopped) :
    reply.items ++ d'.pending.toList = d.pending.toList ∧ d'.Stopped := by
  cases hcall with
  | hasNext d' hf =>
    obtain ⟨hp, hs'⟩ := hf.of_stopped hs
    exact ⟨by rw [Reply.items_available, hp, List.nil_append], hs'⟩
  | next d' hf =>
    obtain ⟨hp, hs'⟩ := hf.of_stopped hs
    exact ⟨by rw [Reply.items_item, hp, Option.toList_none, List.append_nil], hs'⟩
  | cancel => exact ⟨List.nil_append _, .inr rfl⟩
  | close d' hclose =>
    exact ⟨by rw [Reply.items_done, hclose.pending_eq, List.nil_append], .inl hclose.closed_eq⟩
  | outcome => exact ⟨List.nil_append _, hs⟩

theorem History.of_stopped (hrun : d.History h d') (hs : d.Stopped) :
    itemsOf h ++ d'.pending.toList = d.pending.toList ∧ d'.Stopped := by
  induction hrun with
  | nil => exact ⟨List.nil_append _, hs⟩
  | call hcall _ ih =>
    obtain ⟨hitems, hs'⟩ := hcall.of_stopped hs
    obtain ⟨hrest, hs''⟩ := ih hs'
    exact ⟨by rw [itemsOf_cons, List.append_assoc, hrest, hitems], hs''⟩
  | work hstep _ ih =>
    have hcancelled := (Bridge.step_of_advance? hstep).cancelled_eq
    exact ih (hs.imp id fun hc => hcancelled.trans hc)

/-! ### A dataset that has fetched an item -/

/-- Only pulling takes away what has been fetched. -/
theorem History.pending_eq (hrun : d.History h d') (hp : d.pending.isSome = true)
    (hnext : ∀ call ∈ h, call.1 ≠ .next) : d'.pending = d.pending := by
  induction hrun with
  | nil => rfl
  | @call d d' d'' c reply h hcall _ ih =>
    obtain ⟨hc, hrest⟩ := List.forall_mem_cons.1 hnext
    have hkept : d'.pending = d.pending := by
      cases hcall with
      | hasNext d' hf => rw [hf.eq_of_ready (.inl hp)]
      | next d' hf => exact absurd rfl hc
      | cancel => rfl
      | close d' hclose => exact hclose.pending_eq
      | outcome => rfl
    rw [ih (hkept ▸ hp) hrest, hkept]
  | work _ _ ih => exact ih hp hnext

/-- What has been fetched was announced, and has not been pulled since. -/
theorem History.announced_of_pending (hrun : d.History h d') (hp : d'.pending.isSome = true) :
    (d.pending.isSome = true ∧ ∀ call ∈ h, call.1 ≠ .next) ∨
      ∃ before after, h = before ++ (.hasNext, .available true) :: after ∧
        ∀ call ∈ after, call.1 ≠ .next := by
  induction hrun with
  | nil => exact .inl ⟨hp, by simp⟩
  | @call d d' d'' c reply h hcall _ ih =>
    obtain ⟨hp', hnext⟩ | ⟨before, after, rfl, hafter⟩ := ih hp
    · cases hcall with
      | hasNext d' hf => exact .inr ⟨[], h, by rw [hp', List.nil_append], hnext⟩
      | next d' hf => simp at hp'
      | cancel => exact .inl ⟨hp', List.forall_mem_cons.2 ⟨nofun, hnext⟩⟩
      | close d' hclose =>
        exact .inl ⟨hclose.pending_eq ▸ hp', List.forall_mem_cons.2 ⟨nofun, hnext⟩⟩
      | outcome => exact .inl ⟨hp', List.forall_mem_cons.2 ⟨nofun, hnext⟩⟩
    · exact .inr ⟨(c, reply) :: before, after, rfl, hafter⟩
  | work _ _ ih => exact ih hp

/-! ### The rules -/

/-- The rules that a dataset keeps under all calls, in whatever order they are made and however the
publisher is scheduled. -/
structure ObeysProtocol (start : Dataset) : Prop where
  /-- Every call is answered. -/
  answered : ∀ h d, start.History h d → ∀ c, ∃ reply d', d.Performs c reply d'
  /-- The functions answer as some schedule does. -/
  performed : ∀ calls, start.History (start.performAll calls).1 (start.performAll calls).2
  /-- There is said to be another item exactly if a pull made at once returns one. -/
  announces : ∀ h answer pulled d,
    start.History (h ++ [(.hasNext, .available answer), (.next, .item pulled)]) d →
      (answer = true ↔ pulled.isSome = true)
  /-- An item that has been announced is the next to be returned, whatever is called in between:
  asking again does not consume it, and neither a cancellation nor a close takes it away. -/
  keeps : ∀ h d, start.History (h ++ [(.hasNext, .available true)]) d →
    ∃ item, ∀ h' pulled d', (∀ call ∈ h', call.1 ≠ .next) →
      d.History (h' ++ [(.next, .item pulled)]) d' → pulled = some item
  /-- What is returned are the first rows that a drain returns, in their order and without a gap,
  and then at most one failure, behind which there is nothing. -/
  returns : ∀ h d, start.History h d →
    ∃ rows failure, itemsOf h = itemsOfRows rows failure ∧ rows <+: start.drain.1.rows
  /-- Once there is no item there will never be one. -/
  stays_done : ∀ h c reply h' d, start.History (h ++ (c, reply) :: h') d →
    reply.SaysEnd → ∀ call ∈ h', call.2.IsNothing
  /-- After a cancellation at most one item is returned, and only if it had been announced before
  and not been pulled. -/
  cancels : ∀ h reply h' d, start.History (h ++ (.cancel, reply) :: h') d →
    (itemsOf h').length ≤ 1 ∧
      (itemsOf h' ≠ [] → ∃ before after, h = before ++ (.hasNext, .available true) :: after ∧
        ∀ call ∈ after, call.1 ≠ .next)

/-- Whether an item has been fetched is what asking says, and what pulling returns. -/
theorem History.announces {answer : Bool} {pulled : Option (Except Error Row)}
    (hrun : d.History [(.hasNext, .available answer), (.next, .item pulled)] d') :
    answer = true ↔ pulled.isSome = true := by
  obtain ⟨b, e, hask, hrest⟩ := hrun.of_cons
  obtain ⟨b', e', hpull, -⟩ := hrest.of_cons
  cases hask with
  | hasNext e hf =>
    cases hpull with
    | next e' hf' =>
      rw [hf'.eq_of_ready (d := { e with bridge := b' }) hf.ready_after]

/-- Asking that says there is an item leaves one that the next pull returns. -/
theorem History.keeps (hrun : d.History [(.hasNext, .available true)] d') :
    ∃ item, ∀ h' pulled d'', (∀ call ∈ h', call.1 ≠ .next) →
      d'.History (h' ++ [(.next, .item pulled)]) d'' → pulled = some item := by
  obtain ⟨b, e, hask, hrest⟩ := hrun.of_cons
  generalize hanswer : Reply.available true = reply at hask
  cases hask with
  | hasNext e hf =>
    have he : e.pending.isSome = true := (Reply.available.inj hanswer).symm
    have hkept : d'.pending = e.pending := hrest.pending_eq he (by simp)
    obtain ⟨item, hitem⟩ := Option.isSome_iff_exists.1 he
    refine ⟨item, ?_⟩
    intro h' pulled d'' hnext hafter
    obtain ⟨f, hbefore, hpull⟩ := hafter.split
    have hf : f.pending = some item := by
      rw [hbefore.pending_eq (hkept ▸ he) hnext, hkept, hitem]
    obtain ⟨b', f', hcall, -⟩ := hpull.of_cons
    cases hcall with
    | next f' hfill =>
      rw [hfill.eq_of_ready (d := { f with bridge := b' }) (.inl (by simp [hf])), hf]

/-- **Every dataset obeys the protocol from its start.** -/
theorem obeysProtocol_start (scan : Scan) (feed : Feed) : (start scan feed).ObeysProtocol where
  answered _ d _ c := ⟨_, _, performs_perform d c⟩
  performed calls := history_performAll _ calls
  announces h answer pulled d hrun := by
    obtain ⟨e, -, hlast⟩ := hrun.split
    exact hlast.announces
  keeps h d hrun := by
    obtain ⟨e, -, hlast⟩ := hrun.split
    exact hlast.keeps
  returns h d hrun := by
    obtain ⟨rows, failure, hall⟩ := exists_itemsOfRows_of_messages scan.table (scan.stream feed)
    have hprefix : itemsOf h <+: itemsOfRows rows failure := hall ▸ hrun.items_isPrefix
    have hdrain : (start scan feed).drain.1.rows = rows := by
      rw [(drain_start scan feed).2, Scan.items, hall, Drained.ofItems_itemsOfRows]
    rw [hdrain]
    exact exists_itemsOfRows_of_isPrefix hprefix
  stays_done h c reply h' d hrun hend := by
    obtain ⟨e, -, hrest⟩ := hrun.split
    exact (hrest.of_saysEnd hend).1
  cancels h reply h' d hrun := by
    obtain ⟨e, hbefore, hrest⟩ := hrun.split
    obtain ⟨b, f, hcall, hafter⟩ := hrest.of_cons
    cases hcall with
    | cancel =>
      have hitems : itemsOf h' ++ d.pending.toList = e.pending.toList :=
        (hafter.of_stopped (.inr rfl)).1
      cases hp : e.pending with
      | none =>
        rw [hp, Option.toList_none, List.append_eq_nil_iff] at hitems
        simp [hitems.1]
      | some item =>
        have hlength := congrArg List.length hitems
        rw [hp, Option.toList_some, List.length_append, List.length_singleton] at hlength
        refine ⟨by omega, ?_⟩
        intro _
        obtain ⟨hstart, -⟩ | hannounced := hbefore.announced_of_pending (by simp [hp])
        · simp [pending_start] at hstart
        · exact hannounced

end Dataset

end WorkbookTables
