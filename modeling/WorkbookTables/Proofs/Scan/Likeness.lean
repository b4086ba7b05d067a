import WorkbookTables.Proofs.Scan.Protocol

/-!
# Datasets that differ in their schedules

Two datasets of one scan may have been used in the same way and been scheduled differently, so that
one publisher is ahead of the other. Their consumers cannot tell. They fetch the same items as long
as nobody stops the scans, because both have the same items ahead of them; and once the scans are
stopped, an item that has been fetched is all that is left, and they have fetched the same.

The outcome is left out of this, and carried beside it. Who learns it at the end of the scan learns
the same. But a dataset that is closed before its end is told by its publisher how the reading has
ended, and that is a question of how far the publisher has got.

## Main definitions

* `Dataset.Interrupted` — whatever closes a dataset now closes it early
* `Dataset.Alike` — what two datasets have in common that differ in their schedules

## Main results

* `Dataset.Live.fetches` — a live dataset fetches the next item
* `Dataset.Alike.fills`, `Dataset.Alike.closes`, `Dataset.Alike.pulls` — calls keep datasets alike
-/

namespace WorkbookTables

namespace Dataset

variable {all given : List (Except Error Row)} {final : Option Ending} {d d' d₁ d₂ e₁ e₂ : Dataset}

/-! ### Fetching and closing -/

/-- Holds of a dataset that has been cancelled and not been closed: whatever closes it closes it
early. -/
def Interrupted (d : Dataset) : Prop := d.closed = false ∧ d.isCancelled = true

theorem Closes.eq_of_closed (h : d.Closes d') (hclosed : d.closed = true) : d' = d := by
  cases h with
  | again => rfl
  | first b b' outcome ho => simp [ho] at hclosed

/-- A close asks the publisher to stop. -/
theorem Closes.isCancelled_of_open (h : d.Closes d') (ho : d.closed = false) :
    d'.isCancelled = true := by
  cases h with
  | again hclosed => simp [ho] at hclosed
  | first b b' outcome _ hasked hleft hexit =>
    have hb : b.cancelled = true := Bridge.Reaches.cancelled_eq hasked
    exact (Bridge.Reaches.cancelled_eq hleft).trans hb

/-- **What fetching comes to**: a row, and the dataset stays open; or the end, with a failure or
with nothing. -/
theorem Fills.of_open (h : d.Fills d') (hp : d.pending = none) (ho : d.closed = false) :
    (d'.closed = false ∧ d'.isCancelled = false ∧ ∃ row, d'.pending = some (.ok row)) ∨
      d'.closed = true ∧ d'.isCancelled = true ∧ ∀ row, d'.pending ≠ some (.ok row) := by
  -- What an open dataset is closed with stays behind.
  have ended {e : Dataset} (hclose : e.Closes d') (hopen : e.closed = false)
      (hitem : ∀ row, e.pending ≠ some (.ok row)) :
      d'.closed = true ∧ d'.isCancelled = true ∧ ∀ row, d'.pending ≠ some (.ok row) :=
    ⟨hclose.closed_eq, hclose.isCancelled_of_open hopen, hclose.pending_eq ▸ hitem⟩
  cases h with
  | ready hready => simp [hp, ho] at hready
  | cancelled d' _ _ hc hclose => exact .inr (ended hclose ho (by simp [hp]))
  | receives d' _ _ hc hreceives =>
    cases hreceives with
    | message b m rest d' hwait hq haccept =>
      cases haccept with
      | row row => exact .inl ⟨ho, (Bridge.Reaches.cancelled_eq hwait).trans hc, row, rfl⟩
      | failed e d' hclose => exact .inr (ended hclose ho (by simp))
      | finished ending d' hclose => exact .inr (ended hclose ho (by simp [hp]))
    | silence b outcome d' hwait hq hexit haccept =>
      cases haccept with
      | silence d' hclose => exact .inr (ended hclose ho (by simp))

/-- A dataset that has been cancelled has nothing to fetch, and is closed. -/
theorem Fills.closed_of_cancelled (h : d.Fills d') (hp : d.pending = none) (ho : d.closed = false)
    (hc : d.isCancelled = true) :
    (d'.closed = true ∧ d'.isCancelled = true) ∧ d'.pending = none := by
  cases h with
  | ready hready => simp [hp, ho] at hready
  | cancelled d' _ _ _ hclose =>
    exact ⟨⟨hclose.closed_eq, hclose.isCancelled_of_open ho⟩, hclose.pending_eq.trans hp⟩
  | receives d' _ _ hno hreceives => simp [hc] at hno

/-- Fetching interrupts nothing. -/
theorem Fills.not_interrupted (h : d.Fills d') (hd : ¬d.Interrupted) : ¬d'.Interrupted := by
  by_cases hready : d.pending.isSome = true ∨ d.closed = true
  · rwa [h.eq_of_ready hready]
  · obtain ⟨hp, ho⟩ := not_or.1 hready
    rintro ⟨hopen, hcancelled⟩
    obtain ⟨-, hnot, -⟩ | ⟨hclosed, -⟩ := h.of_open (by simpa using hp) (by simpa using ho)
    · cases hnot.symm.trans hcancelled
    · cases hclosed.symm.trans hopen

theorem not_interrupted_start (scan : Scan) (feed : Feed) : ¬(start scan feed).Interrupted := by
  rintro ⟨hopen, hcancelled⟩
  obtain hl | he := live_or_ended_start scan feed
  · cases hl.cancelled.symm.trans hcancelled
  · cases he.closed.symm.trans hopen

/-! ### Datasets that differ in their schedules -/

/-- What two datasets have in common that differ in their schedules alone. -/
structure Alike (d₁ d₂ : Dataset) : Prop where
  /-- The same item has been fetched. -/
  pending : d₁.pending = d₂.pending
  /-- Both are open, or both are closed. -/
  closed : d₁.closed = d₂.closed
  /-- Both have been cancelled, or neither. -/
  cancelled : d₁.isCancelled = d₂.isCancelled
  /-- Nothing more is fetched, or they have the same ahead of them. -/
  ahead : d₁.Stopped ∨ ∃ all final given, d₁.Live all final given ∧ d₂.Live all final given

theorem alike_start (scan : Scan) (feed : Feed) : (start scan feed).Alike (start scan feed) := by
  refine ⟨rfl, rfl, rfl, ?_⟩
  obtain hl | he := live_or_ended_start scan feed
  · exact .inr ⟨_, _, _, hl, hl⟩
  · exact .inl (.inl he.closed)

/-- Datasets that have come to a stop with the same item fetched. -/
theorem alike_of_closed (hp : d₁.pending = d₂.pending)
    (h₁ : d₁.closed = true ∧ d₁.isCancelled = true)
    (h₂ : d₂.closed = true ∧ d₂.isCancelled = true) : d₁.Alike d₂ :=
  ⟨hp, h₁.1.trans h₂.1.symm, h₁.2.trans h₂.2.symm, .inl (.inl h₁.1)⟩

theorem Alike.symm (h : d₁.Alike d₂) : d₂.Alike d₁ where
  pending := h.pending.symm
  closed := h.closed.symm
  cancelled := h.cancelled.symm
  ahead := by
    obtain hstopped | ⟨all, final, given, hl₁, hl₂⟩ := h.ahead
    · exact .inl (hstopped.imp h.closed.symm.trans h.cancelled.symm.trans)
    · exact .inr ⟨all, final, given, hl₂, hl₁⟩

/-- How far the one publisher gets is no concern of the other dataset. -/
theorem Alike.reaches {b : Bridge} (h : d₁.Alike d₂) (hreach : d₁.bridge.Reaches b) :
    ({ d₁ with bridge := b } : Dataset).Alike d₂ := by
  induction hreach with
  | refl => exact h
  | tail _ hstep ih =>
    have hcancelled := (Bridge.step_of_advance? hstep).cancelled_eq
    refine ⟨ih.pending, ih.closed, hcancelled.trans ih.cancelled, ?_⟩
    obtain hstopped | ⟨all, final, given, hl₁, hl₂⟩ := ih.ahead
    · exact .inl (hstopped.imp id hcancelled.trans)
    · exact .inr ⟨all, final, given, hl₁.work hstep, hl₂⟩

theorem Alike.reaches_both {b₁ b₂ : Bridge} (h : d₁.Alike d₂) (h₁ : d₁.bridge.Reaches b₁)
    (h₂ : d₂.bridge.Reaches b₂) :
    ({ d₁ with bridge := b₁ } : Dataset).Alike { d₂ with bridge := b₂ } :=
  ((h.reaches h₁).symm.reaches h₂).symm

/-- **A live dataset fetches the next item**: a row, and it stays live; or the end, with a failure
or with nothing. -/
theorem Live.fetches (h : d.Live all final given) (hp : d.pending = none) (hf : d.Fills d') :
    d'.pending = (all.drop given.length).head? ∧
      ((d'.Live all final given ∧ ∃ row, d'.pending = some (.ok row)) ∨
        d'.Ended all final given ∧ d'.isCancelled = true ∧ ∀ row, d'.pending ≠ some (.ok row)) := by
  obtain hl | he := h.fills hf
  · obtain ⟨-, -, row, hrow⟩ | ⟨hclosed, -⟩ := hf.of_open hp h.closed
    · refine ⟨?_, .inl ⟨hl, row, hrow⟩⟩
      rw [← hl.items, hrow]
      simp
    · cases hclosed.symm.trans hl.closed
  · obtain ⟨ho, -⟩ | ⟨-, hc, hno⟩ := hf.of_open hp h.closed
    · cases ho.symm.trans he.closed
    · refine ⟨?_, .inr ⟨he, hc, hno⟩⟩
      rw [← he.items, List.drop_left]
      cases d'.pending <;> rfl

/-- Two live datasets fetch the same, and learn the same of the end. -/
theorem alike_of_live (hl₁ : d₁.Live all final given) (hl₂ : d₂.Live all final given)
    (hp₁ : d₁.pending = none) (hp₂ : d₂.pending = none) (h₁ : d₁.Fills e₁) (h₂ : d₂.Fills e₂) :
    e₁.Alike e₂ ∧ e₁.outcome = e₂.outcome := by
  obtain ⟨hnext₁, hstate₁⟩ := hl₁.fetches hp₁ h₁
  obtain ⟨hnext₂, hstate₂⟩ := hl₂.fetches hp₂ h₂
  have hp : e₁.pending = e₂.pending := hnext₁.trans hnext₂.symm
  obtain ⟨hl₁', row₁, hrow₁⟩ | ⟨he₁, hc₁, hno₁⟩ := hstate₁
  · obtain ⟨hl₂', -⟩ | ⟨-, -, hno₂⟩ := hstate₂
    · exact ⟨⟨hp, hl₁'.closed.trans hl₂'.closed.symm, hl₁'.cancelled.trans hl₂'.cancelled.symm,
        .inr ⟨_, _, _, hl₁', hl₂'⟩⟩, hl₁'.outcome.trans hl₂'.outcome.symm⟩
    · exact absurd (hp.symm.trans hrow₁) (hno₂ row₁)
  · obtain ⟨-, row₂, hrow₂⟩ | ⟨he₂, hc₂, -⟩ := hstate₂
    · exact absurd (hp.trans hrow₂) (hno₁ row₂)
    · exact ⟨alike_of_closed hp ⟨he₁.closed, hc₁⟩ ⟨he₂.closed, hc₂⟩,
        he₁.outcome.trans he₂.outcome.symm⟩

/-- **Fetching keeps datasets alike**, and they go on to know the same of the outcome unless the end
comes early. -/
theorem Alike.fills (h : d₁.Alike d₂) (h₁ : d₁.Fills e₁) (h₂ : d₂.Fills e₂) :
    e₁.Alike e₂ ∧ ((d₁.Interrupted → e₁.closed = false) → d₁.outcome = d₂.outcome →
      e₁.outcome = e₂.outcome) := by
  by_cases hready : d₁.pending.isSome = true ∨ d₁.closed = true
  · have hready₂ : d₂.pending.isSome = true ∨ d₂.closed = true := by
      rwa [← h.pending, ← h.closed]
    rw [h₁.eq_of_ready hready, h₂.eq_of_ready hready₂]
    exact ⟨h, fun _ ho => ho⟩
  · obtain ⟨hp, ho⟩ := not_or.1 hready
    have hp₁ : d₁.pending = none := by simpa using hp
    have ho₁ : d₁.closed = false := by simpa using ho
    have hp₂ : d₂.pending = none := h.pending.symm.trans hp₁
    have ho₂ : d₂.closed = false := h.closed.symm.trans ho₁
    obtain hstopped | ⟨all, final, given, hl₁, hl₂⟩ := h.ahead
    · -- They have been cancelled, so there is nothing to fetch and both are closed.
      have hc₁ : d₁.isCancelled = true := hstopped.resolve_left (by simp [ho₁])
      have hc₂ : d₂.isCancelled = true := h.cancelled.symm.trans hc₁
      have hend₁ := h₁.closed_of_cancelled hp₁ ho₁ hc₁
      have hend₂ := h₂.closed_of_cancelled hp₂ ho₂ hc₂
      refine ⟨alike_of_closed (hend₁.2.trans hend₂.2.symm) hend₁.1 hend₂.1, fun hearly _ => ?_⟩
      cases (hearly ⟨ho₁, hc₁⟩).symm.trans hend₁.1.1
    · obtain ⟨halike, houtcome⟩ := alike_of_live hl₁ hl₂ hp₁ hp₂ h₁ h₂
      exact ⟨halike, fun _ _ => houtcome⟩

/-- **So does closing**, and they go on to know the same if both were closed before. -/
theorem Alike.closes (h : d₁.Alike d₂) (h₁ : d₁.Closes e₁) (h₂ : d₂.Closes e₂) :
    e₁.Alike e₂ ∧ (d₁.closed = true → d₁.outcome = d₂.outcome → e₁.outcome = e₂.outcome) := by
  cases hclosed : d₁.closed with
  | true =>
    rw [h₁.eq_of_closed hclosed, h₂.eq_of_closed (h.closed.symm.trans hclosed)]
    exact ⟨h, fun _ ho => ho⟩
  | false =>
    have hp : e₁.pending = e₂.pending := by rw [h₁.pending_eq, h₂.pending_eq, h.pending]
    have hc₁ := h₁.isCancelled_of_open hclosed
    have hc₂ := h₂.isCancelled_of_open (h.closed.symm.trans hclosed)
    exact ⟨alike_of_closed hp ⟨h₁.closed_eq, hc₁⟩ ⟨h₂.closed_eq, hc₂⟩, nofun⟩

/-- Taking what has been fetched keeps datasets alike. -/
theorem Alike.taken (h : d₁.Alike d₂) :
    ({ d₁ with pending := none } : Dataset).Alike { d₂ with pending := none } := by
  refine ⟨rfl, h.closed, h.cancelled, ?_⟩
  obtain hstopped | ⟨all, final, given, hl₁, hl₂⟩ := h.ahead
  · exact .inl hstopped
  · have hgiven : given ++ d₂.pending.toList = given ++ d₁.pending.toList := by rw [h.pending]
    exact .inr ⟨all, final, given ++ d₁.pending.toList,
      { hl₁ with items := by simpa using hl₁.items },
      { hl₂ with items := by simpa [← hgiven] using hl₂.items }⟩

theorem Alike.cancel (h : d₁.Alike d₂) : d₁.cancel.Alike d₂.cancel :=
  ⟨h.pending, h.closed, rfl, .inl (.inr rfl)⟩

/-! ### Pulling to the end -/

/-- A history without calls is some steps of the publisher. -/
theorem History.exists_reaches_of_nil (hrun : d.History [] d') :
    ∃ b, d.bridge.Reaches b ∧ d' = { d with bridge := b } := by
  generalize hnil : [] = h at hrun
  induction hrun with
  | nil d => exact ⟨d.bridge, .refl, rfl⟩
  | call hcall _ _ => cases hnil
  | work hstep _ ih =>
    obtain ⟨b, hreach, rfl⟩ := ih hnil
    exact ⟨b, .head hstep hreach, rfl⟩

/-- The first pull of a history, behind some steps of the publisher. -/
theorem History.of_pull {pulled : Option (Except Error Row)} {rest : List (Call × Reply)}
    (hrun : d.History ((.next, .item pulled) :: rest) d') :
    ∃ b e, d.bridge.Reaches b ∧ ({ d with bridge := b } : Dataset).Fills e ∧ e.pending = pulled ∧
      ({ e with pending := none } : Dataset).History rest d' := by
  obtain ⟨b, e, hreach, hcall, hrest⟩ := hrun.exists_reaches_of_cons
  generalize hreply : Reply.item pulled = reply at hcall
  cases hcall with
  | next e hf => exact ⟨b, e, hreach, hf, (Reply.item.inj hreply).symm, hrest⟩

/-- Who pulls to the end leaves the dataset closed. -/
theorem History.closed_of_pulls {items : List (Except Error Row)}
    (hrun : d.History (pulls items) d') : d'.closed = true := by
  obtain ⟨e, -, hlast⟩ := hrun.split
  exact (hlast.of_saysEnd (.inr rfl)).2.1

/-- One pull from each of two datasets. -/
theorem Alike.pull {pulled₁ pulled₂ : Option (Except Error Row)} {rest₁ rest₂ : List (Call × Reply)}
    (h : d₁.Alike d₂) (h₁ : d₁.History ((.next, .item pulled₁) :: rest₁) e₁)
    (h₂ : d₂.History ((.next, .item pulled₂) :: rest₂) e₂) :
    pulled₁ = pulled₂ ∧ ∃ f₁ f₂ : Dataset, f₁.Alike f₂ ∧ f₁.History rest₁ e₁ ∧ f₂.History rest₂ e₂ ∧
      (¬d₁.Interrupted →
        ¬f₁.Interrupted ∧ (d₁.outcome = d₂.outcome → f₁.outcome = f₂.outcome)) := by
  obtain ⟨b₁, f₁, hreach₁, hf₁, rfl, hrest₁⟩ := h₁.of_pull
  obtain ⟨b₂, f₂, hreach₂, hf₂, rfl, hrest₂⟩ := h₂.of_pull
  obtain ⟨hkept, houtcome⟩ := (h.reaches_both hreach₁ hreach₂).fills hf₁ hf₂
  refine ⟨hkept.pending, _, _, hkept.taken, hrest₁, hrest₂, fun hno => ?_⟩
  have hno' : ¬({ d₁ with bridge := b₁ } : Dataset).Interrupted := by
    rintro ⟨hopen, hcancelled⟩
    exact hno ⟨hopen, (Bridge.Reaches.cancelled_eq hreach₁).symm.trans hcancelled⟩
  exact ⟨hf₁.not_interrupted hno', houtcome fun hinterrupted => absurd hinterrupted hno'⟩

/-- **Pulling to the end keeps datasets alike, and the same is pulled**. They go on to know the same
of the outcome unless they have been interrupted. -/
theorem Alike.pulls {items₁ items₂ : List (Except Error Row)} (h : d₁.Alike d₂)
    (h₁ : d₁.History (pulls items₁) e₁) (h₂ : d₂.History (pulls items₂) e₂) :
    items₁ = items₂ ∧ e₁.Alike e₂ ∧
      (¬d₁.Interrupted → d₁.outcome = d₂.outcome → e₁.outcome = e₂.outcome) := by
  induction items₁ generalizing d₁ d₂ items₂ with
  | nil =>
    cases items₂ with
    | nil =>
      obtain ⟨-, f₁, f₂, hkept, hrest₁, hrest₂, houtcome⟩ := h.pull h₁ h₂
      obtain ⟨b₁, hreach₁, rfl⟩ := hrest₁.exists_reaches_of_nil
      obtain ⟨b₂, hreach₂, rfl⟩ := hrest₂.exists_reaches_of_nil
      exact ⟨rfl, hkept.reaches_both hreach₁ hreach₂, fun hno => (houtcome hno).2⟩
    | cons item items₂ => cases (h.pull h₁ h₂).1
  | cons item items₁ ih =>
    cases items₂ with
    | nil => cases (h.pull h₁ h₂).1
    | cons item' items₂ =>
      obtain ⟨hitem, f₁, f₂, hkept, hrest₁, hrest₂, houtcome⟩ := h.pull h₁ h₂
      obtain ⟨rfl, hend, hlast⟩ := ih hkept hrest₁ hrest₂
      refine ⟨by rw [Option.some.inj hitem], hend, fun hno ho => ?_⟩
      exact hlast (houtcome hno).1 ((houtcome hno).2 ho)

end Dataset

end WorkbookTables
