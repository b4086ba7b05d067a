import WorkbookTables.Proofs.Scan.Protocol

/-!
# What a close leaves behind

A close ends the scan, but it does not take away what has been fetched. A dataset closes itself
behind a failure that nobody has pulled yet, and there the failure must stay; a consumer that closes
meets the same rule. So a closed dataset is silent only if every item that it had announced has been
pulled. Otherwise that one item is left: asking goes on announcing it, the next pull returns it, and
behind it there is nothing.

Whether an item is left can be told from the calls and their answers alone, and which item it is
from the scan.

## Main definitions

* `Dataset.Announced` — an item has been announced and not been pulled since
* `Dataset.EndsByClose` — what a close leaves behind

## Main results

* `Dataset.History.pending_isSome_iff` — what has been fetched is what has been announced
* `Dataset.endsByClose_start` — what a close leaves behind, in every history of every dataset
* `Dataset.not_silent_after_close` — a close does not silence every dataset
-/

namespace WorkbookTables

namespace Dataset

variable {scan : Scan} {feed : Feed} {d d' : Dataset} {c : Call} {reply : Reply}
  {h h' : List (Call × Reply)}

/-- Holds of a history in which an item has been announced and not been pulled since. -/
def Announced (h : List (Call × Reply)) : Prop :=
  ∃ before after, h = before ++ (.hasNext, .available true) :: after ∧
    ∀ call ∈ after, call.1 ≠ .next

/-! ### An item that has been fetched -/

/-- What has been announced and not been pulled is still there. -/
theorem History.pending_of_announced (hrun : d.History h d') (ha : Announced h) :
    d'.pending.isSome = true := by
  obtain ⟨before, after, rfl, hafter⟩ := ha
  obtain ⟨e, -, hrest⟩ := hrun.split
  obtain ⟨b, f, hask, hkept⟩ := hrest.of_cons
  generalize hanswer : Reply.available true = reply at hask
  cases hask with
  | hasNext f hf =>
    have hp : f.pending.isSome = true := (Reply.available.inj hanswer).symm
    rw [hkept.pending_eq hp hafter]
    exact hp

/-- **What has been fetched is what has been announced** and not been pulled since. -/
theorem History.pending_isSome_iff (hrun : (start scan feed).History h d) :
    d.pending.isSome = true ↔ Announced h := by
  constructor
  · intro hp
    obtain ⟨hstart, -⟩ | hannounced := hrun.announced_of_pending hp
    · simp [pending_start] at hstart
    · exact hannounced
  · intro ha
    exact hrun.pending_of_announced ha

/-- The items that have been returned, and then the one that has been fetched, are the first of the
scan. -/
theorem History.isPrefix_items (hrun : (start scan feed).History h d) :
    itemsOf h ++ d.pending.toList <+: scan.items feed := by
  have hsound := (sound_start scan feed).history hrun
  rw [List.nil_append] at hsound
  exact hsound.isPrefix

/-- As long as nothing is pulled, asking announces the item. -/
theorem History.announces_of_pending {item : Except Error Row} {answer : Bool}
    {rest : List (Call × Reply)} (hp : d.pending = some item)
    (hrun : d.History (h ++ (.hasNext, .available answer) :: rest) d')
    (hnext : ∀ call ∈ h, call.1 ≠ .next) : answer = true := by
  obtain ⟨e, hbefore, hafter⟩ := hrun.split
  have he : e.pending = some item := (hbefore.pending_eq (by simp [hp]) hnext).trans hp
  obtain ⟨b, f, hask, -⟩ := hafter.of_cons
  cases hask with
  | hasNext f hf =>
    rw [hf.eq_of_ready (.inl (by simp [he]))]
    simp [he]

/-! ### After a close -/

/-- A closed dataset stays closed. -/
theorem Performs.closed_of_closed (hcall : d.Performs c reply d') (hclosed : d.closed = true) :
    d'.closed = true := by
  cases hcall with
  | hasNext d' hf => rw [hf.eq_of_ready (.inr hclosed), hclosed]
  | next d' hf =>
    show d'.closed = true
    rw [hf.eq_of_ready (.inr hclosed), hclosed]
  | cancel => exact hclosed
  | close d' hclose => exact hclose.closed_eq
  | outcome => exact hclosed

theorem History.closed_of_closed (hrun : d.History h d') (hclosed : d.closed = true) :
    d'.closed = true := by
  induction hrun with
  | nil => exact hclosed
  | call hcall _ ih => exact ih (hcall.closed_of_closed hclosed)
  | work _ _ ih => exact ih hclosed

/-- **The first pull from a closed dataset** returns what has been fetched, and there is nothing
behind it. -/
theorem History.pulled_of_closed {item : Except Error Row} {pulled : Option (Except Error Row)}
    {rest : List (Call × Reply)} (hclosed : d.closed = true) (hp : d.pending = some item)
    (hrun : d.History (h ++ (.next, .item pulled) :: rest) d')
    (hnext : ∀ call ∈ h, call.1 ≠ .next) :
    pulled = some item ∧ ∀ call ∈ rest, call.2.IsNothing := by
  obtain ⟨e, hbefore, hafter⟩ := hrun.split
  have he : e.closed = true := hbefore.closed_of_closed hclosed
  obtain ⟨b, f, hpull, hrest⟩ := hafter.of_cons
  cases hpull with
  | next f hf =>
    obtain rfl := hf.eq_of_ready (.inr he)
    have hkept : e.pending = d.pending := hbefore.pending_eq (by simp [hp]) hnext
    exact ⟨hkept.trans hp, (hrest.of_exhausted he rfl).1⟩

/-- What a close leaves behind in the histories of a dataset whose scan has the items `all`. -/
structure EndsByClose (all : List (Except Error Row)) (start : Dataset) : Prop where
  /-- If every item that was announced has been pulled, nothing is returned and nothing announced
  any more. -/
  silent : ∀ h reply h' d, start.History (h ++ (.close, reply) :: h') d → ¬Announced h →
    ∀ call ∈ h', call.2.IsNothing
  /-- Otherwise one item is left, the next of the scan. It is announced until it is pulled, the
  first pull returns it, and behind it there is nothing. -/
  leaves : ∀ h reply h' d, start.History (h ++ (.close, reply) :: h') d → Announced h →
    ∃ item, itemsOf h ++ [item] <+: all ∧
      (∀ asked answer rest, h' = asked ++ (.hasNext, .available answer) :: rest →
        (∀ call ∈ asked, call.1 ≠ .next) → answer = true) ∧
      ∀ asked pulled rest, h' = asked ++ (.next, .item pulled) :: rest →
        (∀ call ∈ asked, call.1 ≠ .next) → pulled = some item ∧ ∀ call ∈ rest, call.2.IsNothing

/-- A history with a close in it, cut there: the close takes nothing away. -/
theorem History.split_close (hrun : d.History (h ++ (.close, reply) :: h') d') :
    ∃ e f : Dataset, d.History h e ∧ f.History h' d' ∧ f.closed = true ∧ f.pending = e.pending := by
  obtain ⟨e, hbefore, hrest⟩ := hrun.split
  obtain ⟨b, f, hcall, hafter⟩ := hrest.of_cons
  cases hcall with
  | close f hclose => exact ⟨e, f, hbefore, hafter, hclose.closed_eq, hclose.pending_eq⟩

/-- **What a close leaves behind**, whatever has been called before it. -/
theorem endsByClose_start (scan : Scan) (feed : Feed) :
    (start scan feed).EndsByClose (scan.items feed) where
  silent h reply h' d hrun ha := by
    obtain ⟨e, f, hbefore, hafter, hclosed, hp⟩ := hrun.split_close
    have he : e.pending = none := by
      rw [← hbefore.pending_isSome_iff] at ha
      simpa using ha
    exact (hafter.of_exhausted hclosed (hp.trans he)).1
  leaves h reply h' d hrun ha := by
    obtain ⟨e, f, hbefore, hafter, hclosed, hp⟩ := hrun.split_close
    obtain ⟨item, hitem⟩ := Option.isSome_iff_exists.1 (hbefore.pending_isSome_iff.2 ha)
    have hf : f.pending = some item := hp.trans hitem
    refine ⟨item, ?_, ?_, ?_⟩
    · have hprefix := hbefore.isPrefix_items
      rwa [hitem, Option.toList_some] at hprefix
    · rintro asked answer rest rfl hnext
      exact hafter.announces_of_pending hf hnext
    · rintro asked pulled rest rfl hnext
      exact hafter.pulled_of_closed hclosed hf hnext

/-- A scan that wants every row of a sheet of one row. -/
def rowOnly : Scan × Feed :=
  (⟨"Data", [0], none, none⟩, ⟨[⟨0, #[⟨some "x", ⟨none, .inlineString⟩⟩]⟩], .ok .complete⟩)

/-- **A close does not silence every dataset**: a row that has been announced before the close is
announced and returned after it. -/
theorem not_silent_after_close :
    ¬∀ scan feed h reply h' d, (start scan feed).History (h ++ (.close, reply) :: h') d →
      ∀ call ∈ h', call.2.IsNothing := by
  intro hsilent
  have hrun := history_performAll (start rowOnly.1 rowOnly.2) [.hasNext, .close, .hasNext, .next]
  have hpull := hsilent _ _ [(.hasNext, .available true)] .done _ _ hrun
    (.next, .item (some (.ok ⟨0, #[⟨some "x", ⟨none, .inlineString⟩⟩]⟩)))
    (List.mem_cons_of_mem _ List.mem_cons_self)
  cases hpull

end Dataset

end WorkbookTables
