import WorkbookTables.Scan.Bridge

/-!
# Datasets

A dataset is the consumer's end of a scan. Items are pulled one at a time: rows, and at the end the
error that ended them, if there is one. To know whether there is another item, one must be fetched;
it then waits to be pulled, and neither a cancellation nor a close takes it away.

A dataset closes itself when it has fetched the last item or learnt that there is none. Closing
always asks the publisher to stop, so a dataset that has come to its end counts as cancelled.

## Main definitions

* `Dataset` — the state of the consumer
* `Dataset.start` — a scan that begins; with a cap of no rows it is over at once
* `Dataset.hasNext`, `Dataset.next`, `Dataset.cancel`, `Dataset.close` — what a consumer does
* `Dataset.drain` — pulling to the end
-/

namespace WorkbookTables

/-- The consumer's end of a scan. -/
structure Dataset where
  /-- The name of the table. -/
  table : String
  /-- The publisher and the channel. -/
  bridge : Bridge
  /-- An item that has been fetched. -/
  pending : Option (Except Error Row)
  /-- How the reading ended, once it is known. -/
  outcome : Option Ending
  /-- Whether nothing more is fetched. -/
  closed : Bool

namespace Dataset

/-- Begins a scan. -/
def start (scan : Scan) (feed : Feed) : Dataset :=
  match scan.maxRows with
  | some 0 => ⟨scan.table, .idle scan, none, some .stopped, true⟩
  | _ => ⟨scan.table, .start scan feed, none, none, false⟩

/-- Holds once the publisher has been asked to stop. -/
def isCancelled (d : Dataset) : Bool := d.bridge.cancelled

/-- Asks the publisher to stop. -/
def cancel (d : Dataset) : Dataset :=
  { d with bridge := { d.bridge with cancelled := true } }

/-- Ends the scan; a second time it does nothing. -/
def close (d : Dataset) : Dataset :=
  if d.closed then d
  else
    let bridge := d.bridge.abandon
    { d with bridge, closed := true, outcome := d.outcome.or bridge.publisher.outcome }

/-- What a message means for the consumer; no message means that the publisher has exited without
a report. -/
def accept (d : Dataset) (m : Option Message) : Dataset :=
  match m with
  | some (.row row) => { d with pending := some (.ok row) }
  | some (.failed e) => { d with pending := some (.error e) }.close
  | some (.finished ending) => { d with outcome := some ending }.close
  | none => { d with pending := some (.error (.publisher d.table)) }.close

/-- Waits for the next message. -/
def receive (d : Dataset) : Dataset :=
  let bridge := d.bridge.settle
  { d with bridge := { bridge with queue := bridge.queue.tail } }.accept bridge.queue.head?

/-- Fetches an item, unless one waits already or nothing more is fetched. -/
def fill (d : Dataset) : Dataset :=
  if d.pending.isSome ∨ d.closed then d
  else if d.isCancelled then d.close
  else d.receive

/-- Whether there is another item. -/
def hasNext (d : Dataset) : Bool × Dataset :=
  let d := d.fill
  (d.pending.isSome, d)

/-- The next item. -/
def next (d : Dataset) : Option (Except Error Row) × Dataset :=
  let d := d.fill
  (d.pending, { d with pending := none })

/-- What a consumer gets that pulls to the end. -/
structure Drained where
  /-- The rows. -/
  rows : List Row
  /-- The error that ended them, if there is one. -/
  failure : Option Error
  deriving DecidableEq, Repr

/-- Pulls so many items at most. -/
def pull : Nat → Dataset → Drained × Dataset
  | 0, d => (⟨[], none⟩, d)
  | items + 1, d =>
    match d.next with
    | (none, d) => (⟨[], none⟩, d)
    | (some (.ok row), d) =>
      let (drained, d) := pull items d
      ({ drained with rows := row :: drained.rows }, d)
    | (some (.error e), d) =>
      let (drained, d) := pull items d
      ({ drained with failure := drained.failure.or (some e) }, d)

/-- More items than there can be. -/
def itemBound (d : Dataset) : Nat :=
  d.bridge.queue.length + d.bridge.publisher.rows.length + 4

/-- Pulls to the end. -/
def drain (d : Dataset) : Drained × Dataset :=
  d.pull d.itemBound

end Dataset

end WorkbookTables
