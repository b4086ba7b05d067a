import WorkbookTables.Scan.Publisher

/-!
# The channel between publisher and consumer

Publisher and consumer run side by side. Between them is a channel that holds a bounded number of
messages: the publisher waits while it is full, and fails to send once the consumer has left. The
consumer waits while it is empty, and learns when the publisher has exited.

One step of the publisher is a partial function: there is none while it waits and none after it has
exited. Letting it run until there is no step is one schedule among many; the messages and their
order do not depend on the schedule.

## Main definitions

* `Bridge` — publisher and channel
* `Bridge.advance?` — a step of the publisher
* `Bridge.settle` — the publisher runs until it waits or has exited
* `Bridge.abandon` — the consumer leaves
-/

namespace WorkbookTables

/-- A publisher and the channel through which it sends. -/
structure Bridge where
  /-- The publisher. -/
  publisher : Publisher
  /-- The messages in the channel, the oldest first. -/
  queue : List Message
  /-- Whether the publisher is asked to stop. -/
  cancelled : Bool
  /-- Whether there is a consumer. -/
  connected : Bool

namespace Bridge

/-- How many messages the channel holds at most. -/
def capacity : Nat := 20

/-- A scan at its start. -/
def start (scan : Scan) (feed : Feed) : Bridge :=
  ⟨.start scan feed, [], false, true⟩

/-- The bridge of a scan from which nothing is wanted. -/
def idle (scan : Scan) : Bridge :=
  ⟨{ Publisher.start scan ⟨[], .ok .stopped⟩ with phase := .exited none }, [], false, false⟩

/-- Puts a message into the channel; `after` is the publisher then. There is no step while the
channel is full. -/
def send? (b : Bridge) (m : Message) (after : Publisher) : Option Bridge :=
  if b.queue.length < capacity then some { b with publisher := after, queue := b.queue ++ [m] }
  else none

/-- A step of the publisher, none while it waits and after it has exited. -/
def advance? (b : Bridge) : Option Bridge :=
  match b.publisher.phase with
  | .reading =>
    match b.publisher.rows with
    | [] => some { b with publisher := b.publisher.conclude }
    | row :: rest =>
      if b.cancelled then some { b with publisher := b.publisher.stop }
      else some { b with publisher := b.publisher.take row rest }
  | .sending row =>
    if b.connected then b.send? (.row row) b.publisher.sent
    else some { b with publisher := b.publisher.stop }
  | .reporting report outcome =>
    let after := { b.publisher with phase := .exited outcome }
    if b.connected then b.send? report after else some { b with publisher := after }
  | .exited _ => none

/-- Lets the publisher take so many steps at most. -/
def runFor : Nat → Bridge → Bridge
  | 0, b => b
  | steps + 1, b =>
    match b.advance? with
    | some b => runFor steps b
    | none => b

/-- Lets the publisher run until it waits or has exited. -/
def settle (b : Bridge) : Bridge :=
  b.runFor b.publisher.budget

/-- The consumer asks the publisher to stop and leaves; the publisher runs until it has exited. -/
def abandon (b : Bridge) : Bridge :=
  { b with queue := [], cancelled := true, connected := false }.settle

end Bridge

end WorkbookTables
