import EventSnapshot.Bridge.Emission
import EventSnapshot.Config
import EventSnapshot.Delivery.Timeline

/-!
# The bridge

The bridge takes emissions, turns those that are severe enough into events and offers them to the
channel of the delivery worker. It never waits: an event that finds the channel full or closed is
dropped. It counts what it takes, enqueues and drops.

A channel is made for at most 2^61 - 1 events. Settings that ask for more are left out: the attempt
to install them fails, where here they give a channel that never fills up.

One bridge can be installed for the whole process. An attempt to install another one is refused,
but the worker of the refused bridge has been set going by then and shares the sink.
-/

namespace EventSnapshot

open Delivery (Sink Sight Timeline)

/-- The bridge and its delivery worker. -/
structure Bridge where
  /-- How many events the channel holds. -/
  capacity : Nat
  /-- How many milliseconds a batch waits at most. -/
  interval : Nat
  /-- The least severe level that is taken. -/
  maxLevel : Level
  /-- The sink that the worker delivers to. -/
  sink : Sink
  /-- The worker and its channel. -/
  timeline : Timeline Event
  /-- How many emissions were offered to the bridge. -/
  total : Nat
  /-- How many events found room in the channel. -/
  enqueued : Nat
  /-- How many events were dropped. -/
  dropped : Nat
  /-- How many workers of refused bridges have yet to find their channels closed. -/
  others : Nat

namespace Bridge

/-- The least capacity of a channel. -/
def minCapacity : Nat := 16

/-- The least time that a batch waits, in milliseconds. -/
def minInterval : Nat := 10

/-- A bridge that has taken nothing yet. Settings that are too small are raised to the least that
make sense. -/
def new (config : Config) (sink : Sink) : Bridge :=
  { capacity := max config.buffer minCapacity
    interval := max config.flushMillis minInterval
    maxLevel := config.maxLevel
    sink
    timeline := .new (max config.batchSize 1)
    total := 0
    enqueued := 0
    dropped := 0
    others := 0 }

/-- Offers an event to the channel. -/
def offer (bridge : Bridge) (event : Event) : Bridge :=
  let queue := bridge.timeline.queue
  if queue.length < bridge.capacity ∧ !bridge.timeline.broken then
    { bridge with
      timeline := { bridge.timeline with queue := queue ++ [event] }
      enqueued := bridge.enqueued + 1 }
  else { bridge with dropped := bridge.dropped + 1 }

/-- Takes an emission from a thread inside some spans. -/
def emit (bridge : Bridge) (thread : Thread) (spans : List String) (emission : Emission)
    (timestamp : Int64) : Bridge :=
  let bridge := { bridge with total := bridge.total + 1 }
  if (Level.ofSeverity emission.severity).atLeast bridge.maxLevel then
    bridge.offer (emission.toEvent thread spans timestamp)
  else bridge

/-- Lets the workers work from `start` until just before `stop`. -/
def wait (bridge : Bridge) (start stop : Nat) : Bridge :=
  if start < stop then
    let shared := bridge.timeline.shareTurn bridge.sink bridge.others start
    { bridge with
      timeline := shared.run bridge.sink bridge.interval start stop
      others := 0 }
  else bridge

/-- Closes the channel and lets the worker work to its end. -/
def close (bridge : Bridge) (time : Nat) : Bridge :=
  { bridge with timeline := bridge.timeline.finish bridge.sink time }

/-- What was seen of the sink, and when, the earliest first. -/
def seen (bridge : Bridge) : List (Nat × Sight Event) := bridge.timeline.seen.reverse

/-- What was seen of the sink before some time. -/
def seenBefore (bridge : Bridge) (time : Nat) : List (Nat × Sight Event) :=
  bridge.seen.filter (·.1 < time)

/-- The bridge after one more bridge with the same sink was refused. -/
def refuse (bridge : Bridge) (refused : Bridge) : Bridge :=
  if refused.timeline.started.broken then bridge
  else { bridge with others := bridge.others + 1 }

end Bridge

/-- Why the bridge cannot be installed. -/
inductive InstallError where
  /-- Another one is installed already. -/
  | alreadySet
  deriving DecidableEq

/-- The text of an error. -/
def InstallError.message : InstallError → String
  | .alreadySet => "a global tracing subscriber is already set"

/-- Installs a bridge for the whole process; the first one stays. The answer is the error, if there
is one, and the bridge that is installed afterwards. -/
def install (installed : Option Bridge) (config : Config) (sink : Sink) :
    Option InstallError × Bridge :=
  match installed with
  | some bridge => (some .alreadySet, bridge.refuse (.new config sink))
  | none => (none, .new config sink)

end EventSnapshot
