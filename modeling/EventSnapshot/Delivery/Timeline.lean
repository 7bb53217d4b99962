import EventSnapshot.Delivery.Worker

/-!
# The worker in time

The worker beside its channel, on a clock that counts milliseconds. It is busy while a delivery goes
on: each call of the sink takes the sink's delay, and each pause its length. Otherwise it takes the
next event from the channel, or waits until the flush timer fires, which is started anew each time
the worker turns to the channel. When the channel is closed and empty, it delivers the rest and
flushes the sink.

A worker that starts sets memory aside for a whole batch. One whose batch can never fit breaks down
at that moment: what is in its channel is lost, and the channel is closed.
-/

namespace EventSnapshot.Delivery

/-- What a sink is like: which calls it accepts, and how long each takes. -/
structure Sink where
  /-- Whether the call that comes after so many others is accepted. -/
  accepts : Nat → Bool
  /-- How many milliseconds a call takes. -/
  delay : Nat

/-- What can be seen of a sink's work. -/
inductive Sight (α : Type) where
  /-- An event was accepted. -/
  | sent (event : α)
  /-- An event was refused. -/
  | refused (event : α)
  /-- The sink was flushed. -/
  | flushed

/-- The worker and its channel at some time. -/
structure Timeline (α : Type) where
  /-- The worker. -/
  worker : Worker α
  /-- The events in the channel, the oldest first. -/
  queue : List α
  /-- When the worker turned to the channel last, or will do so next. -/
  turned : Nat
  /-- What was seen of the sink, and when, the latest first. -/
  seen : List (Nat × Sight α)
  /-- Whether the worker broke down, so that its channel takes nothing any more. -/
  broken : Bool

variable {α : Type}

/-- The greatest batch that memory can be set aside for: no more than `2 ^ 63 - 1` bytes, of which
an event takes 432. -/
def maxBatch : Nat := 21350398233460129

/-- How many events a worker receives in one turn before the other workers have theirs. -/
def turnLength : Nat := 128

/-- The longest time that can be waited for at once, in milliseconds: thirty years of 365 days. -/
def longestSpan : Nat := 946080000000

/-- How long a wait for some milliseconds lasts. -/
def span (millis : Nat) : Nat := min millis longestSpan

/-- Lets the acts of a delivery happen from a time on. -/
def play (sink : Sink) (acts : List (Act α)) (time : Nat) (seen : List (Nat × Sight α)) :
    Nat × List (Nat × Sight α) :=
  acts.foldl (fun (time, seen) act =>
    match act with
    | .accepted event => (time + span sink.delay, (time + span sink.delay, .sent event) :: seen)
    | .refused event => (time + span sink.delay, (time + span sink.delay, .refused event) :: seen)
    | .paused millis => (time + millis, seen)) (time, seen)

namespace Timeline

/-- The worker before it starts, beside an empty channel. -/
def new (batchSize : Nat) : Timeline α := ⟨.new batchSize, [], 0, [], false⟩

/-- The timeline when the worker has started: it breaks down if its batch can never fit. -/
def started (timeline : Timeline α) : Timeline α :=
  if timeline.worker.batchSize ≤ maxBatch then timeline
  else { timeline with queue := [], broken := true }

/-- The timeline after a step of the worker at some time. -/
def after (timeline : Timeline α) (sink : Sink) (queue : List α) (time : Nat)
    (step : Worker α × Course α) : Timeline α :=
  let played := play sink step.2.acts time timeline.seen
  { timeline with worker := step.1, queue, turned := played.1, seen := played.2 }

/-- Lets the worker work from `start` until just before `stop`, in a number of steps at most. -/
def runSteps (sink : Sink) (interval start stop : Nat) : Nat → Timeline α → Timeline α
  | 0, timeline => timeline
  | steps + 1, timeline =>
    match timeline.queue with
    | event :: queue =>
      let time := max timeline.turned start
      if time < stop then
        runSteps sink interval start stop steps
          (timeline.after sink queue time (timeline.worker.receive sink.accepts event))
      else timeline
    | [] =>
      let time := timeline.turned + span interval
      if time < stop then
        runSteps sink interval start stop steps
          (timeline.after sink [] time (timeline.worker.flushDue sink.accepts))
      else timeline

/-- Lets the worker work from `start` until just before `stop`. Each step takes an event from the
channel or lets time pass. -/
def run (sink : Sink) (interval start stop : Nat) (timeline : Timeline α) : Timeline α :=
  if start < stop then
    runSteps sink interval start stop (timeline.queue.length + stop + 1) timeline.started
  else timeline

/-- Lets the worker receive events at some time, so many at most, while no time passes. -/
def receiveNow (sink : Sink) (time : Nat) : Nat → Timeline α → Timeline α
  | 0, timeline => timeline
  | events + 1, timeline =>
    match timeline.queue with
    | event :: queue =>
      if timeline.turned ≤ time then
        receiveNow sink time events
          (timeline.after sink queue time (timeline.worker.receive sink.accepts event))
      else timeline
    | [] => timeline

/-- Lets the worker have one turn at some time, and after it each of some other workers, whose
channels are closed and empty. All that such a worker does is to flush the sink. -/
def shareTurn (sink : Sink) (others time : Nat) (timeline : Timeline α) : Timeline α :=
  let timeline := timeline.started.receiveNow sink time turnLength
  let later := timeline.seen.takeWhile (time < ·.1)
  let earlier := timeline.seen.dropWhile (time < ·.1)
  { timeline with seen := later ++ List.replicate others (time, .flushed) ++ earlier }

/-- Lets the worker work to its end after the channel was closed at `start`. -/
def finish (sink : Sink) (start : Nat) (timeline : Timeline α) : Timeline α :=
  let timeline := timeline.started
  if timeline.broken then timeline
  else
    let received := timeline.queue.foldl (fun timeline event =>
      timeline.after sink [] (max timeline.turned start)
        (timeline.worker.receive sink.accepts event)) { timeline with queue := [] }
    let ended := received.after sink [] (max received.turned start)
      (received.worker.deliver sink.accepts)
    { ended with seen := (ended.turned, .flushed) :: ended.seen }

end Timeline

end EventSnapshot.Delivery
