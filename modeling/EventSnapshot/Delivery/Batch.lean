/-!
# Delivering a batch

A batch is handed to a sink event by event. After a refusal the delivery pauses and goes on with
the event that was refused; the pauses double up to a greatest one. A delivery that meets too many
refusals gives up on what is left.
-/

namespace EventSnapshot.Delivery

/-- What happens in the course of a delivery. -/
inductive Act (α : Type) where
  /-- The sink accepted an event. -/
  | accepted (event : α)
  /-- The sink refused an event. -/
  | refused (event : α)
  /-- The delivery paused for some milliseconds. -/
  | paused (millis : Nat)

/-- The course and the outcome of a delivery. -/
structure Course (α : Type) where
  /-- What happened, in order. -/
  acts : List (Act α)
  /-- The events that the sink accepted. -/
  accepted : List α
  /-- The events that were given up. -/
  lost : List α
  /-- How often the sink has been called altogether. -/
  calls : Nat

/-- Why a delivery failed: it gave up. -/
structure GaveUp where
  /-- How many events it gave up. -/
  events : Nat
  deriving DecidableEq

/-- Whether a delivery got through. -/
def Course.outcome {α : Type} (course : Course α) : Except GaveUp Unit :=
  if course.lost.isEmpty then .ok () else .error ⟨course.lost.length⟩

/-- How many refusals a delivery takes before it gives up. -/
def maxRefusals : Nat := 8

/-- The first pause, in milliseconds. -/
def firstPause : Nat := 100

/-- The greatest pause, in milliseconds. -/
def maxPause : Nat := 10000

variable {α : Type}

/-- Sends events up to the first refusal. The answer to a call is given by how many calls went
before. -/
def sendRun (accepts : Nat → Bool) (calls : Nat) : List α → Course α
  | [] => ⟨[], [], [], calls⟩
  | event :: rest =>
    if accepts calls then
      let run := sendRun accepts (calls + 1) rest
      ⟨.accepted event :: run.acts, event :: run.accepted, run.lost, run.calls⟩
    else ⟨[.refused event], [], event :: rest, calls + 1⟩

/-- Delivers events, with as many pauses after refusals as are left. -/
def deliverWith (accepts : Nat → Bool) (longest : Nat) :
    Nat → Nat → Nat → List α → Course α
  | 0, _, calls, events => sendRun accepts calls events
  | pauses + 1, pause, calls, events =>
    let run := sendRun accepts calls events
    if run.lost.isEmpty then run
    else
      let more := deliverWith accepts longest pauses (min (pause * 2) longest) run.calls run.lost
      ⟨run.acts ++ .paused pause :: more.acts, run.accepted ++ more.accepted, more.lost,
        more.calls⟩

/-- Delivers a batch. -/
def deliver (accepts : Nat → Bool) (calls : Nat) (batch : List α) : Course α :=
  deliverWith accepts maxPause (maxRefusals - 1) firstPause calls batch

end EventSnapshot.Delivery
