import EventSnapshot.Delivery.Batch

/-!
# The delivery worker

The worker gathers the events that it receives into a batch. It delivers the batch when it is full,
when the flush timer fires, and at last when no more events can come.
-/

namespace EventSnapshot.Delivery

/-- The state of the worker between two steps. -/
structure Worker (α : Type) where
  /-- How many events make a full batch. -/
  batchSize : Nat
  /-- The events gathered so far. -/
  batch : List α
  /-- How often the sink has been called. -/
  calls : Nat

namespace Worker

variable {α : Type}

/-- A worker that has received nothing. -/
def new (batchSize : Nat) : Worker α := ⟨batchSize, [], 0⟩

/-- Delivers the batch. Afterwards it is empty, whatever became of its events. -/
def deliver (accepts : Nat → Bool) (worker : Worker α) : Worker α × Course α :=
  let course := Delivery.deliver accepts worker.calls worker.batch
  ({ worker with batch := [], calls := course.calls }, course)

/-- The course in which nothing happens. -/
def idle (worker : Worker α) : Course α := ⟨[], [], [], worker.calls⟩

/-- Receives an event, and delivers the batch if it is full then. -/
def receive (accepts : Nat → Bool) (worker : Worker α) (event : α) : Worker α × Course α :=
  let worker := { worker with batch := worker.batch ++ [event] }
  if worker.batchSize ≤ worker.batch.length then worker.deliver accepts
  else (worker, worker.idle)

/-- Takes note of the flush timer: delivers what has been gathered. -/
def flushDue (accepts : Nat → Bool) (worker : Worker α) : Worker α × Course α :=
  worker.deliver accepts

end Worker

end EventSnapshot.Delivery
