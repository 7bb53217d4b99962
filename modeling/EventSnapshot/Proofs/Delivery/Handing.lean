import EventSnapshot.Proofs.Delivery.Simulation
import Mathlib.Data.List.Basic

/-!
# What a sink is handed

A worker hands its sink nothing but events that were in its channel, just as they were put in there,
however it fares. If the sink refuses less often than one delivery takes, a session that comes to
its end has had all of them accepted, in their order.
-/

namespace EventSnapshot.Delivery

variable {α : Type}

/-! ## What a sink is handed -/

/-- The event that the sink was handed. -/
def Sight.event? : Sight α → Option α
  | .sent event => some event
  | .refused event => some event
  | .flushed => none

/-- The events that the sink was handed, the first first, and each as often as it was. -/
def handed (sights : List (Sight α)) : List α := sights.filterMap Sight.event?

/-- How often the sink was seen to refuse. -/
def refusalsSeen (sights : List (Sight α)) : Nat := (sights.filterMap Sight.answer?).count false

/-- The sink is seen to refuse as often as it does. -/
theorem refusalsSeen_sights (acts : List (Act α)) :
    refusalsSeen (sights acts) = acts.countP Act.isRefusal := by
  rw [refusalsSeen, sights, List.filterMap_filterMap, List.count_filterMap]
  apply List.countP_congr
  intro act _
  cases act <;> simp [Act.sight?, Sight.answer?, Act.isRefusal]

/-- While events are sent up to the first refusal, no others are handed to the sink. -/
theorem handed_sendRun (accepts : Nat → Bool) (calls : Nat) (events : List α) :
    handed (sights (sendRun accepts calls events).acts) ⊆ events := by
  induction events generalizing calls with
  | nil => exact List.Subset.refl _
  | cons event events ih =>
    rw [sendRun]
    split
    · exact List.cons_subset_cons event (ih (calls + 1))
    · exact List.cons_subset_cons event (List.nil_subset events)

/-- While events are delivered, no others are handed to the sink. -/
theorem handed_deliverWith (accepts : Nat → Bool) (longest pauses pause calls : Nat)
    (events : List α) :
    handed (sights (deliverWith accepts longest pauses pause calls events).acts) ⊆ events := by
  induction pauses generalizing pause calls events with
  | zero => exact handed_sendRun accepts calls events
  | succ pauses ih =>
    have hrun := handed_sendRun accepts calls events
    have hsplit := (sendRun_delivers accepts calls events).split
    rw [deliverWith]
    generalize sendRun accepts calls events = run at hrun hsplit
    dsimp only
    split
    · exact hrun
    · have hlost : run.lost ⊆ events := by
        rw [← hsplit]
        exact List.subset_append_right _ _
      have hmore := List.Subset.trans (ih (min (pause * 2) longest) run.calls run.lost) hlost
      rw [handed, sights, List.filterMap_append, List.filterMap_append]
      exact List.append_subset.mpr ⟨hrun, hmore⟩

/-- A step of the worker concerns only events with some property. -/
structure Worker.Concerns (P : α → Prop) (step : Worker α × Course α) : Prop where
  batch : ∀ event ∈ step.1.batch, P event
  acts : ∀ event ∈ handed (sights step.2.acts), P event

section Worker

variable {P : α → Prop} {worker : Worker α}

/-- A worker that delivers concerns itself with its batch only. -/
theorem Worker.deliver_concerns (h : ∀ event ∈ worker.batch, P event) (accepts : Nat → Bool) :
    Concerns P (worker.deliver accepts) := by
  constructor
  · intro event hevent
    cases hevent
  · intro event hevent
    exact h event (handed_deliverWith accepts _ _ _ _ _ hevent)

/-- A worker that receives an event concerns itself with that event and its batch only. -/
theorem Worker.receive_concerns (h : ∀ event ∈ worker.batch, P event) {event : α} (hevent : P event)
    (accepts : Nat → Bool) : Concerns P (worker.receive accepts event) := by
  have hbatch : ∀ found ∈ worker.batch ++ [event], P found :=
    List.forall_mem_append.mpr ⟨h, List.forall_mem_singleton.mpr hevent⟩
  unfold Worker.receive
  dsimp only
  split
  · exact Worker.deliver_concerns hbatch accepts
  · refine ⟨hbatch, ?_⟩
    intro found hfound
    cases hfound

end Worker

/-- A session that has come to its end has had every event accepted, if the sink was seen to refuse
less often than one delivery takes. -/
theorem Session.Sound.sent_eq {accepts : Nat → Bool} {batchSize : Nat} {events : List α}
    {session : Session α} (h : session.Sound accepts batchSize events)
    (hended : session.ended = true) (hfew : refusalsSeen session.log < maxRefusals) :
    session.log.filterMap Sight.sent? = events := by
  obtain ⟨-, hbatch, hqueue⟩ := h.ended_eq hended
  have hrefusals : refusalsSeen session.log =
      (session.courses.flatMap (·.acts)).countP Act.isRefusal := by
    rw [refusalsSeen, h.filterMap_log rfl, ← refusalsSeen, refusalsSeen_sights]
  have hlost : ∀ course ∈ session.courses, course.accepted ++ course.lost = course.accepted := by
    intro course hcourse
    have hle : course.refusals ≤ refusalsSeen session.log := by
      rw [hrefusals, Course.refusals, List.flatMap_def]
      exact (List.sublist_flatten_of_mem (List.mem_map_of_mem hcourse)).countP_le
    have hnone : course.lost = [] := by
      by_contra hlost
      have hall := h.refusals_eq course hcourse hlost
      omega
    rw [hnone, List.append_nil]
  calc
    session.log.filterMap Sight.sent? = session.courses.flatMap (·.accepted) := by
      rw [h.filterMap_log rfl, h.happens.sent_eq]
    _ = session.courses.flatMap fun course => course.accepted ++ course.lost :=
      (List.flatMap_congr hlost).symm
    _ = events := by rw [h.conserved, hbatch, hqueue, List.append_nil, List.append_nil]

/-! ## Timelines -/

/-- Only events with some property are in the channel or in the batch, or were handed to the
sink. -/
structure Timeline.Only (P : α → Prop) (timeline : Timeline α) : Prop where
  queue : ∀ event ∈ timeline.queue, P event
  batch : ∀ event ∈ timeline.worker.batch, P event
  seen : ∀ event ∈ handed (timeline.seen.map (·.2)), P event

namespace Timeline.Only

variable {P : α → Prop} {timeline : Timeline α} {sink : Sink}

/-- At first there are no events at all. -/
theorem new (batchSize : Nat) : (Timeline.new batchSize : Timeline α).Only P :=
  ⟨by simp [Timeline.new], by simp [Timeline.new, Worker.new], by simp [Timeline.new, handed]⟩

/-- A worker that starts may lose events, but brings none. -/
theorem started (h : timeline.Only P) : timeline.started.Only P := by
  unfold Timeline.started
  split
  · exact h
  · exact ⟨by simp, h.batch, h.seen⟩

/-- A step of the worker keeps to the events that it concerns. -/
theorem after (h : timeline.Only P) {queue : List α} (hqueue : ∀ event ∈ queue, P event)
    {step : Worker α × Course α} (hstep : Worker.Concerns P step) (time : Nat) :
    (timeline.after sink queue time step).Only P := by
  refine ⟨hqueue, hstep.batch, ?_⟩
  intro event hevent
  rw [Timeline.after, play_seen, handed, List.filterMap_append, List.filterMap_reverse,
    List.mem_append, List.mem_reverse] at hevent
  exact hevent.elim (hstep.acts event) (h.seen event)

/-- The worker takes an event from the channel. -/
theorem receive (h : timeline.Only P) {event : α} {queue : List α}
    (hqueue : timeline.queue = event :: queue) (time : Nat) :
    (timeline.after sink queue time (timeline.worker.receive sink.accepts event)).Only P := by
  have hevents := h.queue
  rw [hqueue, List.forall_mem_cons] at hevents
  exact h.after hevents.2 (Worker.receive_concerns h.batch hevents.1 sink.accepts) time

/-- Working for a time brings no events. -/
theorem runSteps (h : timeline.Only P) (interval start stop steps : Nat) :
    (Timeline.runSteps sink interval start stop steps timeline).Only P := by
  induction steps generalizing timeline with
  | zero => exact h
  | succ steps ih =>
    unfold Timeline.runSteps
    split
    · next event queue hqueue =>
      dsimp only
      split
      · exact ih (h.receive hqueue _)
      · exact h
    · dsimp only
      split
      · exact ih (h.after (by simp) (Worker.deliver_concerns h.batch sink.accepts) _)
      · exact h

/-- Working for a time brings no events. -/
theorem run (h : timeline.Only P) (interval start stop : Nat) :
    (timeline.run sink interval start stop).Only P := by
  unfold Timeline.run
  split
  · exact h.started.runSteps ..
  · exact h

/-- Receiving at one time brings no events. -/
theorem receiveNow (h : timeline.Only P) (time events : Nat) :
    (Timeline.receiveNow sink time events timeline).Only P := by
  induction events generalizing timeline with
  | zero => exact h
  | succ events ih =>
    unfold Timeline.receiveNow
    split
    · next event queue hqueue =>
      split
      · exact ih (h.receive hqueue time)
      · exact h
    · exact h

/-- A turn that is shared with other workers brings no events. -/
theorem shareTurn (h : timeline.Only P) (others time : Nat) :
    (timeline.shareTurn sink others time).Only P := by
  have hturn : (timeline.started.receiveNow sink time turnLength).Only P :=
    h.started.receiveNow time turnLength
  refine ⟨hturn.queue, hturn.batch, ?_⟩
  intro event hevent
  apply hturn.seen event
  -- The flushes of the other workers hand over nothing.
  rw [Timeline.shareTurn, List.map_append, List.map_append, List.map_replicate, handed,
    List.filterMap_append, List.filterMap_append, List.filterMap_replicate_of_none rfl,
    List.append_nil, ← List.filterMap_append, ← List.map_append,
    List.takeWhile_append_dropWhile] at hevent
  exact hevent

/-- Receiving some events brings no others. -/
theorem receiveAll (h : timeline.Only P) {queue : List α} (hqueue : ∀ event ∈ queue, P event)
    (start : Nat) :
    (queue.foldl (fun (timeline : Timeline α) event =>
      timeline.after sink [] (max timeline.turned start)
        (timeline.worker.receive sink.accepts event)) timeline).Only P := by
  induction queue generalizing timeline with
  | nil => exact h
  | cons event queue ih =>
    rw [List.forall_mem_cons] at hqueue
    apply ih _ hqueue.2
    exact h.after (by simp) (Worker.receive_concerns h.batch hqueue.1 sink.accepts) _

/-- Working to the end brings no events. -/
theorem finish (h : timeline.Only P) (start : Nat) : (timeline.finish sink start).Only P := by
  unfold Timeline.finish
  dsimp only
  split
  · exact h.started
  · have hempty : ({ timeline.started with queue := [] } : Timeline α).Only P :=
      ⟨by simp, h.started.batch, h.started.seen⟩
    have hnone : ∀ event ∈ ([] : List α), P event := by simp
    generalize hall : timeline.started.queue.foldl _ _ = received
    have hreceived : received.Only P := hall ▸ hempty.receiveAll h.started.queue start
    have hlast : (received.after sink [] (max received.turned start)
        (received.worker.deliver sink.accepts)).Only P :=
      hreceived.after hnone (Worker.deliver_concerns hreceived.batch sink.accepts) _
    exact ⟨hlast.queue, hlast.batch, hlast.seen⟩

end Timeline.Only

end EventSnapshot.Delivery
