import EventSnapshot.Bridge
import EventSnapshot.Proofs.Delivery.Simulation

/-!
# Traffic through a bridge

Threads call a bridge while its worker works. A call is a number of moments: the bridge counts it
and looks at how severe it is, offers its event to the channel, and counts what came of that. The
worker takes an event from the channel or starts to deliver what it has gathered, and each act of
the delivery is a moment too. The moments of all calls and of the worker come in any order.

What each moment keeps is said in three parts: how far the calls have come, which is what the
counters say; what the worker is at; and where the events are. From that follows what holds after
any moments.
-/

namespace EventSnapshot

open Delivery

namespace Bridge

/-! ## Calls -/

/-- What a thread asks the bridge to take. -/
structure Request where
  /-- The thread, as it is at the time. -/
  thread : Thread
  /-- The spans around the emission, the outermost first. -/
  spans : List String
  /-- What is emitted. -/
  emission : Emission
  /-- Milliseconds since 1970. -/
  timestamp : Int64

/-- The event of a request. -/
def Request.event (request : Request) : Event :=
  request.emission.toEvent request.thread request.spans request.timestamp

/-- Whether a request is severe enough. -/
def Request.isSevere (request : Request) (maxLevel : Level) : Bool :=
  (Level.ofSeverity request.emission.severity).atLeast maxLevel

/-- How far a call of the bridge has come. -/
inductive Stage where
  /-- It is counted and severe enough, and its event has yet to be offered. -/
  | counted
  /-- It is counted and has returned, since it is not severe enough. -/
  | passedOver
  /-- Its event found room in the channel. -/
  | admitted
  /-- Its event found the channel full or closed. -/
  | turnedAway
  /-- It has returned, and its event is counted as enqueued. -/
  | enqueued
  /-- It has returned, and its event is counted as dropped. -/
  | dropped
  deriving DecidableEq

namespace Stage

/-- Whether the call has returned. -/
def hasReturned : Stage → Bool
  | .passedOver | .enqueued | .dropped => true
  | .counted | .admitted | .turnedAway => false

/-- Whether the event found room in the channel. -/
def isKept : Stage → Bool
  | .admitted | .enqueued => true
  | _ => false

/-- Whether the event found the channel full or closed. -/
def isLost : Stage → Bool
  | .turnedAway | .dropped => true
  | _ => false

end Stage

/-! ## Moments -/

/-- A bridge, the calls that were made of it, and what became of their events. -/
structure Traffic where
  /-- The bridge. -/
  bridge : Bridge
  /-- The calls, the first first, and how far each has come. -/
  calls : List (Request × Stage)
  /-- What has yet to happen in the delivery that the worker is at. -/
  acts : List (Act Event)
  /-- The events that this delivery has left. -/
  pending : List Event
  /-- The events that the sink has accepted, the first first. -/
  accepted : List Event
  /-- The events that the worker has given up. -/
  givenUp : List Event

/-- What can happen next. -/
inductive Moment where
  /-- A thread calls the bridge, which counts the call and looks at how severe it is. -/
  | arrive (request : Request)
  /-- The event of the call at some place is offered to the channel. -/
  | offer (place : Nat)
  /-- What came of this offer is counted, and the call returns. -/
  | count (place : Nat)
  /-- The worker starts. -/
  | start
  /-- The worker takes the next event from the channel. If its batch is full then, it starts to
  deliver. -/
  | receive (time : Nat)
  /-- The worker starts to deliver what it has gathered: the flush timer fired, or nothing more can
  come. -/
  | deliver (time : Nat)
  /-- The next act of the delivery happens. -/
  | act
  /-- The sink is flushed. -/
  | flush (time : Nat)

/-- Whether the moment is one of the worker. -/
def Moment.isWork : Moment → Bool
  | .arrive _ | .offer _ | .count _ => false
  | .start | .receive _ | .deliver _ | .act | .flush _ => true

/-- The events that the sink accepts in some acts. -/
def acceptedIn (acts : List (Act Event)) : List Event := (sights acts).filterMap Sight.sent?

/-- The events of those calls whose events found room in the channel. -/
def keptOf (calls : List (Request × Stage)) : List Event :=
  (calls.filter (·.2.isKept)).map (·.1.event)

namespace Traffic

/-- A new bridge, of which no call was made. -/
def new (config : Config) (sink : Sink) : Traffic := ⟨.new config sink, [], [], [], [], []⟩

/-- The traffic when a call has come. -/
def arrive (traffic : Traffic) (request : Request) : Traffic :=
  { traffic with
    bridge := { traffic.bridge with total := traffic.bridge.total + 1 }
    calls := traffic.calls ++
      [(request, if request.isSevere traffic.bridge.maxLevel then .counted else .passedOver)] }

/-- Whether an event that is offered finds the channel full or closed. -/
def isShut (traffic : Traffic) : Bool :=
  traffic.bridge.capacity ≤ traffic.bridge.timeline.queue.length || traffic.bridge.timeline.broken

/-- The traffic when the event of the call at some place was offered. -/
def offer (traffic : Traffic) (place : Nat) : Traffic :=
  match traffic.calls[place]? with
  | some (request, .counted) =>
    if traffic.isShut then { traffic with calls := traffic.calls.set place (request, .turnedAway) }
    else
      { traffic with
        bridge := { traffic.bridge with
          timeline := { traffic.bridge.timeline with
            queue := traffic.bridge.timeline.queue ++ [request.event] } }
        calls := traffic.calls.set place (request, .admitted) }
  | _ => traffic

/-- The traffic when it was counted what came of the offer of the call at some place. -/
def count (traffic : Traffic) (place : Nat) : Traffic :=
  match traffic.calls[place]? with
  | some (request, .admitted) =>
    { traffic with
      bridge := { traffic.bridge with enqueued := traffic.bridge.enqueued + 1 }
      calls := traffic.calls.set place (request, .enqueued) }
  | some (request, .turnedAway) =>
    { traffic with
      bridge := { traffic.bridge with dropped := traffic.bridge.dropped + 1 }
      calls := traffic.calls.set place (request, .dropped) }
  | _ => traffic

/-- The traffic when the worker has started. -/
def started (traffic : Traffic) : Traffic :=
  { traffic with
    bridge := { traffic.bridge with timeline := traffic.bridge.timeline.started } }

/-- The traffic when the worker has done a step, of which the acts have yet to happen. -/
def work (traffic : Traffic) (queue : List Event) (time : Nat)
    (step : Worker Event × Course Event) : Traffic :=
  { traffic with
    bridge := { traffic.bridge with
      timeline := traffic.bridge.timeline.after traffic.bridge.sink queue time step }
    acts := step.2.acts
    pending := step.2.accepted ++ step.2.lost }

/-- The traffic when the worker has turned to the channel, unless it is at a delivery. -/
def receive (traffic : Traffic) (time : Nat) : Traffic :=
  match traffic.acts, traffic.bridge.timeline.queue with
  | [], event :: queue =>
    traffic.work queue time
      (traffic.bridge.timeline.worker.receive traffic.bridge.sink.accepts event)
  | _, _ => traffic

/-- The traffic when the worker has turned to its batch, unless it is at a delivery. -/
def deliver (traffic : Traffic) (time : Nat) : Traffic :=
  match traffic.acts with
  | [] =>
    traffic.work traffic.bridge.timeline.queue time
      (traffic.bridge.timeline.worker.deliver traffic.bridge.sink.accepts)
  | _ => traffic

/-- The traffic when the next act of the delivery has happened. With the last act, what is left is
given up. -/
def act (traffic : Traffic) : Traffic :=
  match traffic.acts with
  | [] => traffic
  | act :: acts =>
    let sent := acceptedIn [act]
    let left := traffic.pending.drop sent.length
    if acts.isEmpty then
      { traffic with
        acts := []
        pending := []
        accepted := traffic.accepted ++ sent
        givenUp := traffic.givenUp ++ left }
    else { traffic with acts, pending := left, accepted := traffic.accepted ++ sent }

/-- The traffic when the sink was flushed. -/
def flush (traffic : Traffic) (time : Nat) : Traffic :=
  { traffic with
    bridge := { traffic.bridge with
      timeline := { traffic.bridge.timeline with
        seen := (time, .flushed) :: traffic.bridge.timeline.seen } } }

/-- The traffic after a moment. -/
def step (traffic : Traffic) : Moment → Traffic
  | .arrive request => traffic.arrive request
  | .offer place => traffic.offer place
  | .count place => traffic.count place
  | .start => traffic.started
  | .receive time => traffic.started.receive time
  | .deliver time => traffic.started.deliver time
  | .act => traffic.act
  | .flush time => traffic.flush time

/-- The traffic after some moments. -/
def run (traffic : Traffic) (moments : List Moment) : Traffic := moments.foldl step traffic

/-- The events that are somewhere: with the sink, given up, in the delivery that the worker is at,
in its batch or in the channel. -/
def held (traffic : Traffic) : List Event :=
  traffic.accepted ++ traffic.givenUp ++ traffic.pending ++ traffic.bridge.timeline.worker.batch ++
    traffic.bridge.timeline.queue

/-! ## What every moment keeps -/

/-- The counters say how far the calls have come. -/
structure Counted (config : Config) (traffic : Traffic) : Prop where
  maxLevel_eq : traffic.bridge.maxLevel = config.maxLevel
  total_eq : traffic.bridge.total = traffic.calls.length
  passedOver_iff : ∀ call ∈ traffic.calls,
    call.2 = .passedOver ↔ call.1.isSevere config.maxLevel = false
  enqueued_eq : traffic.bridge.enqueued = traffic.calls.countP (·.2 = .enqueued)
  dropped_eq : traffic.bridge.dropped = traffic.calls.countP (·.2 = .dropped)

/-- The worker breaks down only if its batch cannot fit. What the sink was seen to accept is what it
has accepted and will accept in the delivery that the worker is at, and these come first among the
events that this delivery has left. -/
structure Working (config : Config) (traffic : Traffic) : Prop where
  batchSize_eq : traffic.bridge.timeline.worker.batchSize = max config.batchSize 1
  broken : traffic.bridge.timeline.broken = true →
    maxBatch < traffic.bridge.timeline.worker.batchSize
  seen_eq : (traffic.bridge.seen.map (·.2)).filterMap Sight.sent? =
    traffic.accepted ++ acceptedIn traffic.acts
  pending_eq : ∃ lost, traffic.pending = acceptedIn traffic.acts ++ lost
  settled : traffic.acts = [] → traffic.pending = []

/-- The channel holds no more than it can, and every event that found room in it is in one place, if
the worker did not break down. -/
structure Placed (config : Config) (traffic : Traffic) : Prop where
  capacity_eq : traffic.bridge.capacity = max config.buffer minCapacity
  room : traffic.bridge.timeline.queue.length ≤ traffic.bridge.capacity
  held_perm : traffic.bridge.timeline.broken = false → traffic.held.Perm (keptOf traffic.calls)

/-- What holds at every moment. -/
structure Sound (config : Config) (traffic : Traffic) : Prop where
  counted : traffic.Counted config
  working : traffic.Working config
  placed : traffic.Placed config

variable {config : Config} {traffic : Traffic}

/-- Nothing has happened, and nothing is wrong. -/
theorem sound_new (config : Config) (sink : Sink) : (new config sink).Sound config := by
  refine ⟨⟨rfl, rfl, ?_, rfl, rfl⟩, ⟨rfl, ?_, rfl, ⟨[], rfl⟩, fun _ => rfl⟩,
    ⟨rfl, Nat.zero_le _, fun _ => .nil⟩⟩
  · intro call hcall
    cases hcall
  · intro hbroken
    cases hbroken

/-- No moment of the worker changes the calls or the counters. -/
theorem step_of_isWork {moment : Moment} (h : moment.isWork) :
    ∃ timeline acts pending accepted givenUp, traffic.step moment =
      { bridge := { traffic.bridge with timeline }, calls := traffic.calls
        acts, pending, accepted, givenUp } := by
  cases moment with
  | arrive | offer | count => cases h
  | start => exact ⟨_, _, _, _, _, rfl⟩
  | flush time => exact ⟨_, _, _, _, _, rfl⟩
  | receive time =>
    dsimp only [step, receive]
    split
    · exact ⟨_, _, _, _, _, rfl⟩
    · exact ⟨_, _, _, _, _, rfl⟩
  | deliver time =>
    dsimp only [step, deliver]
    split
    · exact ⟨_, _, _, _, _, rfl⟩
    · exact ⟨_, _, _, _, _, rfl⟩
  | act =>
    dsimp only [step, act]
    split
    · exact ⟨_, _, _, _, _, rfl⟩
    · split
      · exact ⟨_, _, _, _, _, rfl⟩
      · exact ⟨_, _, _, _, _, rfl⟩

/-- No moment of a call changes what the worker is at. -/
theorem step_of_not_isWork {moment : Moment} (h : moment.isWork = false) :
    ∃ total enqueued dropped queue calls, traffic.step moment =
      { traffic with
        bridge := { traffic.bridge with
          total, enqueued, dropped, timeline := { traffic.bridge.timeline with queue } }
        calls } := by
  cases moment with
  | start | receive | deliver | act | flush => cases h
  | arrive request => exact ⟨_, _, _, _, _, rfl⟩
  | offer place =>
    dsimp only [step, offer]
    split
    · split
      · exact ⟨_, _, _, _, _, rfl⟩
      · exact ⟨_, _, _, _, _, rfl⟩
    · exact ⟨_, _, _, _, _, rfl⟩
  | count place =>
    dsimp only [step, count]
    split
    · exact ⟨_, _, _, _, _, rfl⟩
    · exact ⟨_, _, _, _, _, rfl⟩
    · exact ⟨_, _, _, _, _, rfl⟩

/-! ### Calls -/

/-- Another entry in the place of one changes nothing around it. -/
theorem exists_set_eq {α : Type} {list : List α} {place : Nat} {entry : α}
    (h : list[place]? = some entry) :
    ∃ before later, list = before ++ entry :: later ∧
      ∀ other, list.set place other = before ++ other :: later := by
  obtain ⟨hplace, rfl⟩ := List.getElem?_eq_some_iff.mp h
  refine ⟨list.take place, list.drop (place + 1), ?_, ?_⟩
  · rw [← List.drop_eq_getElem_cons hplace, List.take_append_drop]
  · intro other
    rw [List.set_eq_take_append_cons_drop, if_pos hplace]

/-- An offer moves a severe call on, and leaves every other one as it is. -/
theorem offer_cases (traffic : Traffic) (place : Nat) :
    traffic.offer place = traffic ∨
    ∃ request before later, traffic.calls[place]? = some (request, .counted) ∧
      traffic.calls = before ++ (request, .counted) :: later ∧
      ((traffic.isShut = true ∧ traffic.offer place =
        { traffic with calls := before ++ (request, .turnedAway) :: later }) ∨
      (traffic.isShut = false ∧ traffic.offer place =
        { traffic with
          bridge := { traffic.bridge with
            timeline := { traffic.bridge.timeline with
              queue := traffic.bridge.timeline.queue ++ [request.event] } }
          calls := before ++ (request, .admitted) :: later })) := by
  unfold offer
  split
  · next request hcall =>
    obtain ⟨before, later, hcalls, hset⟩ := exists_set_eq hcall
    refine .inr ⟨request, before, later, hcall, hcalls, ?_⟩
    cases hshut : traffic.isShut with
    | true => exact .inl ⟨rfl, by rw [if_pos rfl, hset]⟩
    | false => exact .inr ⟨rfl, by rw [if_neg Bool.false_ne_true, hset]⟩
  · exact .inl rfl

/-- A count lets a call return whose event was offered, and leaves every other one as it is. -/
theorem count_cases (traffic : Traffic) (place : Nat) :
    traffic.count place = traffic ∨
    ∃ request before later,
      (traffic.calls[place]? = some (request, .admitted) ∧
        traffic.calls = before ++ (request, .admitted) :: later ∧ traffic.count place =
          { traffic with
            bridge := { traffic.bridge with enqueued := traffic.bridge.enqueued + 1 }
            calls := before ++ (request, .enqueued) :: later }) ∨
      (traffic.calls[place]? = some (request, .turnedAway) ∧
        traffic.calls = before ++ (request, .turnedAway) :: later ∧ traffic.count place =
          { traffic with
            bridge := { traffic.bridge with dropped := traffic.bridge.dropped + 1 }
            calls := before ++ (request, .dropped) :: later }) := by
  unfold count
  split
  · next request hcall =>
    obtain ⟨before, later, hcalls, hset⟩ := exists_set_eq hcall
    exact .inr ⟨request, before, later, .inl ⟨hcall, hcalls, by rw [hset]⟩⟩
  · next request hcall =>
    obtain ⟨before, later, hcalls, hset⟩ := exists_set_eq hcall
    exact .inr ⟨request, before, later, .inr ⟨hcall, hcalls, by rw [hset]⟩⟩
  · exact .inl rfl

/-- A call that moves on is passed over no more than before. -/
theorem passedOver_iff_of_moved {before later : List (Request × Stage)} {request : Request}
    {stage next : Stage} {maxLevel : Level} (hstage : stage ≠ .passedOver)
    (hnext : next ≠ .passedOver)
    (h : ∀ call ∈ before ++ (request, stage) :: later,
      call.2 = .passedOver ↔ call.1.isSevere maxLevel = false) :
    ∀ call ∈ before ++ (request, next) :: later,
      call.2 = .passedOver ↔ call.1.isSevere maxLevel = false := by
  rw [List.forall_mem_append, List.forall_mem_cons] at h ⊢
  obtain ⟨hbefore, hcall, hlater⟩ := h
  exact ⟨hbefore, iff_of_false hnext fun hweak => hstage (hcall.mpr hweak), hlater⟩

/-- What counts the calls keeps doing so. -/
theorem Counted.step (h : traffic.Counted config) (moment : Moment) :
    (traffic.step moment).Counted config := by
  cases hmoment : moment.isWork with
  | true =>
    obtain ⟨timeline, acts, pending, accepted, givenUp, hstep⟩ :=
      traffic.step_of_isWork hmoment
    rw [hstep]
    exact ⟨h.maxLevel_eq, h.total_eq, h.passedOver_iff, h.enqueued_eq, h.dropped_eq⟩
  | false =>
    cases moment with
    | start | receive | deliver | act | flush => cases hmoment
    | arrive request =>
      have hlevel := h.maxLevel_eq
      refine ⟨hlevel, ?_, ?_, ?_, ?_⟩
      · simp [Traffic.step, arrive, h.total_eq]
      · refine List.forall_mem_append.mpr ⟨h.passedOver_iff, ?_⟩
        rw [List.forall_mem_singleton, hlevel]
        cases request.isSevere config.maxLevel <;> simp
      · simp only [Traffic.step, arrive, List.countP_append, h.enqueued_eq]
        cases request.isSevere traffic.bridge.maxLevel <;> simp
      · simp only [Traffic.step, arrive, List.countP_append, h.dropped_eq]
        cases request.isSevere traffic.bridge.maxLevel <;> simp
    | offer place =>
      obtain hsame | ⟨request, before, later, -, hcalls, ⟨-, hoffer⟩ | ⟨-, hoffer⟩⟩ :=
        traffic.offer_cases place
      · rw [Traffic.step, hsame]
        exact h
      all_goals
        obtain ⟨hlevel, htotal, hpassed, henqueued, hdropped⟩ := h
        rw [hcalls] at htotal hpassed henqueued hdropped
        rw [Traffic.step, hoffer]
        refine ⟨hlevel, ?_, passedOver_iff_of_moved ?_ ?_ hpassed, ?_, ?_⟩
        · simpa using htotal
        · decide
        · decide
        · simpa using henqueued
        · simpa using hdropped
    | count place =>
      obtain hsame | ⟨request, before, later, ⟨-, hcalls, hcount⟩ | ⟨-, hcalls, hcount⟩⟩ :=
        traffic.count_cases place
      · rw [Traffic.step, hsame]
        exact h
      all_goals
        obtain ⟨hlevel, htotal, hpassed, henqueued, hdropped⟩ := h
        rw [hcalls] at htotal hpassed henqueued hdropped
        rw [Traffic.step, hcount]
        refine ⟨hlevel, ?_, passedOver_iff_of_moved ?_ ?_ hpassed, ?_, ?_⟩
        · simpa using htotal
        · decide
        · decide
        · simp [henqueued, Nat.add_assoc]
        · simp [hdropped, Nat.add_assoc]

/-! ### The worker -/

/-- What the sink accepts in the first act of some comes before what it accepts in the others. -/
theorem acceptedIn_cons (act : Act Event) (acts : List (Act Event)) :
    acceptedIn (act :: acts) = acceptedIn [act] ++ acceptedIn acts := by
  have hsplit : sights (act :: acts) = sights [act] ++ sights acts :=
    List.filterMap_append (l := [act])
  rw [acceptedIn, hsplit, List.filterMap_append]
  rfl

/-- A worker that starts stays as it is, or breaks down since its batch cannot fit. -/
theorem Working.started (h : traffic.Working config) : traffic.started.Working config := by
  obtain ⟨hsize, hbroken, hseen, hpending, hsettled⟩ := h
  rw [Traffic.started, Timeline.started]
  split
  · exact ⟨hsize, hbroken, hseen, hpending, hsettled⟩
  · next hlarge => exact ⟨hsize, fun _ => Nat.lt_of_not_le hlarge, hseen, hpending, hsettled⟩

/-- A step of the worker sets out the acts of a delivery. -/
theorem Working.work (h : traffic.Working config) (hacts : traffic.acts = [])
    {received : List Event} {step : Worker Event × Course Event}
    (hstep : traffic.bridge.timeline.worker.Turns traffic.bridge.sink.accepts received step)
    (queue : List Event) (time : Nat) : (traffic.work queue time step).Working config := by
  have hsent : acceptedIn step.2.acts = step.2.accepted := hstep.happens.sent_eq
  constructor
  · exact hstep.batchSize_eq.trans h.batchSize_eq
  · intro hbroken
    have hlarge := h.broken hbroken
    rw [← hstep.batchSize_eq] at hlarge
    exact hlarge
  · have hseen := h.seen_eq
    rw [hacts, seen, List.map_reverse] at hseen
    have hplayed := play_seen traffic.bridge.sink step.2.acts time traffic.bridge.timeline.seen
    rw [seen, List.map_reverse]
    simp only [Traffic.work, Timeline.after, hplayed, List.reverse_append, List.reverse_reverse,
      List.filterMap_append, hseen]
    simp [acceptedIn, sights]
  · exact ⟨step.2.lost, by rw [Traffic.work, hsent]⟩
  · intro hnone
    have hnone : step.2.acts = [] := hnone
    rw [hnone] at hsent
    have hlost : step.2.lost = [] := by
      by_cases hlost : step.2.lost = []
      · exact hlost
      · have hrefusals := hstep.refusals_eq hlost
        simp [Course.refusals, hnone, maxRefusals] at hrefusals
    rw [Traffic.work, ← hsent, hlost]
    rfl

/-- An act of a delivery brings its event to the sink, or leaves it, or gives up what is left. -/
theorem Working.act (h : traffic.Working config) : traffic.act.Working config := by
  unfold Traffic.act
  split
  · exact h
  · next act acts hacts =>
    obtain ⟨hsize, hbroken, hseen, ⟨lost, hpending⟩, -⟩ := h
    rw [hacts, acceptedIn_cons] at hseen hpending
    dsimp only
    split
    · next hlast =>
      rw [List.isEmpty_iff.mp hlast] at hseen
      refine ⟨hsize, hbroken, ?_, ⟨[], rfl⟩, fun _ => rfl⟩
      rw [← List.append_assoc] at hseen
      exact hseen
    · next hmore =>
      refine ⟨hsize, hbroken, ?_, ⟨lost, ?_⟩, ?_⟩
      · rw [← List.append_assoc] at hseen
        exact hseen
      · rw [hpending, List.append_assoc, List.drop_left]
      · intro hnone
        exact absurd (List.isEmpty_iff.mpr hnone) hmore

/-- The worker does what it does. -/
theorem Working.step (h : traffic.Working config) (moment : Moment) :
    (traffic.step moment).Working config := by
  cases hmoment : moment.isWork with
  | false =>
    obtain ⟨total, enqueued, dropped, queue, calls, hstep⟩ := traffic.step_of_not_isWork hmoment
    rw [hstep]
    exact ⟨h.batchSize_eq, h.broken, h.seen_eq, h.pending_eq, h.settled⟩
  | true =>
    cases moment with
    | arrive | offer | count => cases hmoment
    | start => exact h.started
    | act => exact h.act
    | receive time =>
      have hstarted := h.started
      dsimp only [Traffic.step, Traffic.receive]
      split
      · next event queue hacts hqueue =>
        exact hstarted.work hacts (Worker.receive_turns ..) queue time
      · exact hstarted
    | deliver time =>
      have hstarted := h.started
      dsimp only [Traffic.step, Traffic.deliver]
      split
      · next hacts => exact hstarted.work hacts (Worker.deliver_turns ..) _ time
      · exact hstarted
    | flush time =>
      obtain ⟨hsize, hbroken, hseen, hpending, hsettled⟩ := h
      refine ⟨hsize, hbroken, ?_, hpending, hsettled⟩
      have hnone : (seen (traffic.flush time).bridge).map (·.2) =
          (seen traffic.bridge).map (·.2) ++ [.flushed] := by
        simp [flush, seen]
      rw [Traffic.step, hnone, List.filterMap_append, hseen]
      exact List.append_nil _

/-! ### The places of the events -/

/-- A call whose event found room is one of those calls. -/
theorem keptOf_of_isKept {stage : Stage} (h : stage.isKept = true)
    (before later : List (Request × Stage)) (request : Request) :
    keptOf (before ++ (request, stage) :: later) =
      keptOf before ++ request.event :: keptOf later := by
  simp [keptOf, h]

/-- A call whose event has not found room is none of those calls. -/
theorem keptOf_of_not_isKept {stage : Stage} (h : stage.isKept = false)
    (before later : List (Request × Stage)) (request : Request) :
    keptOf (before ++ (request, stage) :: later) = keptOf before ++ keptOf later := by
  simp [keptOf, h]

/-- A worker that starts empties its channel at most. -/
theorem Placed.started (h : traffic.Placed config) : traffic.started.Placed config := by
  rw [Traffic.started, Timeline.started]
  split
  · exact ⟨h.capacity_eq, h.room, h.held_perm⟩
  · exact ⟨h.capacity_eq, Nat.zero_le _, fun hunbroken => by cases hunbroken⟩

/-- A step of the worker takes what it receives from the channel into the batch or the delivery. -/
theorem Placed.work (h : traffic.Placed config) (hpending : traffic.pending = [])
    {received queue : List Event} (hqueue : traffic.bridge.timeline.queue = received ++ queue)
    {step : Worker Event × Course Event}
    (hstep : traffic.bridge.timeline.worker.Turns traffic.bridge.sink.accepts received step)
    (time : Nat) : (traffic.work queue time step).Placed config := by
  obtain ⟨hcapacity, hroom, hheld⟩ := h
  have hsame : (traffic.work queue time step).held = traffic.held := by
    have hsplit := hstep.split
    simp only [held, Traffic.work, Timeline.after, hqueue, hpending, List.append_nil]
    rw [List.append_assoc _ _ step.1.batch, hsplit]
    simp only [List.append_assoc]
  refine ⟨hcapacity, ?_, ?_⟩
  · rw [hqueue, List.length_append] at hroom
    exact Nat.le_trans (Nat.le_add_left ..) hroom
  · intro hunbroken
    rw [hsame]
    exact hheld hunbroken

/-- An act of a delivery leaves the bridge and the calls as they are. -/
theorem act_frame (traffic : Traffic) :
    traffic.act.bridge = traffic.bridge ∧ traffic.act.calls = traffic.calls := by
  unfold Traffic.act
  split
  · exact ⟨rfl, rfl⟩
  · dsimp only
    split
    · exact ⟨rfl, rfl⟩
    · exact ⟨rfl, rfl⟩

/-- An act of a delivery brings an event from the delivery to another place at most. -/
theorem Placed.act (h : traffic.Placed config) (hworking : traffic.Working config) :
    traffic.act.Placed config := by
  obtain ⟨hcapacity, hroom, hheld⟩ := h
  have hperm : traffic.act.held.Perm traffic.held := by
    unfold Traffic.act
    split
    · exact .refl _
    · next act acts hacts =>
      obtain ⟨lost, hpending⟩ := hworking.pending_eq
      rw [hacts, acceptedIn_cons, List.append_assoc] at hpending
      dsimp only
      rw [hpending, List.drop_left]
      generalize acceptedIn acts ++ lost = left at hpending
      split
      · simp only [held, hpending, List.append_nil, List.append_assoc]
        exact (List.perm_append_comm_assoc ..).append_left _
      · simp only [held, hpending, List.append_assoc]
        exact (List.perm_append_comm_assoc ..).append_left _
  obtain ⟨hbridge, hcalls⟩ := traffic.act_frame
  refine ⟨?_, ?_, ?_⟩
  · rw [hbridge, hcapacity]
  · rw [hbridge]
    exact hroom
  · intro hunbroken
    rw [hbridge] at hunbroken
    rw [hcalls]
    exact hperm.trans (hheld hunbroken)

/-- An event that finds room is in the channel. -/
theorem Placed.offer (h : traffic.Placed config) (place : Nat) :
    (traffic.offer place).Placed config := by
  obtain hsame | ⟨request, before, later, -, hcalls, ⟨-, hoffer⟩ | ⟨hopen, hoffer⟩⟩ :=
    traffic.offer_cases place
  · rw [hsame]
    exact h
  · rw [hoffer]
    refine ⟨h.capacity_eq, h.room, fun hunbroken => ?_⟩
    have hperm := h.held_perm hunbroken
    rw [hcalls, keptOf_of_not_isKept rfl] at hperm
    rw [keptOf_of_not_isKept rfl]
    exact hperm
  · obtain ⟨hfree, hunbroken⟩ : traffic.bridge.timeline.queue.length < traffic.bridge.capacity ∧
        traffic.bridge.timeline.broken = false := by
      simpa [isShut] using hopen
    have hperm := h.held_perm hunbroken
    rw [hcalls, keptOf_of_not_isKept rfl] at hperm
    rw [hoffer]
    refine ⟨h.capacity_eq, ?_, fun _ => ?_⟩
    · simp only [List.length_append, List.length_singleton]
      omega
    · have hmore := (List.perm_append_singleton request.event traffic.held).trans
        (hperm.cons request.event)
      rw [keptOf_of_isKept rfl]
      rw [held, List.append_assoc] at hmore
      exact hmore.trans List.perm_middle.symm

/-- To count what came of an offer moves no event. -/
theorem Placed.count (h : traffic.Placed config) (place : Nat) :
    (traffic.count place).Placed config := by
  obtain hsame | ⟨request, before, later, ⟨-, hcalls, hcount⟩ | ⟨-, hcalls, hcount⟩⟩ :=
    traffic.count_cases place
  · rw [hsame]
    exact h
  · rw [hcount]
    refine ⟨h.capacity_eq, h.room, fun hunbroken => ?_⟩
    have hperm := h.held_perm hunbroken
    rw [hcalls, keptOf_of_isKept rfl] at hperm
    rw [keptOf_of_isKept rfl]
    exact hperm
  · rw [hcount]
    refine ⟨h.capacity_eq, h.room, fun hunbroken => ?_⟩
    have hperm := h.held_perm hunbroken
    rw [hcalls, keptOf_of_not_isKept rfl] at hperm
    rw [keptOf_of_not_isKept rfl]
    exact hperm

/-- Every event that found room stays in one place. -/
theorem Sound.step (h : traffic.Sound config) (moment : Moment) :
    (traffic.step moment).Sound config := by
  refine ⟨h.counted.step moment, h.working.step moment, ?_⟩
  have hstarted := h.placed.started
  have hworking := h.working.started
  cases moment with
  | arrive request =>
    refine ⟨h.placed.capacity_eq, h.placed.room, fun hunbroken => ?_⟩
    have hnew : ∀ stage : Stage, stage.isKept = false →
        keptOf (traffic.calls ++ [(request, stage)]) = keptOf traffic.calls := by
      intro stage hstage
      rw [keptOf_of_not_isKept hstage]
      exact List.append_nil _
    have hperm := h.placed.held_perm hunbroken
    rw [Traffic.step, Traffic.arrive, hnew]
    · exact hperm
    · split
      · rfl
      · rfl
  | offer place => exact h.placed.offer place
  | count place => exact h.placed.count place
  | start => exact hstarted
  | act => exact h.placed.act h.working
  | flush time => exact ⟨h.placed.capacity_eq, h.placed.room, h.placed.held_perm⟩
  | receive time =>
    dsimp only [Traffic.step, Traffic.receive]
    split
    · next event queue hacts hqueue =>
      have hqueue : traffic.started.bridge.timeline.queue = [event] ++ queue := hqueue
      exact hstarted.work (hworking.settled hacts) hqueue (Worker.receive_turns ..) time
    · exact hstarted
  | deliver time =>
    dsimp only [Traffic.step, Traffic.deliver]
    split
    · next hacts =>
      have hqueue : traffic.started.bridge.timeline.queue =
          [] ++ traffic.started.bridge.timeline.queue := rfl
      exact hstarted.work (hworking.settled hacts) hqueue (Worker.deliver_turns ..) time
    · exact hstarted

/-- What holds at one moment holds after any others. -/
theorem Sound.run (h : traffic.Sound config) (moments : List Moment) :
    (traffic.run moments).Sound config := by
  induction moments generalizing traffic with
  | nil => exact h
  | cons moment moments ih => exact ih (h.step moment)

end Traffic

end Bridge

end EventSnapshot
