import EventSnapshot.Bridge
import EventSnapshot.Proofs.Delivery.Session

/-!
# The worker in time as a session

What the worker does in time, it does in some session: the clock only chooses the order of the
moves. So all that holds of sessions holds of a bridge that is used in any way, as long as no other
worker shares its sink.
-/

namespace EventSnapshot.Delivery

variable {α : Type}

/-! ## Moves of the worker -/

/-- The worker enqueues nothing. -/
theorem enqueued_of_work {moves : List (Move α)} (h : ∀ move ∈ moves, move.isWork) :
    enqueued moves = [] := by
  induction moves with
  | nil => rfl
  | cons move moves ih =>
    rw [List.forall_mem_cons] at h
    have hrest := ih h.2
    cases move with
    | enqueue event => cases h.1
    | receive => exact hrest
    | timer => exact hrest
    | close => cases h.1

/-- The worker does not close the channel. -/
theorem Move.isClose_of_work {move : Move α} (h : move.isWork) : move.isClose = false := by
  cases move with
  | close => cases h
  | _ => rfl

/-- As long as the channel is open, what is enqueued later comes after what was enqueued before. -/
theorem enqueued_append {moves : List (Move α)} (h : ∀ move ∈ moves, move.isClose = false)
    (more : List (Move α)) : enqueued (moves ++ more) = enqueued moves ++ enqueued more := by
  induction moves with
  | nil => rfl
  | cons move moves ih =>
    rw [List.forall_mem_cons] at h
    rw [List.cons_append, enqueued_cons, enqueued_cons move moves, h.1, ih h.2]
    simp

namespace Session

variable {accepts : Nat → Bool} {session : Session α}

/-- The worker has started, and has not come to its end. -/
structure Working (session : Session α) : Prop where
  fits : session.worker.batchSize ≤ maxBatch
  unbroken : session.broken = false
  unended : session.ended = false

namespace Working

/-- A worker that has started does not start again. -/
theorem started_eq (h : session.Working) : session.started = session := by
  rw [started, if_pos h.fits]

/-- A step of the worker does not bring it to its end. -/
theorem after (h : session.Working) {received : List α} (queue : List α)
    {step : Worker α × Course α} (hstep : session.worker.Turns accepts received step) :
    (session.after queue step).Working :=
  ⟨hstep.batchSize_eq ▸ h.fits, h.unbroken, h.unended⟩

/-- A working worker takes the next event from the channel. -/
theorem step_receive (h : session.Working) {event : α} {queue : List α}
    (hqueue : session.queue = event :: queue) :
    session.step accepts .receive =
      session.after queue (session.worker.receive accepts event) := by
  simp [step, h.started_eq, h.unbroken, h.unended, receive, hqueue]

/-- A working worker delivers its batch when the flush timer fires. -/
theorem step_timer (h : session.Working) :
    session.step accepts .timer =
      session.after session.queue (session.worker.flushDue accepts) := by
  simp [step, h.started_eq, h.unbroken, h.unended]

/-- A working worker comes to its end when nothing can come. -/
theorem step_receive_nil (h : session.Working) (hqueue : session.queue = [])
    (hclosed : session.closed = true) :
    session.step accepts .receive =
      let last := session.after [] (session.worker.deliver accepts)
      { last with log := last.log ++ [.flushed], ended := true } := by
  simp [step, h.started_eq, h.unbroken, h.unended, receive, hqueue, hclosed]

end Working

/-- Some moves close the channel if one of them is a close, and else leave it as it is. -/
theorem closed_run (moves : List (Move α)) :
    (session.run accepts moves).closed = (session.closed || moves.any Move.isClose) := by
  induction moves generalizing session with
  | nil => simp [run]
  | cons move moves ih =>
    have hrest : ((session.step accepts move).run accepts moves).closed = _ := ih
    rw [closed_step, Bool.or_assoc] at hrest
    rw [List.any_cons]
    exact hrest

/-- Moves after others are made in the session after those. -/
theorem run_append (moves more : List (Move α)) :
    session.run accepts (moves ++ more) = (session.run accepts moves).run accepts more :=
  List.foldl_append ..

end Session

/-! ## Timelines -/

/-- What is seen of the sink while acts happen in time is what can be seen of the acts. -/
theorem play_seen (sink : Sink) (acts : List (Act α)) (time : Nat)
    (seen : List (Nat × Sight α)) :
    (play sink acts time seen).2.map (·.2) = (sights acts).reverse ++ seen.map (·.2) := by
  induction acts generalizing time seen with
  | nil => rfl
  | cons act acts ih =>
    cases act with
    | accepted event =>
      have hrest := ih (time + span sink.delay) ((time + span sink.delay, .sent event) :: seen)
      simpa [play, sights, Act.sight?] using hrest
    | refused event =>
      have hrest := ih (time + span sink.delay) ((time + span sink.delay, .refused event) :: seen)
      simpa [play, sights, Act.sight?] using hrest
    | paused millis => exact ih (time + millis) seen

/-- A timeline follows a session: the worker is the same, and so is what was seen of the sink. -/
structure Timeline.Follows (timeline : Timeline α) (session : Session α) : Prop where
  worker_eq : timeline.worker = session.worker
  queue_eq : timeline.queue = session.queue
  seen_eq : timeline.seen.map (·.2) = session.log.reverse
  unbroken : timeline.broken = false

namespace Timeline.Follows

variable {timeline : Timeline α} {session : Session α} {sink : Sink}

/-- A new timeline follows a new session. -/
theorem new (batchSize : Nat) :
    (Timeline.new (max batchSize 1) : Timeline α).Follows (Session.new batchSize) :=
  ⟨rfl, rfl, rfl, rfl⟩

/-- A step of the worker is followed at whatever time it happens. -/
theorem after (h : timeline.Follows session) (queue : List α) (time : Nat)
    (step : Worker α × Course α) :
    (timeline.after sink queue time step).Follows (session.after queue step) := by
  refine ⟨rfl, rfl, ?_, h.unbroken⟩
  simp [Timeline.after, Session.after, play_seen, h.seen_eq]

/-- An event that finds room in an open channel is followed. -/
theorem enqueue (h : timeline.Follows session) (hworking : session.Working)
    (hopen : session.closed = false) (accepts : Nat → Bool) (event : α) :
    ({ timeline with queue := timeline.queue ++ [event] } : Timeline α).Follows
        (session.step accepts (.enqueue event)) ∧
      (session.step accepts (.enqueue event)).Working := by
  have hstep : session.step accepts (.enqueue event) =
      { session with queue := session.queue ++ [event] } := by
    simp [Session.step, hopen, hworking.unbroken]
  rw [hstep, h.queue_eq]
  exact ⟨⟨h.worker_eq, rfl, h.seen_eq, h.unbroken⟩,
    ⟨hworking.fits, hworking.unbroken, hworking.unended⟩⟩

/-- A flush is followed at whatever time it happens. -/
theorem flush (h : timeline.Follows session) (time : Nat) :
    ({ timeline with seen := (time, .flushed) :: timeline.seen } : Timeline α).Follows
      { session with log := session.log ++ [.flushed], ended := true } :=
  ⟨h.worker_eq, h.queue_eq, by simp [h.seen_eq], h.unbroken⟩

/-- A worker whose batch fits starts as it is. -/
theorem started_eq (h : timeline.Follows session) (hworking : session.Working) :
    timeline.started = timeline := by
  rw [Timeline.started, h.worker_eq, if_pos hworking.fits]

/-- A timeline follows a session on by some moves of the worker. -/
def WorksOn (accepts : Nat → Bool) (session : Session α) (timeline : Timeline α) : Prop :=
  ∃ moves : List (Move α), (∀ move ∈ moves, move.isWork) ∧
    timeline.Follows (session.run accepts moves) ∧ (session.run accepts moves).Working

/-- Without a move, a timeline follows as it did. -/
theorem worksOn (h : timeline.Follows session) (hworking : session.Working)
    (accepts : Nat → Bool) : WorksOn accepts session timeline :=
  ⟨[], by simp, h, hworking⟩

/-- A move of the worker comes before the others. -/
theorem WorksOn.cons {accepts : Nat → Bool} (move : Move α) (hmove : move.isWork)
    (h : WorksOn accepts (session.step accepts move) timeline) :
    WorksOn accepts session timeline := by
  obtain ⟨moves, hwork, hfollows, hworking⟩ := h
  exact ⟨move :: moves, List.forall_mem_cons.mpr ⟨hmove, hwork⟩, hfollows, hworking⟩

/-- Working for a time is a number of moves of the worker. -/
theorem runSteps (h : timeline.Follows session) (hworking : session.Working)
    (interval start stop steps : Nat) :
    WorksOn sink.accepts session
      (Timeline.runSteps sink interval start stop steps timeline) := by
  induction steps generalizing timeline session with
  | zero => exact h.worksOn hworking sink.accepts
  | succ steps ih =>
    unfold Timeline.runSteps
    split
    · next event queue hqueue =>
      dsimp only
      split
      · have hevent : session.queue = event :: queue := h.queue_eq ▸ hqueue
        have hturns := session.worker.receive_turns sink.accepts event
        apply WorksOn.cons .receive rfl
        rw [hworking.step_receive hevent, h.worker_eq]
        exact ih (h.after ..) (hworking.after queue hturns)
      · exact h.worksOn hworking sink.accepts
    · next hqueue =>
      dsimp only
      split
      · have hempty : session.queue = [] := h.queue_eq ▸ hqueue
        have hturns := session.worker.deliver_turns sink.accepts
        apply WorksOn.cons .timer rfl
        rw [hworking.step_timer, hempty, h.worker_eq]
        exact ih (h.after ..) (hworking.after [] hturns)
      · exact h.worksOn hworking sink.accepts

/-- One after the other, stretches of work are one stretch. -/
theorem WorksOn.trans {accepts : Nat → Bool} {later : Timeline α}
    (h : WorksOn accepts session timeline)
    (hmore : ∀ {next : Session α}, timeline.Follows next → next.Working →
      WorksOn accepts next later) : WorksOn accepts session later := by
  obtain ⟨moves, hwork, hfollows, hworking⟩ := h
  obtain ⟨more, hmorework, hlater⟩ := hmore hfollows hworking
  refine ⟨moves ++ more, ?_, ?_⟩
  · intro move hmove
    exact (List.mem_append.mp hmove).elim (hwork move) (hmorework move)
  · rw [Session.run_append]
    exact hlater

/-- Working for a time is a number of moves of the worker. -/
theorem run (h : timeline.Follows session) (hworking : session.Working)
    (interval start stop : Nat) :
    WorksOn sink.accepts session (timeline.run sink interval start stop) := by
  unfold Timeline.run
  split
  · rw [h.started_eq hworking]
    exact h.runSteps hworking ..
  · exact h.worksOn hworking sink.accepts

/-- Receiving at one time is a number of moves of the worker. -/
theorem receiveNow (h : timeline.Follows session) (hworking : session.Working)
    (time events : Nat) :
    WorksOn sink.accepts session (Timeline.receiveNow sink time events timeline) := by
  induction events generalizing timeline session with
  | zero => exact h.worksOn hworking sink.accepts
  | succ events ih =>
    unfold Timeline.receiveNow
    split
    · next event queue hqueue =>
      split
      · have hevent : session.queue = event :: queue := h.queue_eq ▸ hqueue
        have hturns := session.worker.receive_turns sink.accepts event
        apply WorksOn.cons .receive rfl
        rw [hworking.step_receive hevent, h.worker_eq]
        exact ih (h.after ..) (hworking.after queue hturns)
      · exact h.worksOn hworking sink.accepts
    · exact h.worksOn hworking sink.accepts

/-- A turn that is shared with no other worker is a number of moves of the worker. -/
theorem shareTurn (h : timeline.Follows session) (hworking : session.Working) (time : Nat) :
    WorksOn sink.accepts session (timeline.shareTurn sink 0 time) := by
  have hturn : WorksOn sink.accepts session (timeline.receiveNow sink time turnLength) :=
    h.receiveNow hworking time turnLength
  simpa [Timeline.shareTurn, h.started_eq hworking] using hturn

/-- Receiving some events is a number of moves of the worker, and leaves none of them. -/
theorem receiveAll {queue : List α} (h : { timeline with queue }.Follows session)
    (hworking : session.Working) (hempty : timeline.queue = []) (start : Nat) :
    let received := queue.foldl (fun (timeline : Timeline α) event =>
      timeline.after sink [] (max timeline.turned start)
        (timeline.worker.receive sink.accepts event)) timeline
    WorksOn sink.accepts session received ∧ received.queue = [] := by
  induction queue generalizing timeline session with
  | nil =>
    rw [← hempty] at h
    exact ⟨h.worksOn hworking sink.accepts, hempty⟩
  | cons event queue ih =>
    have hworker : timeline.worker = session.worker := h.worker_eq
    have hturns := session.worker.receive_turns sink.accepts event
    rw [List.foldl_cons, hworker]
    intro received
    suffices hrest : WorksOn sink.accepts
        (session.after queue (session.worker.receive sink.accepts event)) received ∧
          received.queue = [] by
      refine ⟨WorksOn.cons .receive rfl ?_, hrest.2⟩
      rw [hworking.step_receive h.queue_eq.symm]
      exact hrest.1
    exact ih (h.after queue _ _) (hworking.after queue hturns) rfl

/-- Closing the channel and working to the end is a close, a number of moves of the worker, and one
more turn to the channel, which is then empty. -/
theorem finish (h : timeline.Follows session) (hworking : session.Working) (start : Nat) :
    ∃ moves : List (Move α), (∀ move ∈ moves, move.isWork) ∧
      (timeline.finish sink start).Follows
        (session.run sink.accepts (.close :: (moves ++ [.receive]))) ∧
      (session.run sink.accepts (.close :: (moves ++ [.receive]))).ended = true := by
  have hclose : ({ ({ timeline with queue := [] } : Timeline α) with
      queue := timeline.queue }).Follows { session with closed := true } :=
    ⟨h.worker_eq, h.queue_eq, h.seen_eq, h.unbroken⟩
  have hclosed : ({ session with closed := true } : Session α).Working :=
    ⟨hworking.fits, hworking.unbroken, hworking.unended⟩
  have hrunning : ¬timeline.broken = true := by simp [h.unbroken]
  unfold Timeline.finish
  rw [h.started_eq hworking]
  dsimp only
  rw [if_neg hrunning]
  have hall : WorksOn sink.accepts _ (timeline.queue.foldl _ { timeline with queue := [] }) ∧ _ :=
    receiveAll hclose hclosed rfl start
  generalize timeline.queue.foldl _ _ = received at hall ⊢
  obtain ⟨⟨moves, hwork, hfollows, hlast⟩, hleft⟩ := hall
  have hempty : (Session.run sink.accepts { session with closed := true } moves).queue = [] :=
    hfollows.queue_eq ▸ hleft
  have hstill : (Session.run sink.accepts { session with closed := true } moves).closed = true :=
    Session.closed_run moves
  have hrun : session.run sink.accepts (.close :: (moves ++ [.receive])) =
      (Session.run sink.accepts { session with closed := true } moves).step sink.accepts
        .receive :=
    Session.run_append moves [.receive]
  refine ⟨moves, hwork, ?_⟩
  rw [hrun, hlast.step_receive_nil hempty hstill, hfollows.worker_eq]
  exact ⟨(hfollows.after [] _ _).flush _, rfl⟩

end Timeline.Follows

end EventSnapshot.Delivery

namespace EventSnapshot

open Delivery

/-! ## Bridges -/

/-- What a program does with a bridge. -/
inductive Bridge.Use where
  /-- It emits something from a thread inside some spans. -/
  | emit (thread : Thread) (spans : List String) (emission : Emission) (timestamp : Int64)
  /-- It lets time pass. -/
  | wait (start stop : Nat)

/-- The bridge after a use. -/
def Bridge.use (bridge : Bridge) : Bridge.Use → Bridge
  | .emit thread spans emission timestamp => bridge.emit thread spans emission timestamp
  | .wait start stop => bridge.wait start stop

/-- The event that a use of the bridge enqueues, if any: that of an emission that is severe enough,
if the channel has room for it. -/
def Bridge.admits (bridge : Bridge) : Bridge.Use → Option Event
  | .emit thread spans emission timestamp =>
    if (Level.ofSeverity emission.severity).atLeast bridge.maxLevel ∧
        bridge.timeline.queue.length < bridge.capacity ∧ !bridge.timeline.broken then
      some (emission.toEvent thread spans timestamp)
    else none
  | .wait .. => none

/-- The events that some uses of the bridge enqueue, the first first. -/
def Bridge.admitted (bridge : Bridge) : List Bridge.Use → List Event
  | [] => []
  | use :: uses => (bridge.admits use).toList ++ (bridge.use use).admitted uses

/-- A bridge whose sink is its own goes on as a session after some moves: the worker follows it, and
what the bridge counts as enqueued was enqueued there. -/
structure Bridge.RunsAs (batchSize : Nat) (moves : List (Move Event)) (bridge : Bridge) : Prop where
  follows : bridge.timeline.Follows ((Session.new batchSize).run bridge.sink.accepts moves)
  working : ((Session.new batchSize).run bridge.sink.accepts moves).Working
  unclosed : ∀ move ∈ moves, move.isClose = false
  enqueued_eq : bridge.enqueued = (Delivery.enqueued moves).length
  alone : bridge.others = 0

namespace Bridge.RunsAs

variable {batchSize : Nat} {moves : List (Move Event)} {bridge : Bridge}

/-- A new bridge runs as a new session. -/
theorem new (config : Config) (sink : Sink) (hfits : config.batchSize ≤ maxBatch) :
    (Bridge.new config sink).RunsAs config.batchSize [] :=
  ⟨.new config.batchSize, ⟨max_one_le_maxBatch hfits, rfl, rfl⟩, by simp, rfl, rfl⟩

/-- An event that is offered is enqueued if there is room for it, and else nothing happens to the
session. -/
theorem offer (h : bridge.RunsAs batchSize moves) (event : Event) :
    ∃ more, Delivery.enqueued more =
        (if bridge.timeline.queue.length < bridge.capacity ∧ !bridge.timeline.broken then [event]
          else []) ∧
      (bridge.offer event).RunsAs batchSize (moves ++ more) := by
  have hopen : ((Session.new batchSize).run bridge.sink.accepts moves).closed = false := by
    rw [Session.closed_run]
    simpa [Session.new] using h.unclosed
  unfold Bridge.offer
  dsimp only
  split
  · obtain ⟨hfollows, hworking⟩ := h.follows.enqueue h.working hopen bridge.sink.accepts event
    refine ⟨[.enqueue event], rfl, ?_, ?_, ?_, ?_, h.alone⟩
    · rw [Session.run_append]
      exact hfollows
    · rw [Session.run_append]
      exact hworking
    · exact List.forall_mem_append.mpr ⟨h.unclosed, by simp [Move.isClose]⟩
    · rw [enqueued_append h.unclosed]
      simp [h.enqueued_eq, Delivery.enqueued]
  · refine ⟨[], rfl, ?_⟩
    rw [List.append_nil]
    exact ⟨h.follows, h.working, h.unclosed, h.enqueued_eq, h.alone⟩

/-- Work that follows the session goes on in it. -/
theorem work (h : bridge.RunsAs batchSize moves) {timeline : Timeline Event}
    (hwork : Timeline.Follows.WorksOn bridge.sink.accepts
      ((Session.new batchSize).run bridge.sink.accepts moves) timeline) :
    ∃ more, Delivery.enqueued more = [] ∧
      ({ bridge with timeline, others := 0 } : Bridge).RunsAs batchSize (moves ++ more) := by
  obtain ⟨more, hmore, hfollows, hworking⟩ := hwork
  rw [← Session.run_append] at hfollows hworking
  refine ⟨more, enqueued_of_work hmore, hfollows, hworking, ?_, ?_, rfl⟩
  · intro move hmove
    exact (List.mem_append.mp hmove).elim (h.unclosed move) fun hmem =>
      Move.isClose_of_work (hmore move hmem)
  · rw [enqueued_append h.unclosed, enqueued_of_work hmore, List.append_nil]
    exact h.enqueued_eq

/-- Whatever a program does with the bridge, it goes on as a session, where the same is enqueued. -/
theorem use (h : bridge.RunsAs batchSize moves) (use : Bridge.Use) :
    ∃ more, Delivery.enqueued more = (bridge.admits use).toList ∧
      (bridge.use use).RunsAs batchSize (moves ++ more) := by
  cases use with
  | emit thread spans emission timestamp =>
    have hcounted : ({ bridge with total := bridge.total + 1 } : Bridge).RunsAs batchSize moves :=
      ⟨h.follows, h.working, h.unclosed, h.enqueued_eq, h.alone⟩
    unfold Bridge.use Bridge.emit Bridge.admits
    dsimp only
    by_cases hsevere : (Level.ofSeverity emission.severity).atLeast bridge.maxLevel = true
    · rw [if_pos hsevere]
      obtain ⟨more, hmore, hruns⟩ := hcounted.offer (emission.toEvent thread spans timestamp)
      refine ⟨more, ?_, hruns⟩
      rw [hmore]
      simp only [hsevere, true_and]
      split
      · rfl
      · rfl
    · rw [if_neg hsevere]
      refine ⟨[], ?_, ?_⟩
      · simp [hsevere, Delivery.enqueued]
      · rw [List.append_nil]
        exact hcounted
  | wait start stop =>
    unfold Bridge.use Bridge.wait
    dsimp only
    split
    · apply h.work
      rw [h.alone]
      exact (h.follows.shareTurn h.working start).trans fun hfollows hworking =>
        hfollows.run hworking ..
    · refine ⟨[], rfl, ?_⟩
      rw [List.append_nil]
      exact h

end Bridge.RunsAs

/-- A bridge that is used in any way runs as a session of its worker, where the same is enqueued. -/
theorem Bridge.exists_runsAs (config : Config) (sink : Sink) (hfits : config.batchSize ≤ maxBatch)
    (uses : List Bridge.Use) :
    ∃ moves, Delivery.enqueued moves = (Bridge.new config sink).admitted uses ∧
      (uses.foldl Bridge.use (.new config sink)).RunsAs config.batchSize moves := by
  suffices hmore : ∀ (bridge : Bridge) (moves : List (Move Event)),
      bridge.RunsAs config.batchSize moves →
        ∃ more, Delivery.enqueued more = bridge.admitted uses ∧
          (uses.foldl Bridge.use bridge).RunsAs config.batchSize (moves ++ more) from
    hmore _ [] (.new config sink hfits)
  induction uses with
  | nil =>
    intro bridge moves h
    refine ⟨[], rfl, ?_⟩
    rw [List.append_nil]
    exact h
  | cons use uses ih =>
    intro bridge moves h
    obtain ⟨first, hfirst, huse⟩ := h.use use
    obtain ⟨more, hmore, huses⟩ := ih _ _ huse
    have hopen : ∀ move ∈ first, move.isClose = false := fun move hmove =>
      huse.unclosed move (List.mem_append_right _ hmove)
    refine ⟨first ++ more, ?_, ?_⟩
    · rw [enqueued_append hopen, hfirst, hmore]
      rfl
    · rw [← List.append_assoc]
      exact huses

/-- A bridge that is closed comes to its end as a session does whose channel is closed. -/
theorem Bridge.RunsAs.close {batchSize : Nat} {moves : List (Move Event)} {bridge : Bridge}
    (h : bridge.RunsAs batchSize moves) (time : Nat) :
    ∃ more : List (Move Event), (∀ move ∈ more, move.isWork) ∧
      let last := (Session.new batchSize).run bridge.sink.accepts
        (moves ++ .close :: (more ++ [.receive]))
      (bridge.close time).timeline.Follows last ∧ last.ended = true := by
  obtain ⟨more, hwork, hfollows, hended⟩ : ∃ more : List (Move Event), _ ∧
      (bridge.timeline.finish bridge.sink time).Follows _ ∧ _ := h.follows.finish h.working time
  refine ⟨more, hwork, ?_⟩
  rw [Session.run_append]
  exact ⟨hfollows, hended⟩

end EventSnapshot
