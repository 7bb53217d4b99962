import EventSnapshot.Proofs.Delivery.Courses

/-!
# Sessions of the delivery worker

A session is the worker beside its channel, with all that became of the events. Events are enqueued,
the worker turns to the channel, its flush timer fires and the channel is closed, in any order. What
one step of the worker does is said once; from that follows what each move keeps, and from that what
holds after any moves. A session whose batch fits into memory loses no event unaccounted for,
repeats none and keeps their order; one whose batch cannot fit breaks down with what is in its
channel.
-/

namespace EventSnapshot.Delivery

variable {α : Type}

/-! ## Steps of the worker -/

/-- A step of the worker splits its batch, with what it receives, into accepted and given-up events
and a batch that is not full. -/
structure Worker.Turns (accepts : Nat → Bool) (worker : Worker α) (received : List α)
    (step : Worker α × Course α) : Prop where
  batchSize_eq : step.1.batchSize = worker.batchSize
  split : (step.2.accepted ++ step.2.lost) ++ step.1.batch = worker.batch ++ received
  happens : Happens accepts worker.calls step.2.acts step.2.accepted step.1.calls
  refusals_eq : step.2.lost ≠ [] → step.2.refusals = maxRefusals
  room : worker.batch.length < worker.batchSize → step.1.batch.length < worker.batchSize

/-- Delivering leaves an empty batch. -/
theorem Worker.deliver_turns (accepts : Nat → Bool) (worker : Worker α) :
    worker.Turns accepts [] (worker.deliver accepts) := by
  have h := deliver_delivers accepts worker.calls worker.batch
  constructor
  · rfl
  · simp [Worker.deliver, h.split]
  · exact h.happens
  · exact h.refusals_eq
  · intro hroom
    simp only [Worker.deliver, List.length_nil]
    omega

/-- Receiving leaves a batch that is not full, whether it is delivered or not. -/
theorem Worker.receive_turns (accepts : Nat → Bool) (worker : Worker α) (event : α) :
    worker.Turns accepts [event] (worker.receive accepts event) := by
  unfold Worker.receive
  dsimp only
  split
  · next hfull =>
    obtain ⟨hsize, hsplit, hhappens, hrefusals, -⟩ :=
      Worker.deliver_turns accepts { worker with batch := worker.batch ++ [event] }
    refine ⟨hsize, by simpa using hsplit, hhappens, hrefusals, ?_⟩
    intro hroom
    simp only [Worker.deliver, List.length_nil]
    omega
  · next hroom =>
    exact ⟨rfl, rfl, .nil _, fun h => absurd rfl h, fun _ => Nat.lt_of_not_le hroom⟩

/-- A batch that fits still does when it is raised to one event. -/
theorem max_one_le_maxBatch {batchSize : Nat} (h : batchSize ≤ maxBatch) :
    max batchSize 1 ≤ maxBatch := by
  have : 1 ≤ maxBatch := by decide
  omega

/-! ## Sessions -/

/-- What can happen around the worker. -/
inductive Move (α : Type) where
  /-- An event finds room in the channel. -/
  | enqueue (event : α)
  /-- The worker turns to the channel. -/
  | receive
  /-- The flush timer fires. -/
  | timer
  /-- The last sender is gone. -/
  | close

/-- Whether the worker turns to the channel. -/
def Move.isReceive : Move α → Bool
  | .receive => true
  | _ => false

/-- Whether the move is one of the worker. -/
def Move.isWork : Move α → Bool
  | .receive => true
  | .timer => true
  | _ => false

/-- Whether the channel is closed. -/
def Move.isClose : Move α → Bool
  | .close => true
  | _ => false

/-- The events that some moves enqueue. Behind a close there are no senders. -/
def enqueued : List (Move α) → List α
  | [] => []
  | .enqueue event :: moves => event :: enqueued moves
  | .receive :: moves => enqueued moves
  | .timer :: moves => enqueued moves
  | .close :: _ => []

/-- What comes after a move is enqueued after it, unless the move is a close. -/
theorem enqueued_cons (move : Move α) (moves : List (Move α)) :
    enqueued (move :: moves) =
      enqueued [move] ++ if move.isClose then [] else enqueued moves := by
  cases move <;> simp [enqueued, Move.isClose]

/-- The worker beside its channel, with all that became of the events. -/
structure Session (α : Type) where
  /-- The worker. -/
  worker : Worker α
  /-- The events in the channel, the oldest first. -/
  queue : List α
  /-- Whether all senders are gone. -/
  closed : Bool
  /-- Whether the worker has come to its end. -/
  ended : Bool
  /-- Whether the worker broke down when it started. -/
  broken : Bool
  /-- The courses of the worker's steps, the first first. -/
  courses : List (Course α)
  /-- What was seen of the sink, the first first. -/
  log : List (Sight α)

namespace Session

/-- A session in which nothing has happened. A batch holds at least one event. -/
def new (batchSize : Nat) : Session α :=
  ⟨.new (max batchSize 1), [], false, false, false, [], []⟩

/-- The session when the worker has started: it breaks down if its batch can never fit. -/
def started (session : Session α) : Session α :=
  if session.worker.batchSize ≤ maxBatch then session
  else { session with queue := [], broken := true }

/-- The session after a step of the worker. -/
def after (session : Session α) (queue : List α) (step : Worker α × Course α) : Session α :=
  { session with
    worker := step.1
    queue
    courses := session.courses ++ [step.2]
    log := session.log ++ sights step.2.acts }

/-- The worker turns to the channel. It takes the next event, or waits, or comes to its end when no
event can come. -/
def receive (accepts : Nat → Bool) (session : Session α) : Session α :=
  match session.queue with
  | event :: queue => session.after queue (session.worker.receive accepts event)
  | [] =>
    if session.closed then
      let last := session.after [] (session.worker.deliver accepts)
      { last with log := last.log ++ [.flushed], ended := true }
    else session

/-- The session after a move. A worker that broke down or came to its end does nothing. -/
def step (accepts : Nat → Bool) (session : Session α) : Move α → Session α
  | .enqueue event =>
    if session.closed || session.broken then session
    else { session with queue := session.queue ++ [event] }
  | .receive =>
    let session := session.started
    if session.ended || session.broken then session else session.receive accepts
  | .timer =>
    let session := session.started
    if session.ended || session.broken then session
    else session.after session.queue (session.worker.flushDue accepts)
  | .close => { session with closed := true }

/-- The session after some moves. -/
def run (accepts : Nat → Bool) (session : Session α) (moves : List (Move α)) : Session α :=
  moves.foldl (step accepts) session

variable {accepts : Nat → Bool} {batchSize : Nat} {events : List α} {session : Session α}

/-- A step of the worker does not close the channel. -/
theorem closed_receive : (session.receive accepts).closed = session.closed := by
  unfold receive
  split
  · rfl
  · split <;> rfl

/-- A worker that starts does not close the channel. -/
theorem closed_started : session.started.closed = session.closed := by
  unfold started
  split <;> rfl

/-- A move closes the channel if it is a close, and else leaves it as it is. -/
theorem closed_step (move : Move α) :
    (session.step accepts move).closed = (session.closed || move.isClose) := by
  cases move with
  | enqueue event =>
    simp only [step, Move.isClose, Bool.or_false]
    split <;> rfl
  | receive =>
    simp only [step, Move.isClose, Bool.or_false]
    split
    · exact closed_started
    · exact closed_receive.trans closed_started
  | timer =>
    simp only [step, Move.isClose, Bool.or_false]
    split
    · exact closed_started
    · exact closed_started
  | close => simp [step, Move.isClose]

/-! ## What every move keeps -/

/-- What holds of a session at any time, if its batch fits into memory and some events were enqueued
so far. -/
structure Sound (accepts : Nat → Bool) (batchSize : Nat) (events : List α)
    (session : Session α) : Prop where
  batchSize_eq : session.worker.batchSize = max batchSize 1
  unbroken : session.broken = false
  conserved : events = session.courses.flatMap (fun course => course.accepted ++ course.lost) ++
    session.worker.batch ++ session.queue
  happens : Happens accepts 0 (session.courses.flatMap (·.acts))
    (session.courses.flatMap (·.accepted)) session.worker.calls
  log_eq : session.log = sights (session.courses.flatMap (·.acts)) ++
    if session.ended then [.flushed] else []
  refusals_eq : ∀ course ∈ session.courses, course.lost ≠ [] → course.refusals = maxRefusals
  room : session.worker.batch.length < session.worker.batchSize
  ended_eq : session.ended = true →
    session.closed = true ∧ session.worker.batch = [] ∧ session.queue = []

/-- Nothing has happened, and nothing is wrong. -/
theorem sound_new : (new batchSize : Session α).Sound accepts batchSize [] := by
  refine ⟨rfl, rfl, rfl, .nil 0, rfl, ?_, ?_, ?_⟩
  · intro course hcourse
    cases hcourse
  · simp only [new, Worker.new, List.length_nil]
    omega
  · intro h
    cases h

namespace Sound

/-- A worker whose batch fits does not break down. -/
theorem started_eq (h : session.Sound accepts batchSize events)
    (hfits : max batchSize 1 ≤ maxBatch) : session.started = session := by
  rw [started, h.batchSize_eq, if_pos hfits]

/-- A step of the worker accounts for what it takes from the channel. -/
theorem after (h : session.Sound accepts batchSize events) (hended : session.ended = false)
    (received queue : List α) (hqueue : received ++ queue = session.queue)
    {step : Worker α × Course α} (hstep : session.worker.Turns accepts received step) :
    (session.after queue step).Sound accepts batchSize events := by
  constructor
  · exact hstep.batchSize_eq.trans h.batchSize_eq
  · exact h.unbroken
  · calc
      events = session.courses.flatMap (fun course => course.accepted ++ course.lost) ++
          (session.worker.batch ++ received) ++ queue := by
        rw [h.conserved, ← hqueue]
        simp only [List.append_assoc]
      _ = session.courses.flatMap (fun course => course.accepted ++ course.lost) ++
          (step.2.accepted ++ step.2.lost ++ step.1.batch) ++ queue := by rw [hstep.split]
      _ = _ := by simp [Session.after]
  · simp only [Session.after, List.flatMap_append, List.flatMap_singleton]
    exact h.happens.append hstep.happens
  · simp [Session.after, h.log_eq, hended, sights]
  · intro course hcourse
    rcases List.mem_append.mp hcourse with hcourse | hcourse
    · exact h.refusals_eq course hcourse
    · rw [List.mem_singleton.mp hcourse]
      exact hstep.refusals_eq
  · have hroom := hstep.room h.room
    rw [← hstep.batchSize_eq] at hroom
    exact hroom
  · intro hend
    rw [Session.after, hended] at hend
    cases hend

/-- An event that finds room is in the channel. -/
theorem enqueue (h : session.Sound accepts batchSize events) (hopen : session.closed = false)
    (event : α) :
    ({ session with queue := session.queue ++ [event] } : Session α).Sound accepts batchSize
      (events ++ [event]) := by
  obtain ⟨hsize, hunbroken, hconserved, hhappens, hlog, hrefusals, hroom, hend⟩ := h
  refine ⟨hsize, hunbroken, ?_, hhappens, hlog, hrefusals, hroom, ?_⟩
  · rw [hconserved, List.append_assoc]
  · intro hended
    rw [(hend hended).1] at hopen
    cases hopen

/-- Closing the channel changes nothing else. -/
theorem close (h : session.Sound accepts batchSize events) :
    ({ session with closed := true } : Session α).Sound accepts batchSize events := by
  obtain ⟨hsize, hunbroken, hconserved, hhappens, hlog, hrefusals, hroom, hend⟩ := h
  exact ⟨hsize, hunbroken, hconserved, hhappens, hlog, hrefusals, hroom, fun hended =>
    ⟨rfl, (hend hended).2⟩⟩

/-- A worker comes to its end with a flush, once nothing is left and nothing can come. -/
theorem finish (h : session.Sound accepts batchSize events) (hended : session.ended = false)
    (hclosed : session.closed = true) (hbatch : session.worker.batch = [])
    (hqueue : session.queue = []) :
    ({ session with log := session.log ++ [.flushed], ended := true } : Session α).Sound accepts
      batchSize events := by
  obtain ⟨hsize, hunbroken, hconserved, hhappens, hlog, hrefusals, hroom, -⟩ := h
  refine ⟨hsize, hunbroken, hconserved, hhappens, ?_, hrefusals, hroom, fun _ =>
    ⟨hclosed, hbatch, hqueue⟩⟩
  simp [hlog, hended]

/-- A worker that turns to the channel accounts for what it finds there. -/
theorem receive (h : session.Sound accepts batchSize events) (hended : session.ended = false) :
    (session.receive accepts).Sound accepts batchSize events := by
  unfold Session.receive
  split
  · next event queue hqueue =>
    exact h.after hended [event] queue hqueue.symm (session.worker.receive_turns ..)
  · next hqueue =>
    split
    · next hclosed =>
      have hlast := h.after hended [] [] hqueue.symm
        (session.worker.deliver_turns accepts)
      exact hlast.finish hended hclosed rfl rfl
    · exact h

/-- A move accounts for the event that it enqueues, if there is one. -/
theorem step (h : session.Sound accepts batchSize events) (hfits : max batchSize 1 ≤ maxBatch)
    (move : Move α) :
    (session.step accepts move).Sound accepts batchSize
      (events ++ if session.closed then [] else enqueued [move]) := by
  cases move with
  | enqueue event =>
    rw [Session.step, h.unbroken]
    cases hclosed : session.closed with
    | true => simpa using h
    | false => simpa [enqueued, h.unbroken, hclosed] using h.enqueue hclosed event
  | receive =>
    simp only [Session.step, h.started_eq hfits, h.unbroken]
    cases hended : session.ended with
    | true => simpa [enqueued] using h
    | false => simpa [enqueued] using h.receive hended
  | timer =>
    simp only [Session.step, h.started_eq hfits, h.unbroken]
    cases hended : session.ended with
    | true => simpa [enqueued] using h
    | false =>
      simpa [enqueued, Worker.flushDue] using h.after hended [] session.queue rfl
        (session.worker.deliver_turns accepts)
  | close => simpa [enqueued, Session.step] using h.close

/-- Some moves account for the events that they enqueue. -/
theorem run (h : session.Sound accepts batchSize events) (hfits : max batchSize 1 ≤ maxBatch)
    (moves : List (Move α)) :
    (session.run accepts moves).Sound accepts batchSize
      (events ++ if session.closed then [] else enqueued moves) := by
  induction moves generalizing session events with
  | nil => simpa [Session.run, enqueued] using h
  | cons move moves ih =>
    have hrest := ih (h.step hfits move)
    rw [closed_step, List.append_assoc] at hrest
    rw [enqueued_cons]
    cases hclosed : session.closed with
    | true => simpa [hclosed, Session.run] using hrest
    | false => simpa [hclosed, Session.run] using hrest

end Sound

/-- A session accounts for the events that its moves enqueue, if its batch fits into memory. -/
theorem sound_run (hfits : batchSize ≤ maxBatch) (moves : List (Move α)) :
    ((new batchSize).run accepts moves).Sound accepts batchSize (enqueued moves) :=
  sound_new.run (max_one_le_maxBatch hfits) moves

/-! ## How a session ends -/

/-- A worker that came to its end stays there. -/
theorem ended_step (hended : session.ended = true) (move : Move α) :
    (session.step accepts move).ended = true := by
  have hstarted : session.started.ended = true := by
    unfold started
    split
    · exact hended
    · exact hended
  cases move with
  | enqueue event =>
    simp only [step]
    split
    · exact hended
    · exact hended
  | receive => simp [step, hstarted]
  | timer => simp [step, hstarted]
  | close => exact hended

/-- A worker that came to its end stays there. -/
theorem ended_run (hended : session.ended = true) (moves : List (Move α)) :
    (session.run accepts moves).ended = true := by
  induction moves generalizing session with
  | nil => exact hended
  | cons move moves ih => exact ih (ended_step hended move)

/-- Behind a close, the worker comes to its end or a turn to the channel makes it shorter. -/
theorem Sound.length_step (h : session.Sound accepts batchSize events)
    (hfits : max batchSize 1 ≤ maxBatch) (hclosed : session.closed = true) (move : Move α) :
    (session.step accepts move).ended = true ∨
      (session.step accepts move).queue.length + (if move.isReceive then 1 else 0) ≤
        session.queue.length := by
  cases move with
  | enqueue event =>
    right
    simp [Session.step, hclosed, Move.isReceive]
  | receive =>
    simp only [Session.step, h.started_eq hfits, h.unbroken, Bool.or_false]
    by_cases hended : session.ended = true
    · left
      rw [if_pos hended, hended]
    · rw [if_neg hended]
      unfold Session.receive
      split
      · next event queue hqueue =>
        right
        simp [Session.after, hqueue, Move.isReceive]
      · left
        rw [if_pos hclosed]
  | timer =>
    right
    simp only [Session.step, h.started_eq hfits, h.unbroken, Bool.or_false, Move.isReceive]
    split
    · exact Nat.le_refl _
    · exact Nat.le_refl _
  | close =>
    right
    simp [Session.step, Move.isReceive]

/-- Behind a close, the worker comes to its end after one turn for each event in the channel and one
more. -/
theorem Sound.length_run (h : session.Sound accepts batchSize events)
    (hfits : max batchSize 1 ≤ maxBatch) (hclosed : session.closed = true)
    (moves : List (Move α)) :
    (session.run accepts moves).ended = true ∨
      (session.run accepts moves).queue.length + moves.countP Move.isReceive ≤
        session.queue.length := by
  induction moves generalizing session events with
  | nil => exact .inr (Nat.le_refl _)
  | cons move moves ih =>
    change ((session.step accepts move).run accepts moves).ended = true ∨
      ((session.step accepts move).run accepts moves).queue.length + _ ≤ _
    rw [List.countP_cons]
    rcases h.length_step hfits hclosed move with hended | hlength
    · exact .inl (ended_run hended moves)
    · have hstill : (session.step accepts move).closed = true := by
        rw [closed_step, hclosed, Bool.true_or]
      rcases ih (h.step hfits move) hstill with hended | hmore
      · exact .inl hended
      · right
        omega

/-! ## What a session accounts for -/

/-- After some moves, a session accounts for all that was enqueued: it was accepted or given up in
some step, or is in the batch or the channel, in this order. The sink was sent just what the steps
say, and it was flushed when the worker came to its end, behind all sends. A worker whose channel
was closed comes to its end. -/
structure Accounts (accepts : Nat → Bool) (batchSize : Nat) (moves : List (Move α))
    (session : Session α) : Prop where
  conserved : enqueued moves =
    session.courses.flatMap (fun course => course.accepted ++ course.lost) ++
      session.worker.batch ++ session.queue
  log_eq : session.log = sights (session.courses.flatMap (·.acts)) ++
    if session.ended then [.flushed] else []
  accepted_eq : session.log.filterMap Sight.sent? = session.courses.flatMap (·.accepted)
  answers_eq : session.log.filterMap Sight.answer? = (List.range session.worker.calls).map accepts
  refusals_eq : ∀ course ∈ session.courses, course.lost ≠ [] → course.refusals = maxRefusals
  room : session.worker.batch.length < max batchSize 1
  ended : session.ended = true → session.worker.batch = [] ∧ session.queue = [] ∧
    ∃ sends, session.log = sends ++ [.flushed] ∧ .flushed ∉ sends
  unended : session.ended = false → .flushed ∉ session.log
  ends : ∀ before later, moves = before ++ .close :: later →
    (enqueued before).length < later.countP Move.isReceive → session.ended = true

/-- The flush at the end of a log is no event, and no answer either. -/
theorem Sound.filterMap_log {β : Type} (h : session.Sound accepts batchSize events)
    {f : Sight α → Option β} (hf : f .flushed = none) :
    session.log.filterMap f = (sights (session.courses.flatMap (·.acts))).filterMap f := by
  rw [h.log_eq]
  cases session.ended <;> simp [hf]

/-- If the batch fits into memory, the session accounts for all that was enqueued, whatever the sink
answers and however the moves are ordered. -/
theorem run_accounts (accepts : Nat → Bool) {batchSize : Nat} (hfits : batchSize ≤ maxBatch)
    (moves : List (Move α)) :
    Accounts accepts batchSize moves ((new batchSize).run accepts moves) := by
  have h : ((new batchSize).run accepts moves).Sound accepts batchSize (enqueued moves) :=
    sound_run hfits moves
  constructor
  · exact h.conserved
  · exact h.log_eq
  · rw [h.filterMap_log rfl, h.happens.sent_eq]
  · rw [h.filterMap_log rfl, h.happens.answers_eq, List.range_eq_range', Nat.sub_zero]
  · exact h.refusals_eq
  · exact h.batchSize_eq ▸ h.room
  · intro hended
    have hlog := h.log_eq
    rw [if_pos hended] at hlog
    exact ⟨(h.ended_eq hended).2.1, (h.ended_eq hended).2.2, _, hlog, flushed_notMem_sights _⟩
  · intro hended
    rw [h.log_eq, hended]
    simpa using flushed_notMem_sights _
  · rintro before later rfl hcount
    have hbefore : ((new batchSize).run accepts before).Sound accepts batchSize
        (enqueued before) := sound_run hfits before
    have hlength := congrArg List.length hbefore.conserved
    simp only [List.length_append] at hlength
    rw [run, List.foldl_append]
    rcases hbefore.close.length_run (max_one_le_maxBatch hfits) rfl later with hended | hleft
    · exact hended
    · dsimp only at hleft
      omega

/-- A sink that refuses at first, a full batch, and a batch that is delivered at the end. -/
theorem run_accounts_refused :
    let accepts := fun calls => decide (2 ≤ calls)
    let moves := [.enqueue "a", .enqueue "b", .receive, .receive, .enqueue "c", .close, .receive,
      .timer, .receive]
    let session := (new 2).run accepts moves
    2 ≤ maxBatch ∧ Accounts accepts 2 moves session ∧ session.ended = true ∧
      session.log.filterMap Sight.sent? = ["a", "b", "c"] := by
  intro accepts moves session
  have hfits : 2 ≤ maxBatch := by decide
  have hended : session.ended = true := by decide +revert
  have hsent : session.log.filterMap Sight.sent? = ["a", "b", "c"] := by decide +revert
  exact ⟨hfits, run_accounts accepts hfits moves, hended, hsent⟩

/-! ## Batches beyond memory -/

/-- What holds of a session at any time, if its batch cannot fit into memory. -/
structure Idle (session : Session α) : Prop where
  tooLarge : maxBatch < session.worker.batchSize
  batch_eq : session.worker.batch = []
  courses_eq : session.courses = []
  log_eq : session.log = []
  unended : session.ended = false
  lost : session.broken = true → session.queue = []

/-- A session that starts with a batch that cannot fit into memory is idle. -/
theorem idle_new (hlarge : maxBatch < batchSize) : (new batchSize : Session α).Idle := by
  refine ⟨?_, rfl, rfl, rfl, rfl, fun _ => rfl⟩
  change maxBatch < max batchSize 1
  omega

namespace Idle

/-- The worker of an idle session breaks down when it starts. -/
theorem started_eq (h : session.Idle) :
    session.started = { session with queue := [], broken := true } := by
  have := h.tooLarge
  rw [started, if_neg (by omega)]

/-- A move leaves an idle session idle: the worker breaks down before it does anything. -/
theorem step (h : session.Idle) (move : Move α) : (session.step accepts move).Idle := by
  have hidle (queue : List α) (broken closed : Bool) (hlost : broken = true → queue = []) :
      ({ session with queue, broken, closed } : Session α).Idle :=
    ⟨h.tooLarge, h.batch_eq, h.courses_eq, h.log_eq, h.unended, hlost⟩
  cases move with
  | enqueue event =>
    simp only [Session.step]
    split
    · exact h
    · next hopen =>
      apply hidle
      intro hbroken
      simp [hbroken] at hopen
  | receive =>
    simp only [Session.step, h.started_eq, Bool.or_true]
    exact hidle [] true session.closed fun _ => rfl
  | timer =>
    simp only [Session.step, h.started_eq, Bool.or_true]
    exact hidle [] true session.closed fun _ => rfl
  | close => exact hidle session.queue session.broken true h.lost

/-- The worker of an idle session is broken from its first turn on. -/
theorem broken_step (h : session.Idle) (move : Move α) :
    (session.step accepts move).broken = (session.broken || move.isWork) := by
  cases move with
  | enqueue event =>
    simp only [Session.step, Move.isWork, Bool.or_false]
    split <;> rfl
  | receive => simp [Session.step, h.started_eq, Move.isWork]
  | timer => simp [Session.step, h.started_eq, Move.isWork]
  | close => exact (Bool.or_false _).symm

/-- Moves leave an idle session idle, and its worker broken if it had a turn among them. -/
theorem run (h : session.Idle) (moves : List (Move α)) :
    (session.run accepts moves).Idle ∧
      (session.run accepts moves).broken = (session.broken || moves.any Move.isWork) := by
  induction moves generalizing session with
  | nil => exact ⟨h, (Bool.or_false _).symm⟩
  | cons move moves ih =>
    obtain ⟨hidle, hbroken⟩ := ih (h.step move)
    rw [h.broken_step, Bool.or_assoc] at hbroken
    exact ⟨hidle, hbroken⟩

end Idle

/-- If the batch cannot fit into memory, no session in which the worker had a turn accounts for the
events that were enqueued: the worker breaks down and all of them are lost. -/
theorem not_accounts_of_large (accepts : Nat → Bool) (hlarge : maxBatch < batchSize)
    {moves : List (Move α)} (hturn : moves.any Move.isWork) (hevents : enqueued moves ≠ []) :
    ¬Accounts accepts batchSize moves ((new batchSize).run accepts moves) := by
  intro h
  obtain ⟨hidle, hbroken⟩ := (idle_new hlarge).run moves
  have hqueue := hidle.lost (by rw [hbroken, hturn, Bool.or_true])
  have hconserved := h.conserved
  rw [hidle.courses_eq, hidle.batch_eq, hqueue] at hconserved
  exact hevents hconserved

/-- A session whose batch cannot fit into memory does not account for what was enqueued. -/
theorem not_accounts_of_huge_batch :
    let moves := [.enqueue "a", .close, .receive, .receive]
    ¬Accounts (fun _ => true) 18446744073709551615 moves
      ((new 18446744073709551615).run (fun _ => true) moves) :=
  not_accounts_of_large (fun _ => true) (by decide) (by decide) (by decide)

end Session

end EventSnapshot.Delivery
