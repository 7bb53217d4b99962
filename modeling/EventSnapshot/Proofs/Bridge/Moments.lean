import EventSnapshot.Proofs.Bridge.Traffic

/-!
# Uses of a bridge as moments

A running bridge does in one step what is many moments of its traffic. Each step of the worker in
time is a moment followed by the acts of its delivery; so is a stretch of time, and the close of the
channel; and an emission is the moments of a call, one after the other. So whatever a program does
with a bridge, there are moments that lead to the same bridge.
-/

namespace EventSnapshot

open Delivery

namespace Delivery.Timeline

variable {α : Type} (timeline : Timeline α)

/-- A worker that has started does not start again. -/
theorem started_started : timeline.started.started = timeline.started := by
  by_cases hfits : timeline.worker.batchSize ≤ maxBatch
  · simp [started, hfits]
  · simp [started, hfits]

variable {timeline}

/-- A worker that has something to receive when it has started does not break down. -/
theorem fits_of_queue_ne_nil (hstarted : timeline.started = timeline)
    (hqueue : timeline.queue ≠ []) : timeline.worker.batchSize ≤ maxBatch := by
  by_cases hfits : timeline.worker.batchSize ≤ maxBatch
  · exact hfits
  · rw [started, if_neg hfits] at hstarted
    exact absurd (congrArg Timeline.queue hstarted).symm hqueue

/-- A worker that has started and receives an event does not start again. -/
theorem started_after_receive (hstarted : timeline.started = timeline) (sink : Sink) (time : Nat)
    {event : α} {queue : List α} (hqueue : timeline.queue = event :: queue) :
    let received := timeline.after sink queue time (timeline.worker.receive sink.accepts event)
    received.started = received := by
  intro received
  have hfits := fits_of_queue_ne_nil hstarted (hqueue ▸ List.cons_ne_nil event queue)
  have hsize : received.worker.batchSize = timeline.worker.batchSize :=
    (timeline.worker.receive_turns sink.accepts event).batchSize_eq
  rw [started, hsize, if_pos hfits]

/-- A worker that has started and delivers its batch does not start again. -/
theorem started_after_deliver (hstarted : timeline.started = timeline) (sink : Sink)
    (time : Nat) :
    let delivered := timeline.after sink timeline.queue time
      (timeline.worker.deliver sink.accepts)
    delivered.started = delivered := by
  intro delivered
  have hsize : delivered.worker.batchSize = timeline.worker.batchSize :=
    (timeline.worker.deliver_turns sink.accepts).batchSize_eq
  rw [started, hsize]
  split
  · rfl
  · next hlarge =>
    rw [started, if_neg hlarge] at hstarted
    have hqueue : [] = timeline.queue := congrArg Timeline.queue hstarted
    have hbroken : true = timeline.broken := congrArg Timeline.broken hstarted
    show ({ delivered with queue := [], broken := true } : Timeline α) =
      { delivered with queue := timeline.queue, broken := timeline.broken }
    rw [← hqueue, ← hbroken]

/-- A worker that has not broken down when it has started has a batch that fits. -/
theorem fits_of_unbroken (hunbroken : ¬timeline.started.broken = true) :
    timeline.worker.batchSize ≤ maxBatch := by
  by_cases hfits : timeline.worker.batchSize ≤ maxBatch
  · exact hfits
  · rw [started, if_neg hfits] at hunbroken
    exact absurd rfl hunbroken

/-- A worker whose batch fits does not start again when it has received some events, and none of
them is left. -/
theorem started_receiveAll (sink : Sink) (start : Nat) (events : List α) (timeline : Timeline α)
    (hfits : timeline.worker.batchSize ≤ maxBatch) (hqueue : timeline.queue = []) :
    let received := events.foldl (fun (timeline : Timeline α) event =>
      timeline.after sink [] (max timeline.turned start)
        (timeline.worker.receive sink.accepts event)) timeline
    received.started = received ∧ received.queue = [] := by
  induction events generalizing timeline with
  | nil => exact ⟨by rw [List.foldl_nil, started, if_pos hfits], hqueue⟩
  | cons event events ih =>
    have hsize := (timeline.worker.receive_turns sink.accepts event).batchSize_eq
    exact ih _ (Nat.le_trans (Nat.le_of_eq hsize) hfits) rfl

/-- A turn that is shared with no other worker is one in which the worker receives. -/
theorem shareTurn_zero (timeline : Timeline α) (sink : Sink) (time : Nat) :
    timeline.shareTurn sink 0 time = timeline.started.receiveNow sink time turnLength := by
  simp [shareTurn]

end Delivery.Timeline

namespace Bridge

/-- What a use of a bridge asks it to take. -/
def Use.request? : Use → Option Request
  | .emit thread spans emission timestamp => some ⟨thread, spans, emission, timestamp⟩
  | .wait .. => none

namespace Traffic

/-- Some moments lead to a bridge, when some more calls were made, all of which have returned, and
when the worker is at no delivery. -/
def LeadsTo (traffic : Traffic) (bridge : Bridge) (requests : List Request) : Prop :=
  ∃ moments calls, (traffic.run moments).bridge = bridge ∧ (traffic.run moments).acts = [] ∧
    (traffic.run moments).calls = traffic.calls ++ calls ∧ calls.map (·.1) = requests ∧
    ∀ call ∈ calls, call.2.hasReturned

variable {traffic : Traffic} {bridge : Bridge} {requests : List Request}

/-- Moments after others start from where those lead. -/
theorem run_append (traffic : Traffic) (moments more : List Moment) :
    traffic.run (moments ++ more) = (traffic.run moments).run more :=
  List.foldl_append ..

/-- If the worker is at no delivery, nothing has to happen. -/
theorem LeadsTo.refl (hfree : traffic.acts = []) : traffic.LeadsTo traffic.bridge [] :=
  ⟨[], [], rfl, hfree, (List.append_nil _).symm, rfl, by simp⟩

/-- One after the other, moments that lead on lead further. -/
theorem LeadsTo.trans (h : traffic.LeadsTo bridge requests) {last : Bridge} {more : List Request}
    (hmore : ∀ later : Traffic, { later with bridge }.acts = [] →
      { later with bridge }.LeadsTo last more) : traffic.LeadsTo last (requests ++ more) := by
  obtain ⟨moments, calls, rfl, hfree, hcalls, hrequests, hreturned⟩ := h
  have hthen : (traffic.run moments).LeadsTo last more := hmore (traffic.run moments) hfree
  obtain ⟨later, others, hlast, hlastFree, hothers, hmoreRequests, hothersReturned⟩ := hthen
  refine ⟨moments ++ later, calls ++ others, ?_, ?_, ?_, ?_, ?_⟩
  · rw [run_append, hlast]
  · rw [run_append, hlastFree]
  · rw [run_append, hothers, hcalls, List.append_assoc]
  · rw [List.map_append, hrequests, hmoreRequests]
  · exact List.forall_mem_append.mpr ⟨hreturned, hothersReturned⟩

/-- A delivery that the worker is at comes to its end, which leaves the bridge as it is. -/
theorem leadsTo_of_acts (traffic : Traffic) : traffic.LeadsTo traffic.bridge [] := by
  generalize hacts : traffic.acts = acts
  induction acts generalizing traffic with
  | nil => exact .refl hacts
  | cons act acts ih =>
    have hnext : traffic.act.acts = acts := by
      unfold Traffic.act
      rw [hacts]
      dsimp only
      split
      · next hlast => exact (List.isEmpty_iff.mp hlast).symm
      · rfl
    obtain ⟨hbridge, hcalls⟩ := traffic.act_frame
    obtain ⟨moments, calls, hlast, hfree, hmore, hrequests⟩ := ih traffic.act hnext
    refine ⟨.act :: moments, calls, ?_, hfree, ?_, hrequests⟩
    · exact hlast.trans hbridge
    · exact hmore.trans (by rw [hcalls])

/-- A moment of the worker leads to the bridge that it makes, when its delivery has come to its
end. -/
theorem leadsTo_step (moment : Moment) (hwork : moment.isWork) :
    traffic.LeadsTo (traffic.step moment).bridge [] := by
  obtain ⟨moments, calls, hbridge, hfree, hcalls, hrequests⟩ :=
    (traffic.step moment).leadsTo_of_acts
  obtain ⟨timeline, acts, pending, accepted, givenUp, hstep⟩ := traffic.step_of_isWork hwork
  refine ⟨moment :: moments, calls, hbridge, hfree, ?_, hrequests⟩
  refine hcalls.trans ?_
  rw [hstep]

/-! ## The worker in time -/

/-- Some moments lead to another timeline of the worker and its channel. -/
def WorksTo (traffic : Traffic) (timeline : Timeline Event) : Prop :=
  traffic.LeadsTo { traffic.bridge with timeline } []

/-- One after the other, stretches of work are one stretch. -/
theorem WorksTo.trans {timeline last : Timeline Event} (h : traffic.WorksTo timeline)
    (hmore : ∀ later : Traffic,
      { later with bridge := { traffic.bridge with timeline } }.acts = [] →
        { later with bridge := { traffic.bridge with timeline } }.WorksTo last) :
    traffic.WorksTo last := by
  have htogether : traffic.LeadsTo { traffic.bridge with timeline := last } ([] ++ []) :=
    LeadsTo.trans h hmore
  exact htogether

/-- The worker starts at a moment. -/
theorem worksTo_started (traffic : Traffic) :
    traffic.WorksTo traffic.bridge.timeline.started :=
  leadsTo_step .start rfl

/-- The traffic does not change when a worker starts that has started. -/
theorem started_eq (hstarted : traffic.bridge.timeline.started = traffic.bridge.timeline) :
    traffic.started = traffic := by
  rw [Traffic.started, hstarted]

/-- A worker that has started and is at no delivery receives the next event at a moment. -/
theorem worksTo_receive (hfree : traffic.acts = [])
    (hstarted : traffic.bridge.timeline.started = traffic.bridge.timeline) {event : Event}
    {queue : List Event} (hqueue : traffic.bridge.timeline.queue = event :: queue) (time : Nat) :
    traffic.WorksTo (traffic.bridge.timeline.after traffic.bridge.sink queue time
      (traffic.bridge.timeline.worker.receive traffic.bridge.sink.accepts event)) := by
  have hstep : traffic.step (.receive time) = traffic.work queue time
      (traffic.bridge.timeline.worker.receive traffic.bridge.sink.accepts event) := by
    simp only [step, started_eq hstarted, receive, hfree, hqueue]
  have hmoment := traffic.leadsTo_step (.receive time) rfl
  rw [hstep] at hmoment
  exact hmoment

/-- A worker that has started and is at no delivery delivers its batch at a moment. -/
theorem worksTo_deliver (hfree : traffic.acts = [])
    (hstarted : traffic.bridge.timeline.started = traffic.bridge.timeline) (time : Nat) :
    traffic.WorksTo (traffic.bridge.timeline.after traffic.bridge.sink
      traffic.bridge.timeline.queue time
        (traffic.bridge.timeline.worker.deliver traffic.bridge.sink.accepts)) := by
  have hstep : traffic.step (.deliver time) = traffic.work traffic.bridge.timeline.queue time
      (traffic.bridge.timeline.worker.deliver traffic.bridge.sink.accepts) := by
    simp only [step, started_eq hstarted, deliver, hfree]
  have hmoment := traffic.leadsTo_step (.deliver time) rfl
  rw [hstep] at hmoment
  exact hmoment

/-- Working for a time is some moments. -/
theorem worksTo_runSteps (hfree : traffic.acts = [])
    (hstarted : traffic.bridge.timeline.started = traffic.bridge.timeline)
    (interval start stop steps : Nat) :
    traffic.WorksTo (Timeline.runSteps traffic.bridge.sink interval start stop steps
      traffic.bridge.timeline) := by
  induction steps generalizing traffic with
  | zero => exact .refl hfree
  | succ steps ih =>
    unfold Timeline.runSteps
    split
    · next event queue hqueue =>
      dsimp only
      split
      · refine (worksTo_receive hfree hstarted hqueue
          (max traffic.bridge.timeline.turned start)).trans fun later hlater => ?_
        exact ih hlater (Timeline.started_after_receive hstarted _ _ hqueue)
      · exact .refl hfree
    · next hqueue =>
      dsimp only
      split
      · have hdeliver := worksTo_deliver hfree hstarted
          (traffic.bridge.timeline.turned + span interval)
        have hagain := Timeline.started_after_deliver hstarted traffic.bridge.sink
          (traffic.bridge.timeline.turned + span interval)
        rw [hqueue] at hdeliver hagain
        exact hdeliver.trans fun later hlater => ih hlater hagain
      · exact .refl hfree

/-- Receiving at one time is some moments, and the worker has started afterwards as before. -/
theorem worksTo_receiveNow (hfree : traffic.acts = [])
    (hstarted : traffic.bridge.timeline.started = traffic.bridge.timeline) (time events : Nat) :
    traffic.WorksTo (Timeline.receiveNow traffic.bridge.sink time events
      traffic.bridge.timeline) := by
  induction events generalizing traffic with
  | zero => exact .refl hfree
  | succ events ih =>
    unfold Timeline.receiveNow
    split
    · next event queue hqueue =>
      split
      · refine (worksTo_receive hfree hstarted hqueue time).trans fun later hlater => ?_
        exact ih hlater (Timeline.started_after_receive hstarted _ _ hqueue)
      · exact .refl hfree
    · exact .refl hfree

/-- Working for a time from a start is some moments. -/
theorem worksTo_run (hfree : traffic.acts = []) (interval start stop : Nat) :
    traffic.WorksTo (traffic.bridge.timeline.run traffic.bridge.sink interval start stop) := by
  unfold Timeline.run
  split
  · refine traffic.worksTo_started.trans fun later hlater => ?_
    exact worksTo_runSteps hlater (Timeline.started_started _) interval start stop
      (traffic.bridge.timeline.queue.length + stop + 1)
  · exact .refl hfree

/-- A turn of the worker is some moments. -/
theorem worksTo_shareTurn (time : Nat) :
    traffic.WorksTo (traffic.bridge.timeline.shareTurn traffic.bridge.sink 0 time) := by
  rw [Timeline.shareTurn_zero]
  refine traffic.worksTo_started.trans fun later hlater => ?_
  exact worksTo_receiveNow hlater (Timeline.started_started _) time turnLength

/-- Receiving all that is in the channel is some moments. -/
theorem worksTo_receiveAll (hfree : traffic.acts = [])
    (hstarted : traffic.bridge.timeline.started = traffic.bridge.timeline) (start : Nat) :
    traffic.WorksTo (traffic.bridge.timeline.queue.foldl (fun timeline event =>
      timeline.after traffic.bridge.sink [] (max timeline.turned start)
        (timeline.worker.receive traffic.bridge.sink.accepts event))
      { traffic.bridge.timeline with queue := [] }) := by
  generalize hqueue : traffic.bridge.timeline.queue = queue
  induction queue generalizing traffic with
  | nil =>
    have hsame : { traffic.bridge.timeline with queue := [] } = traffic.bridge.timeline := by
      rw [← hqueue]
    rw [List.foldl_nil, hsame]
    exact .refl hfree
  | cons event queue ih =>
    rw [List.foldl_cons]
    refine (worksTo_receive hfree hstarted hqueue
      (max traffic.bridge.timeline.turned start)).trans fun later hlater => ?_
    exact ih hlater (Timeline.started_after_receive hstarted _ _ hqueue) rfl

/-- Closing the channel and working to the end is some moments. -/
theorem worksTo_finish (hfree : traffic.acts = []) (start : Nat) :
    traffic.WorksTo (traffic.bridge.timeline.finish traffic.bridge.sink start) := by
  unfold Timeline.finish
  dsimp only
  split
  · exact traffic.worksTo_started
  · next hunbroken =>
    have hfits := Timeline.fits_of_unbroken hunbroken
    have hstarted : traffic.bridge.timeline.started = traffic.bridge.timeline := by
      rw [Timeline.started, if_pos hfits]
    rw [hstarted]
    have hreceive := worksTo_receiveAll hfree hstarted start
    obtain ⟨hagain, hempty⟩ := Timeline.started_receiveAll traffic.bridge.sink start
      traffic.bridge.timeline.queue { traffic.bridge.timeline with queue := [] } hfits rfl
    generalize traffic.bridge.timeline.queue.foldl _ _ = received at hreceive hagain hempty ⊢
    refine hreceive.trans fun later hlater => ?_
    have hdeliver : { later with
        bridge := { traffic.bridge with timeline := received } }.WorksTo
          (received.after traffic.bridge.sink received.queue (max received.turned start)
            (received.worker.deliver traffic.bridge.sink.accepts)) :=
      worksTo_deliver hlater hagain (max received.turned start)
    rw [hempty] at hdeliver
    exact hdeliver.trans fun last _ => leadsTo_step (.flush (received.after traffic.bridge.sink []
      (max received.turned start) (received.worker.deliver traffic.bridge.sink.accepts)).turned) rfl

/-! ## Uses -/

/-- A bridge that is offered an event enqueues it, unless the channel is full or closed. -/
theorem offer_eq (traffic : Traffic) (event : Event) :
    traffic.bridge.offer event =
      if traffic.isShut then { traffic.bridge with dropped := traffic.bridge.dropped + 1 }
      else
        { traffic.bridge with
          timeline := { traffic.bridge.timeline with
            queue := traffic.bridge.timeline.queue ++ [event] }
          enqueued := traffic.bridge.enqueued + 1 } := by
  have hroom : traffic.isShut = false ↔
      traffic.bridge.timeline.queue.length < traffic.bridge.capacity ∧
        !traffic.bridge.timeline.broken := by
    simp [isShut]
  rw [Bridge.offer]
  cases hshut : traffic.isShut with
  | true =>
    have hfull := mt hroom.mpr (by simp [hshut])
    rw [if_neg hfull, if_pos rfl]
  | false => rw [if_pos (hroom.mp hshut), if_neg Bool.false_ne_true]

/-- The last call offers its event and returns, when it was counted what came of that. -/
theorem run_offer_count {earlier : List (Request × Stage)} {request : Request}
    (hcalls : traffic.calls = earlier ++ [(request, .counted)]) :
    ∃ stage, Stage.hasReturned stage ∧
      traffic.run [.offer earlier.length, .count earlier.length] =
        { traffic with
          bridge := traffic.bridge.offer request.event
          calls := earlier ++ [(request, stage)] } := by
  rw [traffic.offer_eq]
  cases hshut : traffic.isShut with
  | true =>
    have hoffer : traffic.offer earlier.length =
        { traffic with calls := earlier ++ [(request, .turnedAway)] } := by
      simp [offer, hcalls, hshut]
    refine ⟨.dropped, rfl, ?_⟩
    simp [run, step, hoffer, count]
  | false =>
    have hoffer : traffic.offer earlier.length =
        { traffic with
          bridge := { traffic.bridge with
            timeline := { traffic.bridge.timeline with
              queue := traffic.bridge.timeline.queue ++ [request.event] } }
          calls := earlier ++ [(request, .admitted)] } := by
      simp [offer, hcalls, hshut]
    refine ⟨.enqueued, rfl, ?_⟩
    simp [run, step, hoffer, count]

/-- An emission is the moments of a call. -/
theorem leadsTo_emit (hfree : traffic.acts = []) (request : Request) :
    traffic.LeadsTo (traffic.bridge.emit request.thread request.spans request.emission
      request.timestamp) [request] := by
  have hcalls : (traffic.arrive request).calls = traffic.calls ++ [(request,
      if request.isSevere traffic.bridge.maxLevel then .counted else .passedOver)] := rfl
  let place := traffic.calls.length
  unfold Bridge.emit
  dsimp only
  split
  · next hsevere =>
    have hsevere : request.isSevere traffic.bridge.maxLevel = true := hsevere
    rw [if_pos hsevere] at hcalls
    obtain ⟨stage, hreturned, hrun⟩ := run_offer_count hcalls
    refine ⟨[.arrive request, .offer place, .count place], [(request, stage)], ?_, ?_, ?_, rfl,
      List.forall_mem_singleton.mpr hreturned⟩
    · exact congrArg Traffic.bridge hrun
    · exact (congrArg Traffic.acts hrun).trans hfree
    · exact congrArg Traffic.calls hrun
  · next hweak =>
    have hweak : ¬request.isSevere traffic.bridge.maxLevel = true := hweak
    rw [if_neg hweak] at hcalls
    exact ⟨[.arrive request], [(request, .passedOver)], rfl, hfree, hcalls, rfl,
      List.forall_mem_singleton.mpr rfl⟩

/-- A use of a bridge that shares its sink with no other worker is some moments. -/
theorem leadsTo_use (hfree : traffic.acts = []) (halone : traffic.bridge.others = 0)
    (use : Use) : traffic.LeadsTo (traffic.bridge.use use) use.request?.toList := by
  cases use with
  | emit thread spans emission timestamp =>
    exact leadsTo_emit hfree ⟨thread, spans, emission, timestamp⟩
  | wait start stop =>
    unfold Bridge.use Bridge.wait
    dsimp only
    split
    · have hwork : traffic.WorksTo
          ((traffic.bridge.timeline.shareTurn traffic.bridge.sink traffic.bridge.others start).run
            traffic.bridge.sink traffic.bridge.interval start stop) := by
        rw [halone]
        exact (traffic.worksTo_shareTurn start).trans fun later hlater =>
          worksTo_run hlater traffic.bridge.interval start stop
      rw [WorksTo] at hwork
      rw [← halone]
      exact hwork
    · exact .refl hfree

/-- A bridge that shares its sink with no other worker goes on so, however it is used. -/
theorem others_use {bridge : Bridge} (halone : bridge.others = 0) (use : Use) :
    (bridge.use use).others = 0 := by
  cases use with
  | emit thread spans emission timestamp =>
    unfold Bridge.use emit Bridge.offer
    dsimp only
    split
    · split
      · exact halone
      · exact halone
    · exact halone
  | wait start stop =>
    unfold Bridge.use wait
    dsimp only
    split
    · rfl
    · exact halone

/-- Whatever a program does with a bridge is some moments. -/
theorem leadsTo_uses (hfree : traffic.acts = []) (halone : traffic.bridge.others = 0)
    (uses : List Use) :
    traffic.LeadsTo (uses.foldl Bridge.use traffic.bridge) (uses.filterMap Use.request?) := by
  induction uses generalizing traffic with
  | nil => exact .refl hfree
  | cons use uses ih =>
    have hrequests : (use :: uses).filterMap Use.request? =
        use.request?.toList ++ uses.filterMap Use.request? := by
      cases hrequest : use.request? <;> simp [hrequest]
    rw [hrequests]
    exact (leadsTo_use hfree halone use).trans fun later hlater =>
      ih hlater (others_use halone use)

/-- Closing a bridge is some moments. -/
theorem leadsTo_close (hfree : traffic.acts = []) (time : Nat) :
    traffic.LeadsTo (traffic.bridge.close time) [] :=
  worksTo_finish hfree time

end Traffic

end Bridge

end EventSnapshot
