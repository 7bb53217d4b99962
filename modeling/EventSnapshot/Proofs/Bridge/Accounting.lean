import EventSnapshot.Proofs.Bridge.Moments

/-!
# The books of a bridge

The counters of a bridge balance, however the moments of the calls and of the worker are ordered:
once all calls have returned, each is counted as passed over, enqueued or dropped, and what is
counted as enqueued is what is in the channel, in the batch, with the sink and given up. An event is
turned away only at a moment when the channel is full or closed.

The moments are fine enough for every use of a running bridge: each emission, each stretch of time
and the close is some moments one after the other.
-/

namespace EventSnapshot

open Delivery

namespace Bridge

/-- The books balance after some moments of a new bridge. -/
structure Balances (config : Config) (sink : Sink) (moments : List Moment) (traffic : Traffic) :
    Prop where
  /-- Every call is counted when it comes. -/
  total_eq : traffic.bridge.total = traffic.calls.length
  /-- A call is passed over, and goes no further, if it is not severe enough. -/
  passedOver_iff : ∀ call ∈ traffic.calls,
    call.2 = .passedOver ↔ call.1.isSevere config.maxLevel = false
  /-- A call that returned for another reason is counted once more, as what came of its offer. -/
  enqueued_eq : traffic.bridge.enqueued = traffic.calls.countP (·.2 = .enqueued)
  dropped_eq : traffic.bridge.dropped = traffic.calls.countP (·.2 = .dropped)
  /-- Once all calls have returned, the counters add up. -/
  returned : (∀ call ∈ traffic.calls, call.2.hasReturned) → traffic.bridge.total =
    traffic.calls.countP (fun call => !call.1.isSevere config.maxLevel) +
      traffic.bridge.enqueued + traffic.bridge.dropped
  /-- Every event that found room is in one place, and no other event is anywhere, if the worker did
  not break down. -/
  held_perm : traffic.bridge.timeline.broken = false → traffic.held.Perm (keptOf traffic.calls)
  /-- Once all calls have returned, as many events are counted as enqueued as there are in the
  channel, in the batch and its delivery, with the sink, and given up. -/
  returned_held : traffic.bridge.timeline.broken = false →
    (∀ call ∈ traffic.calls, call.2.hasReturned) → traffic.bridge.enqueued =
      traffic.bridge.timeline.queue.length +
        (traffic.pending.length + traffic.bridge.timeline.worker.batch.length) +
          traffic.accepted.length + traffic.givenUp.length
  /-- What was seen of the sink is that it accepted these events, and will accept those that it does
  in the delivery that the worker is at. -/
  accepted_eq : (traffic.bridge.seen.map (·.2)).filterMap Sight.sent? =
    traffic.accepted ++ acceptedIn traffic.acts
  /-- An event is turned away only at a moment when it finds the channel full or closed. -/
  lost : ∀ place request stage, traffic.calls[place]? = some (request, stage) → stage.isLost →
    ∃ before later, moments = before ++ .offer place :: later ∧
      let offered := (Traffic.new config sink).run before
      offered.calls[place]? = some (request, .counted) ∧
        (offered.bridge.timeline.queue.length = max config.buffer minCapacity ∨
          offered.bridge.timeline.broken = true)
  /-- The channel is closed to no call as long as the batch can fit. -/
  unbroken : config.batchSize ≤ maxBatch → traffic.bridge.timeline.broken = false

namespace Traffic

variable {config : Config} {sink : Sink} {traffic : Traffic}

/-! ## Events that are turned away -/

/-- A new entry in some place is there, and in every other place is what was there. -/
theorem getElem?_set_cases {α : Type} {list : List α} {place other : Nat} {entry found : α}
    (h : (list.set place entry)[other]? = some found) :
    (place = other ∧ found = entry) ∨ list[other]? = some found := by
  rw [List.getElem?_set] at h
  split at h
  · next hplace =>
    split at h
    · cases h
      exact .inl ⟨hplace, rfl⟩
    · cases h
  · exact .inr h

/-- An event that is lost after a moment was so before, or is offered at this moment and finds the
channel full or closed. -/
theorem lost_step {moment : Moment} {place : Nat} {request : Request} {stage : Stage}
    (h : (traffic.step moment).calls[place]? = some (request, stage)) (hlost : stage.isLost) :
    (∃ earlier, traffic.calls[place]? = some (request, earlier) ∧ earlier.isLost) ∨
      (moment = .offer place ∧ traffic.calls[place]? = some (request, .counted) ∧
        traffic.isShut) := by
  cases hmoment : moment.isWork with
  | true =>
    obtain ⟨timeline, acts, pending, accepted, givenUp, hstep⟩ := traffic.step_of_isWork hmoment
    rw [hstep] at h
    exact .inl ⟨stage, h, hlost⟩
  | false =>
    cases moment with
    | start | receive | deliver | act | flush => cases hmoment
    | arrive new =>
      dsimp only [step, arrive] at h
      rw [List.getElem?_append] at h
      split at h
      · exact .inl ⟨stage, h, hlost⟩
      · -- A call that has just come is not lost yet.
        have hmem := List.mem_singleton.mp (List.mem_of_getElem? h)
        cases hmem
        split at hlost
        · cases hlost
        · cases hlost
    | offer other =>
      dsimp only [step, offer] at h
      split at h
      · next offered hcall =>
        split at h
        · next hshut =>
          obtain ⟨rfl, hentry⟩ | hsame := getElem?_set_cases h
          · cases hentry
            exact .inr ⟨rfl, hcall, hshut⟩
          · exact .inl ⟨stage, hsame, hlost⟩
        · obtain ⟨rfl, hentry⟩ | hsame := getElem?_set_cases h
          · cases hentry
            cases hlost
          · exact .inl ⟨stage, hsame, hlost⟩
      · exact .inl ⟨stage, h, hlost⟩
    | count other =>
      dsimp only [step, count] at h
      split at h
      · obtain ⟨rfl, hentry⟩ | hsame := getElem?_set_cases h
        · cases hentry
          cases hlost
        · exact .inl ⟨stage, hsame, hlost⟩
      · next counted hcall =>
        obtain ⟨rfl, hentry⟩ | hsame := getElem?_set_cases h
        · cases hentry
          exact .inl ⟨.turnedAway, hcall, rfl⟩
        · exact .inl ⟨stage, hsame, hlost⟩
      · exact .inl ⟨stage, h, hlost⟩

/-- An event that is lost after some moments was so before, or was offered at one of them and found
the channel full or closed. -/
theorem lost_run {moments : List Moment} {place : Nat} {request : Request} {stage : Stage}
    (h : (traffic.run moments).calls[place]? = some (request, stage)) (hlost : stage.isLost) :
    (∃ earlier, traffic.calls[place]? = some (request, earlier) ∧ earlier.isLost) ∨
      ∃ before later, moments = before ++ .offer place :: later ∧
        (traffic.run before).calls[place]? = some (request, .counted) ∧
        (traffic.run before).isShut := by
  induction moments generalizing traffic with
  | nil => exact .inl ⟨stage, h, hlost⟩
  | cons moment moments ih =>
    obtain ⟨earlier, hcall, hearlier⟩ | ⟨before, later, rfl, hcall, hshut⟩ := ih h
    · obtain hbefore | ⟨rfl, hoffered, hshut⟩ := lost_step hcall hearlier
      · exact .inl hbefore
      · exact .inr ⟨[], moments, rfl, hoffered, hshut⟩
    · exact .inr ⟨moment :: before, later, rfl, hcall, hshut⟩

/-! ## Calls that have returned -/

/-- Calls that have returned were passed over or are counted as enqueued or dropped. -/
theorem length_of_returned {calls : List (Request × Stage)} {maxLevel : Level}
    (hpassed : ∀ call ∈ calls, call.2 = .passedOver ↔ call.1.isSevere maxLevel = false)
    (hreturned : ∀ call ∈ calls, call.2.hasReturned) :
    calls.length = calls.countP (fun call => !call.1.isSevere maxLevel) +
      calls.countP (·.2 = .enqueued) + calls.countP (·.2 = .dropped) := by
  induction calls with
  | nil => rfl
  | cons call calls ih =>
    rw [List.forall_mem_cons] at hpassed hreturned
    have hrest := ih hpassed.2 hreturned.2
    obtain ⟨request, stage⟩ := call
    obtain ⟨hpassed, -⟩ := hpassed
    obtain ⟨hreturned, -⟩ := hreturned
    simp only [List.length_cons, List.countP_cons]
    cases stage with
    | counted | admitted | turnedAway => cases hreturned
    | passedOver =>
      have hweak : request.isSevere maxLevel = false := hpassed.mp rfl
      simp [hweak, hrest]
      omega
    | enqueued | dropped =>
      have hsevere : request.isSevere maxLevel = true := by simpa using hpassed
      simp [hsevere, hrest]
      omega

/-- Of calls that have returned, those are counted as enqueued whose events found room. -/
theorem length_keptOf_of_returned {calls : List (Request × Stage)}
    (hreturned : ∀ call ∈ calls, call.2.hasReturned) :
    (keptOf calls).length = calls.countP (·.2 = .enqueued) := by
  rw [keptOf, List.length_map, ← List.countP_eq_length_filter]
  apply List.countP_congr
  intro call hcall
  have hcall := hreturned call hcall
  cases hstage : call.2 <;> simp_all [Stage.hasReturned, Stage.isKept]

/-- After any moments of a new bridge, the books balance. -/
theorem balances_run (config : Config) (sink : Sink) (moments : List Moment) :
    Balances config sink moments ((new config sink).run moments) := by
  obtain ⟨hcounted, hworking, hplaced⟩ := (sound_new config sink).run moments
  constructor
  · exact hcounted.total_eq
  · exact hcounted.passedOver_iff
  · exact hcounted.enqueued_eq
  · exact hcounted.dropped_eq
  · intro hreturned
    rw [hcounted.total_eq, hcounted.enqueued_eq, hcounted.dropped_eq]
    exact length_of_returned hcounted.passedOver_iff hreturned
  · exact hplaced.held_perm
  · intro hunbroken hreturned
    have hlength := (hplaced.held_perm hunbroken).length_eq
    rw [length_keptOf_of_returned hreturned, ← hcounted.enqueued_eq] at hlength
    simp only [held, List.length_append] at hlength
    omega
  · exact hworking.seen_eq
  · intro place request stage hcall hlost
    obtain ⟨earlier, hnone, -⟩ | ⟨before, later, hmoments, hoffered, hshut⟩ :=
      lost_run hcall hlost
    · cases hnone
    · refine ⟨before, later, hmoments, hoffered, ?_⟩
      have hthen := ((sound_new config sink).run before).placed
      have hroom := hthen.room
      rw [isShut, Bool.or_eq_true, decide_eq_true_eq] at hshut
      rw [hthen.capacity_eq] at hroom hshut
      exact hshut.imp_left (Nat.le_antisymm hroom)
  · intro hfits
    have hmax := max_one_le_maxBatch hfits
    rw [← hworking.batchSize_eq] at hmax
    cases hbroken : ((new config sink).run moments).bridge.timeline.broken with
    | false => rfl
    | true => exact absurd (hworking.broken hbroken) (Nat.not_lt.mpr hmax)

end Traffic

/-- However the moments of calls and of the worker are ordered, the books of a bridge balance. And
whatever a program does with a bridge, and also if it closes the bridge then, there are moments that
lead to just that bridge, with one call for each emission, all of which have returned, and with no
delivery under way. -/
theorem balances (config : Config) (sink : Sink) :
    (∀ moments, Balances config sink moments ((Traffic.new config sink).run moments)) ∧
    ∀ (uses : List Use) (time : Nat), ∃ moments more,
      let used := (Traffic.new config sink).run moments
      let closed := (Traffic.new config sink).run (moments ++ more)
      used.bridge = uses.foldl Bridge.use (new config sink) ∧ used.acts = [] ∧
        used.calls.map (·.1) = uses.filterMap Use.request? ∧
        (∀ call ∈ used.calls, call.2.hasReturned) ∧
        closed.bridge = used.bridge.close time ∧ closed.acts = [] ∧ closed.calls = used.calls := by
  refine ⟨Traffic.balances_run config sink, fun uses time => ?_⟩
  have huses : (Traffic.new config sink).LeadsTo (uses.foldl Bridge.use (new config sink))
      (uses.filterMap Use.request?) := Traffic.leadsTo_uses rfl rfl uses
  obtain ⟨moments, calls, hbridge, hfree, hcalls, hrequests, hreturned⟩ := huses
  obtain ⟨more, others, hclosed, hclosedFree, hothers, hnone, -⟩ :=
    Traffic.leadsTo_close hfree time
  have hcalls : ((Traffic.new config sink).run moments).calls = calls := hcalls
  rw [List.map_eq_nil_iff.mp hnone, List.append_nil] at hothers
  refine ⟨moments, more, hbridge, hfree, ?_, ?_, ?_, ?_, ?_⟩
  · rw [hcalls, hrequests]
  · rw [hcalls]
    exact hreturned
  · rw [Traffic.run_append, hclosed]
  · rw [Traffic.run_append, hclosedFree]
  · rw [Traffic.run_append, hothers]

end Bridge

end EventSnapshot
