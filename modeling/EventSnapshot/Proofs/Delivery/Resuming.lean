import EventSnapshot.Proofs.Delivery.Courses
import Mathlib.Algebra.Group.Nat.Defs

/-!
# Deliveries that are refused

A delivery sends its events one after the other. After a refusal it pauses and sends the refused
event again, until the sink has refused as often as a delivery takes. How a delivery goes on is said
once, act by act and whatever went before. From there it follows for each place in its course which
event is sent there or how long it pauses, and what its outcome says.
-/

namespace EventSnapshot.Delivery

variable {α : Type}

/-! ## Acts -/

/-- Whether the sink accepted an event. -/
def Act.isAcceptance : Act α → Bool
  | .accepted _ => true
  | _ => false

/-- The event that was sent, and whether the sink accepted it. -/
def Act.send? : Act α → Option (α × Bool)
  | .accepted event => some (event, true)
  | .refused event => some (event, false)
  | .paused _ => none

/-- The sends among some acts. -/
def sends (acts : List (Act α)) : List (α × Bool) := acts.filterMap Act.send?

section Counts

variable (event : α) (millis : Nat) (acts : List (Act α))

@[simp] theorem sends_accepted : sends (.accepted event :: acts) = (event, true) :: sends acts :=
  rfl

@[simp] theorem sends_refused : sends (.refused event :: acts) = (event, false) :: sends acts :=
  rfl

@[simp] theorem sends_paused : sends (.paused millis :: acts) = sends acts := rfl

@[simp] theorem countP_isAcceptance_accepted :
    (Act.accepted event :: acts).countP Act.isAcceptance = acts.countP Act.isAcceptance + 1 :=
  List.countP_cons_of_pos rfl

@[simp] theorem countP_isAcceptance_refused :
    (Act.refused event :: acts).countP Act.isAcceptance = acts.countP Act.isAcceptance :=
  List.countP_cons_of_neg Bool.false_ne_true

@[simp] theorem countP_isAcceptance_paused :
    (Act.paused millis :: acts).countP Act.isAcceptance = acts.countP Act.isAcceptance :=
  List.countP_cons_of_neg Bool.false_ne_true

@[simp] theorem countP_isRefusal_accepted :
    (Act.accepted event :: acts).countP Act.isRefusal = acts.countP Act.isRefusal :=
  List.countP_cons_of_neg Bool.false_ne_true

@[simp] theorem countP_isRefusal_refused :
    (Act.refused event :: acts).countP Act.isRefusal = acts.countP Act.isRefusal + 1 :=
  List.countP_cons_of_pos rfl

@[simp] theorem countP_isRefusal_paused :
    (Act.paused millis :: acts).countP Act.isRefusal = acts.countP Act.isRefusal :=
  List.countP_cons_of_neg Bool.false_ne_true

end Counts

/-- The pause after a refusal before which there were so many others: it doubles up to a longest
one. -/
def pauseAfter (initial longest : Nat) : Nat → Nat
  | 0 => initial
  | refusals + 1 => min (pauseAfter initial longest refusals * 2) longest

/-- The course of a delivery sends each event until it is accepted, and those before it no more. -/
structure Course.Resumes (accepts : Nat → Bool) (initial longest calls : Nat) (batch : List α)
    (course : Course α) : Prop where
  /-- The event that is sent is the one behind all that were accepted before, and the sink answers
  as it does to that call. -/
  sent : ∀ before act later event answer, course.acts = before ++ act :: later →
    act.send? = some (event, answer) →
      batch[before.countP Act.isAcceptance]? = some event ∧
        accepts (calls + (sends before).length) = answer
  /-- After a refusal there is one pause, and then the refused event is sent again; after the last
  refusal that the delivery takes there is nothing. -/
  resumed : ∀ before event later, course.acts = before ++ .refused event :: later →
    let refusals := before.countP Act.isRefusal
    (refusals + 1 = maxRefusals ∧ later = []) ∨
      (refusals + 1 < maxRefusals ∧ ∃ again more,
        later = .paused (pauseAfter initial longest refusals) :: again :: more ∧
          (again = .accepted event ∨ again = .refused event))
  /-- Each pause is the first one doubled once for each refusal before, up to the longest. -/
  pauseAfter_eq : initial ≤ longest → ∀ refusals,
    pauseAfter initial longest refusals = min (initial * 2 ^ refusals) longest
  /-- There is no other pause. -/
  paused : ∀ before millis later, course.acts = before ++ .paused millis :: later →
    ∃ sent event, before = sent ++ [.refused event]
  /-- The accepted events are those that the sink is seen to accept, and are the first ones. -/
  accepted_eq : course.accepted = (sights course.acts).filterMap Sight.sent?
  split : course.accepted ++ course.lost = batch
  /-- The sink is called for nothing but accepted and refused sends. -/
  calls_eq : course.calls = calls + (sends course.acts).length
  length_sends : (sends course.acts).length = course.accepted.length + course.refusals
  /-- The delivery succeeds if all events were accepted before it had taken too many refusals. -/
  outcome_eq_ok_iff : course.outcome = .ok () ↔
    course.accepted = batch ∧ course.refusals < maxRefusals
  /-- Otherwise it stops with the last refusal that it takes, and says how many events it gave
  up. -/
  outcome_eq_error : ∀ failure, course.outcome = .error failure →
    failure.events + course.accepted.length = batch.length ∧ 1 ≤ failure.events ∧
      course.refusals = maxRefusals ∧ ∃ before event, course.acts = before ++ [.refused event]

/-! ## One act after the other -/

section Deliveries

variable {accepts : Nat → Bool} {longest pauses pause calls : Nat} {event : α} {rest : List α}

/-- Where nothing is left to send, nothing happens. -/
theorem deliverWith_nil :
    deliverWith accepts longest pauses pause calls ([] : List α) = ⟨[], [], [], calls⟩ := by
  cases pauses <;> rfl

/-- A delivery goes on behind an accepted event. -/
theorem deliverWith_of_accepts (h : accepts calls = true) :
    deliverWith accepts longest pauses pause calls (event :: rest) =
      let more := deliverWith accepts longest pauses pause (calls + 1) rest
      ⟨.accepted event :: more.acts, event :: more.accepted, more.lost, more.calls⟩ := by
  cases pauses with
  | zero => simp only [deliverWith, sendRun, if_pos h]
  | succ pauses =>
    simp only [deliverWith, sendRun, if_pos h]
    split <;> rfl

/-- A delivery that has pauses left goes on with the refused event. -/
theorem deliverWith_of_refuses (h : accepts calls = false) :
    deliverWith accepts longest (pauses + 1) pause calls (event :: rest) =
      let more := deliverWith accepts longest pauses (min (pause * 2) longest) (calls + 1)
        (event :: rest)
      ⟨.refused event :: .paused pause :: more.acts, more.accepted, more.lost, more.calls⟩ := by
  simp [deliverWith, sendRun, h]

/-- A delivery that has no pauses left gives up. -/
theorem deliverWith_zero_of_refuses (h : accepts calls = false) :
    deliverWith accepts longest 0 pause calls (event :: rest) =
      ⟨[.refused event], [], event :: rest, calls + 1⟩ := by
  simp [deliverWith, sendRun, h]

end Deliveries

/-- How a delivery goes on when the sink has refused a number of times, and has been called a number
of times. -/
inductive Persists (accepts : Nat → Bool) (initial longest : Nat) :
    Nat → Nat → List α → Course α → Prop
  /-- Nothing is left to send. -/
  | done (refusals calls : Nat) :
    Persists accepts initial longest refusals calls [] ⟨[], [], [], calls⟩
  /-- The next event is accepted. -/
  | accepted {refusals calls : Nat} {event : α} {rest : List α} {more : Course α} :
    accepts calls = true → Persists accepts initial longest refusals (calls + 1) rest more →
      Persists accepts initial longest refusals calls (event :: rest)
        ⟨.accepted event :: more.acts, event :: more.accepted, more.lost, more.calls⟩
  /-- The next event is refused, and is sent again after a pause. -/
  | refused {refusals calls : Nat} {event : α} {rest : List α} {more : Course α} :
    accepts calls = false → refusals + 1 < maxRefusals →
      Persists accepts initial longest (refusals + 1) (calls + 1) (event :: rest) more →
      Persists accepts initial longest refusals calls (event :: rest)
        ⟨.refused event :: .paused (pauseAfter initial longest refusals) :: more.acts,
          more.accepted, more.lost, more.calls⟩
  /-- The next event is refused for the last time, and what is left is given up. -/
  | gaveUp {refusals calls : Nat} {event : α} {rest : List α} :
    accepts calls = false → refusals + 1 = maxRefusals →
      Persists accepts initial longest refusals calls (event :: rest)
        ⟨[.refused event], [], event :: rest, calls + 1⟩

/-- If the first pause is not too long, each one is the first one doubled once for each refusal
before, up to the longest. -/
theorem pauseAfter_eq {initial longest : Nat} (h : initial ≤ longest) (refusals : Nat) :
    pauseAfter initial longest refusals = min (initial * 2 ^ refusals) longest := by
  induction refusals with
  | zero =>
    rw [pauseAfter, Nat.pow_zero, Nat.mul_one]
    exact (Nat.min_eq_left h).symm
  | succ refusals ih =>
    rw [pauseAfter, ih, Nat.pow_succ, ← Nat.mul_assoc]
    omega

/-- A delivery goes on as it should, if its pauses left are as many as the refusals that it still
takes but one. -/
theorem deliverWith_persists (accepts : Nat → Bool) (initial longest : Nat)
    {refusals pauses : Nat} (h : refusals + pauses + 1 = maxRefusals) (calls : Nat)
    (events : List α) :
    Persists accepts initial longest refusals calls events
      (deliverWith accepts longest pauses (pauseAfter initial longest refusals) calls events) := by
  induction pauses generalizing refusals calls events with
  | zero =>
    induction events generalizing calls with
    | nil =>
      rw [deliverWith_nil]
      exact .done refusals calls
    | cons event rest ih =>
      cases haccepts : accepts calls with
      | true =>
        rw [deliverWith_of_accepts haccepts]
        exact .accepted haccepts (ih (calls + 1))
      | false =>
        rw [deliverWith_zero_of_refuses haccepts]
        exact .gaveUp haccepts h
  | succ pauses ihPauses =>
    induction events generalizing calls with
    | nil =>
      rw [deliverWith_nil]
      exact .done refusals calls
    | cons event rest ih =>
      cases haccepts : accepts calls with
      | true =>
        rw [deliverWith_of_accepts haccepts]
        exact .accepted haccepts (ih (calls + 1))
      | false =>
        rw [deliverWith_of_refuses haccepts]
        exact .refused haccepts (by omega) (ihPauses (by omega) (calls + 1) (event :: rest))

namespace Persists

variable {accepts : Nat → Bool} {initial longest refusals calls : Nat} {events : List α}
  {course : Course α}

/-- The next act is to send the next event. -/
theorem exists_first {event : α} {rest : List α}
    (h : Persists accepts initial longest refusals calls (event :: rest) course) :
    ∃ act more, course.acts = act :: more ∧ (act = .accepted event ∨ act = .refused event) := by
  cases h with
  | accepted => exact ⟨_, _, rfl, .inl rfl⟩
  | refused => exact ⟨_, _, rfl, .inr rfl⟩
  | gaveUp => exact ⟨_, _, rfl, .inr rfl⟩

/-- The next event is the one that is sent first. -/
theorem sent_first (h : Persists accepts initial longest refusals calls events course)
    {act : Act α} {later : List (Act α)} (hacts : course.acts = act :: later) {event : α}
    {answer : Bool} (hsend : act.send? = some (event, answer)) :
    events[0]? = some event ∧ accepts calls = answer := by
  cases h with
  | done => cases hacts
  | accepted haccepts =>
    obtain ⟨rfl, -⟩ := List.cons.inj hacts
    obtain ⟨rfl, rfl⟩ := Prod.mk.inj (Option.some.inj hsend)
    exact ⟨rfl, haccepts⟩
  | refused hrefuses | gaveUp hrefuses =>
    obtain ⟨rfl, -⟩ := List.cons.inj hacts
    obtain ⟨rfl, rfl⟩ := Prod.mk.inj (Option.some.inj hsend)
    exact ⟨rfl, hrefuses⟩

/-- If the next event is refused, it is sent again after a pause, or nothing follows. -/
theorem resumed_first (h : Persists accepts initial longest refusals calls events course)
    {event : α} {later : List (Act α)} (hacts : course.acts = .refused event :: later) :
    (refusals + 1 = maxRefusals ∧ later = []) ∨
      (refusals + 1 < maxRefusals ∧ ∃ again more,
        later = .paused (pauseAfter initial longest refusals) :: again :: more ∧
          (again = .accepted event ∨ again = .refused event)) := by
  cases h with
  | done | accepted => cases hacts
  | refused _ hcount hmore =>
    cases hacts
    obtain ⟨again, more, hagain, hsame⟩ := hmore.exists_first
    exact .inr ⟨hcount, again, more, by rw [hagain], hsame⟩
  | gaveUp _ hcount =>
    cases hacts
    exact .inl ⟨hcount, rfl⟩

/-- A delivery does not begin with a pause. -/
theorem ne_paused (h : Persists accepts initial longest refusals calls events course)
    (millis : Nat) (later : List (Act α)) : course.acts ≠ .paused millis :: later := by
  intro hacts
  cases h <;> cases hacts

/-- At each act of its course, a delivery goes on from what is left there, or pauses after a
refusal. -/
theorem at_act (h : Persists accepts initial longest refusals calls events course)
    {before later : List (Act α)} {act : Act α} (hacts : course.acts = before ++ act :: later) :
    (∃ more, Persists accepts initial longest (refusals + before.countP Act.isRefusal)
        (calls + (sends before).length) (events.drop (before.countP Act.isAcceptance)) more ∧
      more.acts = act :: later) ∨
    ∃ earlier event millis, before = earlier ++ [.refused event] ∧ act = .paused millis := by
  induction h generalizing before with
  | done => simp at hacts
  | @accepted refusals calls event rest more haccepts hmore ih =>
    cases before with
    | nil => exact .inl ⟨_, .accepted haccepts hmore, hacts⟩
    | cons first before =>
      obtain ⟨rfl, hrest⟩ := List.cons.inj hacts
      obtain ⟨last, hlast, hacts⟩ | ⟨earlier, refused, millis, rfl, rfl⟩ := ih hrest
      · refine .inl ⟨last, ?_, hacts⟩
        simpa [Nat.add_assoc, Nat.add_comm 1] using hlast
      · exact .inr ⟨_ :: earlier, refused, millis, rfl, rfl⟩
  | @refused refusals calls event rest more hrefuses hcount hmore ih =>
    match before with
    | [] => exact .inl ⟨_, .refused hrefuses hcount hmore, hacts⟩
    | [first] =>
      obtain ⟨rfl, hpause⟩ := List.cons.inj hacts
      obtain ⟨rfl, -⟩ := List.cons.inj hpause
      exact .inr ⟨[], event, _, rfl, rfl⟩
    | first :: second :: before =>
      obtain ⟨rfl, hpause⟩ := List.cons.inj hacts
      obtain ⟨rfl, hrest⟩ := List.cons.inj hpause
      obtain ⟨last, hlast, hacts⟩ | ⟨earlier, refused, millis, rfl, rfl⟩ := ih hrest
      · refine .inl ⟨last, ?_, hacts⟩
        simpa [Nat.add_assoc, Nat.add_comm 1] using hlast
      · exact .inr ⟨_ :: _ :: earlier, refused, millis, rfl, rfl⟩
  | gaveUp hrefuses hcount =>
    cases before with
    | nil => exact .inl ⟨_, .gaveUp hrefuses hcount, hacts⟩
    | cons first before => simp at hacts

/-- What is left behind a given-up delivery was refused last. -/
theorem exists_last (h : Persists accepts initial longest refusals calls events course)
    (hlost : course.lost ≠ []) : ∃ before event, course.acts = before ++ [.refused event] := by
  induction h with
  | done => exact absurd rfl hlost
  | accepted _ _ ih =>
    obtain ⟨before, event, hacts⟩ := ih hlost
    exact ⟨_ :: before, event, by rw [hacts]; rfl⟩
  | refused _ _ _ ih =>
    obtain ⟨before, event, hacts⟩ := ih hlost
    exact ⟨_ :: _ :: before, event, by rw [hacts]; rfl⟩
  | gaveUp => exact ⟨[], _, rfl⟩

/-- A delivery that gets through has not been refused too often. -/
theorem refusals_lt (h : Persists accepts initial longest refusals calls events course)
    (hcount : refusals < maxRefusals) (hlost : course.lost = []) :
    refusals + course.refusals < maxRefusals := by
  induction h with
  | done => exact hcount
  | accepted _ _ ih => simpa [Course.refusals] using ih hcount hlost
  | refused _ hnext _ ih =>
    have hrest := ih hnext hlost
    simp only [Course.refusals, countP_isRefusal_refused, countP_isRefusal_paused] at hrest ⊢
    omega
  | gaveUp => cases hlost

/-- The sink is called for each send. -/
theorem calls_eq (h : Persists accepts initial longest refusals calls events course) :
    course.calls = calls + (sends course.acts).length := by
  induction h with
  | done => rfl
  | accepted _ _ ih =>
    simp only [ih, sends_accepted, List.length_cons]
    omega
  | refused _ _ _ ih =>
    simp only [ih, sends_refused, sends_paused, List.length_cons]
    omega
  | gaveUp => rfl

/-- Each send is accepted or refused. -/
theorem length_sends (h : Persists accepts initial longest refusals calls events course) :
    (sends course.acts).length = course.accepted.length + course.refusals := by
  induction h with
  | done => rfl
  | accepted _ _ ih =>
    simp only [sends_accepted, List.length_cons, ih, Course.refusals, countP_isRefusal_accepted]
    omega
  | refused _ _ _ ih =>
    simp only [sends_refused, sends_paused, List.length_cons, ih, Course.refusals,
      countP_isRefusal_refused, countP_isRefusal_paused]
    omega
  | gaveUp => rfl

end Persists

/-- A delivery that gives nothing up succeeds. -/
theorem Course.outcome_of_lost_eq_nil {course : Course α} (h : course.lost = []) :
    course.outcome = .ok () := by
  simp [outcome, h]

/-- A delivery that gives something up fails, and says how many events it gave up. -/
theorem Course.outcome_of_lost_ne_nil {course : Course α} (h : course.lost ≠ []) :
    course.outcome = .error ⟨course.lost.length⟩ := by
  simp [outcome, h]

/-- A delivery sends each event until it is accepted, pauses after each refusal but the last that it
takes, and says in the end what became of its events. The worker delivers so, and has an empty batch
afterwards. -/
theorem deliverWith_resumes (accepts : Nat → Bool) (initial longest calls : Nat)
    (batch : List α) :
    (deliverWith accepts longest (maxRefusals - 1) initial calls batch).Resumes accepts initial
        longest calls batch ∧
      ∀ worker : Worker α, (worker.deliver accepts).1.batch = [] ∧
        (worker.deliver accepts).2 = deliverWith accepts maxPause (maxRefusals - 1) firstPause
          worker.calls worker.batch := by
  have hpersists : Persists accepts initial longest 0 calls batch
      (deliverWith accepts longest (maxRefusals - 1) initial calls batch) :=
    deliverWith_persists accepts initial longest rfl calls batch
  have hdelivers := deliverWith_delivers accepts longest (maxRefusals - 1) initial calls batch
  generalize deliverWith accepts longest (maxRefusals - 1) initial calls batch = course
    at hpersists hdelivers
  refine ⟨?_, fun worker => ⟨rfl, rfl⟩⟩
  constructor
  · intro before act later event answer hacts hsend
    obtain ⟨more, hmore, hnext⟩ | ⟨_, _, millis, -, rfl⟩ := hpersists.at_act hacts
    · obtain ⟨hevent, hanswer⟩ := hmore.sent_first hnext hsend
      rw [List.getElem?_drop, Nat.add_zero] at hevent
      exact ⟨hevent, hanswer⟩
    · cases hsend
  · intro before event later hacts refusals
    obtain ⟨more, hmore, hnext⟩ | ⟨_, _, _, -, hpause⟩ := hpersists.at_act hacts
    · rw [Nat.zero_add] at hmore
      exact hmore.resumed_first hnext
    · cases hpause
  · exact fun h => pauseAfter_eq h
  · intro before millis later hacts
    obtain ⟨more, hmore, hnext⟩ | ⟨sent, event, _, hbefore, -⟩ := hpersists.at_act hacts
    · exact absurd hnext (hmore.ne_paused millis later)
    · exact ⟨sent, event, hbefore⟩
  · exact hdelivers.happens.sent_eq.symm
  · exact hdelivers.split
  · exact hpersists.calls_eq
  · exact hpersists.length_sends
  · by_cases hlost : course.lost = []
    · have hsplit := hdelivers.split
      rw [hlost, List.append_nil] at hsplit
      have hcount := hpersists.refusals_lt (by decide) hlost
      rw [Nat.zero_add] at hcount
      exact iff_of_true (Course.outcome_of_lost_eq_nil hlost) ⟨hsplit, hcount⟩
    · have hall : course.refusals = maxRefusals := hdelivers.refusals_eq hlost
      rw [Course.outcome_of_lost_ne_nil hlost]
      exact iff_of_false nofun fun hfew => absurd hall (Nat.ne_of_lt hfew.2)
  · intro failure herror
    have hlost : course.lost ≠ [] := by
      intro hlost
      rw [Course.outcome_of_lost_eq_nil hlost] at herror
      cases herror
    rw [Course.outcome_of_lost_ne_nil hlost] at herror
    obtain rfl : _ = failure := Except.error.inj herror
    have hlength := congrArg List.length hdelivers.split
    rw [List.length_append, Nat.add_comm] at hlength
    exact ⟨hlength, List.length_pos_iff.mpr hlost, hdelivers.refusals_eq hlost,
      hpersists.exists_last hlost⟩

/-- A sink refuses its second to fourth call. -/
example :
    let accepts calls : Bool := calls = 0 ∨ 4 ≤ calls
    let course := deliverWith accepts 300 (maxRefusals - 1) 100 0 [1, 2]
    course.acts = [.accepted 1, .refused 2, .paused 100, .refused 2, .paused 200, .refused 2,
        .paused 300, .accepted 2] ∧
      course.outcome = .ok () :=
  ⟨rfl, rfl⟩

/-- A sink accepts its first call only. -/
example :
    let course := deliverWith (fun calls => calls = 0) 300 (maxRefusals - 1) 100 0 [1, 2, 3]
    course.outcome = .error ⟨2⟩ :=
  rfl

end EventSnapshot.Delivery
