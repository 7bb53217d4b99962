import EventSnapshot.Delivery.Timeline

/-!
# What a delivery does with its events

A delivery splits its events into those that the sink accepted and those that were given up, in the
order in which they came. Each refused event is the next one to be sent, so nothing is accepted
twice or out of order; and nothing is given up before the sink has refused as often as a delivery
takes.
-/

namespace EventSnapshot.Delivery

variable {α : Type}

/-! ## What a sink is seen to do -/

/-- What can be seen of the sink in an act. Of a pause nothing can. -/
def Act.sight? : Act α → Option (Sight α)
  | .accepted event => some (.sent event)
  | .refused event => some (.refused event)
  | .paused _ => none

/-- Whether the act is a refusal. -/
def Act.isRefusal : Act α → Bool
  | .refused _ => true
  | _ => false

/-- The event that the sink accepted. -/
def Sight.sent? : Sight α → Option α
  | .sent event => some event
  | _ => none

/-- The sink's answer to an event that was sent. -/
def Sight.answer? : Sight α → Option Bool
  | .sent _ => some true
  | .refused _ => some false
  | .flushed => none

/-- What can be seen of the sink in some acts. -/
def sights (acts : List (Act α)) : List (Sight α) := acts.filterMap Act.sight?

/-- Acts happen beside a sink that has been called a number of times: the sink's answers are taken
one after the other, and the accepted events are these. -/
inductive Happens (accepts : Nat → Bool) : Nat → List (Act α) → List α → Nat → Prop
  /-- Nothing happens. -/
  | nil (calls : Nat) : Happens accepts calls [] [] calls
  /-- The sink accepts an event. -/
  | accepted {calls after : Nat} {acts : List (Act α)} {sent : List α} (event : α) :
      accepts calls = true → Happens accepts (calls + 1) acts sent after →
      Happens accepts calls (.accepted event :: acts) (event :: sent) after
  /-- The sink refuses an event. -/
  | refused {calls after : Nat} {acts : List (Act α)} {sent : List α} (event : α) :
      accepts calls = false → Happens accepts (calls + 1) acts sent after →
      Happens accepts calls (.refused event :: acts) sent after
  /-- The delivery pauses, and the sink is not called. -/
  | paused {calls after : Nat} {acts : List (Act α)} {sent : List α} (millis : Nat) :
      Happens accepts calls acts sent after →
      Happens accepts calls (.paused millis :: acts) sent after

namespace Happens

variable {accepts : Nat → Bool} {calls middle after : Nat} {acts more : List (Act α)}
  {sent later : List α}

/-- Acts that happen one after the other happen together. -/
theorem append (h : Happens accepts calls acts sent middle)
    (hmore : Happens accepts middle more later after) :
    Happens accepts calls (acts ++ more) (sent ++ later) after := by
  induction h with
  | nil => exact hmore
  | accepted event haccepts _ ih => exact .accepted event haccepts (ih hmore)
  | refused event hrefuses _ ih => exact .refused event hrefuses (ih hmore)
  | paused millis _ ih => exact .paused millis (ih hmore)

/-- The events that the sink is seen to accept are the accepted ones. -/
theorem sent_eq (h : Happens accepts calls acts sent after) :
    (sights acts).filterMap Sight.sent? = sent := by
  induction h with
  | nil => rfl
  | accepted event _ _ ih => exact congrArg (event :: ·) ih
  | refused _ _ _ ih => exact ih
  | paused _ _ ih => exact ih

/-- The sink is not called back in time. -/
theorem le (h : Happens accepts calls acts sent after) : calls ≤ after := by
  induction h with
  | nil => exact Nat.le_refl _
  | accepted _ _ _ ih => omega
  | refused _ _ _ ih => omega
  | paused _ _ ih => exact ih

/-- The answers that the sink is seen to give are those to the calls in between. -/
theorem answers_eq (h : Happens accepts calls acts sent after) :
    (sights acts).filterMap Sight.answer? =
      (List.range' calls (after - calls)).map accepts := by
  induction h with
  | nil => simp [sights]
  | @accepted calls after acts sent event haccepts hrest ih =>
    have hcount : after - calls = after - (calls + 1) + 1 := by
      have := hrest.le
      omega
    rw [hcount, List.range'_succ, List.map_cons, ← ih, haccepts]
    rfl
  | @refused calls after acts sent event hrefuses hrest ih =>
    have hcount : after - calls = after - (calls + 1) + 1 := by
      have := hrest.le
      omega
    rw [hcount, List.range'_succ, List.map_cons, ← ih, hrefuses]
    rfl
  | paused _ _ ih => exact ih

end Happens

/-- A flush is not part of any delivery. -/
theorem flushed_notMem_sights (acts : List (Act α)) : Sight.flushed ∉ sights acts := by
  rw [sights, List.mem_filterMap]
  rintro ⟨act, -, hact⟩
  cases act <;> simp [Act.sight?] at hact

/-! ## Deliveries -/

/-- How often the sink refused in the course of a delivery. -/
def Course.refusals (course : Course α) : Nat := course.acts.countP Act.isRefusal

/-- A course delivers events, beside a sink that has been called a number of times: it splits them
into accepted and given-up ones, and gives up only after as many refusals as it takes at most. -/
structure Course.Delivers (accepts : Nat → Bool) (calls limit : Nat) (events : List α)
    (course : Course α) : Prop where
  split : course.accepted ++ course.lost = events
  happens : Happens accepts calls course.acts course.accepted course.calls
  refusals_le : course.refusals ≤ limit
  refusals_eq : course.lost ≠ [] → course.refusals = limit

/-- Sending up to the first refusal takes one refusal. -/
theorem sendRun_delivers (accepts : Nat → Bool) (calls : Nat) (events : List α) :
    (sendRun accepts calls events).Delivers accepts calls 1 events := by
  induction events generalizing calls with
  | nil => exact ⟨rfl, .nil calls, Nat.zero_le _, fun h => absurd rfl h⟩
  | cons event events ih =>
    rw [sendRun]
    split
    · next haccepts =>
      have hrun := ih (calls + 1)
      constructor
      · exact congrArg (event :: ·) hrun.split
      · exact .accepted event haccepts hrun.happens
      · simpa [Course.refusals, Act.isRefusal] using hrun.refusals_le
      · simpa [Course.refusals, Act.isRefusal] using hrun.refusals_eq
    · next hrefuses =>
      have hrefuses : accepts calls = false := by simpa using hrefuses
      exact ⟨rfl, .refused event hrefuses (.nil _), Nat.le_refl _, fun _ => rfl⟩

/-- A delivery takes one refusal more than it has pauses left. -/
theorem deliverWith_delivers (accepts : Nat → Bool) (longest pauses pause calls : Nat)
    (events : List α) :
    (deliverWith accepts longest pauses pause calls events).Delivers accepts calls (pauses + 1)
      events := by
  induction pauses generalizing pause calls events with
  | zero => exact sendRun_delivers accepts calls events
  | succ pauses ih =>
    have hrun := sendRun_delivers accepts calls events
    rw [deliverWith]
    generalize sendRun accepts calls events = run at hrun
    dsimp only
    split
    · next hdone =>
      have hdone : run.lost = [] := by simpa using hdone
      refine ⟨hrun.split, hrun.happens, ?_, fun hlost => absurd hdone hlost⟩
      have := hrun.refusals_le
      omega
    · next hrefused =>
      have hrefused : run.lost ≠ [] := by simpa using hrefused
      have hmore := ih (min (pause * 2) longest) run.calls run.lost
      generalize deliverWith accepts longest pauses _ run.calls run.lost = more at hmore
      have hone : run.acts.countP Act.isRefusal = 1 := hrun.refusals_eq hrefused
      have hrefusals : (run.acts ++ .paused pause :: more.acts).countP Act.isRefusal =
          more.refusals + 1 := by
        simp [hone, Course.refusals, Act.isRefusal, Nat.add_comm]
      constructor
      · rw [List.append_assoc, hmore.split, hrun.split]
      · exact hrun.happens.append (.paused pause hmore.happens)
      · have := hmore.refusals_le
        rw [Course.refusals, hrefusals]
        omega
      · intro hlost
        rw [Course.refusals, hrefusals, hmore.refusals_eq hlost]

/-- A delivery takes as many refusals as are allowed. -/
theorem deliver_delivers (accepts : Nat → Bool) (calls : Nat) (batch : List α) :
    (deliver accepts calls batch).Delivers accepts calls maxRefusals batch :=
  deliverWith_delivers accepts maxPause (maxRefusals - 1) firstPause calls batch

end EventSnapshot.Delivery
