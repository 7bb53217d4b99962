import EventSnapshot.Proofs.Bridge.Emission
import EventSnapshot.Proofs.Delivery.Handing

/-!
# What a bridge hands over

The sink of a bridge is handed nothing but events of emissions that found room in the channel, and
each of them shows its own emission and the thread that emitted. As long as the sink does not refuse
too often, it accepts all of them, in the order of the emissions.
-/

namespace EventSnapshot

open Delivery

namespace Bridge

/-- The event shows what was emitted in a use of the bridge, which is severe enough. It does so
whatever was read of it before, by whatever threads. -/
def Use.DepictedBy (maxLevel : Level) (event : Event) : Use → Prop
  | .emit thread spans emission _ =>
    (Level.ofSeverity emission.severity).atLeast maxLevel ∧
      ∀ visits : List Visit, (∀ visit ∈ visits, visit.access.isRead) →
        (event.after visits).Depicts thread spans emission
  | .wait .. => False

/-- What is seen of the sink of a bridge that was used and then closed. -/
structure HandsOver (config : Config) (sink : Sink) (uses : List Use) (used : Bridge)
    (sights : List (Sight Event)) : Prop where
  /-- As many events were enqueued as the bridge counts. -/
  enqueued_eq : used.enqueued = ((new config sink).admitted uses).length
  /-- They show emissions, in order. -/
  depicted : ∃ emits, emits.Sublist uses ∧
    List.Forall₂ (Use.DepictedBy config.maxLevel) ((new config sink).admitted uses) emits
  /-- Nothing else is handed to the sink. -/
  handed_subset : handed sights ⊆ (new config sink).admitted uses
  /-- They are all accepted, in order, if the batch fits into memory and the sink refuses less often
  than one delivery takes. -/
  sent_eq : config.batchSize ≤ maxBatch → refusalsSeen sights < maxRefusals →
    sights.filterMap Sight.sent? = (new config sink).admitted uses

variable {bridge : Bridge}

/-! ## Single uses -/

/-- What a use of the bridge enqueues is the event of an emission that is severe enough. -/
theorem eq_emit_of_admits {use : Use} {event : Event} (h : bridge.admits use = some event) :
    ∃ thread spans emission timestamp, use = .emit thread spans emission timestamp ∧
      (Level.ofSeverity emission.severity).atLeast bridge.maxLevel ∧
      event = emission.toEvent thread spans timestamp := by
  cases use with
  | wait => cases h
  | emit thread spans emission timestamp =>
    rw [admits] at h
    split at h
    · next hadmits =>
      cases h
      exact ⟨thread, spans, emission, timestamp, rfl, hadmits.1, rfl⟩
    · cases h

/-- A use of the bridge enqueues an event, or changes no more than counts, or lets the workers
work. -/
theorem use_cases (bridge : Bridge) (use : Use) :
    (∃ event, bridge.admits use = some event ∧ bridge.use use =
      { bridge with
        timeline := { bridge.timeline with queue := bridge.timeline.queue ++ [event] }
        total := bridge.total + 1
        enqueued := bridge.enqueued + 1 }) ∨
    (bridge.admits use = none ∧ ∃ total dropped, bridge.use use = { bridge with total, dropped }) ∨
    (bridge.admits use = none ∧ ∃ start stop, bridge.use use =
      { bridge with
        timeline := (bridge.timeline.shareTurn bridge.sink bridge.others start).run bridge.sink
          bridge.interval start stop
        others := 0 }) := by
  cases use with
  | wait start stop =>
    unfold Bridge.use wait
    by_cases htime : start < stop
    · exact .inr (.inr ⟨rfl, start, stop, if_pos htime⟩)
    · exact .inr (.inl ⟨rfl, bridge.total, bridge.dropped, if_neg htime⟩)
  | emit thread spans emission timestamp =>
    unfold Bridge.use emit offer admits
    dsimp only
    by_cases hsevere : (Level.ofSeverity emission.severity).atLeast bridge.maxLevel = true
    · by_cases hroom : bridge.timeline.queue.length < bridge.capacity ∧ !bridge.timeline.broken
      · rw [if_pos hsevere, if_pos hroom, if_pos ⟨hsevere, hroom⟩]
        exact .inl ⟨_, rfl, rfl⟩
      · rw [if_pos hsevere, if_neg hroom, if_neg fun h => hroom h.2]
        exact .inr (.inl ⟨rfl, _, _, rfl⟩)
    · rw [if_neg hsevere, if_neg fun h => hsevere h.1]
      exact .inr (.inl ⟨rfl, _, _, rfl⟩)

/-- No use of the bridge changes which emissions are severe enough. -/
theorem maxLevel_use (bridge : Bridge) (use : Use) :
    (bridge.use use).maxLevel = bridge.maxLevel := by
  obtain ⟨event, -, huse⟩ | ⟨-, total, dropped, huse⟩ | ⟨-, start, stop, huse⟩ :=
    bridge.use_cases use <;> rw [huse]

/-- The bridge counts what a use enqueues. -/
theorem enqueued_use (bridge : Bridge) (use : Use) :
    (bridge.use use).enqueued = bridge.enqueued + (bridge.admits use).toList.length := by
  obtain ⟨event, hadmits, huse⟩ | ⟨hadmits, total, dropped, huse⟩ |
      ⟨hadmits, start, stop, huse⟩ := bridge.use_cases use
  · rw [huse, hadmits]
    rfl
  · rw [huse, hadmits]
    rfl
  · rw [huse, hadmits]
    rfl

/-- A use of the bridge brings no event but the one that it enqueues. -/
theorem only_use {P : Event → Prop} (h : bridge.timeline.Only P) {use : Use}
    (hadmits : ∀ event ∈ (bridge.admits use).toList, P event) :
    (bridge.use use).timeline.Only P := by
  obtain ⟨event, hevent, huse⟩ | ⟨-, total, dropped, huse⟩ | ⟨-, start, stop, huse⟩ :=
    bridge.use_cases use
  · rw [hevent, Option.toList_some, List.forall_mem_singleton] at hadmits
    rw [huse]
    refine ⟨?_, h.batch, h.seen⟩
    exact List.forall_mem_append.mpr ⟨h.queue, List.forall_mem_singleton.mpr hadmits⟩
  · rw [huse]
    exact h
  · rw [huse]
    exact (h.shareTurn bridge.others start).run ..

/-! ## Courses of uses -/

/-- The bridge counts what is enqueued. -/
theorem enqueued_foldl (bridge : Bridge) (uses : List Use) :
    (uses.foldl Bridge.use bridge).enqueued =
      bridge.enqueued + (bridge.admitted uses).length := by
  induction uses generalizing bridge with
  | nil => rfl
  | cons use uses ih =>
    rw [List.foldl_cons, ih, enqueued_use, admitted, List.length_append, Nat.add_assoc]

/-- However the bridge is used, it brings no events but those that are enqueued. -/
theorem only_foldl {P : Event → Prop} (h : bridge.timeline.Only P) {uses : List Use}
    (hadmitted : ∀ event ∈ bridge.admitted uses, P event) :
    (uses.foldl Bridge.use bridge).timeline.Only P := by
  induction uses generalizing bridge with
  | nil => exact h
  | cons use uses ih =>
    rw [admitted, List.forall_mem_append] at hadmitted
    exact ih (only_use h hadmitted.1) hadmitted.2

/-- The events that are enqueued show emissions that are severe enough, in order. -/
theorem exists_depicted (bridge : Bridge) {uses : List Use}
    (htexts : ∀ thread spans emission timestamp,
      .emit thread spans emission timestamp ∈ uses → MessagesAreTexts emission.fields) :
    ∃ emits, emits.Sublist uses ∧
      List.Forall₂ (Use.DepictedBy bridge.maxLevel) (bridge.admitted uses) emits := by
  induction uses generalizing bridge with
  | nil => exact ⟨[], .slnil, .nil⟩
  | cons use uses ih =>
    obtain ⟨emits, hsublist, hshown⟩ := ih (bridge.use use)
      fun thread spans emission timestamp hmem =>
        htexts thread spans emission timestamp (List.mem_cons_of_mem _ hmem)
    rw [maxLevel_use] at hshown
    rw [admitted]
    cases hadmits : bridge.admits use with
    | none =>
      rw [Option.toList_none, List.nil_append]
      exact ⟨emits, hsublist.cons use, hshown⟩
    | some event =>
      rw [Option.toList_some, List.singleton_append]
      obtain ⟨thread, spans, emission, timestamp, rfl, hsevere, rfl⟩ := eq_emit_of_admits hadmits
      have hdepicts := emission.depicts_toEvent thread spans timestamp
        (htexts thread spans emission timestamp (List.mem_cons_self ..))
      refine ⟨_, hsublist.cons_cons _, .cons ⟨hsevere, ?_⟩ hshown⟩
      intro visits hreads
      rw [emission.after_toEvent thread spans timestamp hreads]
      exact hdepicts

/-- A bridge that was used in any way and then closed has handed over what it enqueued. -/
theorem sent_of_close {config : Config} {sink : Sink} {uses : List Use}
    (hfits : config.batchSize ≤ maxBatch) (time : Nat)
    (hfew : refusalsSeen
      (((uses.foldl Bridge.use (new config sink)).close time).seen.map (·.2)) < maxRefusals) :
    (((uses.foldl Bridge.use (new config sink)).close time).seen.map (·.2)).filterMap
      Sight.sent? = (new config sink).admitted uses := by
  obtain ⟨moves, hmoves, hruns⟩ := exists_runsAs config sink hfits uses
  obtain ⟨more, -, hfollows, hended⟩ := hruns.close time
  generalize uses.foldl Bridge.use (new config sink) = used at hfew hfollows hended hruns ⊢
  have henqueued : Delivery.enqueued (moves ++ .close :: (more ++ [.receive])) =
      (new config sink).admitted uses := by
    have hclosed : Delivery.enqueued (.close :: (more ++ [.receive])) = [] := rfl
    rw [enqueued_append hruns.unclosed, hclosed, hmoves, List.append_nil]
  generalize moves ++ .close :: (more ++ [.receive]) = all at hfollows hended henqueued
  have hlog : (used.close time).seen.map (·.2) =
      ((Session.new config.batchSize).run used.sink.accepts all).log := by
    rw [seen, List.map_reverse, hfollows.seen_eq, List.reverse_reverse]
  rw [hlog] at hfew ⊢
  rw [← henqueued]
  exact (Session.sound_run hfits all).sent_eq hended hfew

/-- However a bridge is used, its sink is handed only events that show an emission as it was made,
and the emitting thread as it was then, to whatever thread reads them and whatever has become of any
thread by then. A sink that does not refuse too often accepts one for each emission that found room,
in order. -/
theorem handsOver (config : Config) (sink : Sink) (uses : List Use) (time : Nat)
    (htexts : ∀ thread spans emission timestamp,
      .emit thread spans emission timestamp ∈ uses → MessagesAreTexts emission.fields) :
    let used := uses.foldl Bridge.use (new config sink)
    HandsOver config sink uses used ((used.close time).seen.map (·.2)) := by
  intro used
  constructor
  · rw [enqueued_foldl]
    exact Nat.zero_add _
  · exact (new config sink).exists_depicted htexts
  · have honly : used.timeline.Only (· ∈ (new config sink).admitted uses) :=
      only_foldl (.new _) fun event hevent => hevent
    intro event hevent
    apply (honly.finish time).seen event
    rw [seen, List.map_reverse, handed, List.filterMap_reverse, List.mem_reverse] at hevent
    exact hevent
  · intro hfits hfew
    exact sent_of_close hfits time hfew

/-- A warning that is emitted inside a span, with a message and a field, by a thread that has nested
and mapped context and drops both before the event is read. -/
theorem handsOver_checkout :
    let thread := ((Thread.new (some "main")).push "job-7").put "tenant" (.ofString "acme")
    let emission : Emission :=
      { severity := .warn, target := "checkout", modulePath := none, file := none, line := none
        fields := [("order", .int 42), ("message", .shown "payment declined")] }
    let uses := [.emit thread ["checkout"] emission 1, .wait 0 5]
    let sink : Sink := ⟨fun _ => true, 0⟩
    let sights := ((uses.foldl Bridge.use (new .default sink)).close 5).seen.map (·.2)
    (∀ thread spans emission timestamp, .emit thread spans emission timestamp ∈ uses →
        MessagesAreTexts emission.fields) ∧
      ∃ event, sights.filterMap Sight.sent? = [event] ∧
        event.renderedMessage = some "payment declined" ∧
        event.nestedContext thread.clearNested = some "job-7 checkout" ∧
        event.threadName (.new none 2) = "main" ∧
        (event.properties thread.clearMapped).keys = ["order", "tenant"] := by
  intro thread emission uses sink sights
  have htexts : ∀ thread spans emission timestamp, .emit thread spans emission timestamp ∈ uses →
      MessagesAreTexts emission.fields := by
    have hfields : MessagesAreTexts emission.fields := by
      simp [emission, MessagesAreTexts, messageField, FieldValue.text?]
    intro _ _ _ _ hmem
    simp only [uses, List.mem_cons, Use.emit.injEq, reduceCtorEq, List.not_mem_nil,
      or_false] at hmem
    obtain ⟨-, -, rfl, -⟩ := hmem
    exact hfields
  have h := handsOver .default sink uses 5 htexts
  have hsent : sights.filterMap Sight.sent? = [emission.toEvent thread ["checkout"] 1] :=
    h.sent_eq (by decide) (by decide)
  exact ⟨htexts, _, hsent, rfl, rfl, rfl, rfl⟩

end Bridge

end EventSnapshot
