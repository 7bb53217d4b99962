import EventSnapshot.Event.Access
import EventSnapshot.Proofs.SortedMap

/-!
# First captures

What is captured of an event is settled by the first access that captures it, on the thread that
makes this access and as that thread is at the time. No access looks anything up that is captured
already, be it captured as absent. Each slot of an event after a course of visits is therefore given
by what was captured before and by one visit; only the mapped context can be changed later, by edits
of single keys.
-/

namespace EventSnapshot

/-- A part of an event that is captured when it is first asked for. -/
inductive Slot where
  /-- The rendered message. -/
  | rendered
  /-- The name of the thread. -/
  | thread
  /-- The nested context. -/
  | nested
  /-- The mapped context. -/
  | mapped
  /-- The location. -/
  | location
  deriving DecidableEq

namespace Access

/-- The slots that an access captures if they are not captured yet. -/
def slots : Access → List Slot
  | .message => [.rendered]
  | .threadName => [.thread]
  | .nested => [.nested]
  | .mapped | .properties | .propertyKeys => [.mapped]
  | .setProperty .. | .removeProperty .. => [.mapped]
  | .location => [.location]
  | .prepare | .write .. => [.rendered, .thread, .nested, .mapped]
  | .value .. | .property .. | .setLevel .. => []

/-- The key that an access edits in the mapped context, and what it leaves there. -/
def edit? : Access → Option (String × Option Value)
  | .setProperty key left => some (key, some left)
  | .removeProperty key => some (key, none)
  | _ => none

/-- The level that an access sets. -/
def level? : Access → Option Level
  | .setLevel level => some level
  | _ => none

end Access

/-- An access of a thread, as that is at the time. -/
structure Visit where
  /-- The thread. -/
  thread : Thread
  /-- The access. -/
  access : Access

/-- The thread of the first visit that captures a slot. -/
def firstCapture (slot : Slot) (visits : List Visit) : Option Thread :=
  (visits.find? fun visit => slot ∈ visit.access.slots).map (·.thread)

/-- The edits of the mapped context in a course of visits. -/
def edits (visits : List Visit) : List (String × Option Value) :=
  visits.filterMap (·.access.edit?)

/-- The levels that are set in a course of visits. -/
def levelsSet (visits : List Visit) : List Level := visits.filterMap (·.access.level?)

/-- The mapped context is another one with some edits: the last one of a key counts, and what was
absent counts as empty. -/
structure Edited (edits : List (String × Option Value)) (held left : Option ContextMap) :
    Prop where
  /-- Without edits, nothing changes. -/
  unedited : edits = [] → left = held
  /-- With any edit, the context is there. -/
  present : edits ≠ [] → left.isSome
  /-- Only the keys of edits have other values. -/
  get? : ∀ key, (left.getD .empty).get? key =
    (edits.reverse.lookup key).getD ((held.getD .empty).get? key)

namespace Event

/-- The event after a visit. -/
def visited (event : Event) (visit : Visit) : Event :=
  (event.serve visit.thread visit.access).event

/-- The event after a course of visits. -/
def after (event : Event) (visits : List Visit) : Event := visits.foldl visited event

/-- What a course of visits reports. -/
def reports (event : Event) : List Visit → List Notice
  | [] => []
  | visit :: visits =>
    (event.serve visit.thread visit.access).notices ++ (event.visited visit).reports visits

/-- The events come from one request: they differ only in their levels and in what is captured. -/
structure SameRequest (event other : Event) : Prop where
  wrapper : other.wrapper = event.wrapper
  logger : other.logger = event.logger
  loggerName : other.loggerName = event.loggerName
  timestamp : other.timestamp = event.timestamp
  message : other.message = event.message
  failure : other.failure = event.failure
  source : other.source = event.source

/-- The answer of an access is what the event holds: of the mapped context, what it holds now, and
of each other slot, what it holds at last. A record that is written says the same. -/
def Shows (now last : Event) (answer : Answer) : Access → Prop
  | .message => ∃ text, answer = .text text ∧ last.rendered = some text
  | .threadName => ∃ name, answer = .name name ∧ last.thread = some name
  | .nested => ∃ text, answer = .text text ∧ last.nested = some text
  | .location => ∃ location, answer = .location location ∧ last.location = some location
  | .mapped => ∃ map, answer = .context map ∧ now.mapped = some map
  | .properties => ∃ map, answer = .properties (map.getD .empty) ∧ now.mapped = some map
  | .propertyKeys => ∃ map, answer = .keys (map.getD .empty).keys ∧ now.mapped = some map
  | .write producer room output => ∃ record : Wire.Record String,
      answer = .written (Wire.write room output (record.pieces producer)).1
        (Wire.write room output (record.pieces producer)).2 ∧
      last.rendered = some record.message ∧ last.thread = record.threadName ∧
      last.nested = some record.nested ∧
      ∀ location ∈ record.location, last.location = some location
  | .value .. | .property .. => True
  | .prepare | .setLevel .. | .setProperty .. | .removeProperty .. => True

/-- What a course of visits makes of an event. -/
structure Settles (event : Event) (visits : List Visit) (last : Event) : Prop where
  /-- What the request said stays. -/
  request : event.SameRequest last
  /-- The level is the last one that was set. -/
  level : last.level = (levelsSet visits).getLast?.getD event.level
  /-- The message is rendered by the first visit that needs it. -/
  rendered : last.rendered = event.rendered.or
    ((firstCapture .rendered visits).map fun _ => event.message.map (·.render event.renderer))
  /-- The name of the thread is the one of the first visitor who needs it. -/
  thread : last.thread = event.thread.or ((firstCapture .thread visits).map (·.displayName))
  /-- The nested context is the one that the first visitor who needs it finds. -/
  nested : last.nested = event.nested.or ((firstCapture .nested visits).map event.source.nested)
  /-- The location is found on the stack of the first visitor who needs it. -/
  location : last.location = event.location.or
    ((firstCapture .location visits).map fun thread => .capture thread.stack event.wrapper)
  /-- The mapped context is the one that the first visitor who needs it finds, with the edits. -/
  mapped : Option.Rel (Edited (edits visits))
    (event.mapped.or ((firstCapture .mapped visits).map event.source.mapped)) last.mapped
  /-- Rendering reports what it has to when the message is rendered, and never again. -/
  reports : event.reports visits =
    ((firstCapture .rendered visits).map fun _ => event.renderNotices).getD []
  /-- All answers agree with what the event holds. -/
  shown : ∀ before visit later, visits = before ++ visit :: later →
    let reply := (event.after before).serve visit.thread visit.access
    Shows reply.event last reply.answer visit.access

end Event

/-! ## Edits -/

/-- Without edits, a mapped context is as it was. -/
theorem Edited.refl (held : Option ContextMap) : Edited [] held held := by
  constructor
  · intro _
    rfl
  · intro h
    exact absurd rfl h
  · intro key
    rfl

/-- Without edits, a mapped context that may not be captured is as it was. -/
theorem Edited.rel_refl (mapped : Option (Option ContextMap)) :
    Option.Rel (Edited []) mapped mapped := by
  cases mapped with
  | none => exact .none
  | some held => exact .some (.refl held)

/-- A value that is put in is an edit of its key. -/
theorem Edited.insert (held : Option ContextMap) (key : String) (value : Value) :
    Edited [(key, some value)] held (some ((held.getD .empty).insert key value)) := by
  constructor
  · intro h
    cases h
  · intro _
    rfl
  · intro wanted
    rw [Option.getD_some, SortedMap.get?_insert, List.reverse_singleton, lookup_cons_eq_ite]
    by_cases hwanted : wanted = key
    · simp [hwanted]
    · simp [hwanted]

/-- A value that is taken out is an edit of its key. -/
theorem Edited.erase (held : Option ContextMap) (key : String) :
    Edited [(key, none)] held (some ((held.getD .empty).erase key)) := by
  constructor
  · intro h
    cases h
  · intro _
    rfl
  · intro wanted
    rw [Option.getD_some, SortedMap.get?_erase, List.reverse_singleton, lookup_cons_eq_ite]
    by_cases hwanted : wanted = key
    · simp [hwanted]
    · simp [hwanted]

/-- Edits after edits are edits. -/
theorem Edited.append {first others : List (String × Option Value)}
    {held between left : Option ContextMap} (hfirst : Edited first held between)
    (hothers : Edited others between left) : Edited (first ++ others) held left := by
  constructor
  · intro h
    obtain ⟨hnone, hnoOthers⟩ := List.append_eq_nil_iff.mp h
    rw [hothers.unedited hnoOthers, hfirst.unedited hnone]
  · intro h
    by_cases hnoOthers : others = []
    · have hsome : first ≠ [] := by
        intro hnone
        simp [hnone, hnoOthers] at h
      rw [hothers.unedited hnoOthers]
      exact hfirst.present hsome
    · exact hothers.present hnoOthers
  · intro key
    rw [hothers.get?, hfirst.get?, List.reverse_append, List.lookup_append]
    cases others.reverse.lookup key with
    | none => rfl
    | some value => rfl

namespace Event

/-! ## One visit -/

variable (event : Event) (visit : Visit)

/-- A visit leaves the request as it was. -/
theorem sameRequest_visited : event.SameRequest (event.visited visit) := by
  obtain ⟨thread, access⟩ := visit
  cases access <;> exact ⟨rfl, rfl, rfl, rfl, rfl, rfl, rfl⟩

/-- A visit sets the level it says, if any. -/
theorem level_visited : (event.visited visit).level = visit.access.level?.getD event.level := by
  obtain ⟨thread, access⟩ := visit
  cases access <;> rfl

/-- A visit that needs the rendered message captures it, unless it is captured already. -/
theorem rendered_visited : (event.visited visit).rendered = event.rendered.or
    (if .rendered ∈ visit.access.slots then
      some (event.message.map (·.render event.renderer)) else none) := by
  obtain ⟨thread, access⟩ := visit
  cases access with
  | message | prepare | write => exact Option.or_some.symm
  | _ => exact Option.or_none.symm

/-- A visit that needs the name of the thread captures it, unless it is captured already. -/
theorem thread_visited : (event.visited visit).thread = event.thread.or
    (if .thread ∈ visit.access.slots then some visit.thread.displayName else none) := by
  obtain ⟨thread, access⟩ := visit
  cases access with
  | threadName | prepare | write => exact Option.or_some.symm
  | _ => exact Option.or_none.symm

/-- A visit that needs the nested context captures it, unless it is captured already. -/
theorem nested_visited : (event.visited visit).nested = event.nested.or
    (if .nested ∈ visit.access.slots then some (event.source.nested visit.thread) else none) := by
  obtain ⟨thread, access⟩ := visit
  cases access with
  | nested | prepare | write => exact Option.or_some.symm
  | _ => exact Option.or_none.symm

/-- A visit that needs the location captures it, unless it is captured already. -/
theorem location_visited : (event.visited visit).location = event.location.or
    (if .location ∈ visit.access.slots then some (.capture visit.thread.stack event.wrapper)
      else none) := by
  obtain ⟨thread, access⟩ := visit
  cases access with
  | location => exact Option.or_some.symm
  | _ => exact Option.or_none.symm

/-- A visit that needs the mapped context captures it, unless it is captured already, and then edits
what is captured. -/
theorem mapped_visited : Option.Rel (Edited (edits [visit]))
    (event.mapped.or
      (if .mapped ∈ visit.access.slots then some (event.source.mapped visit.thread) else none))
    (event.visited visit).mapped := by
  obtain ⟨thread, access⟩ := visit
  have hkept : Option.Rel (Edited []) (event.mapped.or none) event.mapped := by
    rw [Option.or_none]
    exact Edited.rel_refl event.mapped
  have hread : event.mapped.or (some (event.source.mapped thread)) =
      some (event.mappedContext thread) := Option.or_some
  cases access with
  | mapped | properties | propertyKeys | prepare | write =>
    exact hread ▸ Option.Rel.some (.refl _)
  | setProperty key value => exact hread ▸ Option.Rel.some (.insert _ key value)
  | removeProperty key => exact hread ▸ Option.Rel.some (.erase _ key)
  | _ => exact hkept

/-- A visit reports what rendering the message does, if it needs the rendered message. -/
theorem notices_serve : (event.serve visit.thread visit.access).notices =
    if .rendered ∈ visit.access.slots then event.renderNotices else [] := by
  obtain ⟨thread, access⟩ := visit
  cases access <;> rfl

/-- Once the rendered message is captured, nothing is left to report. -/
theorem renderNotices_visited : (event.visited visit).renderNotices =
    if .rendered ∈ visit.access.slots then [] else event.renderNotices := by
  obtain ⟨thread, access⟩ := visit
  cases access <;> rfl

/-! ## Courses of visits -/

variable {event visit} {visits : List Visit}

@[simp] theorem after_nil : event.after [] = event := rfl

@[simp] theorem after_cons :
    event.after (visit :: visits) = (event.visited visit).after visits := rfl

/-- What follows a course of visits goes on from where that ended. -/
theorem after_append {later : List Visit} :
    event.after (visits ++ later) = (event.after visits).after later :=
  List.foldl_append

/-- What two events share with a third they share with each other. -/
theorem SameRequest.trans {event between other : Event} (h : event.SameRequest between)
    (hother : between.SameRequest other) : event.SameRequest other := by
  constructor
  · rw [hother.wrapper, h.wrapper]
  · rw [hother.logger, h.logger]
  · rw [hother.loggerName, h.loggerName]
  · rw [hother.timestamp, h.timestamp]
  · rw [hother.message, h.message]
  · rw [hother.failure, h.failure]
  · rw [hother.source, h.source]

/-- A course of visits leaves the request as it was. -/
theorem sameRequest_after : event.SameRequest (event.after visits) := by
  induction visits generalizing event with
  | nil => exact ⟨rfl, rfl, rfl, rfl, rfl, rfl, rfl⟩
  | cons visit visits ih => exact (event.sameRequest_visited visit).trans ih

/-- The first capture in a course of visits is made by the first visit or by the others. -/
theorem map_firstCapture_cons {α : Type} (slot : Slot) (live : Thread → α) :
    (firstCapture slot (visit :: visits)).map live =
      (if slot ∈ visit.access.slots then some (live visit.thread) else none).or
        ((firstCapture slot visits).map live) := by
  rw [firstCapture, firstCapture, List.find?_cons]
  by_cases hslot : slot ∈ visit.access.slots
  · simp [hslot]
  · simp [hslot]

/-- If each visit that needs a slot captures it unless it is captured already, and if no visit
changes what a thread would find for it, then the slot holds what it held before, or else what the
first visitor who needs it finds. -/
theorem held_after {α : Type} {held : Event → Option α} (live : Event → Thread → α) {slot : Slot}
    (hheld : ∀ event visit, held (visited event visit) = (held event).or
      (if slot ∈ visit.access.slots then some (live event visit.thread) else none))
    (hlive : ∀ event visit, live (visited event visit) = live event) :
    held (event.after visits) =
      (held event).or ((firstCapture slot visits).map (live event)) := by
  induction visits generalizing event with
  | nil => simp [firstCapture]
  | cons visit visits ih =>
    rw [after_cons, ih, hheld, hlive, Option.or_assoc, map_firstCapture_cons]

/-- The rendered message is what it was before, or else what is rendered for the first visitor who
needs it. -/
theorem rendered_after : (event.after visits).rendered = event.rendered.or
    ((firstCapture .rendered visits).map fun _ => event.message.map (·.render event.renderer)) := by
  apply held_after (fun event _ => event.message.map (·.render event.renderer)) rendered_visited
  intro event visit
  have h := event.sameRequest_visited visit
  simp only [renderer, h.message, h.logger]

/-- The name of the thread is what it was before, or else that of the first visitor who needs it. -/
theorem thread_after : (event.after visits).thread =
    event.thread.or ((firstCapture .thread visits).map (·.displayName)) :=
  held_after (fun _ => Thread.displayName) thread_visited fun _ _ => rfl

/-- The nested context is what it was before, or else what the first visitor who needs it finds. -/
theorem nested_after : (event.after visits).nested =
    event.nested.or ((firstCapture .nested visits).map event.source.nested) := by
  apply held_after (fun event => event.source.nested) nested_visited
  intro event visit
  rw [(event.sameRequest_visited visit).source]

/-- The location is what it was before, or else what the first visitor who needs it finds. -/
theorem location_after : (event.after visits).location = event.location.or
    ((firstCapture .location visits).map fun thread => .capture thread.stack event.wrapper) := by
  apply held_after (fun event thread => Location.capture thread.stack event.wrapper)
    location_visited
  intro event visit
  rw [(event.sameRequest_visited visit).wrapper]

/-- Only an access that captures the mapped context edits it. -/
theorem edits_eq_nil (h : .mapped ∉ visit.access.slots) : edits [visit] = [] := by
  obtain ⟨thread, access⟩ := visit
  cases access with
  | setProperty key value => exact absurd (List.mem_singleton_self _) h
  | removeProperty key => exact absurd (List.mem_singleton_self _) h
  | _ => rfl

/-- The mapped context is what it was before, or else what the first visitor who needs it finds,
with all edits. -/
theorem mapped_after : Option.Rel (Edited (edits visits))
    (event.mapped.or ((firstCapture .mapped visits).map event.source.mapped))
    (event.after visits).mapped := by
  induction visits generalizing event with
  | nil =>
    have hnone : (firstCapture .mapped []).map event.source.mapped = none := rfl
    rw [hnone, Option.or_none]
    exact Edited.rel_refl event.mapped
  | cons visit visits ih =>
    have hfirst := event.mapped_visited visit
    have hothers : Option.Rel (Edited (edits visits))
        ((event.visited visit).mapped.or
          ((firstCapture .mapped visits).map (event.visited visit).source.mapped))
        ((event.visited visit).after visits).mapped := ih
    have hedits : edits (visit :: visits) = edits [visit] ++ edits visits :=
      List.filterMap_append (l := [visit])
    rw [(event.sameRequest_visited visit).source] at hothers
    rw [after_cons, map_firstCapture_cons, ← Option.or_assoc, hedits]
    generalize hheld : event.mapped.or _ = held at hfirst ⊢
    generalize (event.visited visit).mapped = between at hfirst hothers
    cases hfirst with
    | none =>
      -- Nothing is captured yet, so nothing has been edited.
      have hslot : .mapped ∉ visit.access.slots := by
        intro hslot
        simp [hslot] at hheld
      rw [edits_eq_nil hslot]
      exact hothers
    | some hfirst =>
      rw [Option.some_or] at hothers ⊢
      generalize ((event.visited visit).after visits).mapped = last at hothers ⊢
      cases hothers with
      | some hothers => exact .some (hfirst.append hothers)

/-- The level is the last one that was set. -/
theorem level_after : (event.after visits).level =
    (levelsSet visits).getLast?.getD event.level := by
  induction visits generalizing event with
  | nil => rfl
  | cons visit visits ih =>
    rw [after_cons, ih, level_visited, levelsSet, levelsSet, List.filterMap_cons]
    cases visit.access.level? with
    | none => rfl
    | some level => simp [List.getLast?_cons]

/-- Rendering reports at most once. -/
theorem reports_eq : event.reports visits =
    ((firstCapture .rendered visits).map fun _ => event.renderNotices).getD [] := by
  induction visits generalizing event with
  | nil => rfl
  | cons visit visits ih =>
    rw [reports, ih, notices_serve, renderNotices_visited, map_firstCapture_cons]
    by_cases hslot : .rendered ∈ visit.access.slots
    · cases firstCapture .rendered visits with
      | none => simp [hslot]
      | some thread => simp [hslot]
    · simp [hslot]

/-- An answer shows what the event holds, whatever visits follow. -/
theorem shows_serve (event : Event) (visit : Visit) (later : List Visit) :
    let reply := event.serve visit.thread visit.access
    Shows reply.event (reply.event.after later) reply.answer visit.access := by
  have hrendered {event : Event} {text : Option String} (h : event.rendered = some text) :
      (event.after later).rendered = some text := by
    rw [rendered_after, h, Option.some_or]
  have hthread {event : Event} {name : String} (h : event.thread = some name) :
      (event.after later).thread = some name := by
    rw [thread_after, h, Option.some_or]
  have hnested {event : Event} {text : Option String} (h : event.nested = some text) :
      (event.after later).nested = some text := by
    rw [nested_after, h, Option.some_or]
  have hlocation {event : Event} {location : Location} (h : event.location = some location) :
      (event.after later).location = some location := by
    rw [location_after, h, Option.some_or]
  obtain ⟨thread, access⟩ := visit
  cases access with
  | message => exact ⟨_, rfl, hrendered rfl⟩
  | threadName => exact ⟨_, rfl, hthread rfl⟩
  | nested => exact ⟨_, rfl, hnested rfl⟩
  | location => exact ⟨_, rfl, hlocation rfl⟩
  | mapped => exact ⟨_, rfl, rfl⟩
  | properties => exact ⟨_, rfl, rfl⟩
  | propertyKeys => exact ⟨_, rfl, rfl⟩
  | write producer room output =>
    exact ⟨(event.prepare thread).record thread, rfl, hrendered rfl, hthread rfl, hnested rfl,
      fun location h => hlocation h⟩
  | _ => trivial

/-- Whatever is done with an event, by whatever threads, each slot holds what was captured first,
all answers show this, and nothing else changes but by what is meant to change it. -/
theorem settles_after (event : Event) (visits : List Visit) :
    event.Settles visits (event.after visits) where
  request := sameRequest_after
  level := level_after
  rendered := rendered_after
  thread := thread_after
  nested := nested_after
  location := location_after
  mapped := mapped_after
  reports := reports_eq
  shown := by
    rintro before visit later rfl
    rw [after_append]
    exact (event.after before).shows_serve visit later

end Event

end EventSnapshot
