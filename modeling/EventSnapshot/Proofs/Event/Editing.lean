import EventSnapshot.Proofs.Event.Independence

/-!
# Editing the copy

An event is edited while its program goes on: the contexts of threads change, other events are
accessed, and events are cloned. All edits of an event act on one copy of the mapped context, which
was taken from its context by the first access that needed it. They show in that event only.
-/

namespace EventSnapshot

/-! ## Scenes -/

/-- The threads of a program, each as it is at the time, and its events. -/
structure Scene where
  threads : Nat → Thread
  events : List Event

/-- Something that happens in a program. -/
inductive Act where
  /-- A thread changes: its contexts, its stack, or whatever else of it. -/
  | change (thread : Nat) (now : Thread)
  /-- A thread accesses an event. -/
  | visit (thread event : Nat) (access : Access)
  /-- An event is cloned. -/
  | clone (event : Nat)
  /-- An event gets another context, or its context comes to give something else. A context of the
  program's own gives at every time what some snapshot gives. -/
  | turn (event : Nat) (source : ContextSource)

namespace Act

/-- The edit of an event's copy that is made, if any. -/
def edit? (place : Nat) : Act → Option (String × Option Value)
  | .visit _ event access => if event = place then access.edit? else none
  | _ => none

/-- The thread that needs the mapped context of an event, if any does. -/
def capturer? (place : Nat) : Act → Option Nat
  | .visit thread event access =>
    if event = place ∧ .mapped ∈ access.slots then some thread else none
  | _ => none

end Act

namespace Scene

/-- The scene after an act. -/
def step (scene : Scene) : Act → Scene
  | .change thread now =>
    { scene with threads := fun other => if other = thread then now else scene.threads other }
  | .visit thread place access =>
    { scene with
      events := scene.events.modify place (·.visited ⟨scene.threads thread, access⟩) }
  | .clone place => { scene with events := scene.events ++ scene.events[place]?.toList }
  | .turn place source =>
    { scene with events := scene.events.modify place fun event => { event with source } }

/-- The scene after some acts. -/
def run (scene : Scene) (acts : List Act) : Scene := acts.foldl step scene

/-- What a thread is answered by an event. -/
def answer? (scene : Scene) (thread place : Nat) (access : Access) : Option Answer :=
  scene.events[place]?.map fun event => (event.serve (scene.threads thread) access).answer

/-- The mapped context that the context of an event gives to a thread. -/
def given (scene : Scene) (thread place : Nat) : Option ContextMap :=
  scene.events[place]?.bind fun event => event.source.mapped (scene.threads thread)

/-- The mapped context that the context of an event gives to the first thread that needs it in the
course of some acts, or else to the one that reads it then. -/
def base (scene : Scene) (place reader : Nat) : List Act → Option ContextMap
  | [] => scene.given reader place
  | act :: acts =>
    match act.capturer? place with
    | some thread => scene.given thread place
    | none => (scene.step act).base place reader acts

end Scene

/-! ## Edits of a map -/

/-- A map with a key set to a value, or without it. -/
def applyEdit (map : ContextMap) (edit : String × Option Value) : ContextMap :=
  match edit.2 with
  | some value => map.insert edit.1 value
  | none => map.erase edit.1

/-- A map with some edits, one after the other. -/
def applyEdits (map : ContextMap) (edits : List (String × Option Value)) : ContextMap :=
  edits.foldl applyEdit map

/-- A mapped context with some edits: without any it is as it was, and otherwise it is there. -/
def withEdits (held : Option ContextMap) (edits : List (String × Option Value)) :
    Option ContextMap :=
  if edits = [] then held else some (applyEdits (held.getD .empty) edits)

/-- What is absent counts as empty. -/
theorem getD_withEdits (held : Option ContextMap) (edits : List (String × Option Value)) :
    (withEdits held edits).getD .empty = applyEdits (held.getD .empty) edits := by
  cases edits <;> rfl

/-- Edits after edits are edits. -/
theorem withEdits_append (held : Option ContextMap) (first others : List (String × Option Value)) :
    withEdits held (first ++ others) = withEdits (withEdits held first) others := by
  cases others with
  | nil => rw [List.append_nil]; rfl
  | cons other others =>
    have hsome : first ++ other :: others ≠ [] := by simp
    rw [withEdits, if_neg hsome, withEdits, if_neg (List.cons_ne_nil other others),
      getD_withEdits, applyEdits, List.foldl_append]
    rfl

namespace Event

variable {event : Event} {visit : Visit}

/-- A visit that needs the mapped context leaves a copy with its edit. -/
theorem mapped_visited_of_mem (h : .mapped ∈ visit.access.slots) :
    (event.visited visit).mapped =
      some (withEdits (event.mappedContext visit.thread) visit.access.edit?.toList) := by
  obtain ⟨thread, access⟩ := visit
  cases access with
  | mapped | properties | propertyKeys | prepare | write | setProperty | removeProperty => rfl
  | _ => simp [Access.slots] at h

/-- A visit that does not need the mapped context leaves it as it is. -/
theorem mapped_visited_of_notMem (h : .mapped ∉ visit.access.slots) :
    (event.visited visit).mapped = event.mapped := by
  obtain ⟨thread, access⟩ := visit
  cases access with
  | mapped | properties | propertyKeys | prepare | write | setProperty | removeProperty =>
    simp [Access.slots] at h
  | _ => rfl

end Event

namespace Scene

variable {scene : Scene} {place : Nat} {event : Event}

/-! ## One act -/

/-- The edit that a visit makes is none if it does not need the mapped context. -/
theorem edit?_eq_none {act : Act} (h : act.capturer? place = none) : act.edit? place = none := by
  cases act with
  | visit thread other access =>
    by_cases hplace : other = place
    · cases access with
      | setProperty | removeProperty => simp [Act.capturer?, hplace, Access.slots] at h
      | _ => simp [Act.edit?, Access.edit?]
    · simp [Act.edit?, hplace]
  | change | clone | turn => rfl

/-- An event that nobody needs the mapped context of keeps what is captured of it. -/
theorem getElem?_step_of_none (hevent : scene.events[place]? = some event) {act : Act}
    (h : act.capturer? place = none) :
    ∃ next, (scene.step act).events[place]? = some next ∧ next.mapped = event.mapped := by
  have hplace : place < scene.events.length := (List.getElem?_eq_some_iff.mp hevent).1
  cases act with
  | change => exact ⟨event, hevent, rfl⟩
  | clone other =>
    refine ⟨event, ?_, rfl⟩
    rw [step, List.getElem?_append_left hplace, hevent]
  | turn other source =>
    by_cases hother : other = place
    · exact ⟨{ event with source }, by simp [step, hother, hevent], rfl⟩
    · exact ⟨event, by simp [step, hother, hevent], rfl⟩
  | visit thread other access =>
    by_cases hother : other = place
    · refine ⟨event.visited ⟨scene.threads thread, access⟩, by simp [step, hother, hevent], ?_⟩
      apply Event.mapped_visited_of_notMem
      intro hslot
      simp [Act.capturer?, hother, hslot] at h
    · exact ⟨event, by simp [step, hother, hevent], rfl⟩

/-- A thread that needs the mapped context of an event leaves a copy with its edit. -/
theorem getElem?_step_of_some (hevent : scene.events[place]? = some event) {act : Act}
    {thread : Nat} (h : act.capturer? place = some thread) :
    ∃ next, (scene.step act).events[place]? = some next ∧
      next.mapped = some (withEdits (event.mappedContext (scene.threads thread))
        (act.edit? place).toList) := by
  cases act with
  | change | clone | turn => cases h
  | visit visitor other access =>
    rw [Act.capturer?, Option.ite_none_right_eq_some] at h
    obtain ⟨⟨rfl, hslot⟩, hthread⟩ := h
    obtain rfl : visitor = thread := Option.some.inj hthread
    refine ⟨event.visited ⟨scene.threads visitor, access⟩, by simp [step, hevent], ?_⟩
    rw [Event.mapped_visited_of_mem hslot, Act.edit?, if_pos rfl]

/-! ## Runs -/

/-- The edits that are made of the copy of an event. -/
def edits (place : Nat) (acts : List Act) : List (String × Option Value) :=
  acts.filterMap (·.edit? place)

/-- The edits of a run are that of its first act, if it is one, and those of the others. -/
theorem edits_cons (place : Nat) (act : Act) (acts : List Act) :
    edits place (act :: acts) = (act.edit? place).toList ++ edits place acts := by
  rw [edits, edits, List.filterMap_cons]
  cases act.edit? place <;> rfl

/-- Once there is a copy, a run makes all edits on it. -/
theorem getElem?_run_of_captured (hevent : scene.events[place]? = some event)
    {held : Option ContextMap} (hheld : event.mapped = some held) (acts : List Act) :
    ∃ last, (scene.run acts).events[place]? = some last ∧
      last.mapped = some (withEdits held (edits place acts)) := by
  induction acts generalizing scene event held with
  | nil => exact ⟨event, hevent, hheld⟩
  | cons act acts ih =>
    cases hcapturer : act.capturer? place with
    | none =>
      obtain ⟨next, hnext, hmapped⟩ := getElem?_step_of_none hevent hcapturer
      obtain ⟨last, hlast, hedits⟩ := ih hnext (hmapped.trans hheld)
      refine ⟨last, hlast, ?_⟩
      rw [hedits, edits_cons, edit?_eq_none hcapturer]
      rfl
    | some thread =>
      obtain ⟨next, hnext, hmapped⟩ := getElem?_step_of_some hevent hcapturer
      obtain ⟨last, hlast, hedits⟩ := ih hnext hmapped
      refine ⟨last, hlast, ?_⟩
      rw [hedits, edits_cons, withEdits_append, Event.mappedContext, hheld, Option.getD_some]

/-- Whether some thread needed the mapped context of an event. -/
def needed (place : Nat) (acts : List Act) : Bool :=
  acts.any fun act => (act.capturer? place).isSome

/-- In a run that starts without a copy, an event shows what its context gave to the first thread
that needed it, with all edits, and from then on it has that as its copy. -/
theorem getElem?_run (hevent : scene.events[place]? = some event) (hfresh : event.mapped = none)
    (acts : List Act) (reader : Nat) :
    ∃ last, (scene.run acts).events[place]? = some last ∧
      last.mappedContext ((scene.run acts).threads reader) =
        withEdits (scene.base place reader acts) (edits place acts) ∧
      (needed place acts →
        last.mapped = some (withEdits (scene.base place reader acts) (edits place acts))) := by
  induction acts generalizing scene event with
  | nil =>
    refine ⟨event, hevent, ?_, by simp [needed]⟩
    rw [Event.mappedContext, hfresh, Option.getD_none, base, given, hevent, Option.bind_some]
    rfl
  | cons act acts ih =>
    cases hcapturer : act.capturer? place with
    | none =>
      obtain ⟨next, hnext, hmapped⟩ := getElem?_step_of_none hevent hcapturer
      obtain ⟨last, hlast, hshown, hcopy⟩ := ih hnext (hmapped.trans hfresh)
      have hedits : edits place (act :: acts) = edits place acts := by
        rw [edits_cons, edit?_eq_none hcapturer]
        rfl
      refine ⟨last, hlast, ?_, ?_⟩
      · rw [hedits, base, hcapturer]
        exact hshown
      · rw [needed, List.any_cons, hcapturer, hedits, base, hcapturer]
        exact hcopy
    | some thread =>
      obtain ⟨next, hnext, hmapped⟩ := getElem?_step_of_some hevent hcapturer
      obtain ⟨last, hlast, hcopy⟩ := getElem?_run_of_captured hnext hmapped acts
      have hgiven : event.mappedContext (scene.threads thread) = scene.given thread place := by
        rw [Event.mappedContext, hfresh, Option.getD_none, given, hevent, Option.bind_some]
      rw [← withEdits_append, ← edits_cons, hgiven] at hcopy
      refine ⟨last, hlast, ?_, ?_⟩
      · rw [Event.mappedContext, base, hcapturer]
        exact (congrArg (Option.getD · _) hcopy).trans (Option.getD_some ..)
      · rw [base, hcapturer]
        exact fun _ => hcopy

/-! ## Other events -/

/-- The scenes have the same threads and as many events, and of the events they had in common, only
one may differ. -/
structure Apart (place bound : Nat) (scene other : Scene) : Prop where
  threads : other.threads = scene.threads
  length : other.events.length = scene.events.length
  events : ∀ i < bound, i ≠ place → other.events[i]? = scene.events[i]?
  bound_le : bound ≤ scene.events.length

/-- An edit of an event leaves everything else as it is. -/
theorem Apart.step_of_edit {bound : Nat} {other : Scene} (h : Apart place bound scene other)
    {act : Act} (hedit : (act.edit? place).isSome) : Apart place bound (scene.step act) other := by
  cases act with
  | visit thread edited access =>
    obtain rfl : edited = place := by
      by_contra hother
      simp [Act.edit?, hother] at hedit
    refine ⟨h.threads, by simpa [step] using h.length, ?_, by simpa [step] using h.bound_le⟩
    intro i hi hne
    rw [h.events i hi hne, step, List.getElem?_modify_ne _ _ hne.symm]
  | change | clone | turn => cases hedit

/-- Scenes that are apart stay so, whatever happens in both. -/
theorem Apart.step {bound : Nat} {other : Scene} (h : Apart place bound scene other)
    (act : Act) : Apart place bound (scene.step act) (other.step act) := by
  have hmodify (edited : Nat) (change : Event → Event) :
      ∀ i < bound, i ≠ place → (other.events.modify edited change)[i]? =
        (scene.events.modify edited change)[i]? := by
    intro i hi hne
    rw [List.getElem?_modify, List.getElem?_modify, h.events i hi hne]
  cases act with
  | change thread now =>
    exact ⟨by rw [Scene.step, h.threads]; rfl, h.length, h.events, h.bound_le⟩
  | visit thread edited access =>
    refine ⟨h.threads, by simpa [Scene.step] using h.length, ?_,
      by simpa [Scene.step] using h.bound_le⟩
    rw [Scene.step, h.threads]
    exact hmodify edited _
  | turn turned source =>
    exact ⟨h.threads, by simpa [Scene.step] using h.length, hmodify turned _,
      by simpa [Scene.step] using h.bound_le⟩
  | clone cloned =>
    -- The clones may differ, but either both scenes get one or neither does.
    have hlength := h.length
    have hbound := h.bound_le
    have hclones : other.events[cloned]?.toList.length = scene.events[cloned]?.toList.length := by
      by_cases hcloned : cloned < scene.events.length
      · rw [List.getElem?_eq_getElem hcloned, List.getElem?_eq_getElem (hlength ▸ hcloned)]
        rfl
      · rw [List.getElem?_eq_none (by omega), List.getElem?_eq_none (by omega)]
    refine ⟨h.threads, ?_, ?_, ?_⟩
    · rw [Scene.step, Scene.step, List.length_append, List.length_append, hlength, hclones]
    · intro i hi hne
      rw [Scene.step, Scene.step, List.getElem?_append_left (by omega),
        List.getElem?_append_left (by omega), h.events i hi hne]
    · rw [Scene.step, List.length_append]
      exact Nat.le_trans hbound (Nat.le_add_right _ _)

/-- Without the edits of one event, a run comes to the same for everything else that was there. -/
theorem Apart.run_filter {bound : Nat} {other : Scene} (h : Apart place bound scene other)
    (acts : List Act) : Apart place bound (scene.run acts)
      (other.run (acts.filter fun act => (act.edit? place).isNone)) := by
  induction acts generalizing scene other with
  | nil => exact h
  | cons act acts ih =>
    cases hedit : act.edit? place with
    | none =>
      rw [List.filter_cons_of_pos (by rw [hedit]; rfl)]
      exact ih (h.step act)
    | some edit =>
      rw [List.filter_cons_of_neg (by simp [hedit])]
      exact ih (h.step_of_edit (by rw [hedit]; rfl))

/-! ## The copy -/

/-- What the context of an event gave to the first thread that needed it in a run, or else gives to
the one that reads it now, with the edits of the run in their order. -/
def copy (scene : Scene) (place reader : Nat) (acts : List Act) : ContextMap :=
  applyEdits ((scene.base place reader acts).getD .empty) (edits place acts)

/-- In a run, all edits of an event act on one copy of its mapped context, and on nothing else. -/
structure EditsOwnCopy (scene : Scene) (place : Nat) (acts : List Act) : Prop where
  /-- The properties are the copy. -/
  properties : ∀ reader, (scene.run acts).answer? reader place .properties =
    some (.properties (scene.copy place reader acts))
  /-- The keys are those of the copy. -/
  propertyKeys : ∀ reader, (scene.run acts).answer? reader place .propertyKeys =
    some (.keys (scene.copy place reader acts).keys)
  /-- Taking a value out of the copy gives that value. -/
  removeProperty : ∀ reader key, (scene.run acts).answer? reader place (.removeProperty key) =
    some (.value ((scene.copy place reader acts).get? key))
  /-- After any edit, the mapped context is there, even if it is empty. -/
  mapped : edits place acts ≠ [] → ∀ reader, (scene.run acts).answer? reader place .mapped =
    some (.context (some (scene.copy place reader acts)))
  /-- Once there is a copy, a value that it has is the one that is answered. -/
  value : needed place acts → ∀ reader key value,
    (scene.copy place reader acts).get? key = some value →
      (scene.run acts).answer? reader place (.value key) = some (.value (some value))
  /-- From any moment on, the edits make no difference to the threads, and none to any other event
  that is there at the moment, such as a clone made before. -/
  apart : ∀ before after, acts = before ++ after →
    let moment := scene.run before
    let unedited := moment.run (after.filter fun act => (act.edit? place).isNone)
    unedited.threads = (scene.run acts).threads ∧
      ∀ i < moment.events.length, i ≠ place →
        unedited.events[i]? = (scene.run acts).events[i]?

/-- In every run, all edits of an event that nothing is captured of at first act on one copy of its
mapped context, and on nothing else. -/
theorem editsOwnCopy (scene : Scene) (place : Nat) (acts : List Act) {event : Event}
    (hevent : scene.events[place]? = some event) (hfresh : event.mapped = none) :
    scene.EditsOwnCopy place acts where
  properties := by
    intro reader
    obtain ⟨last, hlast, hshown, -⟩ := getElem?_run hevent hfresh acts reader
    rw [answer?, hlast, copy, ← getD_withEdits, ← hshown]
    rfl
  propertyKeys := by
    intro reader
    obtain ⟨last, hlast, hshown, -⟩ := getElem?_run hevent hfresh acts reader
    rw [answer?, hlast, copy, ← getD_withEdits, ← hshown]
    rfl
  removeProperty := by
    intro reader key
    obtain ⟨last, hlast, hshown, -⟩ := getElem?_run hevent hfresh acts reader
    rw [answer?, hlast, copy, ← getD_withEdits, ← hshown]
    rfl
  mapped := by
    intro hedits reader
    obtain ⟨last, hlast, hshown, -⟩ := getElem?_run hevent hfresh acts reader
    rw [withEdits, if_neg hedits] at hshown
    rw [answer?, hlast, copy, ← hshown]
    rfl
  value := by
    intro hneeded reader key value hvalue
    obtain ⟨last, hlast, -, hcopy⟩ := getElem?_run hevent hfresh acts reader
    rw [copy, ← getD_withEdits] at hvalue
    have hown : last.ownValue? key = some value := by
      rw [Event.ownValue?, hcopy hneeded]
      generalize withEdits _ _ = held at hvalue
      cases held with
      | none => cases hvalue
      | some map => exact hvalue
    rw [answer?, hlast, Option.map_some, Event.serve, Event.mappedValue?_of_own hown]
  apart := by
    rintro before after rfl
    have hstart : Apart place (scene.run before).events.length (scene.run before)
        (scene.run before) := ⟨rfl, rfl, fun _ _ _ => rfl, Nat.le_refl _⟩
    have happart := hstart.run_filter after
    have hrun : scene.run (before ++ after) = (scene.run before).run after := List.foldl_append
    rw [hrun]
    exact ⟨happart.threads, happart.events⟩

/-- An event without a context is captured, and its thread gets a context only then. The event is
edited, cloned and edited again, until its copy is empty: the copy is there, and the clone and the
thread are as they were. -/
theorem editsOwnCopy_clone :
    let event := Event.new none none 1 .info none none
    let scene : Scene := ⟨fun place => .new none (place + 1), [event]⟩
    let late := (Thread.new none).put "late" .null
    let acts : List Act := [.visit 0 0 .mapped, .change 0 late,
      .visit 0 0 (.setProperty "attempt" .null), .clone 0,
      .visit 1 0 (.removeProperty "attempt")]
    scene.events[0]? = some event ∧ event.mapped = none ∧ scene.EditsOwnCopy 0 acts ∧
      (scene.run acts).answer? 0 0 .mapped = some (.context (some .empty)) ∧
      (scene.run acts).answer? 0 1 .propertyKeys = some (.keys ["attempt"]) ∧
      (scene.run acts).threads 0 = late := by
  intro event scene late acts
  have hevent : scene.events[0]? = some event := rfl
  have hfresh : event.mapped = none := rfl
  exact ⟨hevent, hfresh, scene.editsOwnCopy 0 acts hevent hfresh, rfl, rfl, rfl⟩

end Scene

end EventSnapshot
