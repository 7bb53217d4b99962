import EventSnapshot.Proofs.Event.Capture
import EventSnapshot.Proofs.Wire.NormalForm

/-!
# Events apart from their threads

What is captured of an event no longer depends on the thread that asks. An event that was prepared
is written alike wherever and whenever that is done, as long as it is only read in between. An event
that was rebuilt elsewhere answers all receivers alike, with one exception: a key that its own copy
of the mapped context does not have is looked up in the mapped context of the thread that asks.
-/

namespace EventSnapshot

namespace Access

/-- Whether the access changes nothing but what is captured. -/
def isRead : Access → Bool
  | .setLevel _ | .setProperty .. | .removeProperty .. => false
  | _ => true

/-- The key of the one value that the access asks for. -/
def key? : Access → Option String
  | .value key | .property key => some key
  | _ => none

end Access

namespace Event

/-- Whether a slot is captured. -/
def captured (event : Event) : Slot → Bool
  | .rendered => event.rendered.isSome
  | .thread => event.thread.isSome
  | .nested => event.nested.isSome
  | .mapped => event.mapped.isSome
  | .location => event.location.isSome

/-- Every slot is captured that could show something of a thread. -/
def Sealed (event : Event) : Prop := ∀ slot, slot ≠ .rendered → event.captured slot

/-- The value of a key in the event's own copy of the mapped context. -/
def ownValue? (event : Event) (key : String) : Option Value :=
  event.mapped.join.bind (·.get? key)

/-- The event was made of parts or read off bytes, with the name of its thread. -/
inductive Rebuilt : Event → Prop
  /-- It was made of parts. -/
  | fromParts (parts : EventParts) : parts.threadName.isSome → Rebuilt (ofParts parts)
  /-- It was read under the name of one producer. -/
  | decoded {σ : Type} [Resolver σ] (producer : Producer) (source : σ) (bytes : ByteArray)
      {event : Event} : (Wire.decode producer source bytes).value = .ok event →
      event.thread.isSome → Rebuilt event
  /-- It was read under the name of either producer. -/
  | decodedCompatible {σ : Type} [Resolver σ] (producer : Producer) (source : σ)
      (bytes : ByteArray) {event : Event} :
      (Wire.decodeCompatible producer source bytes).value = .ok event →
      event.thread.isSome → Rebuilt event

/-! ## What captured slots settle -/

section Captured

variable {event : Event}

/-- A slot that is captured stays so. -/
theorem captured_visited (visit : Visit) {slot : Slot} (h : event.captured slot) :
    (event.visited visit).captured slot := by
  cases slot with
  | rendered =>
    have hsome : event.rendered.isSome := h
    simp [captured, rendered_visited, hsome]
  | thread =>
    have hsome : event.thread.isSome := h
    simp [captured, thread_visited, hsome]
  | nested =>
    have hsome : event.nested.isSome := h
    simp [captured, nested_visited, hsome]
  | location =>
    have hsome : event.location.isSome := h
    simp [captured, location_visited, hsome]
  | mapped =>
    obtain ⟨held, hheld⟩ := Option.isSome_iff_exists.mp h
    have hedited := event.mapped_visited visit
    rw [hheld, Option.some_or] at hedited
    rw [captured]
    generalize (event.visited visit).mapped = last at hedited
    cases hedited
    rfl

/-- A slot that is captured stays so, whatever visits follow. -/
theorem captured_after (visits : List Visit) {slot : Slot} (h : event.captured slot) :
    (event.after visits).captured slot := by
  induction visits generalizing event with
  | nil => exact h
  | cons visit visits ih => exact ih (captured_visited visit h)

/-- A captured message is not rendered again. -/
theorem captureRendered_eq (h : event.captured .rendered) : event.captureRendered = event := by
  obtain ⟨text, htext⟩ := Option.isSome_iff_exists.mp h
  rw [captureRendered, renderedMessage, htext, Option.getD_some, ← htext]

/-- A captured name of a thread is not replaced. -/
theorem captureThreadName_eq (h : event.captured .thread) (thread : Thread) :
    event.captureThreadName thread = event := by
  obtain ⟨name, hname⟩ := Option.isSome_iff_exists.mp h
  rw [captureThreadName, threadName, hname, Option.getD_some, ← hname]

/-- A captured nested context is not replaced. -/
theorem captureNested_eq (h : event.captured .nested) (thread : Thread) :
    event.captureNested thread = event := by
  obtain ⟨text, htext⟩ := Option.isSome_iff_exists.mp h
  rw [captureNested, nestedContext, htext, Option.getD_some, ← htext]

/-- A captured mapped context is not replaced. -/
theorem captureMapped_eq (h : event.captured .mapped) (thread : Thread) :
    event.captureMapped thread = event := by
  obtain ⟨map, hmap⟩ := Option.isSome_iff_exists.mp h
  rw [captureMapped, mappedContext, hmap, Option.getD_some, ← hmap]

/-- A captured location is not replaced. -/
theorem captureLocation_eq (h : event.captured .location) (thread : Thread) :
    event.captureLocation thread = event := by
  obtain ⟨location, hlocation⟩ := Option.isSome_iff_exists.mp h
  rw [captureLocation, locationInformation, hlocation, Option.getD_some, ← hlocation]

/-- An event of which everything is captured that depends on a thread is prepared by having its
message rendered. -/
theorem prepare_eq (hthread : event.captured .thread) (hnested : event.captured .nested)
    (hmapped : event.captured .mapped) (thread : Thread) :
    event.prepare thread = event.captureRendered := by
  have hnested' : event.captureRendered.captured .nested := hnested
  have hmapped' : event.captureRendered.captured .mapped := hmapped
  rw [prepare, captureThreadName_eq hthread, captureNested_eq hnested', captureMapped_eq hmapped']

/-- A read of what is captured leaves the event as it is. -/
theorem serve_event_eq {access : Access} (hread : access.isRead)
    (hcaptured : ∀ slot ∈ access.slots, event.captured slot) (thread : Thread) :
    (event.serve thread access).event = event := by
  have hprepare (h : ∀ slot ∈ Access.prepare.slots, event.captured slot) :
      event.prepare thread = event := by
    simp only [Access.slots, List.forall_mem_cons] at h
    obtain ⟨hrendered, hthread, hnested, hmapped, -⟩ := h
    rw [prepare_eq hthread hnested hmapped, captureRendered_eq hrendered]
  cases access with
  | message => exact captureRendered_eq (hcaptured _ (List.mem_singleton_self _))
  | threadName => exact captureThreadName_eq (hcaptured _ (List.mem_singleton_self _)) thread
  | nested => exact captureNested_eq (hcaptured _ (List.mem_singleton_self _)) thread
  | mapped | properties | propertyKeys =>
    exact captureMapped_eq (hcaptured _ (List.mem_singleton_self _)) thread
  | location => exact captureLocation_eq (hcaptured _ (List.mem_singleton_self _)) thread
  | prepare => exact hprepare hcaptured
  | write producer room output => exact hprepare hcaptured
  | value | property => rfl
  | setLevel | setProperty | removeProperty => cases hread

/-- A captured slot settles what every thread reads of it. -/
theorem Sealed.reads_eq (h : event.Sealed) (mine theirs : Thread) :
    event.threadName mine = event.threadName theirs ∧
      event.nestedContext mine = event.nestedContext theirs ∧
      event.mappedContext mine = event.mappedContext theirs ∧
      event.locationInformation mine = event.locationInformation theirs := by
  obtain ⟨name, hname⟩ := Option.isSome_iff_exists.mp (h .thread (by decide))
  obtain ⟨text, htext⟩ := Option.isSome_iff_exists.mp (h .nested (by decide))
  obtain ⟨map, hmap⟩ := Option.isSome_iff_exists.mp (h .mapped (by decide))
  obtain ⟨location, hlocation⟩ := Option.isSome_iff_exists.mp (h .location (by decide))
  simp [threadName, nestedContext, mappedContext, locationInformation, hname, htext, hmap,
    hlocation]

/-- A value that the event's own copy has is answered from there. -/
theorem mappedValue?_of_own {key : String} {value : Value} (h : event.ownValue? key = some value)
    (thread : Thread) : event.mappedValue? thread key = some value := by
  rw [ownValue?] at h
  simp only [mappedValue?, h]

/-- A key that the event's own copy does not have is looked up where the context comes from. -/
theorem mappedValue?_of_missing {key : String} (h : event.ownValue? key = none)
    (thread : Thread) : event.mappedValue? thread key = event.source.value? thread key := by
  rw [ownValue?] at h
  simp only [mappedValue?, h]

/-- Two threads get the same from a sealed event, unless they ask for a value that it does not
have. -/
theorem Sealed.serve_eq (h : event.Sealed) {access : Access}
    (hown : ∀ key ∈ access.key?, (event.ownValue? key).isSome) (mine theirs : Thread) :
    event.serve mine access = event.serve theirs access := by
  obtain ⟨hname, hnested, hmapped, hlocation⟩ := h.reads_eq mine theirs
  have hprepare (thread : Thread) : event.prepare thread = event.captureRendered :=
    prepare_eq (h .thread (by decide)) (h .nested (by decide)) (h .mapped (by decide)) thread
  have hvalue {key : String} (hkey : (event.ownValue? key).isSome) :
      event.mappedValue? mine key = event.mappedValue? theirs key := by
    obtain ⟨value, hvalue⟩ := Option.isSome_iff_exists.mp hkey
    rw [mappedValue?_of_own hvalue, mappedValue?_of_own hvalue]
  cases access with
  | message => rfl
  | threadName => simp only [serve, captureThreadName, hname]
  | nested => simp only [serve, captureNested, hnested]
  | mapped => simp only [serve, captureMapped, hmapped]
  | properties | propertyKeys => simp only [serve, properties, captureMapped, hmapped]
  | value key => simp only [serve, hvalue (hown key rfl)]
  | property key => simp only [serve, property?, hvalue (hown key rfl)]
  | location => simp only [serve, captureLocation, hlocation]
  | prepare => simp only [serve, hprepare]
  | write producer room output =>
    have hrecord : (event.captureRendered).record mine = event.captureRendered.record theirs := by
      have hrendered : event.captureRendered.Sealed := by
        intro slot hslot
        cases slot with
        | rendered => rfl
        | thread | nested | mapped | location => exact h _ hslot
      obtain ⟨hname, hnested, hmapped, -⟩ := hrendered.reads_eq mine theirs
      simp only [record, hname, hnested, hmapped]
    simp only [serve, Wire.writeEvent, hprepare, hrecord]
  | setLevel => rfl
  | setProperty => simp only [serve, setProperty, properties, hmapped]
  | removeProperty => simp only [serve, removeProperty, properties, hmapped]

/-! ## Courses of reads -/

/-- Reads of what is captured leave the event as it is. -/
theorem after_eq_of_reads {visits : List Visit}
    (hreads : ∀ visit ∈ visits, visit.access.isRead ∧
      ∀ slot ∈ visit.access.slots, event.captured slot) : event.after visits = event := by
  induction visits with
  | nil => rfl
  | cons visit visits ih =>
    obtain ⟨⟨hread, hcaptured⟩, hothers⟩ := List.forall_mem_cons.mp hreads
    have hvisit : event.visited visit = event := serve_event_eq hread hcaptured visit.thread
    rw [after_cons, hvisit, ih hothers]

end Captured

/-- Preparing captures every slot but the location. -/
theorem captured_prepare (event : Event) (thread : Thread) {slot : Slot} (h : slot ≠ .location) :
    (event.prepare thread).captured slot := by
  cases slot with
  | location => exact absurd rfl h
  | rendered | thread | nested | mapped => rfl

/-- An event that was prepared is written as it would have been on the spot, by any thread and after
any reads but those of the location, and these leave it as it is. Whatever is done with it, writing
it, be it in vain, changes nothing about it and reports nothing. -/
theorem encode_after_prepare (event : Event) (thread : Thread) :
    (∀ (visits : List Visit) (producer : Producer) (other : Thread),
      (∀ visit ∈ visits, visit.access.isRead ∧ visit.access ≠ .location) →
        Wire.encode producer ((event.prepare thread).after visits) other =
          Wire.encode producer (event.prepare thread) thread ∧
        (event.prepare thread).after visits = event.prepare thread) ∧
    ∀ (visits : List Visit) (producer : Producer) (room : Option Nat) (output : ByteArray)
      (other : Thread),
      let now := (event.prepare thread).after visits
      let reply := now.serve other (.write producer room output)
      reply.event = now ∧ reply.notices = [] := by
  constructor
  · intro visits producer other hreads
    have hunchanged : (event.prepare thread).after visits = event.prepare thread := by
      apply after_eq_of_reads
      intro visit hvisit
      obtain ⟨hread, hlocation⟩ := hreads visit hvisit
      refine ⟨hread, fun slot hslot => event.captured_prepare thread ?_⟩
      rintro rfl
      -- Only a read of the location captures it.
      generalize visit.access = access at hslot hlocation
      cases access with
      | location => exact hlocation rfl
      | _ => simp [Access.slots] at hslot
    refine ⟨?_, hunchanged⟩
    rw [hunchanged]
    exact Wire.encode_congr (event.record_prepare_eq thread other)
  · intro visits producer room output other now reply
    have hcaptured : ∀ slot ∈ (Access.write producer room output).slots, now.captured slot := by
      intro slot hslot
      apply captured_after visits
      apply event.captured_prepare thread
      rintro rfl
      simp [Access.slots] at hslot
    refine ⟨serve_event_eq rfl hcaptured other, ?_⟩
    obtain ⟨text, htext⟩ :=
      Option.isSome_iff_exists.mp (hcaptured .rendered (by simp [Access.slots]))
    change now.renderNotices = []
    rw [renderNotices, htext]

/-- An event that is prepared on one thread, read and written without room on another one, and then
written there. Unprepared, it would show the other thread. -/
theorem encode_after_prepare_elsewhere :
    let origin := ((Thread.new (some "origin")).push "request").put "admitted" (.ofBool true)
    let consumer := ((Thread.new none 2).push "drain").put "admitted" (.ofBool false)
    let event := Event.new (some "app::log") none 1 .info (some (.text "hello")) none
    let visits : List Visit := [⟨consumer, .nested⟩, ⟨consumer, .property "admitted"⟩,
      ⟨consumer, .write .legacy (some 5) .empty⟩]
    (∀ visit ∈ visits, visit.access.isRead ∧ visit.access ≠ .location) ∧
      Wire.encode .current ((event.prepare origin).after visits) consumer =
        Wire.encode .current (event.prepare origin) origin ∧
      Wire.encode .current event consumer ≠ Wire.encode .current event origin := by
  intro origin consumer event visits
  have hreads : ∀ visit ∈ visits, visit.access.isRead ∧ visit.access ≠ .location := by
    simp [visits, Access.isRead]
  refine ⟨hreads, ((event.encode_after_prepare origin).1 visits .current consumer hreads).1, ?_⟩
  have hlater : Wire.encode .current event consumer = .ok _ :=
    Wire.encode_eq_ok_iff.mpr ⟨by decide +kernel, rfl⟩
  have hthere : Wire.encode .current event origin = .ok _ :=
    Wire.encode_eq_ok_iff.mpr ⟨by decide +kernel, rfl⟩
  rw [hlater, hthere]
  intro hsame
  have hsize := congrArg ByteArray.size (Except.ok.inj hsame)
  revert hsize
  decide +kernel

/-! ## Events that were rebuilt -/

/-- Nothing but the name of the thread can be uncaptured in an event that was read. -/
theorem sealed_ofRecord {record : Wire.Record Value} {level : Level}
    (h : (ofRecord record level).thread.isSome) : (ofRecord record level).Sealed := by
  intro slot hslot
  cases slot with
  | rendered => exact absurd rfl hslot
  | thread => exact h
  | nested | mapped | location => rfl

end Event

/-- An event that is read under either name is the one of a record. -/
theorem Wire.exists_of_decodeCompatible {σ : Type} [Resolver σ] {producer : Producer} {source : σ}
    {bytes : ByteArray} {event : Event}
    (h : (decodeCompatible producer source bytes).value = .ok event) :
    ∃ record level, event = Event.ofRecord record level := by
  rw [decodeCompatible] at h
  split at h
  · cases h
  · split at h
    · cases h
    · split at h
      · exact exists_of_decode h
      · split at h
        · cases h
        · exact exists_of_decode h

namespace Event

/-- In an event that was rebuilt everything is captured that could show something of a thread, and
other values are looked up in the thread that asks. -/
theorem Rebuilt.sealed {event : Event} (h : event.Rebuilt) :
    event.Sealed ∧ event.source = .thread := by
  cases h with
  | fromParts parts hthread =>
    refine ⟨?_, rfl⟩
    intro slot hslot
    cases slot with
    | rendered => exact absurd rfl hslot
    | thread => exact hthread
    | nested | mapped | location => rfl
  | decoded producer source bytes hdecode hthread =>
    obtain ⟨record, level, rfl⟩ := Wire.exists_of_decode hdecode
    exact ⟨sealed_ofRecord hthread, rfl⟩
  | decodedCompatible producer source bytes hdecode hthread =>
    obtain ⟨record, level, rfl⟩ := Wire.exists_of_decodeCompatible hdecode
    exact ⟨sealed_ofRecord hthread, rfl⟩

/-- A sealed event stays sealed. -/
theorem Sealed.visited {event : Event} (h : event.Sealed) (visit : Visit) :
    (event.visited visit).Sealed :=
  fun slot hslot => captured_visited visit (h slot hslot)

/-- Whose visits they are does not matter to what becomes of a sealed event. -/
theorem Sealed.after_eq {event : Event} (h : event.Sealed) {visits others : List Visit}
    (hsame : visits.map (·.access) = others.map (·.access)) :
    event.after visits = event.after others := by
  induction visits generalizing event others with
  | nil =>
    cases others with
    | nil => rfl
    | cons other others => simp at hsame
  | cons visit visits ih =>
    cases others with
    | nil => simp at hsame
    | cons other others =>
      obtain ⟨haccess, hrest⟩ := List.cons.inj hsame
      have hfirst : event.visited visit = event.visited other := by
        obtain ⟨mine, access⟩ := visit
        obtain ⟨theirs, _⟩ := other
        cases haccess
        cases access with
        | value | property => rfl
        | _ => exact congrArg Reply.event (h.serve_eq (by simp [Access.key?]) mine theirs)
      rw [after_cons, after_cons, ← hfirst]
      exact ih (h.visited visit) hrest

/-- Two receivers that do the same with an event that was rebuilt elsewhere always hold the same and
get the same answers, be their own contexts as they may. Only for a key that the event's own copy of
the mapped context does not have, each gets the value of its own mapped context. -/
theorem Rebuilt.answers_alike {event : Event} (h : event.Rebuilt) {visits others : List Visit}
    (hsame : visits.map (·.access) = others.map (·.access)) :
    event.after visits = event.after others ∧
      (∀ (access : Access) (mine theirs : Thread),
        (∀ key ∈ access.key?, ((event.after visits).ownValue? key).isSome) →
          (event.after visits).serve mine access = (event.after others).serve theirs access) ∧
      ∀ (key : String) (thread : Thread), (event.after visits).ownValue? key = none →
        (event.after visits).mappedValue? thread key = thread.value? key := by
  obtain ⟨hsealed, hsource⟩ := h.sealed
  have hafter : (event.after visits).Sealed :=
    fun slot hslot => captured_after visits (hsealed slot hslot)
  have hlive : (event.after visits).source = .thread := by
    rw [sameRequest_after.source, hsource]
  refine ⟨hsealed.after_eq hsame, ?_, ?_⟩
  · intro access mine theirs hown
    rw [← hsealed.after_eq hsame]
    exact hafter.serve_eq hown mine theirs
  · intro key thread hmissing
    rw [mappedValue?_of_missing hmissing, hlive]
    rfl

/-- An event made of parts, with a value of its own, is edited and read by two receivers, of which
one has a context. -/
theorem Rebuilt.answers_alike_edited :
    let event := ofParts {
      wrapper := none, logger := none, loggerName := some "app", timestamp := 1, level := .info
      message := none, threadName := some "origin", failure := none, nested := none
      location := none, properties := some (SortedMap.empty.insert "admitted" (.ofBool true)) }
    let theirs := ((Thread.new none).push "drain").put "user" (.ofBool false)
    let accesses : List Access := [.nested, .setProperty "attempt" .null]
    let visits := accesses.map (Visit.mk (.new none))
    let others := accesses.map (Visit.mk theirs)
    event.Rebuilt ∧ visits.map (·.access) = others.map (·.access) ∧
      (event.after visits).serve (.new none) (.property "attempt") =
        (event.after others).serve theirs (.property "attempt") ∧
      (event.after visits).serve (.new none) .nested = (event.after others).serve theirs .nested ∧
      (event.after visits).mappedValue? theirs "user" = theirs.value? "user" := by
  intro event theirs accesses visits others
  have hrebuilt : event.Rebuilt := .fromParts _ rfl
  have hsame : visits.map (·.access) = others.map (·.access) := rfl
  obtain ⟨-, halike, hmissing⟩ := hrebuilt.answers_alike hsame
  refine ⟨hrebuilt, hsame, halike _ _ _ ?_, halike _ _ _ ?_, hmissing _ _ rfl⟩
  · rintro _ ⟨⟩
    rfl
  · rintro _ ⟨⟩

/-- Two receivers with different contexts get different answers from an event that was made of
parts, for a key that it does not have: the one gets nothing, the other a value of its own. -/
theorem Rebuilt.not_alike_of_missing_key :
    let event := ofParts {
      wrapper := none, logger := none, loggerName := some "app", timestamp := 1, level := .info
      message := none, threadName := some "origin", failure := none, nested := none
      location := none, properties := none }
    let theirs := (Thread.new none).put "user" (.ofBool true)
    event.Rebuilt ∧
      (event.serve (.new none) (.value "user")).answer ≠
        (event.serve theirs (.value "user")).answer ∧
      (event.serve (.new none) (.property "user")).answer ≠
        (event.serve theirs (.property "user")).answer := by
  intro event theirs
  refine ⟨.fromParts _ rfl, ?_, ?_⟩
  · intro hsame
    cases hsame
  · intro hsame
    cases hsame

end Event

end EventSnapshot
