import EventSnapshot.Proofs.Event.Capture

/-!
# Explicit context

An event that is given a snapshot of a thread's context stands apart from that thread. Whatever is
read of its context or edited in it, by whatever threads and whatever has become of any context by
then, it behaves as the event without the snapshot would if that thread did the same at the moment
of the snapshot.

The two sources of context treat an emptied map differently: a thread keeps it and a snapshot does
not. No answer shows the difference.
-/

namespace EventSnapshot

/-! ## Maps that count as absent when they are empty -/

namespace SortedMap

variable {α : Type u}

/-- A map that has entries stays when it is asked again whether it has any. -/
theorem bind_nonempty?_nonempty? (map : SortedMap α) :
    map.nonempty?.bind nonempty? = map.nonempty? := by
  by_cases hempty : map.isEmpty
  · simp [nonempty?, hempty]
  · simp [nonempty?, hempty]

/-- An empty map has no answer, so nothing changes when it counts as absent. -/
theorem bind_get?_nonempty? (map : SortedMap α) (key : String) :
    map.nonempty?.bind (·.get? key) = map.get? key := by
  by_cases hempty : map.isEmpty
  · have hnone : map.get? key = none := by
      rw [isEmpty, List.isEmpty_iff] at hempty
      rw [get?, hempty]
      rfl
    simp [nonempty?, hempty, hnone]
  · simp [nonempty?, hempty]

/-- A map counts as absent exactly when no key has an answer. -/
theorem nonempty?_eq_none_iff (map : SortedMap α) :
    map.nonempty? = none ↔ ∀ key, map.get? key = none := by
  constructor
  · intro hnone key
    rw [← bind_get?_nonempty?, hnone]
    rfl
  · intro hnone
    have hempty : map = empty := ext_get? hnone
    rw [hempty]
    rfl

end SortedMap

/-! ## The snapshot of a thread -/

namespace Thread

variable (thread : Thread)

/-- A snapshot has the nested context of the thread. -/
theorem nested_snapshot (reader : Thread) :
    (ContextSource.snapshot thread.snapshot).nested reader =
      ContextSource.thread.nested thread := rfl

/-- A snapshot has the mapped context of the thread, absent if it is empty. -/
theorem mapped_snapshot (reader : Thread) :
    (ContextSource.snapshot thread.snapshot).mapped reader =
      ContextSource.thread.mapped thread := by
  show (thread.mapped.bind SortedMap.nonempty?).bind SortedMap.nonempty? =
    thread.mapped.bind SortedMap.nonempty?
  cases thread.mapped with
  | none => rfl
  | some map => exact map.bind_nonempty?_nonempty?

/-- A snapshot has each value of the thread. -/
theorem value?_snapshot (reader : Thread) (key : String) :
    (ContextSource.snapshot thread.snapshot).value? reader key =
      ContextSource.thread.value? thread key := by
  show (thread.mapped.bind SortedMap.nonempty?).bind (·.get? key) =
    thread.mapped.bind (·.get? key)
  cases thread.mapped with
  | none => rfl
  | some map => exact map.bind_get?_nonempty? key

/-- The mapped context of a thread reads as absent exactly when no key has a value, be it emptied or
never there. -/
theorem mapped_eq_none_iff :
    ContextSource.thread.mapped thread = none ↔ ∀ key, thread.value? key = none := by
  unfold ContextSource.mapped Thread.value?
  cases thread.mapped with
  | none => simp
  | some map => exact map.nonempty?_eq_none_iff

end Thread

/-! ## Events with and without the snapshot -/

/-- Whether the access is about the diagnostic context: it reads some of it, or edits the event's
own copy. -/
def Access.isContextual : Access → Bool
  | .nested | .mapped | .properties | .propertyKeys | .value _ | .property _ => true
  | .setProperty .. | .removeProperty .. => true
  | .message | .threadName | .location | .prepare | .write .. | .setLevel _ => false

/-- The same accesses, all made by one thread as it is at one time. -/
def atOnce (thread : Thread) (visits : List Visit) : List Visit :=
  visits.map fun visit => ⟨thread, visit.access⟩

namespace Event

/-- One event has a snapshot of the thread that the other reads, and the same is captured of
both. -/
structure Mirrors (thread : Thread) (live fixed : Event) : Prop where
  live_source : live.source = .thread
  fixed_source : fixed.source = .snapshot thread.snapshot
  nested : fixed.nested = live.nested
  mapped : fixed.mapped = live.mapped

/-- One event behaves at any time as another does when a thread visits it at one time. -/
structure BehavesAs (thread : Thread) (live fixed : Event) : Prop where
  /-- After the same accesses, the same is captured. -/
  captured : ∀ visits : List Visit,
    (fixed.after visits).nested = (live.after (atOnce thread visits)).nested ∧
      (fixed.after visits).mapped = (live.after (atOnce thread visits)).mapped
  /-- After the same accesses, everyone is given the answers that the thread is given. -/
  answers : ∀ (visits : List Visit) (reader : Thread) (access : Access), access.isContextual →
    ((fixed.after visits).serve reader access).answer =
      ((live.after (atOnce thread visits)).serve thread access).answer
  /-- A mapped context that was not captured before reads as absent exactly when the thread had no
  value for any key, whether it had emptied its map or had none. -/
  absent : live.mapped = none → ∀ reader,
    (fixed.mappedContext reader = none ↔ ∀ key, thread.value? key = none) ∧
      (live.mappedContext thread = none ↔ ∀ key, thread.value? key = none)

namespace Mirrors

variable {thread : Thread} {live fixed : Event}

/-- An event that is given a snapshot of a thread mirrors itself. -/
theorem withContext {event : Event} (hsource : event.source = .thread) (thread : Thread) :
    Mirrors thread event (event.withContext thread.snapshot) :=
  ⟨hsource, rfl, rfl, rfl⟩

variable (h : Mirrors thread live fixed) (reader : Thread)
include h

/-- Both have the same nested context. -/
theorem nestedContext_eq : fixed.nestedContext reader = live.nestedContext thread := by
  rw [nestedContext, nestedContext, h.nested, h.fixed_source, h.live_source,
    thread.nested_snapshot]

/-- Both have the same mapped context. -/
theorem mappedContext_eq : fixed.mappedContext reader = live.mappedContext thread := by
  rw [mappedContext, mappedContext, h.mapped, h.fixed_source, h.live_source,
    thread.mapped_snapshot]

/-- Both have the same properties. -/
theorem properties_eq : fixed.properties reader = live.properties thread := by
  rw [properties, properties, h.mappedContext_eq]

/-- Both have the same value of each key. -/
theorem mappedValue?_eq (key : String) :
    fixed.mappedValue? reader key = live.mappedValue? thread key := by
  rw [mappedValue?, mappedValue?, h.mapped, h.fixed_source, h.live_source,
    thread.value?_snapshot]

/-- Both give the same answer to what is asked of their contexts. -/
theorem answer_eq {access : Access} (hcontextual : access.isContextual) :
    (fixed.serve reader access).answer = (live.serve thread access).answer := by
  cases access with
  | nested => simp only [serve, h.nestedContext_eq reader]
  | mapped => simp only [serve, h.mappedContext_eq reader]
  | properties | propertyKeys => simp only [serve, h.properties_eq reader]
  | value key => simp only [serve, h.mappedValue?_eq reader]
  | property key => simp only [serve, property?, h.mappedValue?_eq reader]
  | setProperty => rfl
  | removeProperty key => simp only [serve, removeProperty, h.properties_eq reader]
  | message | threadName | location | prepare | write | setLevel => cases hcontextual

/-- Whatever access is made to both, they mirror each other still. -/
theorem visited (access : Access) :
    Mirrors thread (live.visited ⟨thread, access⟩) (fixed.visited ⟨reader, access⟩) := by
  have hnested : some (fixed.nestedContext reader) = some (live.nestedContext thread) :=
    congrArg some (h.nestedContext_eq reader)
  have hmapped : some (fixed.mappedContext reader) = some (live.mappedContext thread) :=
    congrArg some (h.mappedContext_eq reader)
  refine ⟨?_, ?_, ?_, ?_⟩
  · rw [← h.live_source, (live.sameRequest_visited _).source]
  · rw [← h.fixed_source, (fixed.sameRequest_visited _).source]
  · cases access with
    | nested | prepare | write => exact hnested
    | _ => exact h.nested
  · cases access with
    | mapped | properties | propertyKeys | prepare | write => exact hmapped
    | setProperty key value =>
      show some (some ((fixed.properties reader).insert key value)) = _
      rw [h.properties_eq reader]
      rfl
    | removeProperty key =>
      show some (some ((fixed.properties reader).erase key)) = _
      rw [h.properties_eq reader]
      rfl
    | _ => exact h.mapped

omit reader in
/-- Whatever accesses are made to both, they mirror each other still. -/
theorem after (visits : List Visit) :
    Mirrors thread (live.after (atOnce thread visits)) (fixed.after visits) := by
  induction visits generalizing live fixed with
  | nil => exact h
  | cons visit visits ih => exact ih (h.visited visit.thread visit.access)

end Mirrors

/-- An event that is given a snapshot of a thread's context behaves from then on, to whatever
threads and whatever has become of their contexts, as the event without the snapshot does to that
thread as it was at the moment of the snapshot, whatever it had done to its context before. -/
theorem withContext_behaves (event : Event) (thread : Thread) (hsource : event.source = .thread) :
    BehavesAs thread event (event.withContext thread.snapshot) := by
  have hmirrors : Mirrors thread event (event.withContext thread.snapshot) :=
    .withContext hsource thread
  constructor
  · intro visits
    have h := hmirrors.after visits
    exact ⟨h.nested, h.mapped⟩
  · intro visits reader access hcontextual
    exact (hmirrors.after visits).answer_eq reader hcontextual
  · intro huncaptured reader
    have hlive : event.mappedContext thread = ContextSource.thread.mapped thread := by
      rw [mappedContext, huncaptured, hsource]
      rfl
    rw [hmirrors.mappedContext_eq reader, hlive, thread.mapped_eq_none_iff]
    exact ⟨Iff.rfl, Iff.rfl⟩

/-- A thread has a nested context, and a mapped context of which one of two values was taken out
again. When its event is edited and read, it has dropped all of that. -/
theorem withContext_behaves_dropped :
    let thread := ((((Thread.new (some "main")).push "job-7").put "tenant" (.ofString "acme")).put
      "trial" (.ofBool true)).remove "trial"
    let later := thread.2.clearNested.clearMapped
    let event := Event.new none none 1 .info none none
    let fixed := (event.withContext thread.2.snapshot).after
      [⟨later, .setProperty "order" .null⟩, ⟨.new none, .removeProperty "trial"⟩]
    event.source = .thread ∧
      (fixed.serve later .nested).answer = .text (some "job-7") ∧
      (fixed.serve later (.property "tenant")).answer = .text (some "acme") ∧
      (fixed.serve later .propertyKeys).answer = .keys ["order", "tenant"] ∧
      (event.serve later .propertyKeys).answer = .keys [] := by
  intro thread later event fixed
  have h := withContext_behaves event thread.2 rfl
  refine ⟨rfl, ?_, ?_, ?_, rfl⟩
  · exact h.answers _ later .nested rfl
  · exact h.answers _ later (.property "tenant") rfl
  · exact h.answers _ later .propertyKeys rfl

end Event

end EventSnapshot
