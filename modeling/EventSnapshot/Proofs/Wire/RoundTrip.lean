import EventSnapshot.Proofs.SortedMap
import EventSnapshot.Proofs.Wire.Writing

/-!
# Events that come back

An event that was encoded is read back as a snapshot of what was captured of it: the fields are kept
as they are, what was lazy is fixed, and what cannot be written is gone. Of the JSON texts it is
only assumed that each value of the mapped context is the value of its own text.
-/

namespace EventSnapshot

/-- The value is read back from its own text. -/
def Value.Survives (value : Value) : Prop := Value.parse value.text = .ok value

namespace Event

/-- Every value of the mapped context is read back from its own text. -/
def MappedSurvives (event : Event) (thread : Thread) : Prop :=
  ∀ map ∈ event.mappedContext thread, ∀ entry ∈ map.entries, entry.2.Survives

/-- The mapped values of an event that takes its context from a thread survive if the thread has one
that does. -/
theorem mappedSurvives_put {event : Event} {thread : Thread} {value : Value}
    (hmapped : event.mapped = none) (hsource : event.source = .thread)
    (hthread : thread.mapped = none) (hvalue : value.Survives) (key : String) :
    event.MappedSurvives (thread.put key value) := by
  intro map hmap entry hentry
  rw [mappedContext, hmapped, hsource, Thread.put, hthread] at hmap
  obtain ⟨⟩ := hmap
  obtain rfl := List.mem_singleton.mp hentry
  exact hvalue

/-- The event with all that a thread captures of it, its level rebuilt. The message as supplied and
the logger are gone, and a location that was not captured is an unknown one. -/
def received (event : Event) (thread : Thread) (level : Level) : Event :=
  { wrapper := event.wrapper
    logger := none
    loggerName := event.loggerName
    level
    timestamp := event.timestamp
    message := none
    failure := event.failure
    source := .thread
    rendered := some event.renderedMessage
    thread := some (event.threadName thread)
    nested := some (event.nestedContext thread)
    mapped := some (event.mappedContext thread)
    location := some (event.location.getD .unknown) }

/-- The record of an event says what the thread captures. -/
theorem record_prepare (event : Event) (thread : Thread) :
    (event.prepare thread).record thread = event.record thread := rfl

/-- The record of an event as it is read, with the values of its mapped context. -/
def receivedRecord (event : Event) (thread : Thread) : Wire.Record Value :=
  (event.record thread).withProperties ((event.mappedContext thread).map (·.entries))

/-- If the mapped values survive, the written record spells the one that is read. -/
theorem record_spells {event : Event} {thread : Thread} (h : event.MappedSurvives thread) :
    (event.record thread).Spells Wire.decodeValue (event.receivedRecord thread) := by
  constructor
  · simp only [record, receivedRecord, Wire.Record.withProperties]
    cases hmapped : event.mappedContext thread with
    | none => exact .none
    | some map =>
      apply Option.Rel.some
      rw [List.forall₂_map_left_iff, List.forall₂_same]
      intro entry hentry
      have hvalue : Value.parse entry.2.text = .ok entry.2 := h map hmapped entry hentry
      exact ⟨rfl, by simp [Wire.decodeValue, hvalue]⟩
  · rfl

/-- The record of an event, with some mapped context in it, describes the event that comes back with
that context. -/
theorem ofRecord_withProperties (event : Event) (thread : Thread) (level : Level)
    (context : Option ContextMap) :
    ofRecord ((event.record thread).withProperties (context.map (·.entries))) level =
      { event.received thread level with mapped := some context } := by
  have hmapped : (context.map (·.entries)).map SortedMap.ofList = context := by
    cases context with
    | none => rfl
    | some map => simp [SortedMap.ofList_entries]
  have hfailure : (event.failure.map (·.lines)).map Failure.mk = event.failure := by
    cases event.failure <;> rfl
  simp [ofRecord, Wire.Record.withProperties, record, received, ofParts, withRendered, hmapped,
    hfailure]

/-- The record that is read describes the event that comes back. -/
theorem ofRecord_receivedRecord (event : Event) (thread : Thread) (level : Level) :
    ofRecord (event.receivedRecord thread) level = event.received thread level :=
  event.ofRecord_withProperties thread level (event.mappedContext thread)

end Event

/-- A built-in level is rebuilt as it was, whatever the resolver. -/
theorem resolveLevel_of_mem_builtins {σ : Type} [Resolver σ] (source : σ) {level : Level}
    (h : level ∈ Level.builtins) :
    resolveLevel source level.priority level.typeName = ⟨level, source, []⟩ := by
  have hall : ∀ level ∈ Level.builtins,
      level.typeName = none ∧ Level.nearestBuiltin level.priority = level := by decide
  obtain ⟨htype, hnearest⟩ := hall level h
  rw [htype, resolveLevel, hnearest]

namespace Wire

variable {σ : Type} [Resolver σ] {producer : Producer} {event : Event} {thread : Thread}

/-- Wherever the encoding of an event stands among other bytes, the event is read there, and the
reading stops right behind it. -/
theorem readEvent_of_encode (source : σ) {encoded bytes : ByteArray} {start : Nat}
    (hencode : encode producer event thread = .ok encoded) (hsurvives : event.MappedSurvives thread)
    (hfits : start + encoded.size ≤ bytes.size)
    (hbytes : bytes.extract start (start + encoded.size) = encoded) :
    readEvent producer source bytes start =
      let resolved := resolveLevel source event.level.priority event.level.typeName
      ⟨.ok (event.received thread resolved.value, start + encoded.size), resolved.source,
        resolved.notices⟩ := by
  rw [encode_eq_ok_iff, Event.record_prepare] at hencode
  have haccepts : (readRecord producer).Accepts encoded (event.receivedRecord thread) :=
    accepts_readRecord.mpr ⟨_, Event.record_spells hsurvives, hencode⟩
  have hrun : (readRecord producer).run bytes start =
      .ok (event.receivedRecord thread, start + encoded.size) := by
    apply (Reader.run_eq_ok_iff (by omega)).mpr
    rw [hbytes]
    exact ⟨by omega, hfits, haccepts⟩
  simp only [readEvent, hrun, Event.ofRecord_receivedRecord]
  rfl

/-- An event that was encoded is decoded as the event that comes back, and a built-in level comes
back as it was. -/
theorem decode_of_encode (source : σ) {bytes : ByteArray}
    (hencode : encode producer event thread = .ok bytes) (hsurvives : event.MappedSurvives thread) :
    (decode producer source bytes).value =
        .ok (event.received thread
          (resolveLevel source event.level.priority event.level.typeName).value) ∧
      (event.level ∈ Level.builtins →
        (resolveLevel source event.level.priority event.level.typeName).value = event.level) := by
  constructor
  · have hextract : bytes.extract 0 (0 + bytes.size) = bytes := by
      rw [Nat.zero_add, ByteArray.extract_zero_size]
    rw [decode, readEvent_of_encode source hencode hsurvives (by omega) hextract]
    rfl
  · intro hlevel
    rw [resolveLevel_of_mem_builtins source hlevel]

/-- An event with a level of a named type, mapped context and a failure, as it comes back. -/
theorem decode_of_encode_custom :
    let thread := ((Thread.new (some "main")).push "request").put "admitted" (.ofBool true)
    let level := Level.custom "Audit" 25000 "AUDIT" 5
    let event := Event.new (some "app::log") (some ⟨"app", none⟩) 1700000000000 level
      (some (.text "hello")) (some ⟨["broken"]⟩)
    let source := Registry.empty.register "Audit" fun priority =>
      .level (.custom "Audit" priority "AUDIT" 5)
    ∃ bytes, encode .current event thread = .ok bytes ∧ event.MappedSurvives thread ∧
      (decode .current source bytes).value = .ok (event.received thread level) := by
  intro thread level event source
  have hencode : encode .current event thread = .ok _ := encode_eq_ok_iff.mpr ⟨by decide, rfl⟩
  have hsurvives : event.MappedSurvives thread := by
    rintro _ ⟨⟩ entry hentry
    obtain rfl := List.mem_singleton.mp hentry
    rfl
  have hlevel : (resolveLevel source event.level.priority event.level.typeName).value = level := rfl
  refine ⟨_, hencode, hsurvives, ?_⟩
  rw [← hlevel]
  exact (decode_of_encode source hencode hsurvives).1

end Wire

end EventSnapshot
