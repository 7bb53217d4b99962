import EventSnapshot.Proofs.Json.Rereading
import EventSnapshot.Proofs.Wire.Acceptance
import EventSnapshot.Proofs.Wire.RoundTrip

/-!
# Normal forms

Bytes may say the same thing in several ways: keys in any order and repeated, values spelled in any
way, a location or the name of a thread left out. An event that was read is written in one way,
whatever it was read from. Reading and writing once more changes nothing, and what was written with
its location and its level known is written again as it was.
-/

namespace EventSnapshot

namespace Event

variable (event : Event) (thread other : Thread)

/-- The record of an event that is prepared is the same for all threads. -/
theorem record_prepare_eq : (event.prepare thread).record other = event.record thread := rfl

/-- Only the name of the thread can be missing in an event that was read. -/
theorem prepare_ofRecord (record : Wire.Record Value) (level : Level) :
    (ofRecord record level).prepare thread = (ofRecord record level).captureThreadName thread := rfl

/-- An event that was read comes back with the name of the thread that sends it, if it had none, and
otherwise as it is. -/
theorem received_ofRecord (record : Wire.Record Value) (level : Level) :
    (ofRecord record level).received thread (ofRecord record level).level =
      (ofRecord record level).prepare thread := rfl

/-- The record of an event that came back has a location, and the level that was rebuilt. -/
theorem record_received (level : Level) :
    (event.received thread level).record other =
      { event.record thread with
        location := some (event.location.getD .unknown)
        priority := level.priority
        typeName := level.typeName } := rfl

/-- If its location was captured and its level rebuilt as it was, an event that came back has the
record that was sent. -/
theorem record_received_eq (h : event.location.isSome) :
    (event.received thread event.level).record other = event.record thread := by
  obtain ⟨location, hlocation⟩ := Option.isSome_iff_exists.mp h
  rw [record_received, hlocation, Option.getD_some, ← hlocation]
  rfl

end Event

namespace Wire

variable {producer : Producer} {event : Event} {thread : Thread} {bytes : ByteArray}

/-- What is written of an event is settled by its record. -/
theorem encode_congr {another : Event} {other : Thread}
    (h : event.record thread = another.record other) :
    encode producer event thread = encode producer another other := by
  simp only [encode, writeEvent, Event.record_prepare, h]

variable {σ : Type} [Resolver σ]

/-- The layout of a record is decoded as the event of the record that it spells, whatever comes
after it. -/
theorem decode_layout_append (producer : Producer) (source : σ) {spelled : Record String}
    {record : Record Value} (hspells : spelled.Spells decodeValue record) (hfits : spelled.Fits)
    (rest : ByteArray) :
    (decode producer source (spelled.layout producer ++ rest)).value =
      .ok (Event.ofRecord record (resolveLevel source record.priority record.typeName).value) := by
  have hvalues := Record.exists_spells_iff.mp ⟨record, hspells⟩
  have hstands : spelled.StandsAt producer (spelled.layout producer ++ rest) 0
      (spelled.layout producer).size := by
    refine ⟨⟨hfits, hvalues⟩, Nat.zero_le _, ?_, ByteArray.extract_append_eq_left rfl⟩
    rw [ByteArray.size_append]
    omega
  have hrun := run_readRecord_eq_ok_iff.mpr ⟨spelled, hspells, hstands⟩
  rw [decode, (readEvent_value_eq_ok_iff source).mpr ⟨record, hrun, rfl⟩]
  rfl

/-- An event that was encoded is decoded as the event that comes back. -/
theorem decode_value_of_encode (source : σ) (hencode : encode producer event thread = .ok bytes)
    (hsurvives : event.MappedSurvives thread) :
    (decode producer source bytes).value = .ok (event.received thread
      (resolveLevel source event.level.priority event.level.typeName).value) := by
  obtain ⟨hfits, rfl⟩ := encode_eq_ok_iff.mp hencode
  rw [← Event.ofRecord_receivedRecord, ← ByteArray.append_empty (b := Record.layout _ _)]
  exact decode_layout_append producer source (Event.record_spells hsurvives) hfits .empty

/-- An event that is decoded was read at the start of the bytes. -/
theorem exists_readEvent_of_decode {source : σ}
    (h : (decode producer source bytes).value = .ok event) :
    ∃ finish, (readEvent producer source bytes 0).value = .ok (event, finish) := by
  rw [decode] at h
  cases hread : (readEvent producer source bytes 0).value with
  | error error =>
    rw [hread] at h
    cases h
  | ok read =>
    rw [hread] at h
    obtain rfl : read.1 = event := Except.ok.inj h
    exact ⟨read.2, rfl⟩

/-- An event that is decoded is the one of a record. -/
theorem exists_of_decode {source : σ} (h : (decode producer source bytes).value = .ok event) :
    ∃ record level, event = Event.ofRecord record level := by
  obtain ⟨finish, hread⟩ := exists_readEvent_of_decode h
  obtain ⟨record, -, hrecord⟩ := (readEvent_value_eq_ok_iff source).mp hread
  exact ⟨record, _, hrecord.symm⟩

/-- Reading and writing settle after one pass. What is written of an event that was read, be the
bytes as they may, is read as that event, the name of the thread included if it was missing, and is
written of it again. What was written with a location and with a level that the resolver rebuilds is
a normal form already. -/
theorem encode_decode_settles (producer : Producer) (source later : σ) :
    (∀ bytes event thread again,
      (decode producer source bytes).value = .ok event →
      encode producer event thread = .ok again →
      event.MappedSurvives thread →
      (resolveLevel later event.level.priority event.level.typeName).value = event.level →
        (decode producer later again).value = .ok (event.prepare thread) ∧
        event.prepare thread = event.captureThreadName thread ∧
        ∀ other, encode producer (event.prepare thread) other = .ok again) ∧
    (∀ bytes event thread,
      encode producer event thread = .ok bytes →
      event.MappedSurvives thread →
      event.location.isSome →
      (resolveLevel source event.level.priority event.level.typeName).value = event.level →
        ∃ read, (decode producer source bytes).value = .ok read ∧
          ∀ other, encode producer read other = .ok bytes) ∧
    ∀ level ∈ Level.builtins,
      (resolveLevel later level.priority level.typeName).value = level := by
  refine ⟨?_, ?_, ?_⟩
  · intro bytes event thread again hdecode hencode hsurvives hlevel
    obtain ⟨record, level, rfl⟩ := exists_of_decode hdecode
    refine ⟨?_, Event.prepare_ofRecord thread record level, ?_⟩
    · rw [decode_value_of_encode later hencode hsurvives, hlevel, Event.received_ofRecord]
    · intro other
      rw [← hencode]
      exact encode_congr (Event.record_prepare_eq _ thread other)
  · intro bytes event thread hencode hsurvives hlocation hlevel
    refine ⟨event.received thread event.level, ?_, ?_⟩
    · rw [decode_value_of_encode source hencode hsurvives, hlevel]
    · intro other
      rw [← hencode]
      exact encode_congr (event.record_received_eq thread other hlocation)
  · intro level hlevel
    rw [resolveLevel_of_mem_builtins later hlevel]

/-- Bytes with spaced values, a repeated key, no name of a thread, no location and a byte too many
at the end. -/
theorem encode_decode_settles_spaced :
    let thread := Thread.new (some "main")
    let source := Registry.empty.register "Audit" fun priority =>
      .level (.custom "Audit" priority "AUDIT" 5)
    let spelled : Record String :=
      { wrapper := some "app::log", loggerName := none, timestamp := 1, threadName := none
        message := some "hello", nested := none
        properties := some [("b", " 1 "), ("a", "true"), ("b", "[ null ]")]
        failure := none, location := none, priority := 25000, typeName := some "Audit" }
    ∃ event again,
      (decode .current source (spelled.layout .current ++ ⟨#[0x4c]⟩)).value = .ok event ∧
      encode .current event thread = .ok again ∧
      (decode .current source again).value = .ok (event.prepare thread) ∧
      (∀ other, encode .current (event.prepare thread) other = .ok again) ∧
      ∃ read, (decode .current source again).value = .ok read ∧
        ∀ other, encode .current read other = .ok again := by
  intro thread source spelled
  let entries : List (String × Value) :=
    [("b", .ofNumber (.natural 1)), ("a", .ofBool true), ("b", .inArray .null)]
  have hexact : ∀ entry ∈ entries, entry.2.json.Exact ∧ entry.2.json.nesting ≤ Json.maxDepth := by
    simp [entries, Value.ofNumber, Value.ofBool, Value.null, Value.inArray, Json.Exact,
      Json.ExactItems, Json.nesting, Json.itemNesting, Json.maxDepth]
  have hspells : spelled.Spells decodeValue (spelled.withProperties (some entries)) := by
    have hone : Value.parse " 1 " = .ok (.ofNumber (.natural 1)) := by
      rw [Value.parse_eq_ok_iff]
      exact Json.parse_of_isDigit [' '] rfl (by decide) (by decide +kernel) rfl
    have htrue : Value.parse "true" = .ok (.ofBool true) := rfl
    have hnull : Value.parse "[ null ]" = .ok (.inArray .null) := by
      rw [Value.parse_eq_ok_iff]
      simp [Json.parse, Json.scanValue.eq_def, Json.skipSpaces, Json.isSpace, Json.scanList,
        Json.scanMore, Json.scanWord, Json.maxDepth, Value.inArray, Value.null, bind, Except.bind]
    refine ⟨.some (.cons ⟨rfl, ?_⟩ (.cons ⟨rfl, ?_⟩ (.cons ⟨rfl, ?_⟩ .nil))), rfl⟩
    · exact decodeValue_eq_ok_iff.mpr hone
    · exact decodeValue_eq_ok_iff.mpr htrue
    · exact decodeValue_eq_ok_iff.mpr hnull
  have hdecode := decode_layout_append .current source hspells (by decide) ⟨#[0x4c]⟩
  have hsurvives : (Event.ofRecord (spelled.withProperties (some entries))
      (.custom "Audit" 25000 "AUDIT" 5)).MappedSurvives thread := by
    rintro _ ⟨⟩ entry hentry
    obtain ⟨hvalue, hnesting⟩ := hexact entry (SortedMap.mem_of_mem_ofList hentry)
    exact Value.parse_text_of_exact hvalue hnesting
  have hencode : encode .current (Event.ofRecord (spelled.withProperties (some entries))
      (.custom "Audit" 25000 "AUDIT" 5)) thread = .ok _ :=
    encode_eq_ok_iff.mpr ⟨by decide +kernel, rfl⟩
  obtain ⟨hfirst, hsecond, -⟩ := encode_decode_settles .current source source
  obtain ⟨hagain, -, hsame⟩ := hfirst _ _ thread _ hdecode hencode hsurvives rfl
  exact ⟨_, _, hdecode, hencode, hagain, hsame, hsecond _ _ thread hencode hsurvives rfl rfl⟩

/-- The values that were read being read back from their own texts does not make the written ones
so. The number written as `1e-23` is read as its neighbour, which is read as itself and written in
another way. -/
theorem not_settled_of_respelled :
    let thread := Thread.new (some "main")
    let number := Value.ofNumber (.real ⟨false, ⟨0x3b282db34012b251, by decide⟩⟩)
    let event := ((Event.new none none 1 .info none none).setProperty thread "f"
      number).captureLocation thread
    ∃ bytes read again,
      encode .current event thread = .ok bytes ∧ event.location.isSome ∧
      (resolveLevel Registry.empty event.level.priority event.level.typeName).value = event.level ∧
      (decode .current Registry.empty bytes).value = .ok read ∧ read.MappedSurvives thread ∧
      (resolveLevel Registry.empty read.level.priority read.level.typeName).value = read.level ∧
      encode .current read thread = .ok again ∧ again ≠ bytes := by
  intro thread number event
  let neighbour := Value.ofNumber (.real ⟨false, ⟨0x3b282db34012b252, by decide⟩⟩)
  have hnumber : Value.parse number.text = .ok neighbour := by
    have htext : number.text = "1e-23" := by decide +kernel
    rw [htext, Value.parse_eq_ok_iff]
    exact Json.parse_of_isDigit [] rfl (by decide) (by decide +kernel) rfl
  have hneighbour : neighbour.Survives := by
    have htext : neighbour.text = "1.0000000000000001e-23" := by decide +kernel
    rw [Value.Survives, htext, Value.parse_eq_ok_iff]
    exact Json.parse_of_isDigit [] rfl (by decide) (by decide +kernel) rfl
  let record := (event.record thread).withProperties (some [("f", neighbour)])
  have hspells : (event.record thread).Spells decodeValue record :=
    ⟨.some (.cons ⟨rfl, decodeValue_eq_ok_iff.mpr hnumber⟩ .nil), rfl⟩
  have hsurvives : (Event.ofRecord record .info).MappedSurvives thread := by
    rintro _ ⟨⟩ entry hentry
    obtain rfl := List.mem_singleton.mp hentry
    exact hneighbour
  have hencode : encode .current event thread = .ok _ :=
    encode_eq_ok_iff.mpr ⟨by decide +kernel, rfl⟩
  have hdecode := decode_layout_append .current Registry.empty hspells
    (by decide +kernel) .empty
  rw [ByteArray.append_empty] at hdecode
  have hagain : encode .current (Event.ofRecord record .info) thread = .ok _ :=
    encode_eq_ok_iff.mpr ⟨by decide +kernel, rfl⟩
  refine ⟨_, _, _, hencode, rfl, rfl, hdecode, hsurvives, rfl, hagain, ?_⟩
  intro hsame
  have hsize := congrArg ByteArray.size hsame
  revert hsize
  decide +kernel

end Wire

end EventSnapshot
