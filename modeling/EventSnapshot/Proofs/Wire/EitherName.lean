import EventSnapshot.Proofs.Wire.Naming
import EventSnapshot.Proofs.Wire.NormalForm
import EventSnapshot.Proofs.Wire.Runs

/-!
# Reading under either name

A record is read in two parts: the name at its start, which is compared with the reader's own, and
the rest, which is read alike under every name. So a reader that puts its own name into a record of
the other producer reads what that producer's reader would have read, errors included; and where
neither of the two names stands, no reader gets any further.
-/

namespace EventSnapshot

/-- Every producer is one of any two that are each other's counterpart. -/
theorem Producer.eq_or_eq_counterpart (producer other : Producer) :
    other = producer ∨ other = producer.counterpart := by
  cases producer <;> cases other <;> decide

/-- No producer is its own counterpart. -/
theorem Producer.counterpart_ne (producer : Producer) : producer.counterpart ≠ producer := by
  cases producer <;> decide

/-- A name is known exactly if a producer has it. -/
theorem Producer.ofName?_eq_none_iff {name : String} :
    Producer.ofName? name = none ↔ ∀ producer : Producer, name ≠ producer.name := by
  unfold Producer.ofName?
  constructor
  · intro h producer hname
    subst hname
    have hfound := producer.ofName?_name
    unfold Producer.ofName? at hfound
    rw [h] at hfound
    cases hfound
  · intro h
    rw [if_neg (h .legacy), if_neg (h .current)]

namespace Wire

/-! ## Records behind their names -/

/-- Reads what follows the name in a header: the version and the identity of the layout. -/
def readVersion : Reader Unit := do
  let found ← Reader.number 2
  if found = 0 ∨ version < found then .fail (.unsupportedVersion (UInt16.ofNat found))
  else
    let uid := (UInt64.ofNat (← Reader.number 8)).toInt64
    if uid ≠ streamUid then .fail (.streamMismatch uid) else return ()

/-- Reads what follows the name in a record. -/
def readUnnamed : Reader (Record Value) := do
  readVersion
  readFields decodeValue

/-- A record is read by reading its name and, if that is the reader's own, the rest, in which the
reader does not show. -/
theorem run_readRecord (producer : Producer) (bytes : ByteArray) (start : Nat) :
    (readRecord producer).run bytes start =
      readName.run bytes start >>= fun (name, position) =>
        if name.data = producer.name.toUTF8.data then readUnnamed.run bytes position
        else .error (.producerMismatch producer.name (Text.lenient name)) := by
  have hheader : readHeader producer = readName >>= fun name =>
      if name.data ≠ producer.name.toUTF8.data then
        .fail (.producerMismatch producer.name (Text.lenient name))
      else readVersion := rfl
  rw [readRecord, Reader.run_bind, hheader, Reader.run_bind]
  cases readName.run bytes start with
  | error error => rfl
  | ok named =>
    obtain ⟨name, position⟩ := named
    by_cases hname : name.data = producer.name.toUTF8.data
    · simp only [bind, Except.bind, if_neg (not_not_intro hname), if_pos hname]
      exact (Reader.run_bind readVersion (fun _ => readFields decodeValue) bytes position).symm
    · have hother : name.data ≠ producer.name.toUTF8.data := hname
      simp only [bind, Except.bind, if_pos hother, if_neg hname, Reader.run]

/-- A name is read wherever it stands at the start, if it is not too long. -/
theorem run_readName_nameLayout {name : ByteArray} (hname : name.size ≤ maxNameLength)
    (rest : ByteArray) :
    readName.run (nameLayout name ++ rest) 0 = .ok (name, (nameLayout name).size) := by
  apply (Reader.run_eq_ok_iff (Nat.zero_le _)).mpr
  rw [ByteArray.extract_append_eq_left rfl, ByteArray.size_append]
  exact ⟨Nat.zero_le _, by omega, (accepts_readName _ _).mpr ⟨hname, rfl⟩⟩

/-- The names of producers are not too long. -/
theorem size_toUTF8_name_le (producer : Producer) :
    producer.name.toUTF8.size ≤ maxNameLength := by
  cases producer <;> decide

/-- Under its own name, each producer reads the rest alike. -/
theorem run_readRecord_nameLayout (producer other : Producer) (rest : ByteArray) :
    (readRecord producer).run (nameLayout producer.name.toUTF8 ++ rest) 0 =
      (readRecord other).run (nameLayout other.name.toUTF8 ++ rest) 0 := by
  have hown (reader : Producer) :
      (readRecord reader).run (nameLayout reader.name.toUTF8 ++ rest) 0 =
        readUnnamed.run (nameLayout reader.name.toUTF8 ++ rest)
          (nameLayout reader.name.toUTF8).size := by
    rw [run_readRecord, run_readName_nameLayout (size_toUTF8_name_le reader)]
    exact if_pos rfl
  have hsize (reader : Producer) : (nameLayout reader.name.toUTF8).size = 28 := by
    cases reader <;> decide
  have hbehind (reader : Producer) :
      (nameLayout reader.name.toUTF8 ++ rest).extract 28
        (nameLayout reader.name.toUTF8 ++ rest).size = rest := by
    apply ByteArray.extract_append_eq_right
    · exact (hsize reader).symm
    · exact ByteArray.size_append
  rw [hown, hown, hsize, hsize]
  apply Reader.run_congr
  · rw [ByteArray.size_append, ByteArray.size_append, hsize, hsize]
  · rw [hbehind, hbehind]

variable {σ : Type} [Resolver σ]

/-- Under its own name, each producer reads the same event, or fails alike. -/
theorem decode_nameLayout (source : σ) (producer other : Producer) (rest : ByteArray) :
    decode producer source (nameLayout producer.name.toUTF8 ++ rest) =
      decode other source (nameLayout other.name.toUTF8 ++ rest) := by
  simp only [decode, readEvent, run_readRecord_nameLayout producer other rest]

/-! ## Readings under a name that is not there -/

/-- No reader reads behind another name than its own. -/
theorem decode_of_peekProducer_ne {producer : Producer} (source : σ) {bytes : ByteArray}
    (h : peekProducer bytes ≠ .ok producer.name) :
    ∃ error, decode producer source bytes = ⟨.error error, source, []⟩ := by
  suffices hrun : ∃ error, (readRecord producer).run bytes 0 = .error error by
    obtain ⟨error, herror⟩ := hrun
    exact ⟨error, by simp only [decode, readEvent, herror, Except.map]⟩
  rw [run_readRecord]
  cases hname : readName.run bytes 0 with
  | error error => exact ⟨error, rfl⟩
  | ok named =>
    obtain ⟨name, position⟩ := named
    have hother : name.data ≠ producer.name.toUTF8.data := by
      intro hown
      apply h
      rw [peekProducer, hname]
      exact decodeText_eq_ok_iff.mpr (ByteArray.ext hown)
    exact ⟨_, if_neg hother⟩

/-- What is read under a name stands behind that name. -/
theorem peekProducer_of_decode {producer : Producer} {source : σ} {bytes : ByteArray}
    {event : Event} (h : (decode producer source bytes).value = .ok event) :
    peekProducer bytes = .ok producer.name := by
  by_contra hname
  obtain ⟨error, herror⟩ := decode_of_peekProducer_ne source hname
  rw [herror] at h
  cases h

/-! ## Readings under either name -/

/-- Reading under either name agrees with reading under the name that stands in the bytes. -/
structure DecodesAsNamed (producer : Producer) (source : σ) (bytes : ByteArray) : Prop where
  /-- Behind the reader's own name, the reading is the plain one. -/
  own : peekProducer bytes = .ok producer.name →
    decodeCompatible producer source bytes = decode producer source bytes
  /-- Behind the other name, it is the plain one of that name, but that this is reported first. -/
  other : peekProducer bytes = .ok producer.counterpart.name →
    let decoded := decode producer.counterpart source bytes
    decodeCompatible producer source bytes =
      { decoded with
        notices := .producerAliased producer.counterpart.name producer.name :: decoded.notices }
  /-- Behind any third name, it is refused with that name. -/
  refused : ∀ name, peekProducer bytes = .ok name → name ≠ producer.name →
    name ≠ producer.counterpart.name →
    decodeCompatible producer source bytes =
      ⟨.error (.producerMismatch producer.name name), source, []⟩
  /-- Where no name can be read, it fails for the same reason. -/
  unnamed : ∀ error, peekProducer bytes = .error error →
    decodeCompatible producer source bytes = ⟨.error error, source, []⟩
  /-- A plain reading fails unless its own name stands there, and leaves the resolver as it is. -/
  misnamed : ∀ reader : Producer, peekProducer bytes ≠ .ok reader.name →
    ∃ error, decode reader source bytes = ⟨.error error, source, []⟩
  /-- It gives the events that one of the two plain readings gives, and no others. -/
  ok_iff : ∀ event, (decodeCompatible producer source bytes).value = .ok event ↔
    (decode producer source bytes).value = .ok event ∨
      (decode producer.counterpart source bytes).value = .ok event
  /-- The two plain readings do not both give an event. -/
  exclusive : ∀ event other, (decode producer source bytes).value = .ok event →
    (decode producer.counterpart source bytes).value ≠ .ok other

/-- Behind the name of a producer, the reading under either name is the plain one of that name. -/
theorem decodeCompatible_of_peekProducer {producer other : Producer} (source : σ)
    {bytes : ByteArray} (h : peekProducer bytes = .ok other.name) :
    decodeCompatible producer source bytes =
      let decoded := decode other source bytes
      if other = producer then decoded
      else { decoded with
        notices := .producerAliased other.name producer.name :: decoded.notices } := by
  obtain ⟨-, rest, rfl⟩ := peekProducer_eq_ok_iff.mp h
  rw [decodeCompatible_nameLayout, decode_nameLayout source producer other]

/-- What was encoded under one name is read under either name as under its own. -/
theorem decodeCompatible_value_eq_of_encode {producer : Producer} (source : σ) (reader : Producer)
    {event : Event} {thread : Thread} {bytes : ByteArray}
    (hencode : encode producer event thread = .ok bytes) :
    (decodeCompatible reader source bytes).value = (decode producer source bytes).value := by
  obtain ⟨-, rfl⟩ := encode_eq_ok_iff.mp hencode
  rw [Record.layout_eq_append, decodeCompatible_value_nameLayout, decode_nameLayout source reader]

/-- Whoever reads an event of what was encoded under one name, reads the one that is read under that
name. -/
theorem decode_value_of_encode_of_read {producer reader : Producer} {source : σ}
    {event decoded : Event} {thread : Thread} {bytes : ByteArray}
    (hencode : encode producer event thread = .ok bytes)
    (hread : (decode reader source bytes).value = .ok decoded ∨
      (decodeCompatible reader source bytes).value = .ok decoded) :
    (decode producer source bytes).value = .ok decoded := by
  rw [← decodeCompatible_value_eq_of_encode source reader hencode]
  rcases hread with hread | hread
  · rw [decodeCompatible_of_peekProducer source (peekProducer_of_decode hread)]
    simpa using hread
  · exact hread

/-- Whatever the bytes are, reading under either name agrees with reading under the name that stands
in them. -/
theorem decodesAsNamed (producer : Producer) (source : σ) (bytes : ByteArray) :
    DecodesAsNamed producer source bytes := by
  have hown (h : peekProducer bytes = .ok producer.name) :
      decodeCompatible producer source bytes = decode producer source bytes := by
    rw [decodeCompatible_of_peekProducer source h]
    exact if_pos rfl
  have hother (h : peekProducer bytes = .ok producer.counterpart.name) :
      (decodeCompatible producer source bytes).value =
        (decode producer.counterpart source bytes).value := by
    rw [decodeCompatible_of_peekProducer source h]
    dsimp only
    rw [if_neg producer.counterpart_ne]
  have hunnamed (error : WireError) (h : peekProducer bytes = .error error) :
      decodeCompatible producer source bytes = ⟨.error error, source, []⟩ := by
    simp only [decodeCompatible, h]
  have hrefused (name : String) (h : peekProducer bytes = .ok name)
      (hmine : name ≠ producer.name) (htheirs : name ≠ producer.counterpart.name) :
      decodeCompatible producer source bytes =
        ⟨.error (.producerMismatch producer.name name), source, []⟩ := by
    have hunknown : Producer.ofName? name = none := by
      apply Producer.ofName?_eq_none_iff.mpr
      intro reader
      rcases producer.eq_or_eq_counterpart reader with rfl | rfl
      · exact hmine
      · exact htheirs
    simp only [decodeCompatible, h, hunknown]
  refine ⟨hown, ?_, hrefused, hunnamed, fun _ => decode_of_peekProducer_ne source, ?_, ?_⟩
  · intro h
    rw [decodeCompatible_of_peekProducer source h]
    exact if_neg producer.counterpart_ne
  · intro event
    constructor
    · intro hevent
      cases hname : peekProducer bytes with
      | error error =>
        rw [hunnamed error hname] at hevent
        cases hevent
      | ok name =>
        by_cases hmine : name = producer.name
        · left
          rw [← hown (hname.trans (congrArg _ hmine)), hevent]
        · by_cases htheirs : name = producer.counterpart.name
          · right
            rw [← hother (hname.trans (congrArg _ htheirs)), hevent]
          · rw [hrefused name hname hmine htheirs] at hevent
            cases hevent
    · rintro (hevent | hevent)
      · rw [hown (peekProducer_of_decode hevent), hevent]
      · rw [hother (peekProducer_of_decode hevent), hevent]
  · intro event other hmine htheirs
    have hsame := (peekProducer_of_decode hmine).symm.trans (peekProducer_of_decode htheirs)
    exact producer.counterpart_ne (Producer.name_injective (Except.ok.inj hsame)).symm

/-- A record of the other producer, with mapped context and a level of a named type. Only its own
name makes it readable for a plain reading. -/
theorem decodesAsNamed_aliased :
    let thread := (Thread.new (some "main")).put "admitted" (.ofBool true)
    let level := Level.custom "Audit" 25000 "AUDIT" 5
    let event := Event.new (some "app::log") none 1 level (some (.text "hello")) none
    let source := Registry.empty.register "Audit" fun priority =>
      .level (.custom "Audit" priority "AUDIT" 5)
    ∃ bytes, encode .legacy event thread = .ok bytes ∧
      (decodeCompatible .current source bytes).value = .ok (event.received thread level) ∧
      ∃ error, (decode .current source bytes).value = .error error := by
  intro thread level event source
  have hencode : encode .legacy event thread = .ok _ := encode_eq_ok_iff.mpr ⟨by decide, rfl⟩
  have hsurvives : event.MappedSurvives thread := by
    rintro _ ⟨⟩ entry hentry
    obtain rfl := List.mem_singleton.mp hentry
    rfl
  generalize Record.layout _ _ = bytes at hencode
  have hdecode := decode_value_of_encode source hencode hsurvives
  have hname := peekProducer_of_decode hdecode
  have hnot : peekProducer bytes ≠ .ok Producer.current.name := by
    intro hcurrent
    have hsame : Producer.legacy.name = Producer.current.name :=
      Except.ok.inj (hname.symm.trans hcurrent)
    exact absurd (Producer.name_injective hsame) (by decide)
  have hagrees := decodesAsNamed .current source bytes
  obtain ⟨error, herror⟩ := hagrees.misnamed .current hnot
  exact ⟨bytes, hencode, (hagrees.ok_iff _).mpr (.inr hdecode), error, by rw [herror]⟩

end Wire

end EventSnapshot
