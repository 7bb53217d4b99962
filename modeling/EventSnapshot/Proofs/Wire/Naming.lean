import EventSnapshot.Proofs.Wire.Layout
import EventSnapshot.Wire.Codec

/-!
# The names in records

The name of its producer is all that distinguishes the records that two producers write of one
event, and it stands at one place in both. So a name can be read off any record, and a record under
one name is turned into the record under another by putting that name in the place of the first.
-/

namespace EventSnapshot

/-- The names of the producers are equally long. -/
theorem Producer.size_name (producer : Producer) :
    producer.name.utf8ByteSize = 24 := by
  cases producer <;> decide

/-- Producers have different names. -/
theorem Producer.name_injective : Function.Injective Producer.name := by
  intro producer other
  cases producer <;> cases other <;> decide

/-- A producer is found by its name. -/
theorem Producer.ofName?_name (producer : Producer) :
    Producer.ofName? producer.name = some producer := by
  cases producer <;> decide

namespace Wire

/-- What follows the name in a record. -/
def Record.unnamed (record : Record String) : ByteArray :=
  joined [bigEndian 2 version, bigEndian 8 streamUid.toUInt64.toNat, record.fieldLayout]

/-- A record starts with the name of its producer, and nothing else in it depends on that. -/
theorem Record.layout_eq_append (producer : Producer) (record : Record String) :
    record.layout producer = nameLayout producer.name.toUTF8 ++ record.unnamed := by
  simp [layout, headerLayout, unnamed, ByteArray.append_assoc]

/-- A name is peeked at exactly where it stands at the start, if it is not too long. -/
theorem peekProducer_eq_ok_iff {bytes : ByteArray} {name : String} :
    peekProducer bytes = .ok name ↔
      name.toUTF8.size ≤ maxNameLength ∧ ∃ rest, bytes = nameLayout name.toUTF8 ++ rest := by
  have hread : peekProducer bytes = .ok name ↔
      ∃ finish, readName.run bytes 0 = .ok (name.toUTF8, finish) := by
    unfold peekProducer
    cases hrun : readName.run bytes 0 with
    | error error => simp [bind, Except.bind]
    | ok result =>
      obtain ⟨found, stop⟩ := result
      simp [bind, Except.bind, decodeText_eq_ok_iff]
  rw [hread]
  simp only [Reader.run_eq_ok_iff (Nat.zero_le _), accepts_readName]
  constructor
  · rintro ⟨finish, -, hfinish, hfits, hbytes⟩
    refine ⟨hfits, bytes.extract finish bytes.size, ?_⟩
    rw [← hbytes, ← ByteArray.extract_eq_extract_append_extract _ (Nat.zero_le _) hfinish,
      ByteArray.extract_zero_size]
  · rintro ⟨hfits, rest, rfl⟩
    refine ⟨(nameLayout name.toUTF8).size, Nat.zero_le _, ?_, hfits, ?_⟩
    · rw [ByteArray.size_append]
      omega
    · exact ByteArray.extract_append_eq_left rfl

/-- The name of the producer is peeked at in whatever starts with it. -/
theorem peekProducer_nameLayout (producer : Producer) (rest : ByteArray) :
    peekProducer (nameLayout producer.name.toUTF8 ++ rest) = .ok producer.name := by
  apply peekProducer_eq_ok_iff.mpr
  rw [String.toUTF8_eq_toByteArray, String.size_toByteArray, producer.size_name]
  exact ⟨by decide, rest, rfl⟩

/-- The name is the only part of a start that is replaced. -/
theorem substituteProducer_nameLayout (producer other : Producer) (rest : ByteArray) :
    substituteProducer (nameLayout producer.name.toUTF8 ++ rest) producer other =
      .ok (nameLayout other.name.toUTF8 ++ rest) := by
  -- Both names have the same length, so the numbers in front of them agree.
  let front := bigEndian 2 magic ++ bigEndian 2 24
  have hfront : front.size = nameOffset := by simp [front, nameOffset]
  have hstart : ∀ p : Producer, nameLayout p.name.toUTF8 ++ rest =
      front ++ (p.name.toUTF8 ++ rest) := by
    intro p
    simp [front, nameLayout, p.size_name, ByteArray.append_assoc]
  have hnames : other.name.toUTF8.size = producer.name.toUTF8.size := by
    simp [Producer.size_name]
  rw [substituteProducer, peekProducer_nameLayout]
  simp only [bind, Except.bind, ne_eq, not_true_eq_false, if_false]
  rw [hstart producer, hstart other, hnames]
  have hbefore : (front ++ (producer.name.toUTF8 ++ rest)).extract 0 nameOffset = front :=
    ByteArray.extract_append_eq_left hfront.symm
  have hbehind : (front ++ (producer.name.toUTF8 ++ rest)).extract
      (nameOffset + producer.name.toUTF8.size)
      (front ++ (producer.name.toUTF8 ++ rest)).size = rest := by
    rw [← ByteArray.append_assoc]
    apply ByteArray.extract_append_eq_right
    · rw [ByteArray.size_append, hfront]
    · rw [ByteArray.size_append]
  rw [hbefore, hbehind, ByteArray.append_assoc]

/-- Whatever starts with a name is read under either name as if it started with the reader's own; if
it does not, that is reported first. -/
theorem decodeCompatible_nameLayout {σ : Type} [Resolver σ] (source : σ)
    (producer other : Producer) (rest : ByteArray) :
    decodeCompatible producer source (nameLayout other.name.toUTF8 ++ rest) =
      let decoded := decode producer source (nameLayout producer.name.toUTF8 ++ rest)
      if other = producer then decoded
      else { decoded with
        notices := .producerAliased other.name producer.name :: decoded.notices } := by
  simp only [decodeCompatible, peekProducer_nameLayout, Producer.ofName?_name]
  by_cases hname : other = producer
  · rw [if_pos hname, if_pos hname, hname]
  · rw [if_neg hname, if_neg hname, substituteProducer_nameLayout]

/-- Under which name an event stands does not show in what is read. -/
theorem decodeCompatible_value_nameLayout {σ : Type} [Resolver σ] (source : σ)
    (producer other : Producer) (rest : ByteArray) :
    (decodeCompatible producer source (nameLayout other.name.toUTF8 ++ rest)).value =
      (decode producer source (nameLayout producer.name.toUTF8 ++ rest)).value := by
  rw [decodeCompatible_nameLayout]
  by_cases hname : other = producer
  · rw [if_pos hname]
  · rw [if_neg hname]

end Wire

end EventSnapshot
