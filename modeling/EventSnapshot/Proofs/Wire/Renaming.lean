import EventSnapshot.Proofs.Wire.EitherName
import EventSnapshot.Proofs.Wire.NormalForm

/-!
# Renaming in place

A record is put under the name of another producer by overwriting the name where it stands. The
names are equally long, so nothing moves and nothing else changes, and a check of the start makes
sure that there is such a name to overwrite. Renaming a record gives the record that would have been
written under the other name.
-/

namespace EventSnapshot.Wire

/-- Puts bytes over a stretch of a buffer. There is no result if the stretch does not lie in the
buffer, or is not as long as they are. -/
def overwrite? (buffer : ByteArray) (start finish : Nat) (patch : ByteArray) : Option ByteArray :=
  if start ≤ finish ∧ finish ≤ buffer.size ∧ patch.size = finish - start then
    some (buffer.extract 0 start ++ patch ++ buffer.extract finish buffer.size)
  else none

/-- A buffer after a renaming, and what the renaming reports. -/
structure Renaming where
  buffer : ByteArray
  result : Except WireError Unit

namespace Renaming

/-- Puts the name `target` over the name `source`, which the buffer must start with. There is no
result if there is no room for the name where it is put. -/
def inPlace? (source target : Producer) (buffer : ByteArray) : Option Renaming :=
  match peekProducer buffer with
  | .error error => some ⟨buffer, .error error⟩
  | .ok found =>
    if found ≠ source.name then some ⟨buffer, .error (.producerMismatch source.name found)⟩
    else
      let name := target.name.toUTF8
      (overwrite? buffer nameOffset (nameOffset + name.size) name).map (⟨·, .ok ()⟩)

/-- The renaming of a buffer whose copy under the new name is given, or the reason why there is
none. -/
def ofCopy (buffer : ByteArray) : Except WireError ByteArray → Renaming
  | .ok copy => ⟨copy, .ok ()⟩
  | .error error => ⟨buffer, .error error⟩

end Renaming

/-! ## What is renamed -/

/-- A copy under another name exists exactly of what starts with the first name, and it has the
other one in its place. -/
theorem substituteProducer_eq_ok_iff {source target : Producer} {buffer copy : ByteArray} :
    substituteProducer buffer source target = .ok copy ↔
      ∃ rest, buffer = nameLayout source.name.toUTF8 ++ rest ∧
        copy = nameLayout target.name.toUTF8 ++ rest := by
  constructor
  · intro hcopy
    have hname : peekProducer buffer = .ok source.name := by
      rw [substituteProducer] at hcopy
      cases hpeek : peekProducer buffer with
      | error error => simp [hpeek, bind, Except.bind] at hcopy
      | ok found =>
        by_cases hfound : found = source.name
        · rw [hfound]
        · simp [hpeek, bind, Except.bind, hfound] at hcopy
    obtain ⟨-, rest, rfl⟩ := peekProducer_eq_ok_iff.mp hname
    rw [substituteProducer_nameLayout, Except.ok.injEq] at hcopy
    exact ⟨rest, rfl, hcopy.symm⟩
  · rintro ⟨rest, rfl, rfl⟩
    exact substituteProducer_nameLayout source target rest

/-- What starts with a name has room for every name at its place. -/
theorem nameOffset_add_size_le {source : Producer} {buffer : ByteArray} (target : Producer)
    (hname : peekProducer buffer = .ok source.name) :
    nameOffset + target.name.toUTF8.size ≤ buffer.size := by
  obtain ⟨-, rest, rfl⟩ := peekProducer_eq_ok_iff.mp hname
  simp [nameLayout, nameOffset, Producer.size_name]

/-- The place of the name is always within the buffer, and overwriting it has the outcome of the
renamed copy. -/
theorem Renaming.inPlace?_eq (source target : Producer) (buffer : ByteArray) :
    inPlace? source target buffer =
      some (ofCopy buffer (substituteProducer buffer source target)) := by
  rw [inPlace?, substituteProducer]
  cases hpeek : peekProducer buffer with
  | error error => rfl
  | ok found =>
    by_cases hfound : found = source.name
    · have hroom := nameOffset_add_size_le target (hfound ▸ hpeek)
      have hover : overwrite? buffer nameOffset (nameOffset + target.name.toUTF8.size)
          target.name.toUTF8 = some _ :=
        if_pos ⟨Nat.le_add_right _ _, hroom, (Nat.add_sub_cancel_left ..).symm⟩
      simp only [bind, Except.bind, hfound, ne_eq, not_true_eq_false, if_false, hover,
        Option.map_some, ofCopy]
    · simp [bind, Except.bind, hfound, ofCopy]

/-- Under two names, the bytes in front of the name and behind it are the same. -/
theorem getElem?_nameLayout_append (source target : Producer) (rest : ByteArray) {i : Nat}
    (hi : i < nameOffset ∨ nameOffset + target.name.utf8ByteSize ≤ i) :
    (nameLayout target.name.toUTF8 ++ rest).data[i]? =
      (nameLayout source.name.toUTF8 ++ rest).data[i]? := by
  let front := bigEndian 2 magic ++ bigEndian 2 24
  have hfront : front.data.size = nameOffset := by simp [front, nameOffset]
  have hstart (producer : Producer) : (nameLayout producer.name.toUTF8 ++ rest).data =
      front.data ++ (producer.name.toUTF8.data ++ rest.data) := by
    simp [front, nameLayout, producer.size_name]
  have hsize (producer : Producer) : producer.name.toUTF8.data.size = 24 := producer.size_name
  rw [target.size_name] at hi
  rcases hi with hbefore | hbehind
  · rw [hstart, hstart, Array.getElem?_append_left (by omega),
      Array.getElem?_append_left (by omega)]
  · have hrest (producer : Producer) : (nameLayout producer.name.toUTF8 ++ rest).data[i]? =
        rest.data[i - nameOffset - 24]? := by
      have hname := hsize producer
      rw [hstart, Array.getElem?_append_right (by omega),
        Array.getElem?_append_right (by omega), hfront, hname]
    rw [hrest, hrest]

/-! ## Renaming -/

/-- Putting one name in the place of another is an exact renaming. -/
structure RenamesInPlace (source target : Producer) : Prop where
  /-- The place of the name is always within the buffer. The outcome is the renamed copy, or else
  the buffer as it was and the reason. -/
  inPlace : ∀ buffer, Renaming.inPlace? source target buffer =
    some (.ofCopy buffer (substituteProducer buffer source target))
  /-- It succeeds exactly for what starts with the first name. -/
  ok_iff : ∀ buffer, (∃ after, substituteProducer buffer source target = .ok after) ↔
    ∃ rest, buffer = nameLayout source.name.toUTF8 ++ rest
  /-- The length stays. -/
  size : ∀ buffer after, substituteProducer buffer source target = .ok after →
    after.size = buffer.size
  /-- Only the bytes of the name change. -/
  outside : ∀ buffer after, substituteProducer buffer source target = .ok after →
    ∀ i, i < nameOffset ∨ nameOffset + source.name.utf8ByteSize ≤ i →
      after.data[i]? = buffer.data[i]?
  /-- The other name is found then. -/
  peek : ∀ buffer after, substituteProducer buffer source target = .ok after →
    peekProducer after = .ok target.name
  /-- Renaming back gives what there was. -/
  restored : ∀ buffer after, substituteProducer buffer source target = .ok after →
    substituteProducer after target source = .ok buffer
  /-- An encoded event becomes what the same event is encoded as under the other name, and so does
  the event that is prepared by that, whoever encodes it. -/
  encode : ∀ event thread bytes, encode source event thread = .ok bytes →
    substituteProducer bytes source target = encode target event thread ∧
    ∀ other, substituteProducer bytes source target = encode target (event.prepare thread) other

/-- Putting one name in the place of another is an exact renaming, of every buffer and for every two
names. -/
theorem renamesInPlace (source target : Producer) : RenamesInPlace source target where
  inPlace := Renaming.inPlace?_eq source target
  ok_iff := by
    intro buffer
    simp only [substituteProducer_eq_ok_iff]
    constructor
    · rintro ⟨after, rest, hbuffer, -⟩
      exact ⟨rest, hbuffer⟩
    · rintro ⟨rest, hbuffer⟩
      exact ⟨_, rest, hbuffer, rfl⟩
  size := by
    intro buffer after hafter
    obtain ⟨rest, rfl, rfl⟩ := substituteProducer_eq_ok_iff.mp hafter
    simp [nameLayout, Producer.size_name]
  outside := by
    intro buffer after hafter i hi
    obtain ⟨rest, rfl, rfl⟩ := substituteProducer_eq_ok_iff.mp hafter
    rw [source.size_name, ← target.size_name] at hi
    exact getElem?_nameLayout_append source target rest hi
  peek := by
    intro buffer after hafter
    obtain ⟨rest, rfl, rfl⟩ := substituteProducer_eq_ok_iff.mp hafter
    exact peekProducer_nameLayout target rest
  restored := by
    intro buffer after hafter
    obtain ⟨rest, rfl, rfl⟩ := substituteProducer_eq_ok_iff.mp hafter
    exact substituteProducer_nameLayout target source rest
  encode := by
    intro event thread bytes hencode
    have hprepared (other : Thread) :
        encode target (event.prepare thread) other = encode target event thread :=
      encode_congr (event.record_prepare_eq thread other)
    have hrenamed : substituteProducer bytes source target = encode target event thread := by
      obtain ⟨hfits, rfl⟩ := encode_eq_ok_iff.mp hencode
      rw [Record.layout_eq_append, substituteProducer_nameLayout, ← Record.layout_eq_append]
      exact (encode_eq_ok_iff.mpr ⟨hfits, rfl⟩).symm
    exact ⟨hrenamed, fun other => (hrenamed.trans (hprepared other).symm)⟩

end EventSnapshot.Wire
