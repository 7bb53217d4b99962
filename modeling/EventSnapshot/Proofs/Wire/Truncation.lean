import EventSnapshot.Proofs.Wire.Acceptance
import EventSnapshot.Proofs.Wire.Naming
import EventSnapshot.Proofs.Wire.RoundTrip

/-!
# Records that are cut short

What a reader gives is settled by the bytes that it takes. Bytes that are cut off within them end
the input too early, at whatever place they are cut, and bytes that follow them change nothing. So
the end of a record shows from the record alone, and none of two records is the start of the other.
-/

namespace EventSnapshot.Wire

namespace Reader

variable {α : Type} {reader : Reader α} {bytes : ByteArray} {start finish : Nat} {value : α}

/-- A reader that takes more bytes than there are finds the end of the input, whatever it would make
of the bytes that are there. -/
theorem run_extract_of_lt {stop : Nat} (h : reader.run bytes start = .ok (value, finish))
    (hstart : start ≤ stop) (hstop : stop < finish) :
    reader.run (bytes.extract 0 stop) start = .error .endOfInput := by
  induction reader generalizing start with
  | done result =>
    have hfinish : start = finish := by
      rw [run] at h
      cases h
      rfl
    omega
  | fail error =>
    rw [run] at h
    cases h
  | take count next ih =>
    rw [run] at h
    split at h
    · next hfits =>
      rw [run, ByteArray.size_extract]
      by_cases hcut : start + count ≤ stop
      · -- This read is in front of the cut, so it takes the same bytes.
        have hsame : (bytes.extract 0 stop).extract start (start + count) =
            bytes.extract start (start + count) := by
          rw [ByteArray.extract_extract, Nat.zero_add, Nat.zero_add, Nat.min_eq_left hcut]
        rw [if_pos (by omega), hsame]
        exact ih _ h hcut
      · rw [if_neg (by omega)]
    · cases h

/-- A reader that has what it takes does not look at what follows. -/
theorem run_extract_append (rest : ByteArray) (hstart : start ≤ bytes.size)
    (h : reader.run bytes start = .ok (value, finish)) :
    reader.run (bytes.extract 0 finish ++ rest) start = .ok (value, finish) := by
  obtain ⟨hle, hfinish, haccepts⟩ := (run_eq_ok_iff hstart).mp h
  have hsize : (bytes.extract 0 finish).size = finish := by
    rw [ByteArray.size_extract]
    omega
  have hnothing : rest.extract (start - finish) (finish - finish) = .empty := by
    apply ByteArray.extract_eq_empty_iff.mpr
    omega
  have hsame : (bytes.extract 0 finish ++ rest).extract start finish =
      bytes.extract start finish := by
    rw [ByteArray.extract_append, hsize, hnothing, ByteArray.append_empty,
      ByteArray.extract_extract, Nat.zero_add, Nat.zero_add, Nat.min_self]
  apply (run_eq_ok_iff ?_).mpr
  · rw [ByteArray.size_append, hsize, hsame]
    exact ⟨hle, by omega, haccepts⟩
  · rw [ByteArray.size_append, hsize]
    omega

/-- A reader that accepts some bytes accepts no more bytes that start with them. -/
theorem Accepts.eq_empty_of_append {front rest : ByteArray} {other : α}
    (h : reader.Accepts front value) (hlonger : reader.Accepts (front ++ rest) other) :
    rest = .empty := by
  have hfront : front = front ++ rest :=
    (h.eq_of_append_eq hlonger ByteArray.append_empty.symm).1
  have hsize := congrArg ByteArray.size hfront
  rw [ByteArray.size_append] at hsize
  apply ByteArray.size_eq_zero_iff.mp
  omega

end Reader

/-- Records under different names are not the start of each other. -/
theorem Record.producer_eq_of_layout_append {producer other : Producer}
    {record longer : Record String} {rest : ByteArray}
    (h : longer.layout other = record.layout producer ++ rest) : other = producer := by
  rw [Record.layout_eq_append, Record.layout_eq_append, ByteArray.append_assoc] at h
  have hname := peekProducer_nameLayout other longer.unnamed
  rw [h, peekProducer_nameLayout] at hname
  exact Producer.name_injective (Except.ok.inj hname).symm

variable {σ : Type} [Resolver σ] {producer : Producer} {bytes : ByteArray} {start finish : Nat}

/-- Where an event is read, the bytes that are taken are accepted as its record. -/
theorem accepts_of_readEvent {source : σ} {event : Event}
    (h : (readEvent producer source bytes start).value = .ok (event, finish)) :
    start ≤ bytes.size ∧ ∃ record,
      (readRecord producer).run bytes start = .ok (record, finish) ∧
        (readRecord producer).Accepts (bytes.extract start finish) record := by
  obtain ⟨record, hrun, -⟩ := (readEvent_value_eq_ok_iff source).mp h
  obtain ⟨_, -, hstands⟩ := run_readRecord_eq_ok_iff.mp hrun
  have hstart : start ≤ bytes.size := Nat.le_trans hstands.start_le hstands.finish_le
  exact ⟨hstart, record, hrun, ((Reader.run_eq_ok_iff hstart).mp hrun).2.2⟩

/-- A record that is read shows its own end. Cut off before that, it ends the input too early,
wherever it is cut; with anything behind it, the same is read; and it is not the start of another
record, whoever wrote that. -/
theorem readEvent_delimits (source : σ) {event : Event}
    (h : (readEvent producer source bytes start).value = .ok (event, finish)) :
    (∀ stop < finish, readEvent producer source (bytes.extract 0 stop) start =
      ⟨.error .endOfInput, source, []⟩) ∧
    (∀ rest, readEvent producer source (bytes.extract 0 finish ++ rest) start =
      readEvent producer source bytes start) ∧
    ∀ (τ : Type) [Resolver τ] (other : Producer) (second : τ) (longer : ByteArray)
      (first last : Nat) (found : Event),
      (readEvent other second longer first).value = .ok (found, last) →
        ∀ rest, longer.extract first last = bytes.extract start finish ++ rest →
          rest = .empty := by
  obtain ⟨hstart, record, hrun, haccepts⟩ := accepts_of_readEvent h
  refine ⟨?_, ?_, ?_⟩
  · intro stop hstop
    have hcut : (readRecord producer).run (bytes.extract 0 stop) start = .error .endOfInput := by
      by_cases hbehind : start ≤ stop
      · exact Reader.run_extract_of_lt hrun hbehind hstop
      · apply run_readRecord_of_size_lt
        rw [ByteArray.size_extract]
        omega
    rw [readEvent, hcut]
  · intro rest
    rw [readEvent, readEvent, Reader.run_extract_append rest hstart hrun, hrun]
  · intro τ _ other second longer first last found hfound rest hrest
    obtain ⟨-, record', -, haccepts'⟩ := accepts_of_readEvent hfound
    rw [hrest] at haccepts'
    obtain rfl : other = producer := by
      obtain ⟨spelled, -, -, hspelled⟩ := accepts_readRecord.mp haccepts
      obtain ⟨spelled', -, -, hspelled'⟩ := accepts_readRecord.mp haccepts'
      rw [hspelled] at hspelled'
      exact Record.producer_eq_of_layout_append hspelled'.symm
    exact haccepts.eq_empty_of_append haccepts'

/-- The record of an event with mapped context, a failure and a level of a named type, which a
registry does not know, with one more byte behind it. -/
theorem readEvent_delimits_custom :
    let thread := (Thread.new (some "main")).put "admitted" (.ofBool true)
    let level := Level.custom "Audit" 25000 "AUDIT" 5
    let event := Event.new (some "app::log") none 1 level (some (.text "hello"))
      (some ⟨["broken"]⟩)
    let read (bytes : ByteArray) := readEvent .current Registry.empty bytes 0
    ∃ encoded, encode .current event thread = .ok encoded ∧
      (read (encoded ++ ⟨#[0x4c]⟩)).value = .ok (event.received thread .info, encoded.size) ∧
      (∀ stop < encoded.size, (read ((encoded ++ ⟨#[0x4c]⟩).extract 0 stop)).value =
        .error .endOfInput) ∧
      (∀ rest, (read ((encoded ++ ⟨#[0x4c]⟩).extract 0 encoded.size ++ rest)).value =
        .ok (event.received thread .info, encoded.size)) := by
  intro thread level event read
  have hencode : encode .current event thread = .ok _ := encode_eq_ok_iff.mpr ⟨by decide, rfl⟩
  have hsurvives : event.MappedSurvives thread := by
    rintro _ ⟨⟩ entry hentry
    obtain rfl := List.mem_singleton.mp hentry
    rfl
  generalize hlayout : Record.layout _ _ = encoded at hencode
  have hread : (read (encoded ++ ⟨#[0x4c]⟩)).value =
      .ok (event.received thread .info, encoded.size) := by
    have hfits : 0 + encoded.size ≤ (encoded ++ ⟨#[0x4c]⟩).size := by
      rw [ByteArray.size_append]
      omega
    have hextract : (encoded ++ ⟨#[0x4c]⟩).extract 0 (0 + encoded.size) = encoded := by
      rw [Nat.zero_add]
      exact ByteArray.extract_append_eq_left rfl
    change (readEvent .current Registry.empty _ 0).value = _
    rw [readEvent_of_encode Registry.empty hencode hsurvives hfits hextract, Nat.zero_add]
    rfl
  obtain ⟨hcut, hmore, -⟩ := readEvent_delimits Registry.empty hread
  refine ⟨encoded, hencode, hread, ?_, ?_⟩
  · intro stop hstop
    exact congrArg (·.value) (hcut stop hstop)
  · intro rest
    have hsame : read ((encoded ++ ⟨#[0x4c]⟩).extract 0 encoded.size ++ rest) =
        read (encoded ++ ⟨#[0x4c]⟩) := hmore rest
    rw [hsame]
    exact hread

end EventSnapshot.Wire
