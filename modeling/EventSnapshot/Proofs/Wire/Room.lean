import EventSnapshot.Proofs.Wire.Truncation

/-!
# Limited room

An output that has room for a number of bytes takes the record of an event up to the last byte that
fits, in whatever portions it takes what it is offered. So the event is written as a whole if its
encoding fits, and otherwise exactly the bytes that fit are there, which are no record.
-/

namespace EventSnapshot.Wire

/-! ## Writers -/

/-- An output that has room for some bytes and fills up before it fails. Of the bytes that it is
offered, it takes a first portion: never more than it has room for, and never nothing while it has
room. -/
structure Writer (σ : Type) where
  /-- How many bytes there is room for. -/
  room : σ → Nat
  /-- How many of some bytes are taken. -/
  taken : σ → ByteArray → Nat
  /-- The writer after it took them. -/
  after : σ → ByteArray → σ
  taken_le_size : ∀ state bytes, taken state bytes ≤ bytes.size
  room_after : ∀ state bytes, room (after state bytes) + taken state bytes = room state
  taken_pos : ∀ state bytes, 0 < bytes.size → 0 < room state → 0 < taken state bytes

/-- What fits is what there is room for. -/
theorem fitting_add (used room count : Nat) :
    fitting (some (used + room)) used count = min count room := by
  rw [fitting, Nat.add_sub_cancel_left]

namespace Writer

variable {σ : Type} (writer : Writer σ)

/-- Offers bytes, and then what was not taken of them, until all are taken or nothing is. Gives the
writer afterwards, what it holds, and whether all was taken. -/
def writeAll (state : σ) (out bytes : ByteArray) : σ × ByteArray × Bool :=
  if _h : bytes.size = 0 then (state, out, true)
  else
    let count := writer.taken state bytes
    if _hcount : count = 0 then (state, out, false)
    else
      writeAll (writer.after state bytes) (out ++ bytes.extract 0 count)
        (bytes.extract count bytes.size)
termination_by bytes.size
decreasing_by
  rw [ByteArray.size_extract]
  omega

/-- Writes pieces, up to the first that cannot be written. -/
def write (state : σ) (out : ByteArray) : List Piece → ByteArray × Except WireError Unit
  | [] => (out, .ok ())
  | .excess length :: _ => (out, .error (.invalidLength length))
  | .bytes bytes :: pieces =>
    match writer.writeAll state out bytes with
    | (state, out, true) => write state out pieces
    | (_, out, false) => (out, .error .noRoom)

/-- A writer takes as many of some bytes as it has room for. -/
theorem writeAll_spec (state : σ) (out bytes : ByteArray) :
    let written := writer.writeAll state out bytes
    let count := min bytes.size (writer.room state)
    writer.room written.1 + count = writer.room state ∧
      written.2.1 = out ++ bytes.extract 0 count ∧
      (written.2.2 = true ↔ bytes.size ≤ writer.room state) := by
  fun_induction writeAll writer state out bytes with
  | case1 state out bytes hempty =>
    have hnothing : bytes.extract 0 (min bytes.size (writer.room state)) = .empty := by
      apply ByteArray.extract_eq_empty_iff.mpr
      omega
    simp only [hnothing, ByteArray.append_empty, true_iff, true_and]
    omega
  | case2 state out bytes hbytes count hcount =>
    have hroom : writer.room state = 0 := by
      by_contra hroom
      have hpos := writer.taken_pos state bytes (by omega) (by omega)
      omega
    have hnothing : bytes.extract 0 (min bytes.size (writer.room state)) = .empty := by
      apply ByteArray.extract_eq_empty_iff.mpr
      omega
    simp only [hnothing, ByteArray.append_empty, Bool.false_eq_true, false_iff, true_and]
    omega
  | case3 state out bytes hbytes count hcount ih =>
    have hsize : count ≤ bytes.size := writer.taken_le_size state bytes
    have hroom : writer.room (writer.after state bytes) + count = writer.room state :=
      writer.room_after state bytes
    obtain ⟨hleft, hout, hall⟩ := ih
    rw [ByteArray.size_extract, Nat.min_self] at hleft hout hall
    -- What is taken later follows what was taken first.
    have hlater : min (count + min (bytes.size - count) (writer.room (writer.after state bytes)))
        bytes.size = min bytes.size (writer.room state) := by
      omega
    have hsplit : bytes.extract 0 count ++ (bytes.extract count bytes.size).extract 0
        (min (bytes.size - count) (writer.room (writer.after state bytes))) =
          bytes.extract 0 (min bytes.size (writer.room state)) := by
      rw [ByteArray.extract_extract, Nat.add_zero, hlater]
      exact (ByteArray.extract_eq_extract_append_extract count (by omega) (by omega)).symm
    refine ⟨by omega, ?_, hall.trans (by omega)⟩
    rw [hout, ByteArray.append_assoc, hsplit]

/-- Whatever the portions, what is written is settled by the room. -/
theorem write_eq (state : σ) (out : ByteArray) (pieces : List Piece) :
    writer.write state out pieces =
      Wire.write (some (out.size + writer.room state)) out pieces := by
  induction pieces generalizing state out with
  | nil => rfl
  | cons piece pieces ih =>
    cases piece with
    | excess length => rfl
    | bytes bytes =>
      obtain ⟨hroom, hout, hall⟩ := writer.writeAll_spec state out bytes
      rw [write, Wire.write, fitting_add]
      generalize writer.writeAll state out bytes = written at *
      obtain ⟨later, held, isWhole⟩ := written
      cases isWhole with
      | true =>
        have hsize : bytes.size ≤ writer.room state := hall.mp rfl
        rw [Nat.min_eq_left hsize] at hroom hout ⊢
        rw [ByteArray.extract_zero_size] at hout
        obtain rfl : held = out ++ bytes := hout
        dsimp only at hroom ⊢
        rw [if_pos rfl, ih, ByteArray.size_append]
        congr 2
        omega
      | false =>
        have hsize : ¬bytes.size ≤ writer.room state := fun h => Bool.noConfusion (hall.mpr h)
        rw [if_neg (by omega)]
        exact congrArg (·, Except.error WireError.noRoom) hout

/-- Appends the record of an event to an output through a writer. -/
def writeEvent (state : σ) (producer : Producer) (output : ByteArray) (event : Event)
    (thread : Thread) : Written :=
  let prepared := event.prepare thread
  let written := writer.write state output ((prepared.record thread).pieces producer)
  ⟨written.1, written.2, prepared, event.renderNotices⟩

/-- Whatever the portions, the outcome of writing an event is settled by the room. -/
theorem writeEvent_eq (state : σ) (producer : Producer) (output : ByteArray) (event : Event)
    (thread : Thread) : writer.writeEvent state producer output event thread =
      Wire.writeEvent producer (some (output.size + writer.room state)) output event thread := by
  simp only [writeEvent, Wire.writeEvent, write_eq]

/-- A writer that takes no more than a number of bytes at a time. Its state is the room that is
left. -/
def inPortions (most : Nat) (hmost : 0 < most) : Writer Nat where
  room left := left
  taken left bytes := min most (min bytes.size left)
  after left bytes := left - min most (min bytes.size left)
  taken_le_size left bytes := by omega
  room_after left bytes := by omega
  taken_pos left bytes hbytes hleft := by omega

end Writer

/-! ## What is written -/

/-- Pieces that emit some bytes are written up to the last byte that there is room for. -/
theorem write_of_emits {pieces : List Piece} {bytes : ByteArray} (h : Emits pieces bytes)
    (room : Nat) (out : ByteArray) :
    write (some (out.size + room)) out pieces =
      if bytes.size ≤ room then (out ++ bytes, .ok ())
      else (out ++ bytes.extract 0 room, .error .noRoom) := by
  induction pieces generalizing room out bytes with
  | nil =>
    obtain rfl : bytes = .empty := h
    rw [write, ByteArray.append_empty, ByteArray.size_empty, if_pos (Nat.zero_le _)]
  | cons piece pieces ih =>
    cases piece with
    | excess length => cases h
    | bytes front =>
      obtain ⟨rest, rfl, hrest⟩ := h
      rw [write, fitting_add, ByteArray.size_append]
      by_cases hfront : front.size ≤ room
      · -- The rest is written in what the front leaves of the room.
        have hroom : out.size + room = (out ++ front).size + (room - front.size) := by
          rw [ByteArray.size_append]
          omega
        have hwhole : front.extract 0 room = front := by
          rw [← Nat.max_eq_left hfront, ByteArray.extract_zero_max_size]
        have hcut : (front ++ rest).extract 0 room =
            front ++ rest.extract 0 (room - front.size) := by
          rw [ByteArray.extract_append, hwhole, Nat.zero_sub]
        rw [if_pos (Nat.min_eq_left hfront), hroom, ih hrest, hcut, ByteArray.append_assoc,
          ByteArray.append_assoc]
        exact if_congr (by omega) rfl rfl
      · have hnothing : rest.extract (0 - front.size) (room - front.size) = .empty := by
          apply ByteArray.extract_eq_empty_iff.mpr
          omega
        have hcut : (front ++ rest).extract 0 room = front.extract 0 room := by
          rw [ByteArray.extract_append, hnothing, ByteArray.append_empty]
        rw [if_neg (by omega), if_neg (by omega), Nat.min_eq_right (by omega), hcut]

variable {producer : Producer} {event : Event} {thread : Thread} {encoded : ByteArray}

/-- What is written of an encoded event is the start of its encoding that there is room for. -/
theorem writeEvent_of_encode (hencode : encode producer event thread = .ok encoded) (room : Nat)
    (output : ByteArray) :
    let written := writeEvent producer (some (output.size + room)) output event thread
    (written.output, written.result) =
      if encoded.size ≤ room then (output ++ encoded, .ok ())
      else (output ++ encoded.extract 0 room, .error .noRoom) :=
  write_of_emits ((emits_pieces _ _ _).mpr (encode_eq_ok_iff.mp hencode)) room output

/-- A start of an encoding is not read, whatever the resolver. -/
theorem decode_extract_of_encode {σ : Type} [Resolver σ] (source : σ)
    (hencode : encode producer event thread = .ok encoded) (hsurvives : event.MappedSurvives thread)
    {stop : Nat} (hstop : stop < encoded.size) :
    decode producer source (encoded.extract 0 stop) = ⟨.error .endOfInput, source, []⟩ := by
  have hextract : encoded.extract 0 (0 + encoded.size) = encoded := by
    rw [Nat.zero_add, ByteArray.extract_zero_size]
  have hread := congrArg (·.value)
    (readEvent_of_encode source hencode hsurvives (by omega) hextract)
  obtain ⟨-, record, hrun, -⟩ := accepts_of_readEvent hread
  have hcut := Reader.run_extract_of_lt hrun (Nat.zero_le stop) (by omega)
  rw [decode, readEvent, hcut]
  rfl

/-- What comes of writing an encoded event through a writer, however little room that has. -/
structure FillsRoom (producer : Producer) (event : Event) (thread : Thread)
    (encoded output : ByteArray) {σ : Type} (writer : Writer σ) (state : σ) : Prop where
  /-- The outcome is that of writing to an output with as much room. -/
  sameRoom : writer.writeEvent state producer output event thread =
    writeEvent producer (some (output.size + writer.room state)) output event thread
  /-- The writing succeeds exactly if there is room for the encoding. -/
  ok_iff : (writer.writeEvent state producer output event thread).result = .ok () ↔
    encoded.size ≤ writer.room state
  /-- Then the encoding is written. -/
  whole : encoded.size ≤ writer.room state →
    (writer.writeEvent state producer output event thread).output = output ++ encoded
  /-- Otherwise the writing fails for lack of room, and as many bytes of the encoding are written as
  there is room for. -/
  cut : writer.room state < encoded.size →
    let written := writer.writeEvent state producer output event thread
    written.result = .error .noRoom ∧
      written.output = output ++ encoded.extract 0 (writer.room state)
  /-- These end too early for a reader, if the mapped values survive. -/
  unread : writer.room state < encoded.size → event.MappedSurvives thread →
    ∀ (τ : Type) [Resolver τ] (source : τ),
      decode producer source (encoded.extract 0 (writer.room state)) =
        ⟨.error .endOfInput, source, []⟩

/-- Whatever has room for some bytes and fills up before it fails holds just that start of the
encoding of an event. -/
theorem fillsRoom (hencode : encode producer event thread = .ok encoded) (output : ByteArray)
    {σ : Type} (writer : Writer σ) (state : σ) :
    FillsRoom producer event thread encoded output writer state := by
  have hwritten := writeEvent_of_encode hencode (writer.room state) output
  rw [← writer.writeEvent_eq] at hwritten
  obtain ⟨houtput, hresult⟩ := Prod.ext_iff.mp hwritten
  dsimp only at houtput hresult
  exact {
    sameRoom := writer.writeEvent_eq state producer output event thread
    ok_iff := by
      rw [hresult]
      split <;> simp_all
    whole := by
      intro hfits
      rw [houtput, if_pos hfits]
    cut := by
      intro hshort written
      rw [hresult, houtput, if_neg (by omega)]
      exact ⟨rfl, rfl⟩
    unread := fun hshort hsurvives _ _ source =>
      decode_extract_of_encode source hencode hsurvives hshort }

/-- A writer that takes three bytes at a time runs out of room within the name of the producer. -/
theorem fillsRoom_inPortions :
    let thread := ((Thread.new (some "main")).push "request").put "admitted" (.ofBool true)
    let event := Event.new (some "app::log") none 1 .info (some (.text "hello"))
      (some ⟨["broken"]⟩)
    let writer := Writer.inPortions 3 (by decide)
    ∃ encoded, encode .current event thread = .ok encoded ∧ 10 < encoded.size ∧
      event.MappedSurvives thread ∧
      FillsRoom .current event thread encoded .empty writer 10 ∧
      (writer.writeEvent 10 .current .empty event thread).output =
        ⟨#[0x4c, 0x45, 0, 24, 108, 111, 103, 115, 110, 97]⟩ := by
  intro thread event writer
  have hencode : encode .current event thread = .ok _ := encode_eq_ok_iff.mpr ⟨by decide, rfl⟩
  have hvalue : (Value.ofBool true).Survives := rfl
  have hsurvives : event.MappedSurvives thread :=
    Event.mappedSurvives_put rfl rfl rfl hvalue "admitted"
  have hshort : 10 < (((event.prepare thread).record thread).layout .current).size := by
    decide +kernel
  have hfills := fillsRoom hencode .empty writer 10
  refine ⟨_, hencode, hshort, hsurvives, hfills, ?_⟩
  rw [(hfills.cut hshort).2]
  decide +kernel

end EventSnapshot.Wire
