import EventSnapshot.Proofs.Wire.HalfWritten
import EventSnapshot.Proofs.Wire.Stream
import Mathlib.Data.List.TakeWhile

/-!
# Appending to one output

Events are appended to one output, and some of these writings fail. A failed writing takes nothing
back: the header and the parts in front of the first one beyond its limit stay in the output. The
output is then read up to this place and no further, so that all events behind it are lost. If the
output is cut back to its former size after each failure, all other events are read.
-/

namespace EventSnapshot.Wire

/-- The output after some events of some threads were appended to it, be it in vain. -/
def appendEvents (producer : Producer) (output : ByteArray) (sent : List (Event × Thread)) :
    ByteArray :=
  sent.foldl (fun output pair => (writeEvent producer none output pair.1 pair.2).output) output

/-- The output after an event was appended to it, or was cut to its former size because that
failed. -/
def writeOrCut (producer : Producer) (output : ByteArray) (pair : Event × Thread) : ByteArray :=
  let written := writeEvent producer none output pair.1 pair.2
  if written.result.isOk then written.output else written.output.extract 0 output.size

/-- The output after some events of some threads were appended to it, with each failure followed by
a cut. -/
def appendOrCut (producer : Producer) (output : ByteArray) (sent : List (Event × Thread)) :
    ByteArray :=
  sent.foldl (writeOrCut producer) output

/-- Whether an event of a thread is written as a whole. -/
def isWritten (producer : Producer) (pair : Event × Thread) : Bool :=
  (encode producer pair.1 pair.2).isOk

/-- What is appended of an event: its header, and the parts of its record in front of the first one
beyond its limit. -/
def appended (producer : Producer) (pair : Event × Thread) : ByteArray :=
  headerLayout producer ++ partsLayout (partsWithin (pair.1.record pair.2).parts)

variable {producer : Producer} {pair : Event × Thread} {sent : List (Event × Thread)}

/-! ## What is appended -/

/-- An event is written as a whole if no part of its record is beyond its limit. -/
theorem isWritten_iff :
    isWritten producer pair ↔ firstExcess? (pair.1.record pair.2).parts = none := by
  rw [isWritten, encode, writeEvent_none, partsResult]
  cases firstExcess? (pair.1.record pair.2).parts <;> simp [Except.map, Except.isOk, Except.toBool]

/-- If an event is written as a whole, its encoding is appended. -/
theorem encode_of_isWritten (h : isWritten producer pair) :
    encode producer pair.1 pair.2 = .ok (appended producer pair) := by
  rw [encode, writeEvent_none, partsResult, isWritten_iff.mp h, appended]
  simp [Except.map]

/-- A writing leaves what the output held, and appends to it. -/
theorem writeEvent_appends (producer : Producer) (output : ByteArray) (pair : Event × Thread) :
    let written := writeEvent producer none output pair.1 pair.2
    written.result.isOk = isWritten producer pair ∧
      written.output = output ++ appended producer pair := by
  simp only [isWritten, encode, writeEvent_none, appended, ByteArray.append_assoc, and_true]
  cases partsResult (pair.1.record pair.2).parts <;> rfl

/-- Something is always appended. -/
theorem size_appended_pos (producer : Producer) (pair : Event × Thread) :
    0 < (appended producer pair).size := by
  rw [appended, ByteArray.size_append]
  exact Nat.add_pos_left (size_headerLayout_pos producer) _

/-- The output of several writings holds what each of them appended. -/
theorem appendEvents_eq (producer : Producer) (output : ByteArray) (sent : List (Event × Thread)) :
    appendEvents producer output sent = output ++ joined (sent.map (appended producer)) := by
  induction sent generalizing output with
  | nil => exact ByteArray.append_empty.symm
  | cons pair sent ih =>
    have hcons : appendEvents producer output (pair :: sent) =
        appendEvents producer (output ++ appended producer pair) sent :=
      congrArg (appendEvents producer · sent) (writeEvent_appends producer output pair).2
    rw [hcons, ih, List.map_cons, joined_cons, ByteArray.append_assoc]

/-- A cut after a failure leaves the output as it was. -/
theorem writeOrCut_eq (producer : Producer) (output : ByteArray) (pair : Event × Thread) :
    writeOrCut producer output pair =
      if isWritten producer pair then output ++ appended producer pair else output := by
  obtain ⟨hresult, houtput⟩ := writeEvent_appends producer output pair
  simp only [writeOrCut, hresult, houtput, ByteArray.extract_append_eq_left]

/-- With a cut after each failure, the output holds what was appended without failure. -/
theorem appendOrCut_eq (producer : Producer) (output : ByteArray) (sent : List (Event × Thread)) :
    appendOrCut producer output sent =
      output ++ joined ((sent.filter (isWritten producer)).map (appended producer)) := by
  induction sent generalizing output with
  | nil => exact ByteArray.append_empty.symm
  | cons pair sent ih =>
    have hcons : appendOrCut producer output (pair :: sent) =
        appendOrCut producer (writeOrCut producer output pair) sent := rfl
    rw [hcons, ih, writeOrCut_eq, List.filter_cons]
    split
    · rw [List.map_cons, joined_cons, ByteArray.append_assoc]
    · rfl

/-! ## What is read back -/

variable {σ : Type} [Resolver σ]

/-- At the end of the bytes, no more events are read. -/
theorem readEvents_of_size_le (source : σ) {bytes : ByteArray} {position : Nat}
    (h : bytes.size ≤ position) (fuel : Nat) :
    readEvents producer bytes fuel source position = ⟨([], none), source, []⟩ := by
  cases fuel with
  | zero => rfl
  | succ fuel => rw [readEvents, if_pos h]

/-- Byte strings that are not empty have at least one byte each. -/
theorem length_le_size_joined {parts : List ByteArray} (h : ∀ part ∈ parts, 0 < part.size) :
    parts.length ≤ (joined parts).size := by
  induction parts with
  | nil => exact Nat.zero_le _
  | cons part parts ih =>
    obtain ⟨hpart, hparts⟩ := List.forall_mem_cons.mp h
    have hmore := ih hparts
    rw [List.length_cons, joined_cons, ByteArray.size_append]
    omega

/-- Events that were written as a whole are read in front of whatever stands behind them. -/
theorem readAll_append (source : σ) {front : List (Event × Thread)}
    (hwritten : ∀ pair ∈ front, isWritten producer pair)
    (hsurvives : ∀ pair ∈ front, pair.1.MappedSurvives pair.2) (tail : ByteArray) :
    let encodings := front.map (appended producer)
    let bytes := joined encodings ++ tail
    ∃ fuel, tail.size ≤ fuel ∧
      let later := readEvents producer bytes fuel
        (resolverAfter source (front.map fun pair => pair.1.level)) (joined encodings).size
      (readAll producer source bytes).value =
        (arrivals source 0 front encodings ++ later.value.1, later.value.2) := by
  intro encodings bytes
  have hencodings : Encodings producer front encodings := by
    rw [Encodings, List.forall₂_map_right_iff, List.forall₂_same]
    exact fun pair hpair => encode_of_isWritten (hwritten pair hpair)
  have hlength : front.length ≤ (joined encodings).size := by
    have hle : encodings.length ≤ (joined encodings).size := by
      apply length_le_size_joined
      intro part hpart
      obtain ⟨pair, -, rfl⟩ := List.mem_map.mp hpart
      exact size_appended_pos producer pair
    simpa [encodings] using hle
  have hsize : bytes.size = (joined encodings).size + tail.size := ByteArray.size_append
  have hread := readEvents_add hencodings hsurvives source (Nat.zero_le _)
    (show bytes.extract 0 bytes.size = joined encodings ++ tail from ByteArray.extract_zero_size)
    (bytes.size - front.length)
  rw [Nat.add_sub_cancel' (by omega), Nat.zero_add] at hread
  exact ⟨bytes.size - front.length, by omega, hread.1⟩

/-- If all events were written as a whole, all are read. -/
theorem readAll_of_written (source : σ) {sent : List (Event × Thread)}
    (hwritten : ∀ pair ∈ sent, isWritten producer pair)
    (hsurvives : ∀ pair ∈ sent, pair.1.MappedSurvives pair.2) :
    (readAll producer source (joined (sent.map (appended producer)))).value =
      (arrivals source 0 sent (sent.map (appended producer)), none) := by
  obtain ⟨fuel, -, hread⟩ := readAll_append source hwritten hsurvives .empty
  rw [ByteArray.append_empty, readEvents_of_size_le _ (Nat.le_refl _)] at hread
  rw [hread, List.append_nil]

/-- What several writings append is nothing or starts with a header. -/
theorem nextRecord_appended (producer : Producer) (sent : List (Event × Thread)) :
    NextRecord (joined (sent.map (appended producer))) := by
  cases sent with
  | nil => exact .inl rfl
  | cons pair sent =>
    refine .inr ⟨producer, partsLayout (partsWithin (pair.1.record pair.2).parts) ++
      joined (sent.map (appended producer)), ?_⟩
    rw [List.map_cons, joined_cons, appended, ByteArray.append_assoc]

/-- The reading ends with an error behind the events in front of the first that was not written as a
whole, whatever was appended later. -/
theorem readAll_of_failed (source : σ) {front later : List (Event × Thread)}
    (hwritten : ∀ pair ∈ front, isWritten producer pair)
    (hsurvives : ∀ pair ∈ front, pair.1.MappedSurvives pair.2)
    (hfailed : ¬isWritten producer pair) :
    ∃ error,
      (readAll producer source (appendEvents producer .empty (front ++ pair :: later))).value =
        (arrivals source 0 front (front.map (appended producer)), some error) := by
  let tail := appended producer pair ++ joined (later.map (appended producer))
  let bytes := joined (front.map (appended producer)) ++ tail
  have hbytes : appendEvents producer .empty (front ++ pair :: later) = bytes := by
    rw [appendEvents_eq, ByteArray.empty_append, List.map_append, joined_append, List.map_cons,
      joined_cons]
  obtain ⟨amount, hexcess⟩ : ∃ amount,
      firstExcess? (pair.1.record pair.2).parts = some amount := by
    rw [isWritten_iff] at hfailed
    exact Option.ne_none_iff_exists'.mp hfailed
  have hpos := size_appended_pos producer pair
  have hsize : bytes.size = (joined (front.map (appended producer))).size + tail.size :=
    ByteArray.size_append
  have htail : tail.size = (appended producer pair).size +
      (joined (later.map (appended producer))).size := ByteArray.size_append
  obtain ⟨fuel, hfuel, hread⟩ := readAll_append source hwritten hsurvives tail
  -- At least one more event is tried, since the header of the failed one has bytes.
  obtain ⟨fuel, rfl⟩ : ∃ more, fuel = more + 1 := ⟨fuel - 1, by omega⟩
  have hmore : ¬bytes.size ≤ (joined (front.map (appended producer))).size := by omega
  have hrefuses : (readRecord producer).Refuses
      (bytes.extract (joined (front.map (appended producer))).size bytes.size) := by
    have hsplit : tail = headerLayout producer ++
        (partsLayout (partsWithin (pair.1.record pair.2).parts) ++
          joined (later.map (appended producer))) := ByteArray.append_assoc
    rw [ByteArray.extract_append_eq_right rfl hsize, hsplit]
    exact refuses_readRecord producer hexcess (nextRecord_appended producer later)
  obtain ⟨error, herror⟩ := readEvent_of_refuses
    (resolverAfter source (front.map fun pair => pair.1.level)) (Nat.le_of_not_le hmore) hrefuses
  refine ⟨error, ?_⟩
  rw [hbytes, hread, readEvents, if_neg hmore, herror, List.append_nil]

/-- What becomes of several writings to one output, and what is read of it. -/
structure ReadsBackWritten (producer : Producer) (source : σ) (sent : List (Event × Thread)) :
    Prop where
  /-- Each writing appends the header of the record and its parts, up to the first one beyond its
  limit. If there is one, the writing fails, and nothing is taken back. -/
  appends : ∀ (output : ByteArray) (pair : Event × Thread),
    let written := writeEvent producer none output pair.1 pair.2
    written.result.isOk = isWritten producer pair ∧
      written.output = output ++ headerLayout producer ++
        partsLayout (partsWithin (pair.1.record pair.2).parts)
  /-- The events in front of the first failure are read, and the reading ends there with an error.
  If there is no failure, all events are read. -/
  front :
    let front := sent.takeWhile (isWritten producer)
    let read := (readAll producer source (appendEvents producer .empty sent)).value
    read.1 = arrivals source 0 front (front.map (appended producer)) ∧
      (read.2 = none ↔ ∀ pair ∈ sent, isWritten producer pair)
  /-- With a cut after each failure, exactly the other events are read. -/
  cut :
    let written := sent.filter (isWritten producer)
    (readAll producer source (appendOrCut producer .empty sent)).value =
      (arrivals source 0 written (written.map (appended producer)), none)

/-- Of several writings to one output, those in front of the first failure are read back, and with a
cut after each failure, all that succeeded. -/
theorem readsBackWritten (producer : Producer) (source : σ) (sent : List (Event × Thread))
    (hsurvives : ∀ pair ∈ sent, isWritten producer pair → pair.1.MappedSurvives pair.2) :
    ReadsBackWritten producer source sent where
  appends := by
    intro output pair written
    obtain ⟨hresult, houtput⟩ := writeEvent_appends producer output pair
    rw [ByteArray.append_assoc]
    exact ⟨hresult, houtput⟩
  front := by
    intro front read
    have hfront : ∀ pair ∈ front, isWritten producer pair := fun _ => List.mem_takeWhile_imp
    have hmapped : ∀ pair ∈ front, pair.1.MappedSurvives pair.2 := fun pair hpair =>
      hsurvives pair ((List.takeWhile_prefix _).subset hpair) (hfront pair hpair)
    have hsplit : front ++ sent.dropWhile (isWritten producer) = sent :=
      List.takeWhile_append_dropWhile
    cases hback : sent.dropWhile (isWritten producer) with
    | nil =>
      have hall : front = sent := by rw [← hsplit, hback, List.append_nil]
      have hread : read = (arrivals source 0 front (front.map (appended producer)), none) := by
        rw [← readAll_of_written source hfront hmapped, hall]
        simp only [read, appendEvents_eq, ByteArray.empty_append]
      rw [hread]
      exact ⟨rfl, fun _ => hall ▸ hfront, fun _ => rfl⟩
    | cons pair later =>
      have hfailed : ¬isWritten producer pair := by
        have hhead := List.head?_dropWhile_not (isWritten producer) sent
        rw [hback] at hhead
        simpa using hhead
      rw [hback] at hsplit
      obtain ⟨error, hread⟩ := readAll_of_failed source hfront hmapped hfailed
      rw [hsplit] at hread
      refine ⟨congrArg Prod.fst hread, fun hnone => ?_, fun hall => ?_⟩
      · rw [show read.2 = some error from congrArg Prod.snd hread] at hnone
        cases hnone
      · exact absurd (hall pair (by rw [← hsplit]; simp)) hfailed
  cut := by
    intro written
    have hwritten : ∀ pair ∈ written, isWritten producer pair :=
      fun _ hpair => (List.mem_filter.mp hpair).2
    rw [appendOrCut_eq, ByteArray.empty_append]
    exact readAll_of_written source hwritten fun pair hpair =>
      hsurvives pair (List.mem_filter.mp hpair).1 (hwritten pair hpair)

/-- The count of its lines is the first excess of an event that is otherwise within the limits. -/
theorem firstExcess?_of_lines {lines : List String} (h : maxEntries < lines.length) :
    let thread := (Thread.new (some "main")).put "admitted" (.ofBool true)
    let event := Event.new none none 1 .info none (some ⟨lines⟩)
    firstExcess? (event.record thread).parts = some lines.length := by
  intro thread event
  let front : List Part := [.plain (markerLayout false), .plain (markerLayout false),
    .plain (bigEndian 8 1), .text "main", .plain (markerLayout false),
    .plain (markerLayout false), .count 1, .text "admitted", .text "true"]
  have hfront : front.findSome? Part.excess? = none := by decide
  have hcount : Part.excess? (.count lines.length) = some lines.length := if_neg (by omega)
  -- The lines themselves stand behind their count and are never looked at.
  change List.findSome? Part.excess? (front ++ Part.count lines.length :: _) = _
  rw [List.findSome?_append, hfront, List.findSome?_cons, hcount]
  rfl

/-- An event with too many lines between two others, on a thread with a mapped value. -/
theorem readsBackWritten_between :
    let thread := (Thread.new (some "main")).put "admitted" (.ofBool true)
    let first := Event.new none none 1 .info none none
    let long := Event.new none none 1 .info none (some ⟨List.replicate (maxEntries + 1) ""⟩)
    let last := Event.new none none 2 .info none none
    let sent := [(first, thread), (long, thread), (last, thread)]
    (∀ pair ∈ sent, isWritten .current pair → pair.1.MappedSurvives pair.2) ∧
      ReadsBackWritten .current Registry.empty sent ∧
      sent.takeWhile (isWritten .current) = [(first, thread)] ∧
      sent.filter (isWritten .current) = [(first, thread), (last, thread)] := by
  intro thread first long last sent
  have hlong : isWritten .current (long, thread) = false := by
    have hlines : maxEntries < (List.replicate (maxEntries + 1) "").length := by
      rw [List.length_replicate]
      omega
    rw [Bool.eq_false_iff, Ne, isWritten_iff, firstExcess?_of_lines hlines]
    simp
  have hfirst : isWritten .current (first, thread) := isWritten_iff.mpr (by decide)
  have hlast : isWritten .current (last, thread) := isWritten_iff.mpr (by decide)
  have hvalue : (Value.ofBool true).Survives := rfl
  have hsurvives : ∀ pair ∈ sent, isWritten .current pair → pair.1.MappedSurvives pair.2 := by
    intro pair hpair _
    have hpairs : pair = (first, thread) ∨ pair = (long, thread) ∨ pair = (last, thread) := by
      simpa [sent] using hpair
    rcases hpairs with rfl | rfl | rfl <;>
      exact Event.mappedSurvives_put rfl rfl rfl hvalue "admitted"
  refine ⟨hsurvives, readsBackWritten .current Registry.empty sent hsurvives, ?_, ?_⟩
  · simp [sent, hfirst, hlong]
  · simp [sent, hfirst, hlong, hlast]

/-- An event with too many lines changes an output that holds an event, and what is appended then is
not read back. -/
theorem appendEvents_of_lines {lines : List String} (h : maxEntries < lines.length) :
    let thread := (Thread.new (some "main")).put "admitted" (.ofBool true)
    let good := Event.new none none 1 .info none none
    let long := Event.new none none 1 .info none (some ⟨lines⟩)
    let held := appendEvents .current .empty [(good, thread)]
    let written := writeEvent .current none held long thread
    let sent := [(good, thread), (long, thread), (good, thread)]
    written.result = .error (.invalidLength lines.length) ∧ written.output ≠ held ∧
      (sent.filter (isWritten .current)).length = 2 ∧
      (readAll .current Registry.empty (appendEvents .current .empty sent)).value.1.length = 1 := by
  intro thread good long held written sent
  have hexcess : firstExcess? (long.record thread).parts = some lines.length :=
    firstExcess?_of_lines h
  have hgood : isWritten .current (good, thread) := isWritten_iff.mpr (by decide)
  have hlong : ¬isWritten .current (long, thread) := by
    rw [isWritten_iff, hexcess]
    simp
  have hresult : written.result = .error (.invalidLength lines.length) := by
    simp only [written, writeEvent_none, partsResult, hexcess]
  have houtput : written.output ≠ held := by
    have hpos := size_appended_pos .current (long, thread)
    have happended : written.output = held ++ appended .current (long, thread) :=
      (writeEvent_appends .current held (long, thread)).2
    intro hsame
    have hsize := congrArg ByteArray.size (happended.symm.trans hsame)
    rw [ByteArray.size_append] at hsize
    omega
  have hwritten : (sent.filter (isWritten .current)).length = 2 := by simp [sent, hgood, hlong]
  have hfront : ∀ pair ∈ [(good, thread)], isWritten .current pair := by simpa using hgood
  have hvalue : (Value.ofBool true).Survives := rfl
  have hsurvives : ∀ pair ∈ [(good, thread)], pair.1.MappedSurvives pair.2 := by
    intro pair hpair
    obtain rfl := List.mem_singleton.mp hpair
    exact Event.mappedSurvives_put rfl rfl rfl hvalue "admitted"
  obtain ⟨error, hread⟩ : ∃ error, (readAll .current Registry.empty (appendEvents .current .empty
      ([(good, thread)] ++ (long, thread) :: [(good, thread)]))).value =
        (arrivals Registry.empty 0 [(good, thread)] _, some error) :=
    readAll_of_failed Registry.empty hfront hsurvives hlong
  refine ⟨hresult, houtput, hwritten, ?_⟩
  rw [List.singleton_append] at hread
  rw [hread, arrivals, List.length_mapIdx]
  rfl

/-- An event of 1048577 empty lines, one more than a record may have, is written in vain. It changes
the output, and of the events in front of it and behind it only the first is read back. -/
theorem writeEvent_failed_changes :
    let thread := (Thread.new (some "main")).put "admitted" (.ofBool true)
    let good := Event.new none none 1 .info none none
    let long := Event.new none none 1 .info none (some ⟨List.replicate 1048577 ""⟩)
    let held := appendEvents .current .empty [(good, thread)]
    let written := writeEvent .current none held long thread
    let sent := [(good, thread), (long, thread), (good, thread)]
    written.result = .error (.invalidLength 1048577) ∧ written.output ≠ held ∧
      (sent.filter (isWritten .current)).length = 2 ∧
      (readAll .current Registry.empty (appendEvents .current .empty sent)).value.1.length = 1 := by
  have hlines : maxEntries < (List.replicate 1048577 "").length := by
    rw [List.length_replicate]
    decide
  have hwritten := appendEvents_of_lines hlines
  rw [List.length_replicate] at hwritten
  exact hwritten

end EventSnapshot.Wire
