import EventSnapshot.Proofs.Text.ByteOrder
import EventSnapshot.Proofs.Wire.RoundTrip

/-!
# The limits of a record

A record is written part by part. Texts and counts have a limit, and a part beyond its limit ends
the writing: the parts in front of it are in the output, and its length or count is what is
reported. So whether an event is encoded, and which of several excesses is reported if it is not, is
settled by the list of the parts of its record, in the order of the layout.
-/

namespace EventSnapshot.Wire

/-! ## Parts -/

/-- A part of a record, with what is checked before it is written. -/
inductive Part where
  /-- Bytes that are written without a check. -/
  | plain (bytes : ByteArray)
  /-- A text that is present, which may be too long. -/
  | text (text : String)
  /-- The count of a list that is present, which may be too great. -/
  | count (count : Nat)

namespace Part

/-- The length or the count of a part that is beyond its limit. -/
def excess? : Part → Option Nat
  | .plain _ => none
  | .text t => if t.utf8ByteSize ≤ maxLength then none else some t.utf8ByteSize
  | .count n => if n ≤ maxEntries then none else some n

/-- A text is within its limit if it is not too long. -/
theorem excess?_text_eq_none_iff {t : String} : excess? (.text t) = none ↔ Fits t := by
  simp [excess?, Fits]

/-- A count is within its limit if there may be as many entries. -/
theorem excess?_count_eq_none_iff {n : Nat} : excess? (.count n) = none ↔ n ≤ maxEntries := by
  simp [excess?]

/-- The bytes of a part. -/
def layout : Part → ByteArray
  | .plain bytes => bytes
  | .text t => textLayout t
  | .count n => countLayout (some n)

/-- What is written of a part. -/
def pieces : Part → List Piece
  | .plain bytes => [.bytes bytes]
  | .text t => textPieces t
  | .count n => [countPiece n]

/-- A text that may be absent. -/
def optionalText : Option String → Part
  | none => .plain (markerLayout false)
  | some t => .text t

/-- A counted list that may be absent: the count, and then the parts of each item. -/
def counted {α : Type} (item : α → List Part) : Option (List α) → List Part
  | none => [.plain (countLayout none)]
  | some items => .count items.length :: items.flatMap item

/-- An entry of the mapped context: the key, and then the text of the value. -/
def entry (entry : String × String) : List Part := [.text entry.1, .text entry.2]

/-- A location that may be absent. -/
def location : Option Location → List Part
  | none => [.plain (markerLayout false)]
  | some location =>
    [.plain (markerLayout true), .text location.className, .text location.methodName,
      .text location.fileName, .text location.lineNumber]

end Part

/-- The parts of a record behind its header, in their order. -/
def Record.parts (record : Record String) : List Part :=
  [Part.optionalText record.wrapper,
    Part.optionalText record.loggerName,
    .plain (bigEndian 8 record.timestamp.toUInt64.toNat),
    Part.optionalText record.threadName,
    Part.optionalText record.message,
    Part.optionalText record.nested] ++
  Part.counted Part.entry record.properties ++
  Part.counted (fun line => [.text line]) record.failure ++
  Part.location record.location ++
  [.plain (bigEndian 4 record.priority.toUInt32.toNat),
    Part.optionalText record.typeName]

/-- The length or the count of the first part that is beyond its limit. -/
def firstExcess? (parts : List Part) : Option Nat := parts.findSome? Part.excess?

/-- The parts in front of the first one that is beyond its limit. -/
def partsWithin (parts : List Part) : List Part := parts.takeWhile (·.excess?.isNone)

/-- The bytes of some parts, one after the other. -/
def partsLayout (parts : List Part) : ByteArray := joined (parts.map Part.layout)

/-- Whether all parts are written, and if not, why. -/
def partsResult (parts : List Part) : Except WireError Unit :=
  match firstExcess? parts with
  | none => .ok ()
  | some amount => .error (.invalidLength amount)

/-! ## The layout of parts -/

/-- The bytes of parts in sequence are those of the first followed by those of the others. -/
theorem partsLayout_append (first others : List Part) :
    partsLayout (first ++ others) = partsLayout first ++ partsLayout others := by
  rw [partsLayout, List.map_append, joined_append, partsLayout, partsLayout]

/-- The parts of items have the layouts of the items one after the other. -/
theorem partsLayout_flatMap {α : Type} {item : α → List Part} {layout : α → ByteArray}
    (hitem : ∀ a, partsLayout (item a) = layout a) (items : List α) :
    partsLayout (items.flatMap item) = joined (items.map layout) := by
  induction items with
  | nil => rfl
  | cons first items ih =>
    rw [List.flatMap_cons, partsLayout_append, hitem, ih, List.map_cons, joined_cons]

/-- The parts of a counted list have its layout if those of its items do. -/
theorem partsLayout_counted {α : Type} {item : α → List Part} {layout : α → ByteArray}
    (hitem : ∀ a, partsLayout (item a) = layout a) (items : Option (List α)) :
    partsLayout (Part.counted item items) = countedLayout layout items := by
  cases items with
  | none => rfl
  | some items =>
    rw [Part.counted, countedLayout, Option.getD_some, ← partsLayout_flatMap hitem]
    rfl

/-- The parts of a record have the layout of its fields. -/
theorem partsLayout_parts (record : Record String) :
    partsLayout record.parts = record.fieldLayout := by
  have htext (text : Option String) :
      (Part.optionalText text).layout = optionalTextLayout text := by
    cases text <;> rfl
  have hproperties : partsLayout (Part.counted Part.entry record.properties) =
      countedLayout entryLayout record.properties :=
    partsLayout_counted (fun _ => rfl) record.properties
  have hfailure : partsLayout (Part.counted (fun line => [.text line]) record.failure) =
      countedLayout textLayout record.failure :=
    partsLayout_counted (fun _ => ByteArray.append_empty) record.failure
  have hlocation : partsLayout (Part.location record.location) =
      locationLayout record.location := by
    cases record.location <;> rfl
  have hplain (bytes : ByteArray) : (Part.plain bytes).layout = bytes := rfl
  rw [Record.parts, partsLayout_append, partsLayout_append, partsLayout_append,
    partsLayout_append, hproperties, hfailure, hlocation]
  simp [partsLayout, htext, hplain, Record.fieldLayout, ByteArray.append_assoc]

/-! ## Writing parts -/

/-- A counted list is written in its parts if its items are. -/
theorem countedPieces_eq {α : Type} {pieces : α → List Piece} {item : α → List Part}
    (hitem : ∀ a, pieces a = (item a).flatMap Part.pieces) (items : Option (List α)) :
    countedPieces pieces items = (Part.counted item items).flatMap Part.pieces := by
  cases items with
  | none => rfl
  | some items =>
    have hitems : items.flatMap pieces = (items.flatMap item).flatMap Part.pieces := by
      rw [List.flatMap_assoc, funext hitem]
    rw [countedPieces, Part.counted, List.flatMap_cons, hitems]
    rfl

/-- The fields of a record are written in its parts. -/
theorem fieldPieces_eq (record : Record String) :
    record.fieldPieces = record.parts.flatMap Part.pieces := by
  have htext (text : Option String) :
      optionalTextPieces text = (Part.optionalText text).pieces := by
    cases text <;> rfl
  have hproperties : countedPieces entryPieces record.properties =
      (Part.counted Part.entry record.properties).flatMap Part.pieces :=
    countedPieces_eq (fun entry => by simp [entryPieces, Part.entry, Part.pieces]) record.properties
  have hfailure : countedPieces textPieces record.failure =
      (Part.counted (fun line => [.text line]) record.failure).flatMap Part.pieces :=
    countedPieces_eq (fun line => by simp [Part.pieces]) record.failure
  have hlocation : locationPieces record.location =
      (Part.location record.location).flatMap Part.pieces := by
    cases record.location <;> rfl
  simp [Record.fieldPieces, Record.parts, htext, hproperties, hfailure, hlocation, Part.pieces,
    numberPiece]

/-- With unlimited room, bytes are written and the writing goes on. -/
theorem write_bytes (output bytes : ByteArray) (others : List Piece) :
    write none output (.bytes bytes :: others) = write none (output ++ bytes) others :=
  if_pos rfl

/-- With unlimited room, a part is written and the writing goes on, unless the part is beyond its
limit. -/
theorem write_part (output : ByteArray) (part : Part) (others : List Piece) :
    write none output (part.pieces ++ others) =
      match part.excess? with
      | none => write none (output ++ part.layout) others
      | some amount => (output, .error (.invalidLength amount)) := by
  cases part with
  | plain bytes => exact write_bytes output bytes others
  | text text =>
    rw [Part.pieces, textPieces, Part.excess?, Part.layout]
    split
    · simp [markerPiece, numberPiece, write_bytes, textLayout, markerLayout,
        ByteArray.append_assoc]
    · rfl
  | count count =>
    rw [Part.pieces, countPiece, Part.excess?, Part.layout]
    split
    · exact write_bytes output _ others
    · rfl

/-- With unlimited room, the parts in front of the first one beyond its limit are written, and that
one is reported. -/
theorem write_parts (output : ByteArray) (parts : List Part) :
    write none output (parts.flatMap Part.pieces) =
      (output ++ partsLayout (partsWithin parts), partsResult parts) := by
  induction parts generalizing output with
  | nil => simp [write, partsLayout, partsWithin, partsResult, firstExcess?]
  | cons part parts ih =>
    rw [List.flatMap_cons, write_part]
    cases hexcess : part.excess? with
    | none =>
      simp [ih, partsLayout, partsWithin, partsResult, firstExcess?, hexcess,
        ByteArray.append_assoc]
    | some amount => simp [partsLayout, partsWithin, partsResult, firstExcess?, hexcess]

/-- With unlimited room, an event is written up to the first part of its record that is beyond its
limit. That part is reported, and the header is written in any case. -/
theorem writeEvent_none (producer : Producer) (output : ByteArray) (event : Event)
    (thread : Thread) :
    let parts := (event.record thread).parts
    writeEvent producer none output event thread =
      ⟨output ++ headerLayout producer ++ partsLayout (partsWithin parts), partsResult parts,
        event.prepare thread, event.renderNotices⟩ := by
  intro parts
  have hwrite : write none output ((event.record thread).pieces producer) =
      (output ++ headerLayout producer ++ partsLayout (partsWithin parts), partsResult parts) := by
    rw [← write_parts, ← fieldPieces_eq]
    simp [Record.pieces, headerPieces, numberPiece, write_bytes, headerLayout, nameLayout,
      ByteArray.append_assoc]
  simp only [writeEvent, Event.record_prepare, hwrite]

/-! ## Events beyond the limits -/

/-- Keys in ascending order stand in the order of their UTF-8 bytes. -/
theorem keys_pairwise_utf8_lt {α : Type} (map : SortedMap α) :
    map.keys.Pairwise fun key other =>
      key.toUTF8.data.toList < other.toUTF8.data.toList := by
  rw [SortedMap.keys, List.pairwise_map]
  exact map.ascending.imp fun hlt => (Text.lt_iff_utf8_lt _ _).mp hlt

/-- Whether an event is encoded, and what is reported if it is not, is settled by the parts of its
record in the order of the layout. -/
structure ReportsFirstExcess (producer : Producer) (event : Event) (thread : Thread) : Prop where
  /-- The event is encoded exactly if no text is too long and no list has too many items. -/
  ok_iff : (∃ bytes, encode producer event thread = .ok bytes) ↔ (event.record thread).Fits
  /-- It is refused exactly if a part is beyond its limit, with the length or the count of the first
  such part, and for no other reason. -/
  error_iff : ∀ error, encode producer event thread = .error error ↔
    ∃ amount, firstExcess? (event.record thread).parts = some amount ∧
      error = .invalidLength amount
  /-- The parts are the layout of the record behind its header, in its order. -/
  layout : headerLayout producer ++ partsLayout (event.record thread).parts =
    (event.record thread).layout producer
  /-- The keys of the mapped context come in the order of their UTF-8 bytes. -/
  keys : ∀ map ∈ event.mappedContext thread, map.keys.Pairwise fun key other =>
    key.toUTF8.data.toList < other.toUTF8.data.toList
  /-- A location that is not captured stays so, and the stack makes no difference. -/
  location : event.location = none → ∀ (room : Option Nat) (output : ByteArray) (stack : Stack),
    let written := writeEvent producer room output event thread
    written.event.location = none ∧
      writeEvent producer room output event { thread with stack } = written

/-- Every event that is within the limits is encoded, and from every other one the first excess is
reported. -/
theorem encode_reportsFirstExcess (producer : Producer) (event : Event) (thread : Thread) :
    ReportsFirstExcess producer event thread where
  ok_iff := by
    simp only [encode_eq_ok_iff, Event.record_prepare, exists_and_left, exists_eq, and_true]
  error_iff := by
    intro error
    rw [encode, writeEvent_none, partsResult]
    cases firstExcess? (event.record thread).parts with
    | none => simp [Except.map]
    | some amount => simp [Except.map, eq_comm]
  layout := by rw [partsLayout_parts, Record.layout]
  keys := fun map _ => keys_pairwise_utf8_lt map
  location := by
    intro huncaptured room output stack written
    exact ⟨huncaptured, rfl⟩

end EventSnapshot.Wire
