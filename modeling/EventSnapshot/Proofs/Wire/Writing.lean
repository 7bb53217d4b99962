import EventSnapshot.Proofs.Wire.Layout
import EventSnapshot.Wire.Codec

/-!
# What is written

The pieces of an output emit certain bytes, or none if one of them is a length beyond the maximum.
The pieces of a part emit the layout of that part, under the same bounds under which a reader
accepts it, so that what is written and what is read are compared by their layouts alone.
-/

namespace EventSnapshot.Wire

/-- The pieces have no excess, and are these bytes one after the other. -/
def Emits : List Piece → ByteArray → Prop
  | [], bytes => bytes = .empty
  | .excess _ :: _, _ => False
  | .bytes front :: pieces, bytes => ∃ rest, bytes = front ++ rest ∧ Emits pieces rest

@[simp] theorem emits_nil {bytes : ByteArray} : Emits [] bytes ↔ bytes = .empty := Iff.rfl

@[simp] theorem emits_excess {length : Nat} {pieces : List Piece} {bytes : ByteArray} :
    Emits (.excess length :: pieces) bytes ↔ False := Iff.rfl

@[simp] theorem emits_bytes {front bytes : ByteArray} {pieces : List Piece} :
    Emits (.bytes front :: pieces) bytes ↔ ∃ rest, bytes = front ++ rest ∧ Emits pieces rest :=
  Iff.rfl

/-- With unlimited room, writing succeeds exactly on pieces that emit something, and appends
that. -/
theorem write_none_eq_ok_iff {pieces : List Piece} {out written : ByteArray} :
    write none out pieces = (written, .ok ()) ↔
      ∃ bytes, Emits pieces bytes ∧ written = out ++ bytes := by
  induction pieces generalizing out with
  | nil => simp [write, eq_comm]
  | cons piece pieces ih =>
    cases piece with
    | excess length => simp [write]
    | bytes front =>
      rw [write, if_pos (by rfl), ih]
      simp only [emits_bytes]
      constructor
      · rintro ⟨rest, hrest, rfl⟩
        exact ⟨front ++ rest, ⟨rest, rfl, hrest⟩, ByteArray.append_assoc⟩
      · rintro ⟨_, ⟨rest, rfl, hrest⟩, rfl⟩
        exact ⟨rest, hrest, ByteArray.append_assoc.symm⟩

/-- Pieces in sequence emit what the first emit followed by what the others do. -/
theorem emits_append {first others : List Piece} {bytes : ByteArray} :
    Emits (first ++ others) bytes ↔
      ∃ front rest, bytes = front ++ rest ∧ Emits first front ∧ Emits others rest := by
  induction first generalizing bytes with
  | nil =>
    constructor
    · intro h
      exact ⟨.empty, bytes, by simp, rfl, h⟩
    · rintro ⟨_, rest, rfl, rfl, h⟩
      simpa using h
  | cons piece pieces ih =>
    cases piece with
    | excess length => simp
    | bytes head =>
      simp only [List.cons_append, emits_bytes, ih]
      constructor
      · rintro ⟨_, rfl, front, rest, rfl, hfront, hrest⟩
        exact ⟨head ++ front, rest, ByteArray.append_assoc.symm, ⟨front, rfl, hfront⟩, hrest⟩
      · rintro ⟨_, rest, rfl, ⟨front, rfl, hfront⟩, hrest⟩
        exact ⟨front ++ rest, ByteArray.append_assoc, front, rest, rfl, hfront, hrest⟩

/-- After pieces that emit one layout, a sequence goes on behind it. -/
theorem emits_append_layout {first others : List Piece} {P : Prop} {layout bytes : ByteArray}
    (hfirst : ∀ bytes, Emits first bytes ↔ P ∧ bytes = layout) :
    Emits (first ++ others) bytes ↔ P ∧ ∃ rest, bytes = layout ++ rest ∧ Emits others rest := by
  simp only [emits_append, hfirst]
  constructor
  · rintro ⟨_, rest, rfl, ⟨hp, rfl⟩, hrest⟩
    exact ⟨hp, rest, rfl, hrest⟩
  · rintro ⟨hp, rest, rfl, hrest⟩
    exact ⟨layout, rest, rfl, ⟨hp, rfl⟩, hrest⟩

/-- If each item emits its layout under some bound, a list emits the layouts one after the other. -/
theorem emits_flatMap {α : Type} {pieces : α → List Piece} {P : α → Prop} {layout : α → ByteArray}
    (hitem : ∀ item bytes, Emits (pieces item) bytes ↔ P item ∧ bytes = layout item)
    {items : List α} {bytes : ByteArray} :
    Emits (items.flatMap pieces) bytes ↔
      (∀ item ∈ items, P item) ∧ bytes = joined (items.map layout) := by
  induction items generalizing bytes with
  | nil => simp
  | cons item items ih =>
    rw [List.flatMap_cons, emits_append_layout (hitem item)]
    simp only [ih, List.forall_mem_cons, List.map_cons, joined_cons]
    constructor
    · rintro ⟨hp, _, rfl, hps, rfl⟩
      exact ⟨⟨hp, hps⟩, rfl⟩
    · rintro ⟨⟨hp, hps⟩, rfl⟩
      exact ⟨hp, _, rfl, hps, rfl⟩

/-! ## What the pieces of the parts emit -/

/-- A text is emitted in its layout, if it is not too long. -/
theorem emits_textPieces (text : String) (bytes : ByteArray) :
    Emits (textPieces text) bytes ↔ Fits text ∧ bytes = textLayout text := by
  unfold textPieces Fits
  split
  · next hfits => simp [hfits, markerPiece, numberPiece, textLayout, markerLayout]
  · next hfits => simp [hfits]

/-- A text that may be absent is emitted in its layout, if it is not too long. -/
theorem emits_optionalTextPieces (text : Option String) (bytes : ByteArray) :
    Emits (optionalTextPieces text) bytes ↔
      (∀ t ∈ text, Fits t) ∧ bytes = optionalTextLayout text := by
  cases text with
  | none => simp [optionalTextPieces, markerPiece, optionalTextLayout, markerLayout]
  | some text =>
    rw [optionalTextPieces, emits_textPieces]
    simp [optionalTextLayout]

/-- A counted list that may be absent is emitted as its count and its items, if it is not too long
and each item is within its bound. -/
theorem emits_countedPieces {α : Type} {pieces : α → List Piece} {P : α → Prop}
    {layout : α → ByteArray}
    (hitem : ∀ item bytes, Emits (pieces item) bytes ↔ P item ∧ bytes = layout item)
    (items : Option (List α)) (bytes : ByteArray) :
    Emits (countedPieces pieces items) bytes ↔
      (∀ list ∈ items, CountFits P list) ∧ bytes = countedLayout layout items := by
  cases items with
  | none => simp [countedPieces, numberPiece, countedLayout, countLayout]
  | some items =>
    rw [countedPieces, countPiece]
    split
    · next hcount =>
      rw [numberPiece, emits_bytes]
      simp only [emits_flatMap hitem]
      constructor
      · rintro ⟨_, rfl, hitems, rfl⟩
        exact ⟨by simpa [CountFits] using ⟨hcount, hitems⟩, rfl⟩
      · rintro ⟨hfits, rfl⟩
        exact ⟨_, rfl, (hfits items rfl).2, rfl⟩
    · next hcount => simp [CountFits, hcount]

/-- An entry is emitted in its layout, if its key and its text are not too long. -/
theorem emits_entryPieces (entry : String × String) (bytes : ByteArray) :
    Emits (entryPieces entry) bytes ↔ EntryFits entry ∧ bytes = entryLayout entry := by
  rw [entryPieces, emits_append_layout (emits_textPieces entry.1)]
  simp only [emits_textPieces, EntryFits, entryLayout]
  constructor
  · rintro ⟨hkey, _, rfl, htext, rfl⟩
    exact ⟨⟨hkey, htext⟩, by simp⟩
  · rintro ⟨⟨hkey, htext⟩, rfl⟩
    exact ⟨hkey, _, rfl, htext, by simp⟩

/-- A location that may be absent is emitted in its layout, if no part of it is too long. -/
theorem emits_locationPieces (location : Option Location) (bytes : ByteArray) :
    Emits (locationPieces location) bytes ↔
      (∀ l ∈ location, LocationFits l) ∧ bytes = locationLayout location := by
  cases location with
  | none => simp [locationPieces, markerPiece, locationLayout, markerLayout]
  | some location =>
    have hpart (part : String × String) (bytes : ByteArray) := emits_textPieces part.2 bytes
    rw [locationPieces, markerPiece, emits_bytes]
    simp only [emits_flatMap hpart, Location.parts]
    constructor
    · rintro ⟨_, rfl, hfits, rfl⟩
      exact ⟨by simpa [LocationFits] using hfits, rfl⟩
    · rintro ⟨hfits, rfl⟩
      exact ⟨_, rfl, by simpa [LocationFits] using hfits, rfl⟩

/-- The fields of a record are emitted in their layout, if they are within bounds. -/
theorem emits_fieldPieces (record : Record String) (bytes : ByteArray) :
    Emits record.fieldPieces bytes ↔ record.Fits ∧ bytes = record.fieldLayout := by
  simp only [Record.fieldPieces, List.append_assoc, List.cons_append, List.nil_append,
    numberPiece, emits_bytes,
    emits_append_layout (emits_optionalTextPieces _),
    emits_append_layout (emits_countedPieces emits_entryPieces _),
    emits_append_layout (emits_countedPieces emits_textPieces _),
    emits_append_layout (emits_locationPieces _), emits_optionalTextPieces]
  constructor
  · rintro ⟨hwrapper, _, rfl, hlogger, _, rfl, _, rfl, hthread, _, rfl, hmessage, _, rfl, hnested,
      _, rfl, hproperties, _, rfl, hfailure, _, rfl, hlocation, _, rfl, _, rfl, htype, rfl⟩
    exact ⟨⟨hwrapper, hlogger, hthread, hmessage, hnested, hproperties, hfailure, hlocation, htype⟩,
      by simp [Record.fieldLayout]⟩
  · rintro ⟨hfits, rfl⟩
    refine ⟨hfits.wrapper, _, rfl, hfits.loggerName, _, rfl, _, rfl, hfits.threadName, _, rfl,
      hfits.message, _, rfl, hfits.nested, _, rfl, hfits.properties, _, rfl, hfits.failure, _, rfl,
      hfits.location, _, rfl, _, rfl, hfits.typeName, by simp⟩

/-- A whole record is emitted in its layout, if it is within bounds. -/
theorem emits_pieces (producer : Producer) (record : Record String) (bytes : ByteArray) :
    Emits (record.pieces producer) bytes ↔ record.Fits ∧ bytes = record.layout producer := by
  simp only [Record.pieces, headerPieces, numberPiece, List.cons_append, List.nil_append,
    emits_bytes, emits_fieldPieces]
  constructor
  · rintro ⟨_, rfl, _, rfl, _, rfl, _, rfl, _, rfl, hfits, rfl⟩
    exact ⟨hfits, by simp [Record.layout, headerLayout, nameLayout, ByteArray.append_assoc]⟩
  · rintro ⟨hfits, rfl⟩
    refine ⟨_, ?_, _, rfl, _, rfl, _, rfl, _, rfl, hfits, rfl⟩
    simp [Record.layout, headerLayout, nameLayout, ByteArray.append_assoc]

/-- An event is encoded exactly if its record is within bounds, and then as the layout of it. -/
theorem encode_eq_ok_iff {producer : Producer} {event : Event} {thread : Thread}
    {bytes : ByteArray} :
    encode producer event thread = .ok bytes ↔
      ((event.prepare thread).record thread).Fits ∧
        bytes = ((event.prepare thread).record thread).layout producer := by
  rw [← emits_pieces]
  simp only [encode, writeEvent]
  generalize hwritten : write none .empty _ = written
  obtain ⟨output, result⟩ := written
  constructor
  · intro h
    cases result with
    | error error => cases h
    | ok =>
      obtain rfl : output = bytes := Except.ok.inj h
      obtain ⟨_, hemits, rfl⟩ := write_none_eq_ok_iff.mp hwritten
      simpa using hemits
  · intro h
    have hok : write none .empty _ = (.empty ++ bytes, .ok ()) :=
      write_none_eq_ok_iff.mpr ⟨bytes, h, rfl⟩
    rw [hwritten] at hok
    cases hok
    simp [Except.map]

end EventSnapshot.Wire
