import EventSnapshot.Proofs.Text.ByteOrder
import EventSnapshot.Proofs.Wire.Accepting
import EventSnapshot.Wire.Record
import Mathlib.Algebra.Group.Int.Defs

/-!
# The layout of records

The bytes that stand for a record, part by part, whoever wrote them. A reader of a part accepts the
layout of that part and nothing else, provided that its lengths and counts are within bounds. For a
whole record only the texts of the mapped values are free: a value may be spelled in many ways, and
the record that is read keeps what was spelled, not how.
-/

namespace EventSnapshot.Wire

/-! ## Parts -/

/-- The byte that says whether a part is present. -/
def markerLayout (isPresent : Bool) : ByteArray := ⟨#[if isPresent then present else absent]⟩

/-- A present text: its marker, its length in bytes, and its bytes. -/
def textLayout (text : String) : ByteArray :=
  joined [markerLayout true, bigEndian 4 text.utf8ByteSize, text.toUTF8]

/-- A text that may be absent. -/
def optionalTextLayout : Option String → ByteArray
  | none => markerLayout false
  | some text => textLayout text

/-- A count that may be absent. -/
def countLayout : Option Nat → ByteArray
  | none => bigEndian 4 absentCount
  | some count => bigEndian 4 count

/-- A counted list that may be absent. -/
def countedLayout {α : Type} (item : α → ByteArray) (items : Option (List α)) : ByteArray :=
  countLayout (items.map (·.length)) ++ joined ((items.getD []).map item)

/-- An entry of the mapped context: the key and the text of the value. -/
def entryLayout (entry : String × String) : ByteArray :=
  joined [textLayout entry.1, textLayout entry.2]

/-- A location that may be absent. -/
def locationLayout : Option Location → ByteArray
  | none => markerLayout false
  | some location =>
    joined [markerLayout true, textLayout location.className, textLayout location.methodName,
      textLayout location.fileName, textLayout location.lineNumber]

/-- The start of a header, with the bytes of a producer's name. -/
def nameLayout (name : ByteArray) : ByteArray :=
  joined [bigEndian 2 magic, bigEndian 2 name.size, name]

/-- The header of a record. -/
def headerLayout (producer : Producer) : ByteArray :=
  joined [nameLayout producer.name.toUTF8, bigEndian 2 version,
    bigEndian 8 streamUid.toUInt64.toNat]

/-- The fields of a record, in their order. -/
def Record.fieldLayout (record : Record String) : ByteArray :=
  joined [
    optionalTextLayout record.wrapper,
    optionalTextLayout record.loggerName,
    bigEndian 8 record.timestamp.toUInt64.toNat,
    optionalTextLayout record.threadName,
    optionalTextLayout record.message,
    optionalTextLayout record.nested,
    countedLayout entryLayout record.properties,
    countedLayout textLayout record.failure,
    locationLayout record.location,
    bigEndian 4 record.priority.toUInt32.toNat,
    optionalTextLayout record.typeName]

/-- A whole record. -/
def Record.layout (producer : Producer) (record : Record String) : ByteArray :=
  headerLayout producer ++ record.fieldLayout

/-! ## Bounds -/

/-- A text is not too long. -/
def Fits (text : String) : Prop := text.utf8ByteSize ≤ maxLength

/-- A list is not too long, and neither are its items. -/
def CountFits {α : Type} (ItemFits : α → Prop) (items : List α) : Prop :=
  items.length ≤ maxEntries ∧ ∀ item ∈ items, ItemFits item

/-- The key and the text of an entry are not too long. -/
def EntryFits (entry : String × String) : Prop := Fits entry.1 ∧ Fits entry.2

/-- No part of a location is too long. -/
def LocationFits (location : Location) : Prop :=
  Fits location.className ∧ Fits location.methodName ∧ Fits location.fileName ∧
    Fits location.lineNumber

/-- All lengths and counts of a record are within bounds. -/
structure Record.Fits (record : Record String) : Prop where
  wrapper : ∀ text ∈ record.wrapper, Wire.Fits text
  loggerName : ∀ text ∈ record.loggerName, Wire.Fits text
  threadName : ∀ text ∈ record.threadName, Wire.Fits text
  message : ∀ text ∈ record.message, Wire.Fits text
  nested : ∀ text ∈ record.nested, Wire.Fits text
  properties : ∀ entries ∈ record.properties, CountFits EntryFits entries
  failure : ∀ lines ∈ record.failure, CountFits Wire.Fits lines
  location : ∀ location ∈ record.location, LocationFits location
  typeName : ∀ text ∈ record.typeName, Wire.Fits text

instance (text : String) : Decidable (Fits text) := inferInstanceAs (Decidable (_ ≤ _))

instance {α : Type} {ItemFits : α → Prop} [DecidablePred ItemFits] (items : List α) :
    Decidable (CountFits ItemFits items) := inferInstanceAs (Decidable (_ ∧ _))

instance (entry : String × String) : Decidable (EntryFits entry) :=
  inferInstanceAs (Decidable (_ ∧ _))

instance (location : Location) : Decidable (LocationFits location) :=
  inferInstanceAs (Decidable (_ ∧ _))

/-- The bounds of a record, those of its texts together. -/
theorem Record.fits_iff (record : Record String) :
    record.Fits ↔
      (∀ text ∈ [record.wrapper, record.loggerName, record.threadName, record.message,
          record.nested, record.typeName], ∀ t ∈ text, Wire.Fits t) ∧
        (∀ entries ∈ record.properties, CountFits EntryFits entries) ∧
        (∀ lines ∈ record.failure, CountFits Wire.Fits lines) ∧
        ∀ location ∈ record.location, LocationFits location := by
  constructor
  · rintro ⟨hwrapper, hlogger, hthread, hmessage, hnested, hproperties, hfailure, hlocation, htype⟩
    refine ⟨?_, hproperties, hfailure, hlocation⟩
    simp only [List.forall_mem_cons]
    exact ⟨hwrapper, hlogger, hthread, hmessage, hnested, htype, by simp⟩
  · rintro ⟨htexts, hproperties, hfailure, hlocation⟩
    simp only [List.forall_mem_cons] at htexts
    obtain ⟨hwrapper, hlogger, hthread, hmessage, hnested, htype, -⟩ := htexts
    exact ⟨hwrapper, hlogger, hthread, hmessage, hnested, hproperties, hfailure, hlocation, htype⟩

instance (record : Record String) : Decidable record.Fits := decidable_of_iff' _ record.fits_iff

/-! ## Spellings -/

section Spelling

variable {V W : Type}

/-- The record with other entries of mapped context, whose values may have another form. -/
def Record.withProperties (record : Record V) (properties : Option (List (String × W))) :
    Record W :=
  { wrapper := record.wrapper
    loggerName := record.loggerName
    timestamp := record.timestamp
    threadName := record.threadName
    message := record.message
    nested := record.nested
    properties
    failure := record.failure
    location := record.location
    priority := record.priority
    typeName := record.typeName }

/-- An entry has the key of another and a text that is decoded as its value. -/
def SpellsEntry (decode : String → Except WireError V) (spelled : String × String)
    (entry : String × V) : Prop :=
  spelled.1 = entry.1 ∧ decode spelled.2 = .ok entry.2

/-- A record has texts that are decoded as the mapped values of another, and is like it
otherwise. -/
structure Record.Spells (decode : String → Except WireError V) (spelled : Record String)
    (record : Record V) : Prop where
  properties : Option.Rel (List.Forall₂ (SpellsEntry decode)) spelled.properties record.properties
  others : record = spelled.withProperties record.properties

end Spelling

/-! ## What the readers of the parts accept -/

/-- A marker is accepted as what it says. -/
theorem accepts_readMarker {bytes : ByteArray} {isPresent : Bool} :
    readMarker.Accepts bytes isPresent ↔ bytes = markerLayout isPresent := by
  simp only [readMarker, Reader.accepts_bind, Reader.accepts_number]
  constructor
  · rintro ⟨front, rest, marker, rfl, ⟨-, rfl⟩, h⟩
    split at h
    · next habsent =>
      obtain ⟨rfl, rfl⟩ := Reader.accepts_done.mp h
      rw [habsent]
      rfl
    · split at h
      · next hpresent =>
        obtain ⟨rfl, rfl⟩ := Reader.accepts_done.mp h
        rw [hpresent]
        rfl
      · exact h.elim
  · rintro rfl
    cases isPresent with
    | false => exact ⟨_, .empty, absent.toNat, by rfl, ⟨by decide, rfl⟩, by simp⟩
    | true => exact ⟨_, .empty, present.toNat, by rfl, ⟨by decide, rfl⟩, by simp [absent, present]⟩

/-- Bytes are a text exactly if they are the text's own. -/
theorem decodeText_eq_ok_iff {bytes : ByteArray} {text : String} :
    decodeText bytes = .ok text ↔ bytes = text.toUTF8 := by
  rw [← Text.fromUTF8?_eq_some_iff, decodeText]
  cases String.fromUTF8? bytes <;> simp

/-- A text that may be absent is accepted in its layout, if it is not too long. -/
theorem accepts_readOptionalText (bytes : ByteArray) (text : Option String) :
    readOptionalText.Accepts bytes text ↔
      (∀ t ∈ text, Fits t) ∧ bytes = optionalTextLayout text := by
  simp only [readOptionalText, Reader.accepts_bind, accepts_readMarker]
  constructor
  · rintro ⟨_, rest, isPresent, rfl, rfl, h⟩
    cases isPresent with
    | false =>
      obtain ⟨rfl, rfl⟩ := Reader.accepts_pure.mp h
      simp [optionalTextLayout]
    | true =>
      simp only [if_pos, Reader.accepts_bind, Reader.accepts_number, Reader.accepts_ite_fail,
        Reader.accepts_bytes, Reader.accepts_map, Reader.accepts_ofExcept, decodeText_eq_ok_iff,
        Nat.not_lt] at h
      obtain ⟨_, _, _, rfl, ⟨-, rfl⟩, hfits, _, _, _, rfl, ⟨rfl, rfl⟩, found, ⟨rfl, rfl⟩, rfl⟩ := h
      have hfound : Fits found := hfits
      exact ⟨by simpa using hfound, by simp [optionalTextLayout, textLayout]⟩
  · rintro ⟨hfits, rfl⟩
    cases text with
    | none => exact ⟨markerLayout false, .empty, false, by rfl, rfl, by simp⟩
    | some text =>
      have hlength : text.utf8ByteSize ≤ maxLength := hfits text rfl
      have hmax : maxLength < 256 ^ 4 := by decide
      refine ⟨_, _, true, rfl, rfl, ?_⟩
      simp only [if_pos, Reader.accepts_bind, Reader.accepts_number, Reader.accepts_ite_fail,
        Reader.accepts_bytes, Reader.accepts_map, Reader.accepts_ofExcept, decodeText_eq_ok_iff,
        Nat.not_lt]
      exact ⟨_, _, text.utf8ByteSize, rfl, ⟨by omega, rfl⟩, hlength, _, .empty, _, rfl,
        ⟨rfl, rfl⟩, text, ⟨rfl, rfl⟩, rfl⟩

/-- A text that must be present is accepted in its layout, if it is not too long. -/
theorem accepts_readText (bytes : ByteArray) (text : String) :
    readText.Accepts bytes text ↔ Fits text ∧ bytes = textLayout text := by
  simp only [readText, Reader.accepts_bind_layout accepts_readOptionalText]
  constructor
  · rintro ⟨found, rest, rfl, hfits, h⟩
    cases found with
    | none => exact h.elim
    | some found =>
      obtain ⟨rfl, rfl⟩ := Reader.accepts_pure.mp h
      exact ⟨hfits found rfl, ByteArray.append_empty⟩
  · rintro ⟨hfits, rfl⟩
    exact ⟨some text, .empty, ByteArray.append_empty.symm, by simpa using hfits, by simp⟩

/-- A number of 32 bits with its highest bit set counts from below zero. -/
theorem toInt_toInt32_ofNat {n : Nat} (h : n < 256 ^ 4) :
    (UInt32.ofNat n).toInt32.toInt = if n < 2 ^ 31 then (n : Int) else n - 2 ^ 32 := by
  have hnat : (UInt32.ofNat n).toBitVec.toNat = n := by
    rw [UInt32.toNat_toBitVec, UInt32.toNat_ofNat']
    omega
  change (UInt32.ofNat n).toBitVec.toInt = _
  rw [BitVec.toInt_eq_toNat_cond, hnat]
  split <;> split <;> omega

/-- A count that may be absent is accepted in its layout, if it is not too great. -/
theorem accepts_readCount (bytes : ByteArray) (count : Option Nat) :
    readCount.Accepts bytes count ↔
      (∀ n ∈ count, n ≤ maxEntries) ∧ bytes = countLayout count := by
  simp only [readCount, Reader.accepts_bind, Reader.accepts_number]
  have hmax : maxEntries = 2 ^ 20 := by decide
  constructor
  · rintro ⟨_, rest, n, rfl, ⟨hlt, rfl⟩, h⟩
    rw [toInt_toInt32_ofNat hlt] at h
    by_cases hlow : n < 2 ^ 31
    · rw [if_pos hlow, if_neg (by omega)] at h
      split at h
      · next hbounds =>
        obtain ⟨rfl, rfl⟩ := Reader.accepts_pure.mp h
        have hle : n ≤ maxEntries := by omega
        exact ⟨by simpa using hle, by simp [countLayout]⟩
      · exact h.elim
    · rw [if_neg hlow] at h
      split at h
      · next habsent =>
        obtain ⟨rfl, rfl⟩ := Reader.accepts_pure.mp h
        have hn : n = absentCount := by
          rw [absentCount]
          omega
        simp [countLayout, hn]
      · rw [if_neg (by omega)] at h
        exact h.elim
  · rintro ⟨hbound, rfl⟩
    cases count with
    | none =>
      refine ⟨_, .empty, absentCount, ByteArray.append_empty.symm, ⟨by decide, rfl⟩, ?_⟩
      rw [if_pos (by decide)]
      simp
    | some count =>
      have hle := hbound count rfl
      have hlt : count < 256 ^ 4 := by omega
      refine ⟨_, .empty, count, ByteArray.append_empty.symm, ⟨hlt, rfl⟩, ?_⟩
      have hcount : (UInt32.ofNat count).toInt32.toInt = count := by
        rw [toInt_toInt32_ofNat hlt, if_pos (by omega)]
      rw [hcount, if_neg (by omega), if_pos (by omega)]
      simp

/-- A counted list that may be absent is accepted as the count followed by one form for each item,
if it is not too long. -/
theorem accepts_readCounted {α τ : Type} {item : Reader α} {Form : τ → α → Prop}
    {layout : τ → ByteArray}
    (hitem : ∀ bytes value,
      item.Accepts bytes value ↔ ∃ form, Form form value ∧ bytes = layout form)
    {bytes : ByteArray} {values : Option (List α)} :
    (readCounted item).Accepts bytes values ↔
      ∃ forms, Option.Rel (List.Forall₂ Form) forms values ∧
        (∀ list ∈ forms, list.length ≤ maxEntries) ∧ bytes = countedLayout layout forms := by
  simp only [readCounted, Reader.accepts_bind, accepts_readCount]
  constructor
  · rintro ⟨_, rest, count, rfl, ⟨hcount, rfl⟩, h⟩
    cases count with
    | none =>
      obtain ⟨rfl, rfl⟩ := Reader.accepts_pure.mp h
      exact ⟨none, .none, by simp, by simp [countedLayout]⟩
    | some count =>
      obtain ⟨list, hlist, rfl⟩ := Reader.accepts_map.mp h
      obtain ⟨forms, hforms, rfl, rfl⟩ := (Reader.accepts_times hitem).mp hlist
      exact ⟨some forms, .some hforms, by simpa using hcount, rfl⟩
  · rintro ⟨forms, hforms, hcount, rfl⟩
    cases hforms with
    | none => exact ⟨_, .empty, none, rfl, ⟨by simp, rfl⟩, by simp⟩
    | @some forms list hforms =>
      refine ⟨_, _, some forms.length, rfl, ⟨by simpa using hcount, rfl⟩, ?_⟩
      exact Reader.accepts_map.mpr
        ⟨list, (Reader.accepts_times hitem).mpr ⟨forms, hforms, rfl, rfl⟩, rfl⟩

/-- A counted list of texts is accepted in its layout, if it is within bounds. -/
theorem accepts_readCounted_readText (bytes : ByteArray) (lines : Option (List String)) :
    (readCounted readText).Accepts bytes lines ↔
      (∀ list ∈ lines, CountFits Fits list) ∧ bytes = countedLayout textLayout lines := by
  have hitem : ∀ bytes line, readText.Accepts bytes line ↔
      ∃ form, (Fits form ∧ form = line) ∧ bytes = textLayout form := by
    simp [accepts_readText]
  have hforms : List.Forall₂ (fun form line : String => Fits form ∧ form = line) =
      fun forms list => (∀ form ∈ forms, Fits form) ∧ forms = list := by
    funext forms list
    rw [List.forall₂_and_left, List.forall₂_eq_eq_eq]
  rw [accepts_readCounted hitem, hforms]
  constructor
  · rintro ⟨forms, hrel, hcount, rfl⟩
    cases hrel with
    | none => simp
    | @some forms _ hlist =>
      obtain ⟨hfits, rfl⟩ := hlist
      exact ⟨by simpa [CountFits] using ⟨hcount forms rfl, hfits⟩, rfl⟩
  · rintro ⟨hfits, rfl⟩
    cases lines with
    | none => exact ⟨none, .none, by simp, rfl⟩
    | some list =>
      obtain ⟨hcount, hlist⟩ := hfits list rfl
      exact ⟨some list, .some ⟨hlist, rfl⟩, by simpa using hcount, rfl⟩

/-- A location that may be absent is accepted in its layout, if no part of it is too long. -/
theorem accepts_readLocation (bytes : ByteArray) (location : Option Location) :
    readLocation.Accepts bytes location ↔
      (∀ l ∈ location, LocationFits l) ∧ bytes = locationLayout location := by
  simp only [readLocation, Reader.accepts_bind, accepts_readMarker]
  constructor
  · rintro ⟨_, rest, isPresent, rfl, rfl, h⟩
    cases isPresent with
    | false =>
      obtain ⟨rfl, rfl⟩ := Reader.accepts_pure.mp h
      simp [locationLayout]
    | true =>
      simp only [if_pos, Reader.accepts_bind_layout accepts_readText, Reader.accepts_pure] at h
      obtain ⟨className, _, rfl, hclass, methodName, _, rfl, hmethod, fileName, _, rfl, hfile,
        lineNumber, _, rfl, hline, rfl, rfl⟩ := h
      exact ⟨by simpa using ⟨hclass, hmethod, hfile, hline⟩, rfl⟩
  · rintro ⟨hfits, rfl⟩
    cases location with
    | none => exact ⟨_, .empty, false, ByteArray.append_empty.symm, rfl, by simp⟩
    | some location =>
      obtain ⟨hclass, hmethod, hfile, hline⟩ := hfits location rfl
      refine ⟨_, _, true, rfl, rfl, ?_⟩
      simp only [if_pos, Reader.accepts_bind_layout accepts_readText, Reader.accepts_pure]
      exact ⟨_, _, rfl, hclass, _, _, rfl, hmethod, _, _, rfl, hfile, _, _, rfl, hline, rfl, rfl⟩

/-- The bytes of a name are accepted at the start of a header, if they are not too many. -/
theorem accepts_readName (bytes name : ByteArray) :
    readName.Accepts bytes name ↔ name.size ≤ maxNameLength ∧ bytes = nameLayout name := by
  have hmax : maxNameLength < 256 ^ 2 := by decide
  simp only [readName, Reader.accepts_bind, Reader.accepts_number, Reader.accepts_ite_fail,
    Reader.accepts_bytes, not_not, Nat.not_lt]
  constructor
  · rintro ⟨_, _, _, rfl, ⟨-, rfl⟩, rfl, _, _, _, rfl, ⟨-, rfl⟩, hfits, rfl, rfl⟩
    exact ⟨hfits, by simp [nameLayout]⟩
  · rintro ⟨hfits, rfl⟩
    exact ⟨_, _, magic, rfl, ⟨by decide, rfl⟩, rfl, _, _, name.size, rfl, ⟨by omega, rfl⟩, hfits,
      by simp, by simp⟩

/-- A header is accepted in the layout of its producer. -/
theorem accepts_readHeader {producer : Producer} {bytes : ByteArray} {value : Unit} :
    (readHeader producer).Accepts bytes value ↔ bytes = headerLayout producer := by
  have hname : producer.name.toUTF8.size ≤ maxNameLength := by cases producer <;> decide
  simp only [readHeader, Reader.accepts_bind, accepts_readName, Reader.accepts_number,
    Reader.accepts_ite_fail, Reader.accepts_pure, not_not, and_true]
  constructor
  · rintro ⟨_, _, name, rfl, ⟨-, rfl⟩, hdata, _, _, found, rfl, ⟨-, rfl⟩, hversion, _, _, uid, rfl,
      ⟨huid, rfl⟩, hstream, rfl⟩
    obtain rfl : name = producer.name.toUTF8 := ByteArray.ext hdata
    have hfound : found = version := by
      have : version = 1 := rfl
      omega
    have huid : uid = streamUid.toUInt64.toNat := by
      rw [← hstream, UInt64.toUInt64_toInt64, UInt64.toNat_ofNat']
      omega
    rw [hfound, huid]
    rfl
  · rintro rfl
    exact ⟨_, _, producer.name.toUTF8, rfl, ⟨hname, rfl⟩, rfl, _, _, version, rfl,
      ⟨by decide, rfl⟩, by decide, _, _, streamUid.toUInt64.toNat, rfl, ⟨by decide, rfl⟩,
      by decide, rfl⟩

/-! ## What the readers of a whole record accept -/

variable {V : Type} {decode : String → Except WireError V}

/-- An entry is accepted in the layout of any entry that spells it, if that is not too long. -/
theorem accepts_readEntry (bytes : ByteArray) (entry : String × V) :
    (readEntry decode).Accepts bytes entry ↔
      ∃ spelled, (EntryFits spelled ∧ SpellsEntry decode spelled entry) ∧
        bytes = entryLayout spelled := by
  simp only [readEntry, Reader.accepts_bind_layout accepts_readText]
  simp only [Reader.accepts_bind, Reader.accepts_ofExcept, Reader.accepts_pure]
  constructor
  · rintro ⟨key, _, rfl, hkey, text, _, rfl, htext, _, _, value, rfl, ⟨rfl, hvalue⟩, rfl, rfl⟩
    exact ⟨(key, text), ⟨⟨hkey, htext⟩, rfl, hvalue⟩, by simp [entryLayout]⟩
  · rintro ⟨⟨key, text⟩, ⟨⟨hkey, htext⟩, rfl, hvalue⟩, rfl⟩
    exact ⟨_, _, rfl, hkey, text, _, rfl, htext, .empty, .empty, entry.2, by simp, ⟨rfl, hvalue⟩,
      rfl, rfl⟩

/-- The mapped context is accepted in the layout of any entries that spell it, if they are within
bounds. -/
theorem accepts_readCounted_readEntry (bytes : ByteArray)
    (entries : Option (List (String × V))) :
    (readCounted (readEntry decode)).Accepts bytes entries ↔
      ∃ spelled, (Option.Rel (List.Forall₂ (SpellsEntry decode)) spelled entries ∧
        ∀ list ∈ spelled, CountFits EntryFits list) ∧
        bytes = countedLayout entryLayout spelled := by
  rw [accepts_readCounted accepts_readEntry]
  constructor
  · rintro ⟨spelled, hrel, hcount, rfl⟩
    cases hrel with
    | none => exact ⟨none, ⟨.none, by simp⟩, rfl⟩
    | @some spelled _ hlist =>
      obtain ⟨hfits, hspells⟩ := (List.forall₂_and_left _ _).mp hlist
      have hbounds : CountFits EntryFits spelled := ⟨hcount spelled rfl, hfits⟩
      exact ⟨some spelled, ⟨.some hspells, by simpa using hbounds⟩, rfl⟩
  · rintro ⟨spelled, ⟨hrel, hfits⟩, rfl⟩
    refine ⟨spelled, ?_, fun list hlist => (hfits list hlist).1, rfl⟩
    cases hrel with
    | none => exact .none
    | @some list _ hspells =>
      exact .some ((List.forall₂_and_left _ _).mpr ⟨(hfits list rfl).2, hspells⟩)

/-- The fields of a record are accepted in the layout of any record that spells it, if that is
within bounds. -/
theorem accepts_readFields {bytes : ByteArray} {record : Record V} :
    (readFields decode).Accepts bytes record ↔
      ∃ spelled : Record String, spelled.Spells decode record ∧ spelled.Fits ∧
        bytes = spelled.fieldLayout := by
  simp only [readFields, Reader.accepts_bind_layout accepts_readOptionalText,
    Reader.accepts_bind_layout Reader.accepts_number,
    Reader.accepts_bind_forms accepts_readCounted_readEntry,
    Reader.accepts_bind_layout accepts_readCounted_readText,
    Reader.accepts_bind_layout accepts_readLocation, Reader.accepts_pure]
  constructor
  · rintro ⟨wrapper, _, rfl, hwrapper, loggerName, _, rfl, hlogger, timestamp, _, rfl, htimestamp,
      threadName, _, rfl, hthread, message, _, rfl, hmessage, nested, _, rfl, hnested,
      spelled, _, entries, rfl, ⟨hspells, hentries⟩, failure, _, rfl, hfailure,
      location, _, rfl, hlocation, priority, _, rfl, hpriority, typeName, _, rfl, htype, rfl, rfl⟩
    have htime : (UInt64.ofNat timestamp).toInt64.toUInt64.toNat = timestamp :=
      UInt64.toNat_ofNat_of_lt' htimestamp
    have hprio : (UInt32.ofNat priority).toInt32.toUInt32.toNat = priority :=
      UInt32.toNat_ofNat_of_lt' hpriority
    refine ⟨Record.withProperties ⟨_, _, _, _, _, _, entries, _, _, _, _⟩ spelled, ⟨hspells, rfl⟩,
      ⟨hwrapper, hlogger, hthread, hmessage, hnested, hentries, hfailure, hlocation, htype⟩, ?_⟩
    conv_lhs => rw [← htime, ← hprio]
    rfl
  · rintro ⟨spelled, ⟨hspells, hothers⟩, hfits, rfl⟩
    have htime := spelled.timestamp.toUInt64.toNat_lt
    have hprio := spelled.priority.toUInt32.toNat_lt
    refine ⟨_, _, rfl, hfits.wrapper, _, _, rfl, hfits.loggerName, _, _, rfl, by omega,
      _, _, rfl, hfits.threadName, _, _, rfl, hfits.message, _, _, rfl, hfits.nested,
      spelled.properties, _, _, rfl, ⟨hspells, hfits.properties⟩, _, _, rfl, hfits.failure,
      _, _, rfl, hfits.location, _, _, rfl, by omega, _, _, rfl, hfits.typeName, rfl, ?_⟩
    rw [hothers]
    simp [Record.withProperties]

/-- A whole record is accepted in the layout of any record that spells it, if that is within
bounds. -/
theorem accepts_readRecord {producer : Producer} {bytes : ByteArray} {record : Record Value} :
    (readRecord producer).Accepts bytes record ↔
      ∃ spelled : Record String, spelled.Spells decodeValue record ∧ spelled.Fits ∧
        bytes = spelled.layout producer := by
  simp only [readRecord, Reader.accepts_bind, accepts_readHeader, accepts_readFields]
  constructor
  · rintro ⟨_, _, _, rfl, rfl, spelled, hspells, hfits, rfl⟩
    exact ⟨spelled, hspells, hfits, rfl⟩
  · rintro ⟨spelled, hspells, hfits, rfl⟩
    exact ⟨_, _, (), rfl, rfl, spelled, hspells, hfits, rfl⟩

end EventSnapshot.Wire
