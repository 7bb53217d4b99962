import EventSnapshot.Proofs.Wire.Acceptance
import EventSnapshot.Proofs.Wire.Limits
import EventSnapshot.Proofs.Wire.Naming

/-!
# Half-written records

A part beyond its limit ends the writing of a record behind its header. What comes next, if there is
anything, is another record, and its first bytes stand where a part is missing that is a text or a
count. No text and no count starts like that, so a half-written record is never read: neither alone
nor with bytes of the next one taken for its own.
-/

namespace EventSnapshot.Wire

namespace Reader

variable {α β : Type} {bytes front rest : ByteArray}

/-! ## Refusals -/

/-- The reader accepts no start of the bytes. -/
def Refuses (reader : Reader α) (bytes : ByteArray) : Prop :=
  ∀ front rest value, bytes = front ++ rest → ¬reader.Accepts front value

/-- What the first reader refuses, a sequence refuses. -/
theorem Refuses.bind {first : Reader α} (h : first.Refuses bytes) (next : α → Reader β) :
    (first >>= next).Refuses bytes := by
  rintro _ rest value rfl haccepts
  obtain ⟨front, others, middle, rfl, hfirst, -⟩ := accepts_bind.mp haccepts
  exact h front (others ++ rest) middle ByteArray.append_assoc hfirst

/-- Behind what the first reader accepts, a sequence refuses what the next one does. -/
theorem Accepts.refuses_bind {first : Reader α} {next : α → Reader β} {middle : α}
    (h : first.Accepts front middle) (hnext : (next middle).Refuses rest) :
    (first >>= next).Refuses (front ++ rest) := by
  rintro start others value hbytes haccepts
  obtain ⟨start, between, found, rfl, hfirst, hrest⟩ := accepts_bind.mp haccepts
  rw [ByteArray.append_assoc] at hbytes
  obtain ⟨rfl, rfl⟩ := h.eq_of_append_eq hfirst hbytes
  exact hnext between others value ((ByteArray.append_right_inj _).mp hbytes) hrest

/-- A run fails from a position on behind which the bytes are refused. -/
theorem Refuses.run_eq_error {reader : Reader α} {start : Nat} (hstart : start ≤ bytes.size)
    (h : reader.Refuses (bytes.extract start bytes.size)) :
    ∃ error, reader.run bytes start = .error error := by
  cases hrun : reader.run bytes start with
  | error error => exact ⟨error, rfl⟩
  | ok read =>
    obtain ⟨hle, hfinish, haccepts⟩ := (run_eq_ok_iff hstart).mp hrun
    refine absurd haccepts (h _ (bytes.extract read.2 bytes.size) _ ?_)
    rw [← ByteArray.extract_eq_extract_append_extract _ hle hfinish]

end Reader

/-! ## What comes next -/

/-- What comes behind a record: nothing, or the header of the next one. -/
def NextRecord (bytes : ByteArray) : Prop :=
  bytes = .empty ∨ ∃ producer more, bytes = headerLayout producer ++ more

/-- The first four bytes of a header, as a number. -/
def headerStart : Nat := 0x4c450018

/-- All headers start with the same bytes. -/
theorem headerLayout_append (producer : Producer) (more : ByteArray) :
    ∃ later, headerLayout producer ++ more = bigEndian 4 headerStart ++ later := by
  have hstart : bigEndian 4 headerStart = bigEndian 2 magic ++ bigEndian 2 24 := by decide
  refine ⟨producer.name.toUTF8 ++ (bigEndian 2 version ++
    (bigEndian 8 streamUid.toUInt64.toNat ++ more)), ?_⟩
  rw [hstart]
  simp [headerLayout, nameLayout, producer.size_name, ByteArray.append_assoc]

/-- If a number stands where the next record is due, it stands for the start of a header. -/
theorem NextRecord.exists_header {width n : Nat} {others : ByteArray} (hwidth : 0 < width)
    (h : NextRecord (bigEndian width n ++ others)) :
    ∃ later, bigEndian width n ++ others = bigEndian 4 headerStart ++ later := by
  rcases h with hempty | ⟨producer, more, hheader⟩
  · have hsize := congrArg ByteArray.size hempty
    rw [ByteArray.size_append, size_bigEndian, ByteArray.size_empty] at hsize
    omega
  · rw [hheader]
    exact headerLayout_append producer more

/-- Numbers of one width are told apart by their first bytes. -/
theorem eq_of_bigEndian_append_eq {width n m : Nat} {others later : ByteArray}
    (hn : n < 256 ^ width) (hm : m < 256 ^ width)
    (h : bigEndian width n ++ others = bigEndian width m ++ later) : n = m := by
  have hsame : bigEndian width n = bigEndian width m := by
    apply ByteArray.append_inj_left h
    rw [size_bigEndian, size_bigEndian]
  rw [← ofBigEndian_bigEndian hn, hsame, ofBigEndian_bigEndian hm]

/-- A header does not start with a marker. -/
theorem refuses_readMarker {rest : ByteArray} (h : NextRecord rest) : readMarker.Refuses rest := by
  rintro front others isPresent rfl haccepts
  have hmarker : front = bigEndian 1 isPresent.toNat := by
    rw [accepts_readMarker.mp haccepts]
    cases isPresent <;> decide
  have hheader : bigEndian 4 headerStart = bigEndian 1 0x4c ++ bigEndian 3 0x450018 := by decide
  rw [hmarker] at h
  obtain ⟨later, hlater⟩ := h.exists_header (by decide)
  rw [hheader, ByteArray.append_assoc] at hlater
  have hsame := eq_of_bigEndian_append_eq (by cases isPresent <;> decide) (by decide) hlater
  cases isPresent <;> cases hsame

/-- A header does not start with a count. -/
theorem refuses_readCount {rest : ByteArray} (h : NextRecord rest) : readCount.Refuses rest := by
  rintro front others count rfl haccepts
  obtain ⟨hcount, rfl⟩ := (accepts_readCount _ _).mp haccepts
  cases count with
  | none =>
    have hnumber : NextRecord (bigEndian 4 absentCount ++ others) := h
    obtain ⟨later, hlater⟩ := hnumber.exists_header (by decide)
    cases eq_of_bigEndian_append_eq (by decide) (by decide) hlater
  | some count =>
    have hnumber : NextRecord (bigEndian 4 count ++ others) := h
    obtain ⟨later, hlater⟩ := hnumber.exists_header (by decide)
    have hmax : maxEntries = 2 ^ 20 := by decide
    have hle := hcount count rfl
    have hsame := eq_of_bigEndian_append_eq (by omega) (by decide) hlater
    rw [headerStart] at hsame
    omega

/-! ## Readers of parts -/

/-- The reader is one for some parts. It accepts their bytes as the value if all are within their
limits, and otherwise it refuses what is written of them, whatever record comes next. -/
structure Reader.IsFor {α : Type} (reader : Reader α) (parts : List Part) (value : α) : Prop where
  accepts : firstExcess? parts = none → reader.Accepts (partsLayout parts) value
  refuses : ∀ amount, firstExcess? parts = some amount → ∀ rest, NextRecord rest →
    reader.Refuses (partsLayout (partsWithin parts) ++ rest)

/-- Behind parts within their limits, others are written as they would be alone. -/
theorem partsWithin_append_of_none {parts : List Part} (h : firstExcess? parts = none)
    (others : List Part) : partsWithin (parts ++ others) = parts ++ partsWithin others := by
  apply List.takeWhile_append_of_pos
  intro part hpart
  rw [List.findSome?_eq_none_iff.mp h part hpart]
  rfl

/-- Behind a part beyond its limit, nothing is written. -/
theorem partsWithin_append_of_some {parts : List Part} {amount : Nat}
    (h : firstExcess? parts = some amount) (others : List Part) :
    partsWithin (parts ++ others) = partsWithin parts := by
  induction parts with
  | nil => cases h
  | cons part parts ih =>
    rw [firstExcess?, List.findSome?_cons] at h
    cases hexcess : part.excess? with
    | none =>
      rw [hexcess] at h
      have hmore := ih h
      rw [partsWithin, partsWithin] at hmore ⊢
      simp [hexcess, hmore]
    | some amount => simp [partsWithin, hexcess]

namespace Reader.IsFor

variable {α β : Type}

/-- A sequence of readers is one for the parts of both. -/
theorem bind {first : Reader α} {next : α → Reader β} {parts others : List Part} {middle : α}
    {value : β} (h : first.IsFor parts middle) (hnext : (next middle).IsFor others value) :
    (first >>= next).IsFor (parts ++ others) value where
  accepts := by
    intro hnone
    rw [firstExcess?, List.findSome?_append, Option.or_eq_none_iff] at hnone
    rw [partsLayout_append]
    exact Reader.accepts_bind.mpr
      ⟨_, _, middle, rfl, h.accepts hnone.1, hnext.accepts hnone.2⟩
  refuses := by
    intro amount hamount rest hrest
    rw [firstExcess?, List.findSome?_append] at hamount
    cases hfirst : firstExcess? parts with
    | none =>
      rw [← firstExcess?, hfirst, Option.none_or] at hamount
      rw [partsWithin_append_of_none hfirst, partsLayout_append, ByteArray.append_assoc]
      exact (h.accepts hfirst).refuses_bind (hnext.refuses amount hamount rest hrest)
    | some excess =>
      rw [partsWithin_append_of_some hfirst]
      exact (h.refuses excess hfirst rest hrest).bind next

/-- A reader of nothing is one for no parts. -/
theorem pure (value : α) : (Pure.pure value : Reader α).IsFor [] value where
  accepts := fun _ => ⟨rfl, rfl⟩
  refuses := by
    intro amount hamount
    cases hamount

/-- A reader is one for a part if it accepts it within its limit and refuses the next record in the
place of it otherwise. -/
theorem single {reader : Reader α} {part : Part} {value : α}
    (haccepts : part.excess? = none → reader.Accepts part.layout value)
    (hrefuses : (part.excess?).isSome → ∀ rest, NextRecord rest → reader.Refuses rest) :
    reader.IsFor [part] value where
  accepts := by
    intro hnone
    have hlayout : partsLayout [part] = part.layout := ByteArray.append_empty
    rw [hlayout]
    exact haccepts (by simpa [firstExcess?] using hnone)
  refuses := by
    intro amount hamount rest hrest
    have hexcess : part.excess? = some amount := by simpa [firstExcess?] using hamount
    have hnothing : partsLayout (partsWithin [part]) = .empty := by
      simp [partsWithin, hexcess, partsLayout]
    rw [hnothing, ByteArray.empty_append]
    exact hrefuses (by rw [hexcess]; rfl) rest hrest

/-- A reader that accepts some bytes is one for them as a part that has no limit. -/
theorem plain {reader : Reader α} {bytes : ByteArray} {value : α}
    (h : reader.Accepts bytes value) : reader.IsFor [.plain bytes] value :=
  single (fun _ => h) fun hexcess => absurd hexcess (by simp [Part.excess?])

/-- A mapped reader is for the same parts. -/
theorem map {reader : Reader α} {parts : List Part} {value : α} (h : reader.IsFor parts value)
    (f : α → β) : (f <$> reader).IsFor parts (f value) := by
  have hmapped : (reader >>= fun result => Pure.pure (f result)).IsFor (parts ++ []) (f value) :=
    h.bind (pure (f value))
  rw [List.append_nil] at hmapped
  exact hmapped

/-- Repeating a reader is for the parts of all items. -/
theorem times {reader : Reader α} {item : α → List Part}
    (h : ∀ value, reader.IsFor (item value) value) (values : List α) :
    (Reader.times values.length reader).IsFor (values.flatMap item) values := by
  -- The values read before are kept in reverse, so the induction is for all of them.
  suffices hafter : ∀ before, (Reader.timesAfter reader values.length before).IsFor
      (values.flatMap item) (before.reverse ++ values) from hafter []
  induction values with
  | nil =>
    intro before
    rw [List.append_nil]
    exact pure before.reverse
  | cons value values ih =>
    intro before
    have hothers := ih (value :: before)
    rw [List.reverse_cons, List.append_assoc] at hothers
    exact (h value).bind hothers

end Reader.IsFor

/-! ## The readers of a record -/

/-- A text that may be absent is read as one part. -/
theorem isFor_readOptionalText (text : Option String) :
    readOptionalText.IsFor [Part.optionalText text] text := by
  cases text with
  | none => exact .plain ((accepts_readOptionalText _ _).mpr ⟨by simp, rfl⟩)
  | some text =>
    apply Reader.IsFor.single
    · intro hwithin
      have hfits : Fits text := Part.excess?_text_eq_none_iff.mp hwithin
      exact (accepts_readOptionalText _ _).mpr ⟨by simpa using hfits, rfl⟩
    · exact fun _ rest hrest => (refuses_readMarker hrest).bind _

/-- A text that must be present is read as one part. -/
theorem isFor_readText (text : String) : readText.IsFor [.text text] text :=
  (isFor_readOptionalText (some text)).bind (.pure text)

/-- The count of a list that is present is read as one part. -/
theorem isFor_readCount (count : Nat) : readCount.IsFor [.count count] (some count) := by
  apply Reader.IsFor.single
  · intro hwithin
    have hfits : count ≤ maxEntries := Part.excess?_count_eq_none_iff.mp hwithin
    exact (accepts_readCount _ _).mpr ⟨by simpa using hfits, rfl⟩
  · exact fun _ rest hrest => refuses_readCount hrest

/-- A counted list is read in its parts if its items are. -/
theorem isFor_readCounted {α : Type} {reader : Reader α} {item : α → List Part}
    (h : ∀ value, reader.IsFor (item value) value) (items : Option (List α)) :
    (readCounted reader).IsFor (Part.counted item items) items := by
  cases items with
  | none =>
    have hcount : readCount.Accepts (countLayout none) none :=
      (accepts_readCount _ _).mpr ⟨by simp, rfl⟩
    exact (Reader.IsFor.plain hcount).bind (.pure none)
  | some items =>
    exact (isFor_readCount items.length).bind ((Reader.IsFor.times h items).map some)

/-- An entry with its text as it is read in two parts. -/
theorem isFor_readEntry (entry : String × String) :
    (readEntry .ok).IsFor (Part.entry entry) entry :=
  (isFor_readText entry.1).bind ((isFor_readText entry.2).bind (.pure entry))

/-- A location that may be absent is read in its parts. -/
theorem isFor_readLocation (location : Option Location) :
    readLocation.IsFor (Part.location location) location := by
  cases location with
  | none => exact (Reader.IsFor.plain (accepts_readMarker.mpr rfl)).bind (.pure none)
  | some location =>
    have hpresent : readMarker.IsFor [.plain (markerLayout true)] true :=
      .plain (accepts_readMarker.mpr rfl)
    exact hpresent.bind ((isFor_readText location.className).bind
      ((isFor_readText location.methodName).bind ((isFor_readText location.fileName).bind
        ((isFor_readText location.lineNumber).bind (.pure (some location))))))

/-- A number is read as one part that has no limit. -/
theorem isFor_number {width n : Nat} (h : n < 256 ^ width) :
    (Reader.number width).IsFor [.plain (bigEndian width n)] n :=
  .plain ((Reader.accepts_number _ _).mpr ⟨h, rfl⟩)

/-- The fields of a record, with the texts of its mapped values as they are, are read in its
parts. -/
theorem isFor_readFields (record : Record String) :
    (readFields .ok).IsFor record.parts record := by
  have htime := record.timestamp.toUInt64.toNat_lt
  have hprio := record.priority.toUInt32.toNat_lt
  have hread : (readFields .ok).IsFor _ record :=
    (isFor_readOptionalText record.wrapper).bind <|
    (isFor_readOptionalText record.loggerName).bind <|
    (isFor_number (show record.timestamp.toUInt64.toNat < 256 ^ 8 by omega)).bind <|
    (isFor_readOptionalText record.threadName).bind <|
    (isFor_readOptionalText record.message).bind <|
    (isFor_readOptionalText record.nested).bind <|
    (isFor_readCounted isFor_readEntry record.properties).bind <|
    (isFor_readCounted isFor_readText record.failure).bind <|
    (isFor_readLocation record.location).bind <|
    (isFor_number (show record.priority.toUInt32.toNat < 256 ^ 4 by omega)).bind <|
    (isFor_readOptionalText record.typeName).bind (by simpa using Reader.IsFor.pure record)
  simpa [Record.parts] using hread

/-- What is refused with the texts of mapped values as they are is refused with them decoded. -/
theorem Reader.Refuses.readFields {V : Type} {decode : String → Except WireError V}
    {bytes : ByteArray} (h : (readFields .ok).Refuses bytes) :
    (Wire.readFields decode).Refuses bytes := by
  rintro front rest record rfl haccepts
  obtain ⟨spelled, -, hfits, rfl⟩ := accepts_readFields.mp haccepts
  exact h _ rest spelled rfl (accepts_readFields_ok.mpr ⟨hfits, rfl⟩)

/-- A half-written record is refused, whatever record comes next. -/
theorem refuses_readRecord (producer : Producer) {record : Record String} {amount : Nat}
    (h : firstExcess? record.parts = some amount) {rest : ByteArray} (hrest : NextRecord rest) :
    (readRecord producer).Refuses
      (headerLayout producer ++ (partsLayout (partsWithin record.parts) ++ rest)) := by
  have hheader : (readHeader producer).Accepts (headerLayout producer) () :=
    accepts_readHeader.mpr rfl
  exact hheader.refuses_bind ((isFor_readFields record).refuses amount h rest hrest).readFields

/-- No event is read where the bytes of a record are refused, and the resolver is not asked. -/
theorem readEvent_of_refuses {σ : Type} [Resolver σ] {producer : Producer} (source : σ)
    {bytes : ByteArray} {start : Nat} (hstart : start ≤ bytes.size)
    (h : (readRecord producer).Refuses (bytes.extract start bytes.size)) :
    ∃ error, readEvent producer source bytes start = ⟨.error error, source, []⟩ := by
  obtain ⟨error, hrun⟩ := h.run_eq_error hstart
  refine ⟨error, ?_⟩
  rw [readEvent, hrun]

end EventSnapshot.Wire
