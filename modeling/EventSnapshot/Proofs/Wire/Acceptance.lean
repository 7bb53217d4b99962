import EventSnapshot.Proofs.SortedMap
import EventSnapshot.Proofs.Wire.Layout
import EventSnapshot.Wire.Codec

/-!
# Which bytes are read as events

A stretch of bytes is read as an event exactly if it is the layout of a record that is within bounds
and whose mapped values all have texts that hold values. There is one such record at most, and the
event is the one that it describes.
-/

namespace EventSnapshot.Wire

/-- The record is within bounds, and the text of each mapped value holds a value. -/
structure Record.WellFormed (record : Record String) : Prop where
  fits : record.Fits
  values : ∀ entries ∈ record.properties, ∀ entry ∈ entries, ∃ value,
    Value.parse entry.2 = .ok value

/-- The stretch of the bytes from start to finish is the layout of a well-formed record. -/
structure Record.StandsAt (producer : Producer) (bytes : ByteArray) (start finish : Nat)
    (record : Record String) : Prop where
  wellFormed : record.WellFormed
  start_le : start ≤ finish
  finish_le : finish ≤ bytes.size
  extract_eq : bytes.extract start finish = record.layout producer

/-- A map answers each look-up with the value that the last entry of the key has a text of. -/
def DescribesMap (entries : List (String × String)) (map : ContextMap) : Prop :=
  ∀ key, (entries.reverse.lookup key).map Value.parse = (map.get? key).map .ok

/-- The event is what the record says, with a level that was rebuilt. -/
def Record.Describes (record : Record String) (level : Level) (event : Event) : Prop :=
  ∃ mapped, Option.Rel DescribesMap record.properties mapped ∧
    event =
      { wrapper := record.wrapper
        logger := none
        loggerName := record.loggerName
        level
        timestamp := record.timestamp
        message := none
        failure := record.failure.map Failure.mk
        source := .thread
        rendered := some record.message
        thread := record.threadName
        nested := some record.nested
        mapped := some mapped
        location := some (record.location.getD .unknown) }

/-! ## What is described -/

/-- A text is decoded as the value that it holds. -/
theorem decodeValue_eq_ok_iff {text : String} {value : Value} :
    decodeValue text = .ok value ↔ Value.parse text = .ok value := by
  unfold decodeValue
  split
  · next h => rw [h]; simp
  · next h => rw [h]; simp

/-- Entries that spell others are looked up alike. -/
theorem lookup_of_spells {spelled : List (String × String)} {entries : List (String × Value)}
    (h : List.Forall₂ (SpellsEntry decodeValue) spelled entries) (key : String) :
    (spelled.lookup key).map Value.parse = (entries.lookup key).map .ok := by
  induction h with
  | nil => rfl
  | @cons first entry spelled entries hentry _ ih =>
    obtain ⟨hkey, hvalue⟩ := hentry
    rw [lookup_cons_eq_ite, lookup_cons_eq_ite, hkey]
    by_cases hwanted : key = entry.1
    · simp [hwanted, decodeValue_eq_ok_iff.mp hvalue]
    · simpa [hwanted] using ih

/-- Entries that spell others describe the map of these. -/
theorem describesMap_of_spells {spelled : List (String × String)} {entries : List (String × Value)}
    (h : List.Forall₂ (SpellsEntry decodeValue) spelled entries) :
    DescribesMap spelled (.ofList entries) := by
  intro key
  rw [SortedMap.get?_ofList]
  exact lookup_of_spells (List.forall₂_reverse_iff.mpr h) key

/-- A record that spells another has the same priority. -/
theorem Record.Spells.priority_eq {spelled : Record String} {record : Record Value}
    (h : spelled.Spells decodeValue record) : record.priority = spelled.priority :=
  congrArg Record.priority h.others

/-- A record that spells another has the same level type. -/
theorem Record.Spells.typeName_eq {spelled : Record String} {record : Record Value}
    (h : spelled.Spells decodeValue record) : record.typeName = spelled.typeName :=
  congrArg Record.typeName h.others

/-- A record that spells another describes the event of that one. -/
theorem Record.Spells.describes {spelled : Record String} {record : Record Value}
    (h : spelled.Spells decodeValue record) (level : Level) :
    spelled.Describes level (Event.ofRecord record level) := by
  obtain ⟨hproperties, hothers⟩ := h
  refine ⟨record.properties.map .ofList, ?_, ?_⟩
  · generalize spelled.properties = properties, record.properties = entries at hproperties
    cases hproperties with
    | none => exact .none
    | some hentries => exact .some (describesMap_of_spells hentries)
  · rw [hothers]
    simp [Event.ofRecord, Event.ofParts, Event.withRendered, withProperties]

/-- Entries describe one map at most. -/
theorem DescribesMap.eq {entries : List (String × String)} {map other : ContextMap}
    (h : DescribesMap entries map) (hother : DescribesMap entries other) : map = other := by
  apply SortedMap.ext_get?
  intro key
  have hkey := (h key).symm.trans (hother key)
  exact Option.map_injective (fun _ _ => Except.ok.inj) hkey

/-- A record describes one event at most. -/
theorem Record.Describes.eq {record : Record String} {level : Level} {event other : Event}
    (h : record.Describes level event) (hother : record.Describes level other) :
    event = other := by
  obtain ⟨mapped, hmap, rfl⟩ := h
  obtain ⟨mapped', hmap', rfl⟩ := hother
  have hmapped : mapped = mapped' := by
    generalize record.properties = properties at hmap hmap'
    cases hmap with
    | none =>
      cases hmap'
      rfl
    | some h =>
      cases hmap' with
      | some h' => rw [h.eq h']
  rw [hmapped]

/-- Entries spell others if each of their texts holds a value, and not otherwise. -/
theorem exists_spells_iff {spelled : List (String × String)} :
    (∃ entries, List.Forall₂ (SpellsEntry decodeValue) spelled entries) ↔
      ∀ entry ∈ spelled, ∃ value, Value.parse entry.2 = .ok value := by
  induction spelled with
  | nil => simp
  | cons first spelled ih =>
    rw [List.forall_mem_cons, ← ih]
    constructor
    · rintro ⟨_, _ | @⟨_, entry, _, entries, ⟨-, hvalue⟩, hentries⟩⟩
      exact ⟨⟨entry.2, decodeValue_eq_ok_iff.mp hvalue⟩, entries, hentries⟩
    · rintro ⟨⟨value, hvalue⟩, entries, hentries⟩
      exact ⟨(first.1, value) :: entries, .cons ⟨rfl, decodeValue_eq_ok_iff.mpr hvalue⟩ hentries⟩

/-- A record spells another if the text of each mapped value holds a value, and not otherwise. -/
theorem Record.exists_spells_iff {spelled : Record String} :
    (∃ record, spelled.Spells decodeValue record) ↔
      ∀ entries ∈ spelled.properties, ∀ entry ∈ entries, ∃ value,
        Value.parse entry.2 = .ok value := by
  constructor
  · rintro ⟨record, hproperties, -⟩ entries hentries
    rw [hentries] at hproperties
    generalize record.properties = values at hproperties
    cases hproperties with
    | some h => exact Wire.exists_spells_iff.mp ⟨_, h⟩
  · intro h
    cases hspelled : spelled.properties with
    | none =>
      refine ⟨spelled.withProperties none, ?_, rfl⟩
      rw [hspelled]
      exact .none
    | some list =>
      obtain ⟨entries, hentries⟩ := Wire.exists_spells_iff.mpr (h list hspelled)
      refine ⟨spelled.withProperties (some entries), ?_, rfl⟩
      rw [hspelled]
      exact .some hentries

/-! ## What is read -/

/-- A record is spelled by itself alone, if the texts of its values are taken as they are. -/
theorem Record.spells_ok_iff {spelled record : Record String} :
    spelled.Spells .ok record ↔ spelled = record := by
  have hentry : SpellsEntry (.ok : String → Except WireError String) = Eq := by
    funext spelled entry
    simp [SpellsEntry, Prod.ext_iff]
  constructor
  · rintro ⟨hproperties, hothers⟩
    rw [hentry, List.forall₂_eq_eq_eq] at hproperties
    have hsame : spelled.properties = record.properties := by
      generalize spelled.properties = mine, record.properties = theirs at hproperties
      cases hproperties with
      | none => rfl
      | some h => rw [h]
    rw [hothers, ← hsame]
    rfl
  · rintro rfl
    constructor
    · rw [hentry, List.forall₂_eq_eq_eq]
      cases spelled.properties with
      | none => exact .none
      | some list => exact .some rfl
    · rfl

/-- A reader that takes the texts of the values as they are accepts each record in its layout. -/
theorem accepts_readFields_ok {bytes : ByteArray} {record : Record String} :
    (readFields .ok).Accepts bytes record ↔ record.Fits ∧ bytes = record.fieldLayout := by
  simp [accepts_readFields, Record.spells_ok_iff]

/-- Such a reader of a whole record accepts every record within bounds in its layout. -/
theorem accepts_layout {producer : Producer} {record : Record String} (hfits : record.Fits) :
    (readHeader producer >>= fun _ => readFields .ok).Accepts (record.layout producer) record := by
  simp only [Reader.accepts_bind, accepts_readHeader, accepts_readFields_ok]
  exact ⟨_, _, (), rfl, rfl, hfits, rfl⟩

variable {producer : Producer} {bytes : ByteArray} {start finish : Nat}

/-- At most one record stands at a position, and it ends in one place. -/
theorem Record.StandsAt.eq {stop : Nat} {record other : Record String}
    (h : record.StandsAt producer bytes start finish)
    (hother : other.StandsAt producer bytes start stop) : record = other ∧ finish = stop := by
  -- Both are what one reader reads there.
  have hrun : ∀ {record : Record String} {finish : Nat},
      record.StandsAt producer bytes start finish →
        (readHeader producer >>= fun _ => readFields .ok).run bytes start =
          .ok (record, finish) := by
    intro record finish h
    apply (Reader.run_eq_ok_iff (Nat.le_trans h.start_le h.finish_le)).mpr
    refine ⟨h.start_le, h.finish_le, ?_⟩
    rw [h.extract_eq]
    exact accepts_layout h.wellFormed.fits
  have hsame := (hrun h).symm.trans (hrun hother)
  simpa using hsame

/-- Nothing is read behind the end of the bytes. -/
theorem run_readRecord_of_size_lt (h : bytes.size < start) :
    (readRecord producer).run bytes start = .error .endOfInput := by
  change (if start + 2 ≤ bytes.size then _ else Except.error WireError.endOfInput) = _
  rw [if_neg (by omega)]

/-- A record is read exactly where a well-formed record stands that spells it. -/
theorem run_readRecord_eq_ok_iff {record : Record Value} :
    (readRecord producer).run bytes start = .ok (record, finish) ↔
      ∃ spelled : Record String, spelled.Spells decodeValue record ∧
        spelled.StandsAt producer bytes start finish := by
  by_cases hstart : start ≤ bytes.size
  · rw [Reader.run_eq_ok_iff hstart, accepts_readRecord]
    constructor
    · rintro ⟨hle, hfinish, spelled, hspells, hfits, hlayout⟩
      have hvalues := Record.exists_spells_iff.mp ⟨record, hspells⟩
      exact ⟨spelled, hspells, ⟨⟨hfits, hvalues⟩, hle, hfinish, hlayout⟩⟩
    · rintro ⟨spelled, hspells, hstands⟩
      exact ⟨hstands.start_le, hstands.finish_le, spelled, hspells, hstands.wellFormed.fits,
        hstands.extract_eq⟩
  · rw [run_readRecord_of_size_lt (by omega)]
    constructor
    · intro h
      cases h
    · rintro ⟨spelled, -, hstands⟩
      exact absurd (Nat.le_trans hstands.start_le hstands.finish_le) hstart

variable {σ : Type} [Resolver σ]

/-- The event that is read is the one of the record that is read, with its level rebuilt. -/
theorem readEvent_value_eq_ok_iff (source : σ) {event : Event} :
    (readEvent producer source bytes start).value = .ok (event, finish) ↔
      ∃ record, (readRecord producer).run bytes start = .ok (record, finish) ∧
        Event.ofRecord record (resolveLevel source record.priority record.typeName).value =
          event := by
  unfold readEvent
  split
  · next h => simp [h]
  · next h => simp [h, and_comm]

/-- An event is read exactly where a well-formed record stands that describes it with its level
rebuilt. No other record stands there, and what stands there describes one event. -/
theorem readEvent_eq_ok_iff (producer : Producer) (source : σ) (bytes : ByteArray) (start : Nat) :
    (∀ event finish, (readEvent producer source bytes start).value = .ok (event, finish) ↔
      ∃ record : Record String, record.StandsAt producer bytes start finish ∧
        record.Describes (resolveLevel source record.priority record.typeName).value event) ∧
    (∀ (record other : Record String) (finish stop : Nat),
      record.StandsAt producer bytes start finish → other.StandsAt producer bytes start stop →
        record = other ∧ finish = stop) ∧
    (∀ (record : Record String) (finish : Nat), record.StandsAt producer bytes start finish →
      ∃! event, record.Describes (resolveLevel source record.priority record.typeName).value
        event) := by
  refine ⟨?_, fun _ _ _ _ => Record.StandsAt.eq, ?_⟩
  · intro event finish
    simp only [readEvent_value_eq_ok_iff, run_readRecord_eq_ok_iff]
    constructor
    · rintro ⟨record, ⟨spelled, hspells, hstands⟩, rfl⟩
      refine ⟨spelled, hstands, ?_⟩
      rw [hspells.priority_eq, hspells.typeName_eq]
      exact hspells.describes _
    · rintro ⟨spelled, hstands, hdescribes⟩
      obtain ⟨record, hspells⟩ := Record.exists_spells_iff.mpr hstands.wellFormed.values
      refine ⟨record, ⟨spelled, hspells, hstands⟩, ?_⟩
      rw [hspells.priority_eq, hspells.typeName_eq]
      exact (hspells.describes _).eq hdescribes
  · intro record finish h
    obtain ⟨values, hspells⟩ := Record.exists_spells_iff.mpr h.wellFormed.values
    exact ⟨_, hspells.describes _, fun event hevent => hevent.eq (hspells.describes _)⟩

end EventSnapshot.Wire
