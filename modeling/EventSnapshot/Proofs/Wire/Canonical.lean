import EventSnapshot.Proofs.Event.Histories
import EventSnapshot.Proofs.Wire.Limits
import EventSnapshot.Proofs.Wire.NormalForm

/-!
# The canonical form of the mapped context

The mapped context is written in one way, with the keys in the order of their bytes. Whatever
history a context has, only what it answers shows in the bytes. What is read may have its entries in
any order: the order makes no difference unless a key is repeated, and then the last entry counts.
-/

namespace EventSnapshot

/-- Both contexts are absent, or both are there and answer every look-up alike. -/
def AnswerAlike (context other : Option ContextMap) : Prop :=
  Option.Rel (fun map another => ∀ key, map.get? key = another.get? key) context other

/-- Contexts that answer every look-up alike are equal. -/
theorem AnswerAlike.eq {context other : Option ContextMap} (h : AnswerAlike context other) :
    context = other := by
  cases h with
  | none => rfl
  | some hanswers => rw [SortedMap.ext_get? hanswers]

/-- What is recorded of an event beside its mapped context. -/
def Event.recordBeside (event : Event) (thread : Thread) : Wire.Record String :=
  (event.record thread).withProperties none

/-- With the same mapped context and the same beside it, events have the same record. -/
theorem Event.record_eq {event another : Event} {thread other : Thread}
    (hmapped : event.mappedContext thread = another.mappedContext other)
    (hbeside : event.recordBeside thread = another.recordBeside other) :
    event.record thread = another.record other := by
  have hwhole (event : Event) (thread : Thread) : event.record thread =
      (event.recordBeside thread).withProperties ((event.mappedContext thread).map fun map =>
        map.entries.map fun entry => (entry.1, entry.2.text)) := rfl
  rw [hwhole, hwhole, hmapped, hbeside]

namespace Wire

/-! ## Entries in another order -/

/-- Where no key is repeated, entries in another order describe the same map. -/
theorem describesMap_iff_of_perm {entries others : List (String × String)}
    (h : entries.Perm others) (hdistinct : (entries.map (·.1)).Nodup) {map : ContextMap} :
    DescribesMap others map ↔ DescribesMap entries map := by
  have hreverse : entries.reverse.Perm others.reverse :=
    (List.reverse_perm entries).trans (h.trans (List.reverse_perm others).symm)
  have hkeys : entries.reverse.Pairwise fun a b => a.1 ≠ b.1 := by
    rw [List.pairwise_reverse]
    exact (List.pairwise_map.mp hdistinct).imp Ne.symm
  simp only [DescribesMap, lookup_eq_of_perm hreverse hkeys]

/-- Where no key is repeated, a record with its entries in another order describes the same
event. -/
theorem Record.describes_iff_of_perm {record : Record String} {entries others}
    (hentries : record.properties = some entries) (h : entries.Perm others)
    (hdistinct : (entries.map (·.1)).Nodup) {level : Level} {event : Event} :
    (record.withProperties (some others)).Describes level event ↔
      record.Describes level event := by
  have hrel (mapped : Option ContextMap) : Option.Rel DescribesMap (some others) mapped ↔
      Option.Rel DescribesMap (some entries) mapped := by
    cases mapped with
    | none => exact ⟨nofun, nofun⟩
    | some map =>
      rw [Option.rel_some_some, Option.rel_some_some, describesMap_iff_of_perm h hdistinct]
  simp only [Describes, withProperties, hentries, hrel]

/-- A record with its entries in another order is within the same bounds. -/
theorem Record.fits_of_perm {record : Record String} {entries others}
    (hentries : record.properties = some entries) (h : entries.Perm others)
    (hfits : record.Fits) : (record.withProperties (some others)).Fits where
  wrapper := hfits.wrapper
  loggerName := hfits.loggerName
  threadName := hfits.threadName
  message := hfits.message
  nested := hfits.nested
  properties := by
    rintro _ ⟨⟩
    obtain ⟨hcount, hall⟩ := hfits.properties entries hentries
    exact ⟨h.length_eq ▸ hcount, fun entry hentry => hall entry (h.mem_iff.mpr hentry)⟩
  failure := hfits.failure
  location := hfits.location
  typeName := hfits.typeName

/-! ## What is read -/

/-- Two records within bounds do not start the same bytes. -/
theorem Record.eq_of_layout_append_eq {producer : Producer} {record other : Record String}
    {rest others : ByteArray} (hfits : record.Fits) (hother : other.Fits)
    (h : record.layout producer ++ rest = other.layout producer ++ others) : record = other :=
  ((accepts_layout hfits).eq_of_append_eq (accepts_layout hother) h).2

/-- The layout of a record within bounds is decoded exactly as the event that the record describes,
provided that its mapped values have texts that hold values. -/
theorem decode_layout_eq_ok_iff {σ : Type} [Resolver σ] (producer : Producer) (source : σ)
    {record : Record String} (hfits : record.Fits) (rest : ByteArray) (event : Event) :
    (decode producer source (record.layout producer ++ rest)).value = .ok event ↔
      (∀ entries ∈ record.properties, ∀ entry ∈ entries, ∃ value,
        Value.parse entry.2 = .ok value) ∧
      record.Describes (resolveLevel source record.priority record.typeName).value event := by
  constructor
  · intro h
    obtain ⟨finish, hread⟩ := exists_readEvent_of_decode h
    obtain ⟨read, hrun, rfl⟩ := (readEvent_value_eq_ok_iff source).mp hread
    obtain ⟨spelled, hspells, hstands⟩ := run_readRecord_eq_ok_iff.mp hrun
    have hbytes := ByteArray.extract_eq_extract_append_extract
      (a := record.layout producer ++ rest) finish (Nat.zero_le _) hstands.finish_le
    rw [ByteArray.extract_zero_size, hstands.extract_eq] at hbytes
    obtain rfl := Record.eq_of_layout_append_eq hfits hstands.wellFormed.fits hbytes
    rw [hspells.priority_eq, hspells.typeName_eq]
    exact ⟨hstands.wellFormed.values, hspells.describes _⟩
  · rintro ⟨hvalues, hdescribes⟩
    obtain ⟨read, hspells⟩ := Record.exists_spells_iff.mpr hvalues
    rw [decode_layout_append producer source hspells hfits rest, hspells.priority_eq,
      hspells.typeName_eq, (hspells.describes _).eq hdescribes]

/-! ## The canonical form -/

/-- The mapped context has one written form, which does not depend on how it came about. -/
structure WritesCanonically (producer : Producer) : Prop where
  /-- The bytes of an event are the layout of one record alone, in which the keys of the mapped
  context ascend by their UTF-8 bytes, and so none is repeated. -/
  keys : ∀ (event : Event) (thread : Thread) (bytes : ByteArray),
    encode producer event thread = .ok bytes →
      ∃ record : Record String,
        (∀ other : Record String,
          other.Fits ∧ bytes = other.layout producer ↔ other = record) ∧
        ∀ entries ∈ record.properties,
          ((entries.map (·.1)).Pairwise fun key other =>
            key.toUTF8.data.toList < other.toUTF8.data.toList) ∧
          (entries.map (·.1)).Nodup
  /-- Any two histories that leave contexts that answer alike, absence being told from emptiness,
  leave events with the same bytes, if the events are alike beside. -/
  histories : ∀ (setting another : Setting) (deeds others : List Deed) (writer scribe : Nat),
    let last := setting.run deeds
    let final := another.run others
    AnswerAlike (last.event.mappedContext (last.threads writer))
      (final.event.mappedContext (final.threads scribe)) →
    last.event.recordBeside (last.threads writer) =
      final.event.recordBeside (final.threads scribe) →
    encode producer last.event (last.threads writer) =
      encode producer final.event (final.threads scribe)
  /-- What a history leaves for a key is settled by what its deeds do to that key. What it leaves is
  absent exactly if it has no edit and leaves nothing for any key. -/
  cells : ∀ (setting : Setting) (deeds : List Deed) (writer : Nat),
    setting.event.source = .thread → setting.event.mapped = none →
    let last := setting.run deeds
    (∀ key, (last.event.properties (last.threads writer)).get? key =
      ((setting.cell key).run key deeds).answer writer) ∧
    (last.event.mappedContext (last.threads writer) = none ↔
      (∀ deed ∈ deeds, deed.edit? = none) ∧
        ∀ key, ((setting.cell key).run key deeds).answer writer = none)
  /-- A record without repeated keys is decoded as the same event, or refused, in whatever order
  its entries come. -/
  permuted : ∀ {σ : Type} [Resolver σ] (source : σ) (record : Record String)
    (entries others : List (String × String)) (rest : ByteArray),
    record.Fits → record.properties = some entries → (entries.map (·.1)).Nodup →
    entries.Perm others →
    ∀ event,
      (decode producer source
        ((record.withProperties (some others)).layout producer ++ rest)).value = .ok event ↔
      (decode producer source (record.layout producer ++ rest)).value = .ok event
  /-- A well-formed record is decoded as an event that has for each key the value of its last
  entry. -/
  lastEntry : ∀ {σ : Type} [Resolver σ] (source : σ) (record : Record String)
    (rest : ByteArray), record.WellFormed →
    ∃ event, (decode producer source (record.layout producer ++ rest)).value = .ok event ∧
      ∀ thread, Option.Rel DescribesMap record.properties (event.mappedContext thread)

/-- The mapped context of every event is written in its canonical form, and what is read is brought
to it. -/
theorem writesCanonically (producer : Producer) : WritesCanonically producer where
  keys := by
    intro event thread bytes hencode
    rw [encode_eq_ok_iff, Event.record_prepare] at hencode
    obtain ⟨hfits, rfl⟩ := hencode
    refine ⟨event.record thread, ?_, ?_⟩
    · intro other
      constructor
      · rintro ⟨hother, hlayout⟩
        have hbytes := congrArg (· ++ ByteArray.empty) hlayout.symm
        exact Record.eq_of_layout_append_eq hother hfits hbytes
      · rintro rfl
        exact ⟨hfits, rfl⟩
    · intro entries hentries
      rw [Event.record, Option.mem_def, Option.map_eq_some_iff] at hentries
      obtain ⟨map, -, rfl⟩ := hentries
      rw [List.map_map]
      exact ⟨keys_pairwise_utf8_lt map, map.nodup_keys⟩
  histories := by
    intro setting another deeds others writer scribe last final hanswers hbeside
    exact encode_congr (Event.record_eq hanswers.eq hbeside)
  cells := fun setting deeds writer hsource hfresh =>
    setting.mappedContext_run hsource hfresh deeds writer
  permuted := by
    intro σ _ source record entries others rest hfits hentries hdistinct hperm event
    have hothers := Record.fits_of_perm hentries hperm hfits
    have hvalues : (∀ list ∈ (record.withProperties (some others)).properties,
        ∀ entry ∈ list, ∃ value, Value.parse entry.2 = .ok value) ↔
        ∀ list ∈ record.properties, ∀ entry ∈ list, ∃ value,
          Value.parse entry.2 = .ok value := by
      simp [Record.withProperties, hentries, hperm.mem_iff]
    rw [decode_layout_eq_ok_iff producer source hothers,
      decode_layout_eq_ok_iff producer source hfits, hvalues,
      ← Record.describes_iff_of_perm hentries hperm hdistinct]
    rfl
  lastEntry := by
    intro σ _ source record rest hwellFormed
    obtain ⟨read, hspells⟩ := Record.exists_spells_iff.mpr hwellFormed.values
    have hdescribes := hspells.describes
      (resolveLevel source record.priority record.typeName).value
    refine ⟨_, (decode_layout_eq_ok_iff producer source hwellFormed.fits rest _).mpr
      ⟨hwellFormed.values, hdescribes⟩, ?_⟩
    obtain ⟨mapped, hmapped, hevent⟩ := hdescribes
    intro thread
    rw [hevent]
    exact hmapped

/-- The byte order differs from the one of 16-bit units, which would put the second key first. -/
example :
    let setting : Setting := ⟨fun _ => .new none, .new none none 1 .info none none⟩
    let direct := setting.run [.put 0 "\uFFFD" .null, .put 0 "😀" .null]
    let edited := setting.run [.put 0 "é" .null, .put 0 "😀" .null, .remove 0 "é",
      .visit 0 .mapped, .clear 0, .visit 1 (.setProperty "\uFFFD" .null)]
    (direct.event.properties (direct.threads 0)).keys = ["\uFFFD", "😀"] ∧
      direct.event.mappedContext (direct.threads 0) =
        edited.event.mappedContext (edited.threads 0) := by
  refine ⟨by decide, rfl⟩

end Wire

end EventSnapshot
