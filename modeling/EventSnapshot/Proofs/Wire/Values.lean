import EventSnapshot.Proofs.Json.Rereading
import EventSnapshot.Proofs.Wire.NormalForm
import EventSnapshot.Proofs.Wire.Runs

/-!
# Mapped values on the wire

The values of mapped context are the one part of a record whose text can be written and then not be
read. What is read of a record within bounds is settled by the decoding of these texts: the reading
either fails for the first text that is not decoded, or gives the record with all of them decoded.
-/

namespace EventSnapshot

namespace Wire

/-! ## Decoding what is read -/

namespace Reader

variable {α β : Type} {bytes : ByteArray} {start finish : Nat}

/-- One reader takes what another takes and gives what the other's value is decoded as. -/
def Decodes (decode : α → Except WireError β) (raw : Reader α) (reader : Reader β) : Prop :=
  ∀ bytes start value finish, raw.run bytes start = .ok (value, finish) →
    reader.run bytes start = (decode value).map fun result => (result, finish)

/-- Where each item is decoded, a repetition gives all items decoded, up to the first that fails. -/
theorem Decodes.times {decode : α → Except WireError β} {raw : Reader α} {reader : Reader β}
    (h : Decodes decode raw reader) (count : Nat) :
    Decodes (List.mapM decode) (times count raw) (times count reader) := by
  -- The items read before are kept in reverse, so the induction is on the count for all of them.
  suffices hafter : ∀ bytes start before decoded values finish,
      (timesAfter raw count before).run bytes start = .ok (values, finish) →
        ∃ later, values = before.reverse ++ later ∧
          (timesAfter reader count decoded).run bytes start =
            (later.mapM decode).map fun results => (decoded.reverse ++ results, finish) by
    intro bytes start values finish hrun
    obtain ⟨later, rfl, hlater⟩ := hafter bytes start [] [] values finish hrun
    simpa [Reader.times] using hlater
  induction count with
  | zero =>
    intro bytes start before decoded values finish hrun
    cases hrun
    exact ⟨[], by simp, by simp [timesAfter, run, Except.map, pure, Except.pure]⟩
  | succ count ih =>
    intro bytes start before decoded values finish hrun
    change (raw >>= fun value => timesAfter raw count (value :: before)).run _ _ = _ at hrun
    obtain ⟨value, position, hvalue, hrest⟩ := run_bind_eq_ok_iff.mp hrun
    have hreader := h bytes start value position hvalue
    change ∃ later, _ ∧
      (reader >>= fun result => timesAfter reader count (result :: decoded)).run _ _ = _
    cases hdecode : decode value with
    | error error =>
      obtain ⟨later, rfl, -⟩ := ih bytes position (value :: before) decoded values finish hrest
      rw [hdecode] at hreader
      refine ⟨value :: later, by simp, ?_⟩
      rw [run_bind_of_error hreader, List.mapM_cons, hdecode]
      rfl
    | ok result =>
      obtain ⟨later, rfl, hlater⟩ :=
        ih bytes position (value :: before) (result :: decoded) values finish hrest
      rw [hdecode] at hreader
      refine ⟨value :: later, by simp, ?_⟩
      rw [run_bind_of_ok hreader, hlater, List.mapM_cons, hdecode]
      cases later.mapM decode with
      | error error => rfl
      | ok results =>
        simp only [List.reverse_cons, List.append_assoc]
        rfl

end Reader

variable {V : Type} (decode : String → Except WireError V)

/-- An entry with its text decoded. -/
def decodeEntry (entry : String × String) : Except WireError (String × V) :=
  (decode entry.2).map fun value => (entry.1, value)

/-- Some entries, which may be absent, with their texts decoded. -/
def decodeEntries :
    Option (List (String × String)) → Except WireError (Option (List (String × V)))
  | none => .ok none
  | some entries => (entries.mapM (decodeEntry decode)).map some

/-- An entry is read as its text is decoded. -/
theorem decodes_readEntry :
    Reader.Decodes (decodeEntry decode) (readEntry .ok) (readEntry decode) := by
  intro bytes start entry finish hrun
  obtain ⟨key, _, hkey, hrun⟩ := Reader.run_bind_eq_ok_iff.mp hrun
  obtain ⟨text, _, htext, hrun⟩ := Reader.run_bind_eq_ok_iff.mp hrun
  cases hrun
  rw [readEntry, Reader.run_bind_of_ok hkey, Reader.run_bind_of_ok htext, decodeEntry]
  cases decode text with
  | error error => rfl
  | ok value => rfl

/-- Mapped context is read as its texts are decoded. -/
theorem decodes_readCounted :
    Reader.Decodes (decodeEntries decode) (readCounted (readEntry .ok))
      (readCounted (readEntry decode)) := by
  intro bytes start entries finish hrun
  obtain ⟨count, position, hcount, hrun⟩ := Reader.run_bind_eq_ok_iff.mp hrun
  rw [readCounted, Reader.run_bind_of_ok hcount]
  cases count with
  | none =>
    cases hrun
    rfl
  | some count =>
    dsimp only at hrun ⊢
    rw [Reader.run_map] at hrun ⊢
    cases hlist : (Reader.times count (readEntry .ok)).run bytes position with
    | error error =>
      rw [hlist] at hrun
      cases hrun
    | ok read =>
      rw [hlist] at hrun
      cases hrun
      rw [(decodes_readEntry decode).times count bytes position _ _ hlist, decodeEntries]
      cases read.1.mapM (decodeEntry decode) <;> rfl

/-- The record with the texts of its mapped values decoded. -/
def Record.decoded (record : Record String) : Except WireError (Record V) :=
  (decodeEntries decode record.properties).map record.withProperties

/-- The fields of a record are read as the texts of its mapped values are decoded. -/
theorem decodes_readFields :
    Reader.Decodes (Record.decoded decode) (readFields .ok) (readFields decode) := by
  intro bytes start record finish hrun
  obtain ⟨wrapper, _, hwrapper, hrun⟩ := Reader.run_bind_eq_ok_iff.mp hrun
  obtain ⟨loggerName, _, hlogger, hrun⟩ := Reader.run_bind_eq_ok_iff.mp hrun
  obtain ⟨timestamp, _, htimestamp, hrun⟩ := Reader.run_bind_eq_ok_iff.mp hrun
  obtain ⟨threadName, _, hthread, hrun⟩ := Reader.run_bind_eq_ok_iff.mp hrun
  obtain ⟨message, _, hmessage, hrun⟩ := Reader.run_bind_eq_ok_iff.mp hrun
  obtain ⟨nested, _, hnested, hrun⟩ := Reader.run_bind_eq_ok_iff.mp hrun
  obtain ⟨properties, _, hproperties, hrun⟩ := Reader.run_bind_eq_ok_iff.mp hrun
  obtain ⟨failure, _, hfailure, hrun⟩ := Reader.run_bind_eq_ok_iff.mp hrun
  obtain ⟨location, _, hlocation, hrun⟩ := Reader.run_bind_eq_ok_iff.mp hrun
  obtain ⟨priority, _, hpriority, hrun⟩ := Reader.run_bind_eq_ok_iff.mp hrun
  obtain ⟨typeName, _, htype, hrun⟩ := Reader.run_bind_eq_ok_iff.mp hrun
  cases hrun
  rw [readFields, Reader.run_bind_of_ok hwrapper, Reader.run_bind_of_ok hlogger,
    Reader.run_bind_of_ok htimestamp, Reader.run_bind_of_ok hthread,
    Reader.run_bind_of_ok hmessage, Reader.run_bind_of_ok hnested]
  have hdecoded := decodes_readCounted decode _ _ _ _ hproperties
  rw [Record.decoded]
  cases hentries : decodeEntries decode properties with
  | error error =>
    rw [hentries] at hdecoded
    rw [Reader.run_bind_of_error hdecoded]
    rfl
  | ok entries =>
    rw [hentries] at hdecoded
    rw [Reader.run_bind_of_ok hdecoded, Reader.run_bind_of_ok hfailure,
      Reader.run_bind_of_ok hlocation, Reader.run_bind_of_ok hpriority,
      Reader.run_bind_of_ok htype]
    rfl

/-- The layout of a record within bounds is read as the texts of its mapped values are decoded. -/
theorem run_readRecord_layout {producer : Producer} {record : Record String} (hfits : record.Fits) :
    (readRecord producer).run (record.layout producer) 0 =
      (record.decoded decodeValue).map fun result => (result, (record.layout producer).size) := by
  have hraw : (readHeader producer >>= fun _ => readFields .ok).run (record.layout producer) 0 =
      .ok (record, (record.layout producer).size) := by
    apply (Reader.run_eq_ok_iff (Nat.zero_le _)).mpr
    refine ⟨Nat.zero_le _, Nat.le_refl _, ?_⟩
    rw [ByteArray.extract_zero_size]
    exact accepts_layout hfits
  obtain ⟨_, position, hheader, hfields⟩ := Reader.run_bind_eq_ok_iff.mp hraw
  rw [readRecord, Reader.run_bind_of_ok hheader]
  exact decodes_readFields decodeValue _ _ _ _ hfields

end Wire

/-! ## Events -/

/-- The mapped context with the numbers that its texts are read as. -/
def ContextMap.reread (map : ContextMap) : ContextMap :=
  ⟨map.entries.map fun entry => (entry.1, entry.2.reread), List.pairwise_map.mpr map.ascending⟩

namespace Event

/-- No value of the mapped context nests deeper than a text that is read may. -/
def MappedReadable (event : Event) (thread : Thread) : Prop :=
  ∀ map ∈ event.mappedContext thread, ∀ entry ∈ map.entries,
    entry.2.json.nesting ≤ Json.maxDepth

/-- The event that comes back, with the mapped values that are read. -/
def receivedReread (event : Event) (thread : Thread) (level : Level) : Event :=
  { event.received thread level with
    mapped := some ((event.mappedContext thread).map ContextMap.reread) }

/-- The record of an event with the mapped values that are read. -/
def rereadRecord (event : Event) (thread : Thread) : Wire.Record Value :=
  (event.record thread).withProperties
    ((event.mappedContext thread).map fun map => (ContextMap.reread map).entries)

/-- The record with the mapped values that are read describes the event that comes back with
them. -/
theorem ofRecord_rereadRecord (event : Event) (thread : Thread) (level : Level) :
    ofRecord (event.rereadRecord thread) level = event.receivedReread thread level := by
  rw [rereadRecord, ← Function.comp_def (·.entries) ContextMap.reread, ← Option.map_map]
  exact event.ofRecord_withProperties thread level _

end Event

namespace Wire

/-- The texts of a mapped context are decoded unless one of its values nests too deep. -/
theorem decodeEntries_text (map : ContextMap) :
    decodeEntries decodeValue (some (map.entries.map fun entry => (entry.1, entry.2.text))) =
      if ∀ entry ∈ map.entries, entry.2.json.nesting ≤ Json.maxDepth then
        .ok (some (ContextMap.reread map).entries)
      else .error (.invalidValue .malformed) := by
  have hentry : (fun entry : String × Value => decodeEntry decodeValue (entry.1, entry.2.text)) =
      fun entry => if entry.2.json.nesting ≤ Json.maxDepth then .ok (entry.1, entry.2.reread)
        else .error (.invalidValue .malformed) := by
    funext entry
    rw [decodeEntry, decodeValue, Value.parse_text]
    split <;> split <;> simp_all [Except.map]
  rw [decodeEntries, List.mapM_map]
  change (map.entries.mapM fun entry => decodeEntry decodeValue (entry.1, entry.2.text)).map _ = _
  rw [hentry, Json.mapM_ite]
  split <;> rfl

/-- The record of an event is decoded as the one of the values that are read, if none of them nests
too deep. -/
theorem decoded_record {event : Event} {thread : Thread} (h : event.MappedReadable thread) :
    (event.record thread).decoded decodeValue = .ok (event.rereadRecord thread) := by
  rw [Record.decoded, Event.record, Event.rereadRecord, Event.record]
  cases hmapped : event.mappedContext thread with
  | none => rfl
  | some map =>
    dsimp only [Option.map_some]
    rw [decodeEntries_text, if_pos (h map hmapped)]
    rfl

/-- The record of an event is not decoded if one of its mapped values nests too deep. -/
theorem decoded_record_of_deep {event : Event} {thread : Thread}
    (h : ¬ event.MappedReadable thread) :
    (event.record thread).decoded decodeValue = .error (.invalidValue .malformed) := by
  rw [Record.decoded, Event.record]
  cases hmapped : event.mappedContext thread with
  | none =>
    refine absurd ?_ h
    intro map hmap
    rw [hmapped] at hmap
    cases hmap
  | some map =>
    have hdeep : ¬ ∀ entry ∈ map.entries, entry.2.json.nesting ≤ Json.maxDepth := by
      intro hall
      apply h
      intro found hfound
      obtain rfl : map = found := Option.some.inj (hmapped.symm.trans hfound)
      exact hall
    dsimp only [Option.map_some]
    rw [decodeEntries_text, if_neg hdeep]
    rfl

variable {σ : Type} [Resolver σ] {producer : Producer} {event : Event} {thread : Thread}
  {bytes : ByteArray}

/-- What was encoded is read as the record of the event is decoded. -/
theorem decode_value_of_decoded (source : σ) (hencode : encode producer event thread = .ok bytes) :
    (decode producer source bytes).value =
      ((event.record thread).decoded decodeValue).map fun record =>
        Event.ofRecord record (resolveLevel source record.priority record.typeName).value := by
  obtain ⟨hfits, rfl⟩ := encode_eq_ok_iff.mp hencode
  rw [Event.record_prepare] at hfits ⊢
  rw [decode, readEvent, run_readRecord_layout hfits]
  cases (event.record thread).decoded decodeValue <;> rfl

/-- An event that comes back of what was encoded is the one of its record, with some mapped
context. -/
theorem exists_ofRecord_of_decode (source : σ) {decoded : Event}
    (hencode : encode producer event thread = .ok bytes)
    (hdecode : (decode producer source bytes).value = .ok decoded) :
    ∃ entries, decoded = Event.ofRecord ((event.record thread).withProperties entries)
      (resolveLevel source event.level.priority event.level.typeName).value := by
  rw [decode_value_of_decoded source hencode, Record.decoded] at hdecode
  cases hentries : decodeEntries decodeValue (event.record thread).properties with
  | error error =>
    rw [hentries] at hdecode
    cases hdecode
  | ok entries =>
    rw [hentries] at hdecode
    cases hdecode
    exact ⟨entries, rfl⟩

/-- Whatever was encoded is decoded as the event that comes back with the values that are read of
their texts, provided that none of the values nests deeper than a text that is read may; otherwise
the decoding fails for the text of that value. -/
theorem decode_of_encode_reread (source : σ)
    (hencode : encode producer event thread = .ok bytes) :
    (event.MappedReadable thread →
      (decode producer source bytes).value = .ok (event.receivedReread thread
        (resolveLevel source event.level.priority event.level.typeName).value)) ∧
    (¬ event.MappedReadable thread →
      (decode producer source bytes).value = .error (.invalidValue .malformed)) := by
  rw [decode_value_of_decoded source hencode]
  constructor
  · intro hreadable
    rw [decoded_record hreadable, ← Event.ofRecord_rereadRecord]
    rfl
  · intro hdeep
    rw [decoded_record_of_deep hdeep]
    rfl

/-- An event with a value in an array, as it comes back. -/
theorem decode_of_encode_reread_array :
    let thread := (Thread.new (some "main")).put "attempts" (.inArray (.ofBool true))
    let event := Event.new (some "app::log") (some ⟨"app", none⟩) 1700000000000 .info
      (some (.text "hello")) none
    ∃ bytes, encode .current event thread = .ok bytes ∧ event.MappedReadable thread ∧
      (decode .current Registry.empty bytes).value = .ok (event.receivedReread thread .info) := by
  intro thread event
  have hencode : encode .current event thread = .ok _ :=
    encode_eq_ok_iff.mpr ⟨by decide +kernel, rfl⟩
  have hreadable : event.MappedReadable thread := by
    rintro _ ⟨⟩ entry hentry
    obtain rfl := List.mem_singleton.mp hentry
    decide
  exact ⟨_, hencode, hreadable, (decode_of_encode_reread Registry.empty hencode).1 hreadable⟩

/-- Not all that is encoded is decoded: a value in 128 arrays, one in the other, has a text that is
written and not read. -/
theorem not_decode_of_encode_deep :
    let thread := (Thread.new (some "main")).put "k" (Value.inArray^[128] .null)
    let event := Event.new none none 1000 .info none none
    ∃ bytes, encode .current event thread = .ok bytes ∧
      ∀ found, (decode .current Registry.empty bytes).value ≠ .ok found := by
  intro thread event
  have hencode : encode .current event thread = .ok _ :=
    encode_eq_ok_iff.mpr ⟨by decide +kernel, rfl⟩
  have hdeep : ¬ event.MappedReadable thread := by
    intro h
    have hvalue := h _ rfl ("k", Value.inArray^[128] .null) (List.mem_singleton.mpr rfl)
    revert hvalue
    decide +kernel
  refine ⟨_, hencode, fun found hfound => ?_⟩
  rw [decode_value_of_decoded Registry.empty hencode, decoded_record_of_deep hdeep] at hfound
  cases hfound

/-- Mapped context without floating-point numbers, nested no deeper than a text that is read may be,
comes back as it was, whichever thread asks for it then. -/
theorem mappedContext_of_decode (source : σ) {map : ContextMap}
    (hmapped : event.mappedContext thread = some map)
    (hexact : ∀ entry ∈ map.entries, entry.2.json.Exact)
    (hnesting : ∀ entry ∈ map.entries, entry.2.json.nesting ≤ Json.maxDepth)
    (hencode : encode producer event thread = .ok bytes) :
    ∃ found, (decode producer source bytes).value = .ok found ∧
      ∀ other, found.mappedContext other = some map := by
  have hsurvives : event.MappedSurvives thread := by
    intro found hfound entry hentry
    obtain rfl : map = found := Option.some.inj (hmapped.symm.trans hfound)
    exact Value.parse_text_of_exact (hexact entry hentry) (hnesting entry hentry)
  refine ⟨_, decode_value_of_encode source hencode hsurvives, fun other => ?_⟩
  rw [← hmapped]
  rfl

/-- An empty key, the greatest and the least whole number, and a text and a key with characters that
are escaped, as they come back. -/
theorem mappedContext_of_decode_boundaries :
    let map : ContextMap :=
      ⟨[("", .ofNumber (.natural 18446744073709551615)),
        ("\"", .inArray (.ofNumber (.negative 9223372036854775807))),
        ("é", .inObject "" (.ofString "\\\"\x00"))], by decide⟩
    let thread := Thread.new (some "main")
    let event := { Event.new none none 1000 .info none none with mapped := some (some map) }
    ∃ bytes found, encode .current event thread = .ok bytes ∧
      (decode .current Registry.empty bytes).value = .ok found ∧
      ∀ other, found.mappedContext other = some map := by
  intro map thread event
  have htext : (Value.inObject "" (.ofString "\\\"\x00")).text =
      "\x7b\"\":\"\\\\\\\"\\u0000\"\x7d" := by
    rw [← String.toList_inj, Value.text, Json.toList_write]
    decide +kernel
  have hproperties :
      CountFits EntryFits (map.entries.map fun entry => (entry.1, entry.2.text)) := by
    refine ⟨by decide, ?_⟩
    simp only [map, List.map_cons, List.map_nil, List.forall_mem_cons, htext]
    exact ⟨by decide +kernel, by decide +kernel, by decide, by simp⟩
  have hfits : (event.record thread).Fits :=
    (Record.fits_iff _).mpr
      ⟨by decide, by rintro _ ⟨⟩; exact hproperties, by rintro _ ⟨⟩, by rintro _ ⟨⟩⟩
  have hencode : encode .current event thread = .ok _ := encode_eq_ok_iff.mpr ⟨hfits, rfl⟩
  have hall : ∀ entry ∈ map.entries,
      entry.2.json.Exact ∧ entry.2.json.nesting ≤ Json.maxDepth := by
    simp [map, Value.ofNumber, Value.ofString, Value.inArray, Value.inObject, Json.Exact,
      Json.ExactItems, Json.ExactMembers, Json.nesting, Json.itemNesting, Json.memberNesting,
      Json.maxDepth]
  obtain ⟨found, hfound, hsame⟩ := mappedContext_of_decode Registry.empty rfl
    (fun entry hentry => (hall entry hentry).1) (fun entry hentry => (hall entry hentry).2) hencode
  exact ⟨_, found, hencode, hfound, hsame⟩

end Wire

end EventSnapshot
