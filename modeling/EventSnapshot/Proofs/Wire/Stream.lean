import EventSnapshot.Proofs.Wire.RoundTrip

/-!
# Streams of events

Encodings that stand one after the other are read one by one, whatever follows them: each reading
stops where the next encoding starts. The resolver that the readings share may change from one to
the next; if that never changes what it answers, every event comes back as if it were read alone.
-/

namespace EventSnapshot

/-! ## Resolvers that change only inwardly -/

/-- Looking up one type never changes what is found for another, or for the same one again. -/
def Resolver.Steady (σ : Type) [Resolver σ] : Prop :=
  ∀ (source : σ) (asked wanted : String),
    (Resolver.resolve (Resolver.resolve source asked).2 wanted).1 =
      (Resolver.resolve source wanted).1

/-- A registry is not changed by look-ups. -/
theorem Registry.steady : Resolver.Steady Registry := fun _ _ _ => rfl

/-- A resolver that remembers answers from its memory, and asks only for what is not in it. -/
theorem Caching.resolve_fst {σ : Type} [Resolver σ] (cache : Caching σ) (typeName : String) :
    (Resolver.resolve cache typeName).1 =
      ((cache.remembered.get? typeName).map .ok).getD
        (Resolver.resolve cache.source typeName).1 := by
  simp only [Resolver.resolve]
  cases cache.remembered.get? typeName with
  | some factory => rfl
  | none =>
    dsimp only
    split
    · next h => simp [h]
    · next h => simp [h]

/-- A resolver that remembers is steady if the one that it asks is, however much it remembers. -/
theorem Caching.steady {σ : Type} [Resolver σ] (h : Resolver.Steady σ) :
    Resolver.Steady (Caching σ) := by
  intro cache asked wanted
  have hsource := h cache.source asked wanted
  rw [Caching.resolve_fst, Caching.resolve_fst]
  simp only [Resolver.resolve]
  cases hasked : cache.remembered.get? asked with
  | some factory => rfl
  | none =>
    dsimp only
    split
    · next factory source hfound =>
      rw [hfound] at hsource
      rw [SortedMap.get?_insert]
      by_cases hwanted : wanted = asked
      · simp [hwanted, hasked, hfound]
      · rw [if_neg hwanted, hsource]
    · next error source hfound =>
      rw [hfound] at hsource
      rw [hsource]

/-- The resolver after some levels were rebuilt, the first first. -/
def resolverAfter {σ : Type} [Resolver σ] (source : σ) (levels : List Level) : σ :=
  levels.foldl (fun source level => (resolveLevel source level.priority level.typeName).source)
    source

/-- What rebuilding a level gives depends on nothing but what is found for its type. -/
theorem resolveLevel_value_congr {σ τ : Type} [Resolver σ] [Resolver τ] {source : σ} {other : τ}
    (h : ∀ typeName, (Resolver.resolve source typeName).1 = (Resolver.resolve other typeName).1)
    (priority : Int32) (typeName : Option String) :
    (resolveLevel source priority typeName).value =
      (resolveLevel other priority typeName).value := by
  cases typeName with
  | none => rfl
  | some typeName =>
    simp only [resolveLevel, h typeName]
    split <;> rfl

/-- Rebuilding a level of a named type leaves the resolver as the look-up of the type does. -/
theorem source_resolveLevel {σ : Type} [Resolver σ] (source : σ) (priority : Int32)
    (typeName : String) :
    (resolveLevel source priority (some typeName)).source =
      (Resolver.resolve source typeName).2 := by
  simp only [resolveLevel]
  split <;> rfl

/-- Rebuilding a level leaves a steady resolver with the same answers. -/
theorem Resolver.Steady.resolve_resolveLevel {σ : Type} [Resolver σ] (h : Resolver.Steady σ)
    (source : σ) (priority : Int32) (typeName : Option String) (wanted : String) :
    (Resolver.resolve (resolveLevel source priority typeName).source wanted).1 =
      (Resolver.resolve source wanted).1 := by
  cases typeName with
  | none => rfl
  | some typeName =>
    rw [source_resolveLevel, h]

/-- A steady resolver rebuilds a level in the same way, whatever was rebuilt before. -/
theorem Resolver.Steady.resolveLevel_resolverAfter {σ : Type} [Resolver σ]
    (h : Resolver.Steady σ) (source : σ) (levels : List Level) (priority : Int32)
    (typeName : Option String) :
    (resolveLevel (resolverAfter source levels) priority typeName).value =
      (resolveLevel source priority typeName).value := by
  induction levels generalizing source with
  | nil => rfl
  | cons level levels ih =>
    rw [resolverAfter, List.foldl_cons, ← resolverAfter, ih]
    exact resolveLevel_value_congr (h.resolve_resolveLevel source _ _) priority typeName

namespace Wire

variable {σ : Type} [Resolver σ] {producer : Producer}

/-- The events that come back, each with where its reading stops, when the events of some threads
are read one after the other from a position on. -/
def arrivals (source : σ) (start : Nat) (sent : List (Event × Thread))
    (encodings : List ByteArray) : List (Event × Nat) :=
  sent.mapIdx fun i pair =>
    let earlier := (sent.take i).map fun pair => pair.1.level
    let resolved :=
      resolveLevel (resolverAfter source earlier) pair.1.level.priority pair.1.level.typeName
    (pair.1.received pair.2 resolved.value, start + (joined (encodings.take (i + 1))).size)

/-- Behind the first arrival, the others arrive where it stopped and at the resolver that it
left. -/
theorem arrivals_cons (source : σ) (start : Nat) (event : Event) (thread : Thread)
    (sent : List (Event × Thread)) (encoded : ByteArray) (encodings : List ByteArray) :
    arrivals source start ((event, thread) :: sent) (encoded :: encodings) =
      let resolved := resolveLevel source event.level.priority event.level.typeName
      (event.received thread resolved.value, start + encoded.size) ::
        arrivals resolved.source (start + encoded.size) sent encodings := by
  simp [arrivals, List.mapIdx_cons, resolverAfter, Nat.add_assoc]

/-- Where the reading of events stopped that started at some position. -/
def stopped (start : Nat) (events : List (Event × Nat)) : Nat :=
  (events.getLast?.map (·.2)).getD start

/-- Behind the first event, the reading goes on from where that stopped. -/
theorem stopped_cons (start : Nat) (event : Event × Nat) (events : List (Event × Nat)) :
    stopped start (event :: events) = stopped event.2 events := by
  cases events with
  | nil => rfl
  | cons next events => simp [stopped, List.getLast?_cons]

/-- Each event has an encoding under the name of the producer. -/
abbrev Encodings (producer : Producer) : List (Event × Thread) → List ByteArray → Prop :=
  List.Forall₂ fun pair encoded => encode producer pair.1 pair.2 = .ok encoded

/-- The last arrival stops where the last encoding ends. -/
theorem stopped_arrivals {sent : List (Event × Thread)} {encodings : List ByteArray}
    (h : Encodings producer sent encodings) (source : σ) (start : Nat) :
    stopped start (arrivals source start sent encodings) = start + (joined encodings).size := by
  induction h generalizing source start with
  | nil => rfl
  | @cons pair encoded sent encodings _ _ ih =>
    rw [arrivals_cons, stopped_cons, ih, joined_cons, ByteArray.size_append, Nat.add_assoc]

/-- A header has bytes. -/
theorem size_headerLayout_pos (producer : Producer) : 0 < (headerLayout producer).size := by
  simp only [headerLayout, nameLayout, joined_cons, ByteArray.size_append, size_bigEndian]
  omega

/-- No record is written without bytes. -/
theorem Record.size_layout_pos (producer : Producer) (record : Record String) :
    0 < (record.layout producer).size := by
  rw [layout, ByteArray.size_append]
  exact Nat.add_pos_left (size_headerLayout_pos producer) _

/-- Where encodings stand one after the other, each event arrives, and the reading goes on behind
them with each level rebuilt. -/
theorem readEvents_add {sent : List (Event × Thread)} {encodings : List ByteArray}
    (hencodings : Encodings producer sent encodings)
    (hsurvives : ∀ pair ∈ sent, pair.1.MappedSurvives pair.2) (source : σ) {bytes tail : ByteArray}
    {start : Nat} (hstart : start ≤ bytes.size)
    (hbytes : bytes.extract start bytes.size = joined encodings ++ tail) (fuel : Nat) :
    let read := readEvents producer bytes (sent.length + fuel) source start
    let later := readEvents producer bytes fuel
      (resolverAfter source (sent.map fun pair => pair.1.level)) (start + (joined encodings).size)
    read.value = (arrivals source start sent encodings ++ later.value.1, later.value.2) ∧
      read.source = later.source := by
  induction hencodings generalizing source start with
  | nil =>
    rw [List.length_nil, Nat.zero_add]
    exact ⟨rfl, rfl⟩
  | @cons pair encoded sent encodings hencode _ ih =>
    obtain ⟨event, thread⟩ := pair
    rw [List.forall_mem_cons] at hsurvives
    rw [joined_cons, ByteArray.append_assoc] at hbytes
    obtain ⟨hfits, hencoded, hrest⟩ := extract_eq_append hstart (Nat.le_refl _) hbytes
    have hpos : 0 < encoded.size := by
      rw [(encode_eq_ok_iff.mp hencode).2]
      exact Record.size_layout_pos ..
    have hread := readEvent_of_encode source hencode hsurvives.1 hfits hencoded
    have hmore := ih hsurvives.2 (readEvent producer source bytes start).source hfits hrest
    rw [List.length_cons, Nat.add_right_comm, readEvents, if_neg (by omega), arrivals_cons,
      joined_cons, ByteArray.size_append, ← Nat.add_assoc]
    rw [hread] at hmore ⊢
    obtain ⟨hvalue, hsource⟩ := hmore
    constructor
    · simp only [hvalue, resolverAfter, List.map_cons, List.foldl_cons, List.cons_append]
    · simp only [hsource, resolverAfter, List.map_cons, List.foldl_cons]

/-- Where encodings stand one after the other, each event arrives, and each level has been
rebuilt. -/
theorem readEvents_eq_arrivals {sent : List (Event × Thread)} {encodings : List ByteArray}
    (hencodings : Encodings producer sent encodings)
    (hsurvives : ∀ pair ∈ sent, pair.1.MappedSurvives pair.2) (source : σ) {bytes tail : ByteArray}
    {start : Nat} (hstart : start ≤ bytes.size)
    (hbytes : bytes.extract start bytes.size = joined encodings ++ tail) :
    (readEvents producer bytes sent.length source start).value =
        (arrivals source start sent encodings, none) ∧
      (readEvents producer bytes sent.length source start).source =
        resolverAfter source (sent.map fun pair => pair.1.level) := by
  have hread := readEvents_add hencodings hsurvives source hstart hbytes 0
  simpa [readEvents] using hread

/-- The events of a stream are read one by one, each up to the end of its encoding, and what follows
the last is left unread. With a steady resolver, all levels are rebuilt as the resolver would have
done at the start. -/
theorem readEvents_of_encode (source : σ) {sent : List (Event × Thread)}
    {encodings : List ByteArray} (tail : ByteArray)
    (hencodings : Encodings producer sent encodings)
    (hsurvives : ∀ pair ∈ sent, pair.1.MappedSurvives pair.2) :
    let bytes := joined encodings ++ tail
    let read := readEvents producer bytes sent.length source 0
    read.value = (arrivals source 0 sent encodings, none) ∧
      read.source = resolverAfter source (sent.map fun pair => pair.1.level) ∧
      bytes.extract (stopped 0 read.value.1) bytes.size = tail ∧
      (Resolver.Steady σ → read.value.1 = sent.mapIdx fun i pair =>
        (pair.1.received pair.2
          (resolveLevel source pair.1.level.priority pair.1.level.typeName).value,
          (joined (encodings.take (i + 1))).size)) := by
  intro bytes read
  obtain ⟨hread, hsource⟩ := readEvents_eq_arrivals hencodings hsurvives source (Nat.zero_le _)
    (show bytes.extract 0 bytes.size = joined encodings ++ tail from ByteArray.extract_zero_size)
  refine ⟨hread, hsource, ?_, ?_⟩
  · rw [hread, stopped_arrivals hencodings, Nat.zero_add]
    apply ByteArray.extract_append_eq_right rfl
    rw [ByteArray.size_append]
  · intro hsteady
    rw [hread]
    simp only [arrivals, hsteady.resolveLevel_resolverAfter, Nat.zero_add]

/-- Two events with levels of one named type, read through a resolver that remembers the type after
the first, with more bytes behind them. -/
theorem readEvents_of_encode_remembered :
    let thread := (Thread.new none).put "admitted" (.ofBool true)
    let level := Level.custom "Audit" 25000 "AUDIT" 5
    let first := Event.new none (some ⟨"app", none⟩) 1 level (some (.text "hello")) none
    let second := Event.new none none 2 level none none
    let source := Caching.new (Registry.empty.register "Audit" fun priority =>
      .level (.custom "Audit" priority "AUDIT" 5))
    let sent := [(first, thread), (second, thread)]
    let tail : ByteArray := ⟨#[0x4c]⟩
    ∃ before after, Encodings .legacy sent [before, after] ∧
      (∀ pair ∈ sent, pair.1.MappedSurvives pair.2) ∧
      (readEvents .legacy (joined [before, after] ++ tail) 2 source 0).value =
        ([(first.received thread level, before.size),
          (second.received thread level, before.size + after.size)], none) := by
  intro thread level first second source sent tail
  have hfirst : encode .legacy first thread = .ok _ := encode_eq_ok_iff.mpr ⟨by decide, rfl⟩
  have hsecond : encode .legacy second thread = .ok _ := encode_eq_ok_iff.mpr ⟨by decide, rfl⟩
  have hvalue : ∀ event : Event, event.mapped = none → event.source = .thread →
      event.MappedSurvives thread := by
    intro event hmapped hthread map hmap entry hentry
    rw [Event.mappedContext, hmapped, hthread] at hmap
    obtain ⟨⟩ := hmap
    obtain rfl := List.mem_singleton.mp hentry
    rfl
  have hsurvives : ∀ pair ∈ sent, pair.1.MappedSurvives pair.2 := by
    simp [sent, hvalue, first, second, Event.new]
  have hencodings : Encodings .legacy sent [_, _] := .cons hfirst (.cons hsecond .nil)
  obtain ⟨hread, -, -, halone⟩ := readEvents_of_encode source tail hencodings hsurvives
  have hevents := halone (Caching.steady Registry.steady)
  rw [hread] at hevents
  have hfirstLevel : (resolveLevel source first.level.priority first.level.typeName).value =
      level := rfl
  have hsecondLevel : (resolveLevel source second.level.priority second.level.typeName).value =
      level := rfl
  refine ⟨_, _, hencodings, hsurvives, hread.trans ?_⟩
  dsimp only at hevents
  rw [hevents]
  simp only [sent, List.mapIdx_cons, List.mapIdx_nil, List.take_succ_cons, List.take_zero,
    joined_cons, joined_nil, ByteArray.size_append, ByteArray.size_empty, hfirstLevel,
    hsecondLevel, Nat.add_zero]

end Wire

end EventSnapshot
