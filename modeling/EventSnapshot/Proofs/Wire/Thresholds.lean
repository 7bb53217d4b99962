import EventSnapshot.Proofs.Level.Fallback
import EventSnapshot.Proofs.Wire.EitherName
import EventSnapshot.Proofs.Wire.Values

/-!
# Thresholds after the wire

An event whose level no factory rebuilds comes back with a built-in level in its place. That level
passes the same built-in thresholds as the level that was sent, since both are compared by priority
and it is the floor of the priority that was sent; and it is sent on as it is from then on.
-/

namespace EventSnapshot

/-- The levels pass the same built-in thresholds. -/
def Level.PassesAlike (level other : Level) : Prop :=
  ∀ threshold ∈ builtins, other.atLeast threshold = level.atLeast threshold

section Rebuilding

variable {σ : Type} [Resolver σ]

/-- The level that comes of rebuilding is a built-in one that decides every built-in threshold as
the priority does, and that is rebuilt as itself wherever it is sent. -/
structure StandsIn (source : σ) (priority : Int32) (typeName : Option String) : Prop where
  /-- It is a built-in level. -/
  mem_builtins : (resolveLevel source priority typeName).value ∈ Level.builtins
  /-- It passes the built-in thresholds that are not above the priority, and no others. -/
  atLeast_iff : ∀ threshold ∈ Level.builtins,
    (resolveLevel source priority typeName).value.atLeast threshold ↔ threshold.priority ≤ priority
  /-- Its written form is rebuilt as the same level by every resolver, which is not asked. -/
  again : ∀ {τ : Type} [Resolver τ] (other : τ),
    let level := (resolveLevel source priority typeName).value
    resolveLevel other level.priority level.typeName = ⟨level, other, []⟩

/-- Where no factory gives a level, a built-in one stands in for it. -/
theorem Unbuilt.standsIn {source : σ} {priority : Int32} {typeName : Option String}
    (h : Unbuilt source priority typeName) : StandsIn source priority typeName := by
  have hvalue := h.value_resolveLevel
  constructor
  · rw [hvalue]
    exact Level.nearestBuiltin_mem_builtins priority
  · intro threshold hthreshold
    rw [hvalue]
    exact Level.atLeast_nearestBuiltin_iff hthreshold priority
  · intro τ _ other
    rw [hvalue]
    exact resolveLevel_of_mem_builtins other (Level.nearestBuiltin_mem_builtins priority)

end Rebuilding

namespace Wire

variable {σ : Type} [Resolver σ] {producer : Producer} {event decoded : Event} {thread : Thread}
  {bytes : ByteArray}

/-- Levels that no factory gives lose nothing that a built-in threshold could show. -/
structure KeepsThresholds (source : σ) : Prop where
  /-- Whenever rebuilding does not give the level of a factory, a built-in one stands in for it. -/
  standsIn : ∀ priority typeName,
    ¬IsRebuilt source priority typeName (resolveLevel source priority typeName).value →
      StandsIn source priority typeName
  /-- Of two levels that stand in for others, the one for the greater priority is at least as
  severe, whichever resolvers they come from. -/
  mono : ∀ {τ : Type} [Resolver τ] (other : τ) priority typeName greater typeName',
    ¬IsRebuilt source priority typeName (resolveLevel source priority typeName).value →
    ¬IsRebuilt other greater typeName' (resolveLevel other greater typeName').value →
    priority ≤ greater →
      (resolveLevel other greater typeName').value.atLeast
        (resolveLevel source priority typeName).value
  /-- An event that was encoded, and whose level no factory gives, passes the built-in thresholds
  alike when it is decoded, under one name or under either. -/
  passesAlike : ∀ producer event thread bytes, encode producer event thread = .ok bytes →
    Unbuilt source event.level.priority event.level.typeName →
    ∀ reader decoded, (decode reader source bytes).value = .ok decoded ∨
      (decodeCompatible reader source bytes).value = .ok decoded →
      event.level.PassesAlike decoded.level
  /-- Whatever its level, an event that was encoded is decoded if its mapped values can be read. -/
  decodes : ∀ producer event thread bytes, encode producer event thread = .ok bytes →
    event.MappedReadable thread → ∃ decoded, (decode producer source bytes).value = .ok decoded ∧
      ∀ reader, (decodeCompatible reader source bytes).value = .ok decoded

/-- An event that was encoded comes back with what the reader makes of its level. -/
theorem level_of_decode (source : σ) (hencode : encode producer event thread = .ok bytes)
    (hdecode : (decode producer source bytes).value = .ok decoded) :
    decoded.level = (resolveLevel source event.level.priority event.level.typeName).value := by
  obtain ⟨entries, rfl⟩ := exists_ofRecord_of_decode source hencode hdecode
  rfl

/-- An event that was encoded and whose level no factory gives passes the built-in thresholds alike
when it is decoded. -/
theorem passesAlike_of_decode {source : σ} (hencode : encode producer event thread = .ok bytes)
    (hunbuilt : Unbuilt source event.level.priority event.level.typeName)
    (hdecode : (decode producer source bytes).value = .ok decoded) :
    event.level.PassesAlike decoded.level := by
  intro threshold hthreshold
  have hlevel := level_of_decode source hencode hdecode
  have hstands := hunbuilt.standsIn.atLeast_iff threshold hthreshold
  rw [← hlevel, ← Level.atLeast_iff] at hstands
  exact Bool.eq_iff_iff.mpr hstands

/-- Whatever the resolver, a level that no factory gives is replaced by one that decides every
built-in threshold as it did. -/
theorem keepsThresholds (source : σ) : KeepsThresholds source := by
  constructor
  · intro priority typeName h
    exact (unbuilt_of_not_isRebuilt h).standsIn
  · intro τ _ other priority typeName greater typeName' h h' hle
    rw [(unbuilt_of_not_isRebuilt h).value_resolveLevel,
      (unbuilt_of_not_isRebuilt h').value_resolveLevel]
    exact Level.atLeast_nearestBuiltin_of_le hle
  · intro producer event thread bytes hencode hunbuilt reader decoded hread
    have hcompatible : (decodeCompatible reader source bytes).value = .ok decoded := by
      rcases hread with hread | hread
      · rw [decodeCompatible_of_peekProducer source (peekProducer_of_decode hread)]
        simpa using hread
      · exact hread
    rw [decodeCompatible_value_eq_of_encode source reader hencode] at hcompatible
    exact passesAlike_of_decode hencode hunbuilt hcompatible
  · intro producer event thread bytes hencode hreadable
    have hdecode := decode_value_of_decoded source hencode
    rw [decoded_record hreadable] at hdecode
    refine ⟨_, hdecode, fun reader => ?_⟩
    exact (decodeCompatible_value_eq_of_encode source reader hencode).trans hdecode

/-- An event with a level between two built-in ones, whose factory breaks down at the reader. -/
theorem keepsThresholds_crashed :
    let thread := (Thread.new (some "main")).put "admitted" (.ofBool true)
    let level := Level.custom "Audit" 25000 "AUDIT" 5
    let event := Event.new (some "app::log") none 1 level (some (.text "hello")) none
    let source := Registry.empty.register "Audit" fun _ => .crashed
    Unbuilt source level.priority level.typeName ∧
      ∃ bytes decoded, encode .legacy event thread = .ok bytes ∧
        (decodeCompatible .current source bytes).value = .ok decoded ∧
        level.PassesAlike decoded.level ∧
        StandsIn source level.priority level.typeName ∧
        (resolveLevel Registry.empty 30001 (some "Alert")).value.atLeast
          (resolveLevel source level.priority level.typeName).value := by
  intro thread level event source
  have hunbuilt : Unbuilt source level.priority level.typeName := by
    rintro found ⟨_, factory, ⟨⟩, ⟨⟩, hfound⟩
    cases hfound
  have hunknown : ∀ level, ¬IsRebuilt Registry.empty 30001 (some "Alert") level := by
    rintro found ⟨_, factory, ⟨⟩, hfactory, -⟩
    cases hfactory
  have hreadable : event.MappedReadable thread := by
    rintro _ ⟨⟩ entry hentry
    obtain rfl := List.mem_singleton.mp hentry
    decide
  have hencode : encode .legacy event thread = .ok _ := encode_eq_ok_iff.mpr ⟨by decide, rfl⟩
  have hkeeps := keepsThresholds source
  obtain ⟨decoded, -, hdecoded⟩ := hkeeps.decodes .legacy event thread _ hencode hreadable
  refine ⟨hunbuilt, _, decoded, hencode, hdecoded .current, ?_, ?_, ?_⟩
  · exact hkeeps.passesAlike .legacy event thread _ hencode hunbuilt .current decoded
      (.inr (hdecoded .current))
  · exact hkeeps.standsIn _ _ (hunbuilt _)
  · exact hkeeps.mono Registry.empty _ _ _ _ (hunbuilt _) (hunknown _) (by decide)

end Wire

end EventSnapshot
