import EventSnapshot.Proofs.Level.Fallback
import EventSnapshot.Proofs.Wire.Naming
import EventSnapshot.Proofs.Wire.NormalForm

/-!
# Chains of relays

A relay reads an event under the name of either producer and writes it again under its own. What is
read behind a chain of relays is what was written in front of it, but for the level: where a relay
cannot rebuild it, the nearest built-in level takes its place, and stays, because every relay knows
the built-in levels.
-/

namespace EventSnapshot

namespace Event

variable (event : Event) (thread other : Thread) (level rebuilt : Level)

/-- An event that came back and was sent again comes back as it was, but for its level. -/
theorem received_received :
    (event.received thread level).received other rebuilt = event.received thread rebuilt := rfl

/-- The mapped values of an event that came back survive as they did before. -/
theorem mappedSurvives_received :
    (event.received thread level).MappedSurvives other ↔ event.MappedSurvives thread := Iff.rfl

variable {event thread level}

/-- An event that came back is within bounds if it was before and the name of its level type is. -/
theorem fits_record_received (h : (event.record thread).Fits)
    (htype : ∀ text ∈ level.typeName, Wire.Fits text) :
    ((event.received thread level).record other).Fits := by
  have hunknown : Wire.LocationFits .unknown := by decide
  have hlocation : Wire.LocationFits (event.location.getD .unknown) := by
    cases hcaptured : event.location with
    | none => exact hunknown
    | some location => exact h.location location hcaptured
  rw [record_received]
  exact ⟨h.wrapper, h.loggerName, h.threadName, h.message, h.nested, h.properties, h.failure,
    by simpa using hlocation, htype⟩

end Event

namespace Wire

/-- A party that reads events and writes them again. -/
structure Relay where
  /-- The kind of resolver that it rebuilds levels with. -/
  {State : Type}
  [resolver : Resolver State]
  /-- Its resolver, as it is when an event comes in. -/
  source : State
  /-- The name that it writes under. -/
  producer : Producer
  /-- The thread that it writes on. -/
  thread : Thread

attribute [instance] Relay.resolver

namespace Relay

/-- The event that is read off some bytes, and the bytes that are written of it. -/
def forward (relay : Relay) (bytes : ByteArray) : Except WireError (Event × ByteArray) := do
  let event ← (decodeCompatible relay.producer relay.source bytes).value
  let again ← encode relay.producer event relay.thread
  .ok (event, again)

/-- The level that a relay makes of another. -/
def rebuilt (relay : Relay) (level : Level) : Level :=
  (resolveLevel relay.source level.priority level.typeName).value

/-- The relay rebuilds the level as it was. -/
def Rebuilds (relay : Relay) (level : Level) : Prop := relay.rebuilt level = level

instance (relay : Relay) (level : Level) : Decidable (relay.Rebuilds level) :=
  inferInstanceAs (Decidable (_ = _))

/-- The relay finds no factory for the type of the level, or none that builds a level. -/
def Fails (relay : Relay) (level : Level) : Prop :=
  ∀ typeName ∈ level.typeName, ∃ error, ((Resolver.resolve relay.source typeName).1.bind
    fun factory => factory.build typeName level.priority) = .error error

end Relay

/-- The events that a chain of relays reads one after the other, and the bytes behind the last. -/
def relayed : List Relay → ByteArray → Except WireError (List Event × ByteArray)
  | [], bytes => .ok ([], bytes)
  | relay :: relays, bytes => do
    let (event, again) ← relay.forward bytes
    let (events, last) ← relayed relays again
    .ok (event :: events, last)

/-- The level that is read behind a chain of relays. -/
def arriving (relays : List Relay) (level : Level) : Level :=
  if ∀ relay ∈ relays, relay.Rebuilds level then level else .nearestBuiltin level.priority

variable {producer : Producer} {event : Event} {thread : Thread} {bytes : ByteArray}

/-- An event that was encoded under any name is decoded under either as the event that comes
back. -/
theorem decodeCompatible_value_of_encode {σ : Type} [Resolver σ] (source : σ) (other : Producer)
    (hencode : encode producer event thread = .ok bytes) (hsurvives : event.MappedSurvives thread) :
    (decodeCompatible other source bytes).value = .ok (event.received thread
      (resolveLevel source event.level.priority event.level.typeName).value) := by
  rw [encode_eq_ok_iff, Event.record_prepare] at hencode
  obtain ⟨hfits, rfl⟩ := hencode
  have hother : encode other event thread = .ok ((event.record thread).layout other) := by
    rw [encode_eq_ok_iff, Event.record_prepare]
    exact ⟨hfits, rfl⟩
  rw [Record.layout_eq_append, decodeCompatible_value_nameLayout, ← Record.layout_eq_append,
    decode_value_of_encode source hother hsurvives]

namespace Relay

/-- A level that took the place of another is rebuilt as it was. -/
theorem rebuilds_nearestBuiltin (relay : Relay) (priority : Int32) :
    relay.Rebuilds (.nearestBuiltin priority) := by
  have hbuiltin := Level.nearestBuiltin_mem_builtins priority
  rw [Rebuilds, rebuilt, resolveLevel_of_mem_builtins relay.source hbuiltin]

/-- A relay that fails on a level replaces it by the nearest built-in one. -/
theorem Fails.rebuilt_eq {relay : Relay} {level : Level} (h : relay.Fails level) :
    relay.rebuilt level = .nearestBuiltin level.priority := by
  obtain ⟨priority, name, syslog, typeName⟩ := level
  cases typeName with
  | none => rfl
  | some typeName =>
    obtain ⟨error, herror⟩ := h typeName rfl
    simp only [rebuilt, resolveLevel, herror]

/-- What a relay was sent, it reads as the event that comes back, and it can write that. -/
theorem forward_of_encode (relay : Relay) (hencode : encode producer event thread = .ok bytes)
    (hsurvives : event.MappedSurvives thread)
    (hlevel : relay.Rebuilds event.level ∨ relay.Fails event.level) :
    ∃ again, relay.forward bytes =
        .ok (event.received thread (relay.rebuilt event.level), again) ∧
      encode relay.producer (event.received thread (relay.rebuilt event.level)) relay.thread =
        .ok again := by
  have hfits : (event.record thread).Fits := (encode_eq_ok_iff.mp hencode).1
  have htype : ∀ text ∈ (relay.rebuilt event.level).typeName, Fits text := by
    rcases hlevel with hrebuilds | hfails
    · rw [hrebuilds]
      exact hfits.typeName
    · have hbuiltin : ∀ level ∈ Level.builtins, level.typeName = none := by decide
      rw [hfails.rebuilt_eq, hbuiltin _ (Level.nearestBuiltin_mem_builtins _)]
      simp
  let found := event.received thread (relay.rebuilt event.level)
  have hagain : encode relay.producer found relay.thread =
      .ok ((found.record relay.thread).layout relay.producer) := by
    rw [encode_eq_ok_iff, Event.record_prepare]
    exact ⟨Event.fits_record_received _ hfits htype, rfl⟩
  refine ⟨_, ?_, hagain⟩
  rw [forward, decodeCompatible_value_of_encode relay.source relay.producer hencode hsurvives]
  change (encode relay.producer found relay.thread >>= fun again => .ok (found, again)) = _
  rw [hagain]
  rfl

end Relay

/-- The first relay of a chain settles what arrives behind it: the level as it was, or a built-in
one, which the others keep. -/
theorem arriving_cons {relay : Relay} (relays : List Relay) {level : Level}
    (h : relay.Rebuilds level ∨ relay.Fails level) :
    arriving (relay :: relays) level = arriving relays (relay.rebuilt level) := by
  by_cases hrebuilds : relay.Rebuilds level
  · have hlevel : relay.rebuilt level = level := hrebuilds
    simp [arriving, hrebuilds, hlevel]
  · have hlevel := (h.resolve_left hrebuilds).rebuilt_eq
    rw [hlevel, arriving, arriving, if_neg fun hall => hrebuilds (hall relay (by simp)),
      if_pos fun other _ => other.rebuilds_nearestBuiltin level.priority]

/-- Each relay of a chain reads the event that comes back, with the level that arrives there, and
passes it on. -/
theorem relayed_of_encode {relays : List Relay} (hencode : encode producer event thread = .ok bytes)
    (hsurvives : event.MappedSurvives thread)
    (hlevels : ∀ relay ∈ relays, relay.Rebuilds event.level ∨ relay.Fails event.level) :
    ∃ events last, relayed relays bytes = .ok (events, last) ∧ events.length = relays.length ∧
      ∀ n found, events[n]? = some found →
        found = event.received thread (arriving (relays.take (n + 1)) event.level) := by
  induction relays generalizing producer event thread bytes with
  | nil => exact ⟨[], bytes, rfl, rfl, by simp⟩
  | cons relay relays ih =>
    obtain ⟨hlevel, hrest⟩ := List.forall_mem_cons.mp hlevels
    obtain ⟨again, hforward, hagain⟩ := relay.forward_of_encode hencode hsurvives hlevel
    have hothers : ∀ other ∈ relays, other.Rebuilds (relay.rebuilt event.level) ∨
        other.Fails (relay.rebuilt event.level) := by
      rcases hlevel with hrebuilds | hfails
      · rw [hrebuilds]
        exact hrest
      · rw [hfails.rebuilt_eq]
        exact fun other _ => .inl (other.rebuilds_nearestBuiltin _)
    have hstill : (event.received thread (relay.rebuilt event.level)).MappedSurvives relay.thread :=
      (event.mappedSurvives_received thread relay.thread _).mpr hsurvives
    obtain ⟨events, last, hrelayed, hlength, hfound⟩ := ih hagain hstill hothers
    refine ⟨event.received thread (relay.rebuilt event.level) :: events, last, ?_,
      by simp [hlength], ?_⟩
    · simp only [relayed, hforward, bind, Except.bind, hrelayed]
    · intro n found hn
      rw [List.take_succ_cons, arriving_cons _ hlevel]
      cases n with
      | zero =>
        obtain rfl : event.received thread (relay.rebuilt event.level) = found := by simpa using hn
        simp [arriving]
      | succ n =>
        rw [hfound n found hn, Event.received_received]
        rfl

/-- A chain of relays that each rebuild the level or fail on it passes every event on. What the last
of them reads is the event that comes back, as if there were no others. Its level is the one that
was sent if all relays rebuild that, and otherwise the nearest built-in one. -/
theorem relayed_delivers {relays : List Relay}
    (hencode : encode producer event thread = .ok bytes) (hsurvives : event.MappedSurvives thread)
    (hlevels : ∀ relay ∈ relays, relay.Rebuilds event.level ∨ relay.Fails event.level)
    (hrelays : relays ≠ []) :
    ∃ events last, relayed relays bytes = .ok (events, last) ∧ events.length = relays.length ∧
      ∃ level, events.getLast? = some (event.received thread level) ∧
        ((∀ relay ∈ relays, relay.Rebuilds event.level) → level = event.level) ∧
        ((∃ relay ∈ relays, ¬ relay.Rebuilds event.level) →
          level = .nearestBuiltin event.level.priority) := by
  obtain ⟨events, last, hrelayed, hlength, hfound⟩ := relayed_of_encode hencode hsurvives hlevels
  have hpositive : 0 < relays.length := List.length_pos_iff.mpr hrelays
  refine ⟨events, last, hrelayed, hlength, arriving relays event.level, ?_, ?_, ?_⟩
  · have hindex : events.length - 1 < events.length := by omega
    have hlast := hfound _ _ (List.getElem?_eq_getElem hindex)
    rw [List.take_of_length_le (by omega)] at hlast
    rw [List.getLast?_eq_getElem?, List.getElem?_eq_getElem hindex, hlast]
  · exact fun hall => if_pos hall
  · rintro ⟨relay, hmem, hfails⟩
    exact if_neg fun hall => hfails (hall relay hmem)

/-- An event with mapped context and a level of a named type, behind relays of both names, the third
of which does not know the type. -/
theorem relayed_delivers_replaced :
    let thread := (Thread.new (some "main")).put "admitted" (.ofBool true)
    let level := Level.custom "Audit" 25000 "AUDIT" 5
    let event := Event.new (some "app::log") none 1 level (some (.text "hello")) none
    let known := Registry.empty.register "Audit" fun priority =>
      .level (.custom "Audit" priority "AUDIT" 5)
    let relays : List Relay := [⟨known, .legacy, .new none⟩,
      ⟨Caching.new known, .current, .new none⟩, ⟨Registry.empty, .current, .new none⟩,
      ⟨known, .legacy, .new none⟩]
    ∃ bytes events last, encode .current event thread = .ok bytes ∧
      relayed relays bytes = .ok (events, last) ∧
      events.getLast? = some (event.received thread .info) := by
  intro thread level event known relays
  have hencode : encode .current event thread = .ok _ := encode_eq_ok_iff.mpr ⟨by decide, rfl⟩
  have hsurvives : event.MappedSurvives thread := by
    rintro _ ⟨⟩ entry hentry
    obtain rfl := List.mem_singleton.mp hentry
    rfl
  have hfails : (⟨Registry.empty, .current, .new none⟩ : Relay).Fails level := by
    rintro _ ⟨⟩
    exact ⟨_, rfl⟩
  have hlevels : ∀ relay ∈ relays, relay.Rebuilds event.level ∨ relay.Fails event.level := by
    simp only [relays, List.forall_mem_cons]
    exact ⟨.inl rfl, .inl rfl, .inr hfails, .inl rfl, by simp⟩
  obtain ⟨events, last, hrelayed, -, _, hlast, -, hreplaced⟩ :=
    relayed_delivers hencode hsurvives hlevels (by simp [relays])
  have hlevel := hreplaced ⟨⟨Registry.empty, .current, .new none⟩, by simp [relays], by decide⟩
  rw [hlevel] at hlast
  exact ⟨_, events, last, hencode, hrelayed, hlast⟩

end Wire

end EventSnapshot
