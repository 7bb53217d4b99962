import EventSnapshot.Proofs.Level.Fallback
import EventSnapshot.Proofs.Wire.EitherName
import EventSnapshot.Proofs.Wire.Stream

/-!
# What readings ask of their resolvers

A reading is here a dialogue: a tree of what it asks of its surroundings, which knows neither the
resolver nor what a factory is, so that it can look a type up, have a factory build a level and
report only by saying so. Led with a resolver, the dialogues are the readings. A reading that fails
has asked for nothing and leaves the resolver as it was; one that gives an event has asked for the
type that its record names, and has reported once if the level had to be replaced.
-/

namespace EventSnapshot

/-- Something that is asked of a resolver or of a factory. -/
inductive Request where
  /-- The factory of a type. -/
  | lookUp (typeName : String)
  /-- The level of a priority. -/
  | build (priority : Int32)

/-- What has to be asked for the level of a priority and a type name: nothing without a name, else
the factory of the type, and this for the level if there is one. -/
def levelRequests {σ : Type} [Resolver σ] (source : σ) (priority : Int32) :
    Option String → List Request
  | none => []
  | some typeName =>
    match (Resolver.resolve source typeName).1 with
    | .error _ => [.lookUp typeName]
    | .ok _ => [.lookUp typeName, .build priority]

/-- The resolver after a type was looked up, if one is named. -/
def sourceAfter {σ : Type} [Resolver σ] (source : σ) : Option String → σ
  | none => source
  | some typeName => (Resolver.resolve source typeName).2

/-- Whether the notice is of a level that was replaced. -/
def Notice.isReplacement : Notice → Bool
  | .levelReplaced .. => true
  | .renderingFailed .. | .producerAliased .. => false

/-- The reports of levels that were replaced. -/
def Resolved.replacements {σ α : Type} (resolved : Resolved σ α) : List Notice :=
  resolved.notices.filter (·.isReplacement)

/-- What is reported of a level that came of rebuilding. -/
structure ReportsReplacement {σ : Type} [Resolver σ] (source : σ) (priority : Int32)
    (typeName : Option String) (level : Level) (replacements : List Notice) : Prop where
  /-- There is exactly one report if a type was named and the level is not its factory's own. -/
  one_iff : (∃ report, replacements = [report]) ↔
    typeName.isSome ∧ ¬IsRebuilt source priority typeName level
  /-- There is none if no type was named or the level is its factory's own. -/
  none_iff : replacements = [] ↔ typeName = none ∨ IsRebuilt source priority typeName level
  /-- A report names the type, the priority and the level. -/
  report_eq : ∀ report ∈ replacements, ∃ name cause, typeName = some name ∧
    report = .levelReplaced name priority level cause
  /-- A level that is not a factory's own is the nearest built-in one. -/
  level_eq : ¬IsRebuilt source priority typeName level → level = .nearestBuiltin priority

/-- A course of requests and reports that goes on according to the answers. Factories are known to
it by handles only. -/
inductive Dialogue (φ α : Type) where
  /-- Gives a value. -/
  | done (value : α)
  /-- Asks the resolver for the factory of a type. -/
  | lookUp (typeName : String) (next : Except ResolveError φ → Dialogue φ α)
  /-- Asks a factory for the level of a priority. -/
  | build (factory : φ) (priority : Int32) (next : Built → Dialogue φ α)
  /-- Reports something. -/
  | report (notice : Notice) (next : Dialogue φ α)

namespace Dialogue

variable {σ φ α β : Type} [Resolver σ]

/-- The same dialogue with another value made of its value. -/
def map (f : α → β) : Dialogue φ α → Dialogue φ β
  | .done value => .done (f value)
  | .lookUp typeName next => .lookUp typeName fun found => (next found).map f
  | .build factory priority next => .build factory priority fun built => (next built).map f
  | .report notice next => .report notice (next.map f)

/-- Leads a dialogue with a resolver. -/
def run : Dialogue Factory α → σ → Resolved σ α
  | .done value, source => ⟨value, source, []⟩
  | .lookUp typeName next, source =>
    let (found, source) := Resolver.resolve source typeName
    (next found).run source
  | .build factory priority next, source => (next (factory priority)).run source
  | .report notice next, source =>
    let resolved := next.run source
    { resolved with notices := notice :: resolved.notices }

/-- What is asked when a dialogue is led with a resolver, in order. -/
def requests : Dialogue Factory α → σ → List Request
  | .done _, _ => []
  | .lookUp typeName next, source =>
    let (found, source) := Resolver.resolve source typeName
    .lookUp typeName :: (next found).requests source
  | .build factory priority next, source =>
    .build priority :: (next (factory priority)).requests source
  | .report _ next, source => next.requests source

/-- The dialogue that ends with the nearest built-in level. -/
def replace (typeName : String) (priority : Int32) (cause : ResolveError) : Dialogue φ Level :=
  let fallback := Level.nearestBuiltin priority
  .report (.levelReplaced typeName priority fallback cause) (.done fallback)

/-- The dialogue about the level of a priority and a type name. -/
def rebuild (priority : Int32) : Option String → Dialogue φ Level
  | none => .done (.nearestBuiltin priority)
  | some typeName =>
    .lookUp typeName fun
      | .error error => replace typeName priority error
      | .ok factory => .build factory priority fun
        | .level level => .done level
        | .failed error => replace typeName priority error
        | .crashed => replace typeName priority (.factoryFailed typeName "factory panicked")

/-- The dialogue of reading the event at a position. -/
def readEvent (producer : Producer) (bytes : ByteArray) (position : Nat) :
    Dialogue φ (Except WireError (Event × Nat)) :=
  match (Wire.readRecord producer).run bytes position with
  | .error error => .done (.error error)
  | .ok (record, position) =>
    (rebuild record.priority record.typeName).map fun level =>
      .ok (Event.ofRecord record level, position)

/-- The dialogue of reading the event that some bytes start with. -/
def decode (producer : Producer) (bytes : ByteArray) : Dialogue φ (Except WireError Event) :=
  (readEvent producer bytes 0).map fun read => read.map (·.1)

/-- The dialogue of reading the event that some bytes start with, under the name of either
producer. -/
def decodeCompatible (producer : Producer) (bytes : ByteArray) :
    Dialogue φ (Except WireError Event) :=
  match Wire.peekProducer bytes with
  | .error error => .done (.error error)
  | .ok found =>
    match Producer.ofName? found with
    | none => .done (.error (.producerMismatch producer.name found))
    | some other =>
      if other = producer then decode producer bytes
      else
        match Wire.substituteProducer bytes other producer with
        | .error error => .done (.error error)
        | .ok renamed =>
          .report (.producerAliased other.name producer.name) (decode producer renamed)

/-! ## Dialogues and readings -/

theorem run_map (f : α → β) (dialogue : Dialogue Factory α) (source : σ) :
    (dialogue.map f).run source =
      ⟨f (dialogue.run source).value, (dialogue.run source).source,
        (dialogue.run source).notices⟩ := by
  induction dialogue generalizing source with
  | done value => rfl
  | lookUp typeName next ih => exact ih _ _
  | build factory priority next ih => exact ih _ _
  | report notice next ih => simp only [map, run, ih]

theorem requests_map (f : α → β) (dialogue : Dialogue Factory α) (source : σ) :
    (dialogue.map f).requests source = dialogue.requests source := by
  induction dialogue generalizing source with
  | done value => rfl
  | lookUp typeName next ih => simp only [map, requests, ih]
  | build factory priority next ih => simp only [map, requests, ih]
  | report notice next ih => exact ih _

/-- The dialogue about a level is how a level is rebuilt. -/
theorem run_rebuild (priority : Int32) (typeName : Option String) (source : σ) :
    (rebuild priority typeName).run source = resolveLevel source priority typeName := by
  cases typeName with
  | none => rfl
  | some name =>
    simp only [rebuild, run, resolveLevel]
    generalize Resolver.resolve source name = answer
    obtain ⟨found, source⟩ := answer
    cases found with
    | error error => rfl
    | ok factory =>
      simp only [run, Except.bind, Factory.build]
      cases factory priority with
      | level level => rfl
      | failed error => rfl
      | crashed => rfl

/-- A level of a named type is looked up once, and its factory, if there is one, builds once. -/
theorem requests_rebuild (priority : Int32) (typeName : Option String) (source : σ) :
    (rebuild priority typeName).requests source = levelRequests source priority typeName := by
  cases typeName with
  | none => rfl
  | some name =>
    simp only [rebuild, requests, levelRequests]
    generalize Resolver.resolve source name = answer
    obtain ⟨found, source⟩ := answer
    cases found with
    | error error => rfl
    | ok factory =>
      simp only [requests]
      cases factory priority with
      | level level => rfl
      | failed error => rfl
      | crashed => rfl

end Dialogue

/-! ## What is asked for -/

/-- What a reading that may fail asks of its resolver, by the dialogue that it is. -/
structure Consults {σ α : Type} [Resolver σ] (dialogue : ∀ φ, Dialogue φ (Except WireError α))
    (source : σ) (reading : Resolved σ (Except WireError α)) (level : α → Level)
    (Stands : Wire.Record Value → Prop) : Prop where
  /-- The dialogue, led with the resolver, is the reading. -/
  run_eq : (dialogue Factory).run source = reading
  /-- A reading that fails has asked no resolver and no factory, and has replaced no level. The
  resolver is as it was, with all that it remembers. -/
  refused : ∀ error, reading.value = .error error →
    (dialogue Factory).requests source = [] ∧ reading.source = source ∧ reading.replacements = []
  /-- A reading that succeeds has asked for the type that its record names, and for no other. -/
  accepted : ∀ value, reading.value = .ok value → ∃ record, Stands record ∧
    (dialogue Factory).requests source = levelRequests source record.priority record.typeName ∧
    reading.source = sourceAfter source record.typeName ∧
    ReportsReplacement source record.priority record.typeName (level value) reading.replacements

section Consults

variable {σ α β : Type} [Resolver σ] {source : σ}

/-- Rebuilding a level reports what has to be reported of it. -/
theorem reportsReplacement (source : σ) (priority : Int32) (typeName : Option String) :
    let resolved := resolveLevel source priority typeName
    ReportsReplacement source priority typeName resolved.value resolved.replacements := by
  intro resolved
  obtain ⟨hrebuilt, hnotices⟩ | ⟨hunbuilt, hvalue, hnotices⟩ :=
    resolveLevel_cases source priority typeName
  · have hnone : resolved.replacements = [] := by rw [Resolved.replacements, hnotices]; rfl
    have hlevel : IsRebuilt source priority typeName resolved.value := hrebuilt
    constructor <;> simp [hnone, hlevel]
  · have hlevel : resolved.value = .nearestBuiltin priority := hvalue
    have hnot := hunbuilt (.nearestBuiltin priority)
    rcases hnotices with ⟨rfl, hnotices⟩ | ⟨name, cause, rfl, hnotices⟩
    · have hnone : resolved.replacements = [] := by rw [Resolved.replacements, hnotices]; rfl
      constructor <;> simp [hnone, hlevel]
    · have hone : resolved.replacements =
          [.levelReplaced name priority (.nearestBuiltin priority) cause] := by
        rw [Resolved.replacements, hnotices]
        rfl
      constructor <;> simp [hone, hnot, hlevel]

/-- A reading that fails at once asks for nothing. -/
theorem Consults.fail (source : σ) (error : WireError) (level : α → Level)
    (Stands : Wire.Record Value → Prop) :
    Consults (fun _ => .done (.error error)) source ⟨.error error, source, []⟩ level Stands := by
  refine ⟨rfl, fun _ _ => ⟨rfl, rfl, rfl⟩, ?_⟩
  intro value hvalue
  cases hvalue

variable {dialogue : ∀ φ, Dialogue φ (Except WireError α)}
  {reading : Resolved σ (Except WireError α)} {level : α → Level}
  {Stands : Wire.Record Value → Prop}

/-- What is made of the value of a reading asks for no more than the reading did. -/
theorem Consults.map (h : Consults dialogue source reading level Stands) {f : α → β}
    {level' : β → Level} (hlevel : ∀ value, level' (f value) = level value) :
    Consults (fun φ => (dialogue φ).map (·.map f)) source
      ⟨reading.value.map f, reading.source, reading.notices⟩ level' Stands := by
  constructor
  · rw [Dialogue.run_map, h.run_eq]
  · intro error herror
    rw [Dialogue.requests_map]
    cases hvalue : reading.value with
    | error found => exact h.refused found hvalue
    | ok value =>
      simp only [hvalue] at herror
      cases herror
  · intro value hvalue
    rw [Dialogue.requests_map]
    cases hread : reading.value with
    | error found =>
      simp only [hread] at hvalue
      cases hvalue
    | ok read =>
      simp only [hread] at hvalue
      obtain rfl : f read = value := Except.ok.inj hvalue
      rw [hlevel]
      exact h.accepted read hread

/-- A report of something else than a replaced level asks for nothing. -/
theorem Consults.report (h : Consults dialogue source reading level Stands) {notice : Notice}
    (hnotice : notice.isReplacement = false) :
    Consults (fun φ => .report notice (dialogue φ)) source
      { reading with notices := notice :: reading.notices } level Stands := by
  have hsame : Resolved.replacements { reading with notices := notice :: reading.notices } =
      reading.replacements := by
    simp [Resolved.replacements, hnotice]
  constructor
  · simp only [Dialogue.run, h.run_eq]
  · intro error herror
    rw [hsame]
    exact h.refused error herror
  · intro value hvalue
    rw [hsame]
    exact h.accepted value hvalue

/-- Where the record stands can be said in a weaker way. -/
theorem Consults.mono (h : Consults dialogue source reading level Stands)
    {Stands' : Wire.Record Value → Prop} (hstands : ∀ record, Stands record → Stands' record) :
    Consults dialogue source reading level Stands' := by
  refine ⟨h.run_eq, h.refused, ?_⟩
  intro value hvalue
  obtain ⟨record, hrecord, hasks⟩ := h.accepted value hvalue
  exact ⟨record, hstands record hrecord, hasks⟩

end Consults

/-- A producer is found by no other name than its own. -/
theorem Producer.eq_name_of_ofName? {name : String} {producer : Producer}
    (h : ofName? name = some producer) : name = producer.name := by
  unfold ofName? at h
  split at h
  · next hname =>
    cases h
    exact hname
  · split at h
    · next hname =>
      cases h
      exact hname
    · cases h

namespace Wire

variable {σ : Type} [Resolver σ] (producer : Producer) (source : σ) (bytes : ByteArray)

/-- Reading the event at a place consults the resolver only for the record that stands there. -/
theorem consults_readEvent (start : Nat) :
    Consults (fun _ => .readEvent producer bytes start) source
      (readEvent producer source bytes start) (·.1.level) fun record =>
        ∃ finish, (readRecord producer).run bytes start = .ok (record, finish) := by
  unfold Dialogue.readEvent readEvent
  cases hrun : (readRecord producer).run bytes start with
  | error error => exact Consults.fail source error _ _
  | ok read =>
    obtain ⟨record, finish⟩ := read
    dsimp only
    constructor
    · rw [Dialogue.run_map, Dialogue.run_rebuild]
    · intro error herror
      cases herror
    · intro value hvalue
      obtain rfl := Except.ok.inj hvalue
      refine ⟨record, ⟨finish, rfl⟩, ?_, ?_, reportsReplacement source _ _⟩
      · rw [Dialogue.requests_map, Dialogue.requests_rebuild]
      · cases record.typeName with
        | none => rfl
        | some name => exact source_resolveLevel source record.priority name

/-- Reading the event that some bytes start with consults the resolver only for its record. -/
theorem consults_decode :
    Consults (fun _ => .decode producer bytes) source (decode producer source bytes) (·.level)
      fun record => ∃ finish, (readRecord producer).run bytes 0 = .ok (record, finish) :=
  (consults_readEvent producer source bytes 0).map fun _ => rfl

/-- Reading the event that some bytes start with under the name of either producer consults the
resolver only for its record, which stands there under the name that the bytes have. -/
theorem consults_decodeCompatible :
    Consults (fun _ => .decodeCompatible producer bytes) source
      (decodeCompatible producer source bytes) (·.level) fun record =>
        ∃ named finish, (readRecord named).run bytes 0 = .ok (record, finish) := by
  unfold Dialogue.decodeCompatible decodeCompatible
  cases hname : peekProducer bytes with
  | error error => exact Consults.fail source error _ _
  | ok found =>
    dsimp only
    cases hother : Producer.ofName? found with
    | none => exact Consults.fail source _ _ _
    | some other =>
      dsimp only
      by_cases hown : other = producer
      · simp only [if_pos hown]
        exact (consults_decode producer source bytes).mono fun record h => ⟨producer, h⟩
      · obtain rfl := Producer.eq_name_of_ofName? hother
        obtain ⟨-, rest, rfl⟩ := peekProducer_eq_ok_iff.mp hname
        simp only [if_neg hown, substituteProducer_nameLayout]
        apply Consults.report _ rfl
        apply (consults_decode producer source _).mono
        rintro record ⟨finish, hrun⟩
        rw [run_readRecord_nameLayout producer other] at hrun
        exact ⟨other, finish, hrun⟩

/-- A reading consults its resolver last, and only for the event that it gives: at a place, at the
start under one name, and at the start under either. -/
theorem consultsLast :
    (∀ start, Consults (fun _ => .readEvent producer bytes start) source
      (readEvent producer source bytes start) (·.1.level) fun record =>
        ∃ finish, (readRecord producer).run bytes start = .ok (record, finish)) ∧
    (Consults (fun _ => .decode producer bytes) source (decode producer source bytes) (·.level)
      fun record => ∃ finish, (readRecord producer).run bytes 0 = .ok (record, finish)) ∧
    Consults (fun _ => .decodeCompatible producer bytes) source
      (decodeCompatible producer source bytes) (·.level) fun record =>
        ∃ named finish, (readRecord named).run bytes 0 = .ok (record, finish) :=
  ⟨consults_readEvent producer source bytes, consults_decode producer source bytes,
    consults_decodeCompatible producer source bytes⟩

end Wire

end EventSnapshot
