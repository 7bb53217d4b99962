import EventSnapshot.Proofs.Wire.Stream
import Mathlib.Data.List.Dedup

/-!
# What a resolver remembers

A resolver that remembers answers from the first look-up of a type that found a factory, and asks
its registry as long as there has been none. So all that it answers is settled by the history: by
the registry as it is now, and by what the registry held at one earlier moment for each type that
was found. Failures leave nothing behind.
-/

namespace EventSnapshot

/-- Resolvers that answer alike have every event read alike. -/
theorem Wire.decode_value_congr {σ τ : Type} [Resolver σ] [Resolver τ] {source : σ} {other : τ}
    (h : ∀ typeName, (Resolver.resolve source typeName).1 = (Resolver.resolve other typeName).1)
    (producer : Producer) (bytes : ByteArray) :
    (decode producer source bytes).value = (decode producer other bytes).value := by
  unfold decode readEvent
  cases (readRecord producer).run bytes 0 with
  | error error => rfl
  | ok read => simp only [resolveLevel_value_congr h]

/-! ## Histories -/

/-- What is done with a registry and a resolver that remembers what it found there. -/
inductive Call where
  /-- Registers a type with its factory. -/
  | register (typeName : String) (factory : Factory)
  /-- Registers a type without a factory. -/
  | registerBare (typeName : String)
  /-- Looks a type up. -/
  | resolve (typeName : String)
  /-- Reads an event, with its level rebuilt. -/
  | decode (producer : Producer) (bytes : ByteArray)

namespace Call

/-- The type that a call registers. -/
def registered? : Call → Option String
  | .register typeName _ => some typeName
  | .registerBare typeName => some typeName
  | _ => none

/-- The type that a call looks up. Reading an event looks up the type of its level, if the whole
record is read and names one. -/
def wanted? : Call → Option String
  | .resolve typeName => some typeName
  | .decode producer bytes =>
    match (Wire.readRecord producer).run bytes 0 with
    | .ok (record, _) => record.typeName
    | .error _ => none
  | _ => none

end Call

/-- The registry after a call. -/
def Registry.called (registry : Registry) : Call → Registry
  | .register typeName factory => registry.register typeName factory
  | .registerBare typeName => registry.registerBare typeName
  | _ => registry

/-- The registry after some calls, the first first. -/
def Registry.after (registry : Registry) (calls : List Call) : Registry :=
  calls.foldl called registry

/-- A look-up of a type, beside the registry at that time. -/
structure Lookup where
  /-- The type. -/
  typeName : String
  /-- The registry as it was. -/
  registry : Registry
  /-- What the resolver that remembers answered. -/
  answer : Except ResolveError Factory

/-- The first look-up of a type that found a factory. -/
def firstFound (lookups : List Lookup) (typeName : String) : Option Lookup :=
  lookups.find? fun lookup => lookup.typeName = typeName && lookup.answer.isOk

/-- The types for which some look-up found a factory, as often as it did. -/
def typesFound (lookups : List Lookup) : List String :=
  (lookups.filter (·.answer.isOk)).map (·.typeName)

namespace Caching

/-- The resolver after a call to it or to its registry. -/
def called (cache : Caching Registry) : Call → Caching Registry
  | .resolve typeName => (Resolver.resolve cache typeName).2
  | .decode producer bytes => (Wire.decode producer cache bytes).source
  | call => { cache with source := cache.source.called call }

/-- The resolver after some calls, the first first. -/
def after (cache : Caching Registry) (calls : List Call) : Caching Registry :=
  calls.foldl called cache

/-- The look-up that a call makes. -/
def lookup? (cache : Caching Registry) (call : Call) : Option Lookup :=
  call.wanted?.map fun typeName => ⟨typeName, cache.source, (Resolver.resolve cache typeName).1⟩

/-- The look-ups that some calls make, the first first. -/
def lookups (cache : Caching Registry) : List Call → List Lookup
  | [] => []
  | call :: calls => (cache.lookup? call).toList ++ (cache.called call).lookups calls

/-- What a resolver that started out empty answers after some calls. -/
structure Remembers (registry : Registry) (calls : List Call) (cache : Caching Registry)
    (lookups : List Lookup) : Prop where
  /-- The registry is changed by registrations only. -/
  source_eq : cache.source = registry.after calls
  /-- A type that was found before is answered with the factory that the registry held then. -/
  found : ∀ typeName lookup, firstFound lookups typeName = some lookup →
    ∃ factory, lookup.registry.find typeName = .ok factory ∧
      (Resolver.resolve cache typeName).1 = .ok factory
  /-- A type that was not is answered as the registry does now. -/
  unfound : ∀ typeName, firstFound lookups typeName = none →
    (Resolver.resolve cache typeName).1 = (registry.after calls).find typeName
  /-- As many factories are remembered as there are types that were found. -/
  size_eq : cache.remembered.size = (typesFound lookups).dedup.length
  /-- However it goes on, no fewer factories are remembered. -/
  size_le : ∀ more, cache.remembered.size ≤ (cache.after more).remembered.size
  /-- If no type was registered again once it was found, every event is read as with the registry
  alone. -/
  decode_eq : (∀ before call later, calls = before ++ call :: later →
      ∀ typeName ∈ call.registered?, typeName ∉ typesFound ((new registry).lookups before)) →
    ∀ producer bytes, (Wire.decode producer cache bytes).value =
      (Wire.decode producer (registry.after calls) bytes).value

/-! ## Single calls -/

end Caching

/-- A call that registers nothing leaves the registry as it is. -/
theorem Registry.called_eq_self {call : Call} (h : call.registered? = none)
    (registry : Registry) : registry.called call = registry := by
  cases call with
  | register => cases h
  | registerBare => cases h
  | resolve => rfl
  | decode => rfl

/-- A registry goes on answering as it did for the types that a call does not register. -/
theorem Registry.find_called {call : Call} {typeName : String}
    (h : call.registered? ≠ some typeName) (registry : Registry) :
    (registry.called call).find typeName = registry.find typeName := by
  have hget : ∀ registered entry, call.registered? = some registered →
      (registry.types.insert registered entry).get? typeName = registry.types.get? typeName := by
    intro registered entry hregistered
    rw [SortedMap.get?_insert, if_neg]
    rintro rfl
    exact h hregistered
  cases call with
  | register registered factory =>
    simp only [called, register, find, hget registered (some factory) rfl]
  | registerBare registered => simp only [called, registerBare, find, hget registered none rfl]
  | resolve => rfl
  | decode => rfl

namespace Caching

/-- A look-up leaves the registry as it is. -/
theorem source_resolve (cache : Caching Registry) (typeName : String) :
    (Resolver.resolve cache typeName).2.source = cache.source := by
  simp only [Resolver.resolve]
  cases cache.remembered.get? typeName with
  | some factory => rfl
  | none => cases cache.source.find typeName <;> rfl

/-- After a look-up, a resolver remembers what it did before, and the factory that it found. -/
theorem get?_resolve (cache : Caching Registry) (asked wanted : String) :
    (Resolver.resolve cache asked).2.remembered.get? wanted =
      (cache.remembered.get? wanted).or
        (if asked = wanted then (cache.source.find asked).toOption else none) := by
  simp only [Resolver.resolve]
  cases hasked : cache.remembered.get? asked with
  | some factory =>
    by_cases hwanted : asked = wanted
    · subst hwanted
      simp [hasked]
    · simp [hwanted]
  | none =>
    cases hfind : cache.source.find asked with
    | error error => simp [Except.toOption]
    | ok factory =>
      dsimp only
      rw [SortedMap.get?_insert]
      by_cases hwanted : asked = wanted
      · subst hwanted
        simp [hasked, Except.toOption]
      · simp [hwanted, Ne.symm hwanted]

/-- A call is a look-up, or it changes the registry at most. -/
theorem called_cases (cache : Caching Registry) (call : Call) :
    (∃ typeName, call.wanted? = some typeName ∧ call.registered? = none ∧
      cache.called call = (Resolver.resolve cache typeName).2) ∨
    (call.wanted? = none ∧
      cache.called call = { cache with source := cache.source.called call }) := by
  cases call with
  | register typeName factory => exact .inr ⟨rfl, rfl⟩
  | registerBare typeName => exact .inr ⟨rfl, rfl⟩
  | resolve typeName => exact .inl ⟨typeName, rfl, rfl, rfl⟩
  | decode producer bytes =>
    simp only [called, Call.wanted?, Wire.decode, Wire.readEvent]
    cases (Wire.readRecord producer).run bytes 0 with
    | error error => exact .inr ⟨rfl, rfl⟩
    | ok read =>
      cases htype : read.1.typeName with
      | none => exact .inr ⟨htype, by dsimp only; rw [htype]; rfl⟩
      | some typeName =>
        refine .inl ⟨typeName, htype, rfl, ?_⟩
        dsimp only
        rw [htype, source_resolveLevel]

/-- The registry of a resolver is changed as a registry is. -/
theorem source_called (cache : Caching Registry) (call : Call) :
    (cache.called call).source = cache.source.called call := by
  obtain ⟨typeName, -, hregistered, hcalled⟩ | ⟨-, hcalled⟩ := cache.called_cases call
  · rw [hcalled, source_resolve, Registry.called_eq_self hregistered]
  · rw [hcalled]

/-- The registry of a resolver is changed as a registry is, by any calls. -/
theorem source_after (cache : Caching Registry) (calls : List Call) :
    (cache.after calls).source = cache.source.after calls := by
  induction calls generalizing cache with
  | nil => rfl
  | cons call calls ih =>
    rw [after, List.foldl_cons, ← after, ih, source_called]
    rfl

/-! ## The memory as a record of the look-ups -/

end Caching

/-- Of the look-ups of two stretches, those of the first count first. -/
theorem firstFound_append (lookups more : List Lookup) (typeName : String) :
    firstFound (lookups ++ more) typeName =
      (firstFound lookups typeName).or (firstFound more typeName) :=
  List.find?_append

/-- A single look-up is the first to find a factory for its own type, if it found one. -/
theorem firstFound_singleton (lookup : Lookup) (typeName : String) :
    firstFound [lookup] typeName =
      if lookup.typeName = typeName ∧ lookup.answer.isOk then some lookup else none := by
  simp [firstFound, List.find?_singleton]

/-- A type was found if one look-up was the first to find it. -/
theorem mem_typesFound_iff {lookups : List Lookup} {typeName : String} :
    typeName ∈ typesFound lookups ↔ (firstFound lookups typeName).isSome := by
  simp [typesFound, firstFound, List.find?_isSome, and_comm, and_left_comm]

/-- What the look-ups of a resolver have left in its memory. -/
structure Caching.Keeps (cache : Caching Registry) (lookups : List Lookup) : Prop where
  /-- For each type, the answer of the first look-up that found a factory is remembered. -/
  get?_eq : ∀ typeName, cache.remembered.get? typeName =
    (firstFound lookups typeName).bind (·.answer.toOption)
  /-- That look-up was answered by the registry. -/
  answer_eq : ∀ typeName lookup, firstFound lookups typeName = some lookup →
    lookup.answer = lookup.registry.find typeName

namespace Caching

variable {cache : Caching Registry} {lookups : List Lookup}

/-- A resolver that remembers nothing yet has looked nothing up. -/
theorem keeps_new (registry : Registry) : (new registry).Keeps [] := ⟨fun _ => rfl, nofun⟩

/-- What was found is remembered. -/
theorem Keeps.get?_of_found (h : cache.Keeps lookups) {typeName : String} {lookup : Lookup}
    (hfound : firstFound lookups typeName = some lookup) :
    ∃ factory, lookup.registry.find typeName = .ok factory ∧
      cache.remembered.get? typeName = some factory := by
  have hanswer := h.answer_eq typeName lookup hfound
  have hget := h.get?_eq typeName
  have hok : lookup.answer.isOk := by
    have hsome := List.find?_some hfound
    simpa using (Bool.and_eq_true_iff.mp hsome).2
  rw [hfound, Option.bind_some] at hget
  cases hlookup : lookup.answer with
  | error error =>
    rw [hlookup] at hok
    cases hok
  | ok factory =>
    rw [hlookup] at hget hanswer
    exact ⟨factory, hanswer.symm, hget⟩

/-- What was not found is not remembered. -/
theorem Keeps.get?_of_not_found (h : cache.Keeps lookups) {typeName : String}
    (hfound : firstFound lookups typeName = none) : cache.remembered.get? typeName = none := by
  rw [h.get?_eq, hfound, Option.bind_none]

/-- The types that are remembered are those that were found. -/
theorem Keeps.isSome_get?_iff (h : cache.Keeps lookups) {typeName : String} :
    (cache.remembered.get? typeName).isSome ↔ typeName ∈ typesFound lookups := by
  rw [mem_typesFound_iff]
  cases hfound : firstFound lookups typeName with
  | none => simp [h.get?_of_not_found hfound]
  | some lookup =>
    obtain ⟨factory, -, hget⟩ := h.get?_of_found hfound
    simp [hget]

/-- A look-up is kept: it is answered from the memory, or by the registry and then remembered. -/
theorem Keeps.resolve (h : cache.Keeps lookups) (asked : String) :
    (Resolver.resolve cache asked).2.Keeps
      (lookups ++ [⟨asked, cache.source, (Resolver.resolve cache asked).1⟩]) := by
  have hasked : firstFound lookups asked = none →
      (Resolver.resolve cache asked).1 = cache.source.find asked := by
    intro hfound
    rw [resolve_fst, h.get?_of_not_found hfound]
    rfl
  constructor
  · intro wanted
    rw [get?_resolve, firstFound_append, firstFound_singleton]
    cases hfound : firstFound lookups wanted with
    | some lookup =>
      obtain ⟨factory, -, hget⟩ := h.get?_of_found hfound
      rw [Option.some_or, ← hfound, ← h.get?_eq, hget, Option.some_or]
    | none =>
      rw [h.get?_of_not_found hfound, Option.none_or, Option.none_or]
      by_cases hwanted : asked = wanted
      · subst hwanted
        rw [hasked hfound]
        cases cache.source.find asked <;> simp [Except.toOption, Except.isOk, Except.toBool]
      · simp [hwanted]
  · intro wanted lookup hlookup
    rw [firstFound_append, firstFound_singleton] at hlookup
    cases hfound : firstFound lookups wanted with
    | some earlier =>
      rw [hfound, Option.some_or] at hlookup
      cases hlookup
      exact h.answer_eq wanted lookup hfound
    | none =>
      rw [hfound, Option.none_or] at hlookup
      split at hlookup
      · next hnew =>
        obtain ⟨rfl, -⟩ := hnew
        cases hlookup
        exact hasked hfound
      · cases hlookup

/-- Every call is kept. -/
theorem Keeps.called (h : cache.Keeps lookups) (call : Call) :
    (cache.called call).Keeps (lookups ++ (cache.lookup? call).toList) := by
  obtain ⟨typeName, hwanted, -, hcalled⟩ | ⟨hwanted, hcalled⟩ := cache.called_cases call
  · rw [hcalled, lookup?, hwanted]
    exact h.resolve typeName
  · rw [hcalled, lookup?, hwanted]
    simpa using ⟨h.get?_eq, h.answer_eq⟩

/-- Calls are kept, however many. -/
theorem Keeps.after (h : cache.Keeps lookups) (calls : List Call) :
    (cache.after calls).Keeps (lookups ++ cache.lookups calls) := by
  induction calls generalizing cache lookups with
  | nil => simpa [Caching.lookups, Caching.after] using h
  | cons call calls ih =>
    rw [Caching.after, List.foldl_cons, ← Caching.after, Caching.lookups, ← List.append_assoc]
    exact ih (h.called call)

/-- As many factories are remembered as there are types that were found. -/
theorem Keeps.size_eq (h : cache.Keeps lookups) :
    cache.remembered.size = (typesFound lookups).dedup.length := by
  have hperm : cache.remembered.keys.Perm (typesFound lookups).dedup := by
    rw [List.perm_ext_iff_of_nodup cache.remembered.nodup_keys (List.nodup_dedup _)]
    intro typeName
    rw [SortedMap.mem_keys_iff, h.isSome_get?_iff, List.mem_dedup]
  rw [← hperm.length_eq, SortedMap.keys, List.length_map, SortedMap.size]

/-- However it goes on, no fewer factories are remembered. -/
theorem Keeps.size_le (h : cache.Keeps lookups) (calls : List Call) :
    cache.remembered.size ≤ (cache.after calls).remembered.size := by
  rw [h.size_eq, (h.after calls).size_eq]
  apply (List.subperm_of_subset (List.nodup_dedup _) _).length_le
  intro typeName hmem
  rw [List.mem_dedup, mem_typesFound_iff] at hmem ⊢
  rw [firstFound_append, Option.isSome_or, hmem, Bool.true_or]

/-! ## Agreement with the registry -/

/-- What is remembered is what the registry would answer. -/
def Agrees (cache : Caching Registry) : Prop :=
  ∀ typeName factory, cache.remembered.get? typeName = some factory →
    cache.source.find typeName = .ok factory

/-- A resolver that remembers nothing yet agrees with its registry. -/
theorem agrees_new (registry : Registry) : (new registry).Agrees := by
  intro typeName factory hget
  cases hget

/-- A resolver that agrees with its registry answers as that does. -/
theorem Agrees.resolve_fst (h : cache.Agrees) (typeName : String) :
    (Resolver.resolve cache typeName).1 = (Resolver.resolve cache.source typeName).1 := by
  rw [Caching.resolve_fst]
  cases hget : cache.remembered.get? typeName with
  | none => rfl
  | some factory => exact (h typeName factory hget).symm

/-- A resolver goes on agreeing with its registry if no type is registered that it remembers. -/
theorem Agrees.called (h : cache.Agrees) {call : Call}
    (hfresh : ∀ typeName ∈ call.registered?, cache.remembered.get? typeName = none) :
    (cache.called call).Agrees := by
  intro typeName factory hget
  obtain ⟨asked, -, hregistered, hcalled⟩ | ⟨-, hcalled⟩ := cache.called_cases call
  · rw [hcalled, get?_resolve, Option.or_eq_some_iff] at hget
    rw [hcalled, source_resolve]
    obtain hget | ⟨-, hget⟩ := hget
    · exact h typeName factory hget
    · split at hget
      · next hasked =>
        subst hasked
        cases hfind : cache.source.find asked with
        | error error =>
          rw [hfind] at hget
          cases hget
        | ok found =>
          rw [hfind] at hget
          cases hget
          rfl
      · cases hget
  · rw [hcalled] at hget ⊢
    have hregistered : call.registered? ≠ some typeName := by
      intro hregistered
      have hnone := hfresh typeName hregistered
      rw [hget] at hnone
      cases hnone
    rw [Registry.find_called hregistered]
    exact h typeName factory hget

/-- A resolver still agrees with its registry after calls none of which registers a type that was
found before. -/
theorem Agrees.after (h : cache.Agrees) (hkeeps : cache.Keeps lookups) {calls : List Call}
    (hfresh : ∀ before call later, calls = before ++ call :: later →
      ∀ typeName ∈ call.registered?, typeName ∉ typesFound (lookups ++ cache.lookups before)) :
    (cache.after calls).Agrees := by
  induction calls generalizing cache lookups with
  | nil => exact h
  | cons call calls ih =>
    have hnow : ∀ typeName ∈ call.registered?, cache.remembered.get? typeName = none := by
      intro typeName hregistered
      have hnew := hfresh [] call calls rfl typeName hregistered
      rw [Caching.lookups, List.append_nil, ← hkeeps.isSome_get?_iff] at hnew
      simpa using hnew
    apply ih (h.called hnow) (hkeeps.called call)
    intro before next later hcalls typeName hregistered
    have hnew := hfresh (call :: before) next later (by rw [hcalls]; rfl) typeName hregistered
    rwa [Caching.lookups, ← List.append_assoc] at hnew

/-- For each type, a resolver that remembers answers with what the registry held when it first found
a factory there, and as long as it found none, with what the registry holds now. -/
theorem remembers (registry : Registry) (calls : List Call) :
    Remembers registry calls ((new registry).after calls) ((new registry).lookups calls) := by
  have hkeeps := (keeps_new registry).after calls
  rw [List.nil_append] at hkeeps
  have hsource : ((new registry).after calls).source = registry.after calls :=
    source_after (new registry) calls
  refine ⟨hsource, ?_, ?_, hkeeps.size_eq, hkeeps.size_le, ?_⟩
  · intro typeName lookup hfound
    obtain ⟨factory, hfind, hget⟩ := hkeeps.get?_of_found hfound
    refine ⟨factory, hfind, ?_⟩
    rw [resolve_fst, hget]
    rfl
  · intro typeName hfound
    rw [resolve_fst, hkeeps.get?_of_not_found hfound, ← hsource]
    rfl
  · intro hfresh producer bytes
    have hagrees : ((new registry).after calls).Agrees := by
      apply (agrees_new registry).after (keeps_new registry)
      simpa using hfresh
    apply Wire.decode_value_congr
    rw [← hsource]
    exact hagrees.resolve_fst

/-- A factory that was found outlives its registration. -/
example :
    let level := Level.custom "Audit" 25000 "AUDIT" 5
    let calls : List Call :=
      [.register "Audit" fun _ => .level level, .resolve "Audit", .registerBare "Audit"]
    (resolveLevel ((new .empty).after calls) 25000 (some "Audit")).value = level := by
  decide

end Caching

end EventSnapshot
