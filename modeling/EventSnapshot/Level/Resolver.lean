import EventSnapshot.Notice

/-!
# Rebuilding levels

A level that was written down as a priority and the name of a type is rebuilt by the factory of
that type. Factories are found by a resolver: a registry, or a resolver that remembers what
another one found. A level that cannot be rebuilt is replaced by the nearest built-in one, so
rebuilding always gives a level.
-/

namespace EventSnapshot

/-- What a factory makes of a priority. -/
inductive Built where
  /-- A level. -/
  | level (level : Level)
  /-- An error of the factory's own. -/
  | failed (error : ResolveError)
  /-- Nothing, because the factory broke down. -/
  | crashed

/-- Makes the levels of one type from their priorities. -/
abbrev Factory := Int32 → Built

/-- A source of factories, by type name. Looking one up may change the source. -/
class Resolver (σ : Type) where
  /-- The factory of a type, and the source afterwards. -/
  resolve : σ → String → Except ResolveError Factory × σ

/-- The known level types, each with its factory if it has one. -/
structure Registry where
  /-- The types by name. -/
  types : SortedMap (Option Factory)

namespace Registry

/-- The registry without types. -/
def empty : Registry := ⟨.empty⟩

/-- Registers a type with its factory, in the place of an earlier registration. -/
def register (registry : Registry) (typeName : String) (factory : Factory) : Registry :=
  ⟨registry.types.insert typeName (some factory)⟩

/-- Registers a type that has no factory, in the place of an earlier registration. -/
def registerBare (registry : Registry) (typeName : String) : Registry :=
  ⟨registry.types.insert typeName none⟩

/-- Whether a type is registered. -/
def contains (registry : Registry) (typeName : String) : Bool :=
  registry.types.contains typeName

/-- The factory that is registered for a type. -/
def find (registry : Registry) (typeName : String) : Except ResolveError Factory :=
  match registry.types.get? typeName with
  | some (some factory) => .ok factory
  | some none => .error (.missingFactory typeName)
  | none => .error (.unknownType typeName)

instance : Resolver Registry := ⟨fun registry typeName => (registry.find typeName, registry)⟩

end Registry

/-- A resolver that remembers every factory that another one found. Failures are not
remembered. -/
structure Caching (σ : Type) where
  /-- The resolver that is asked for what is not remembered. -/
  source : σ
  /-- The factories found so far. -/
  remembered : SortedMap Factory

namespace Caching

variable {σ : Type}

/-- A resolver that remembers nothing yet. -/
def new (source : σ) : Caching σ := ⟨source, .empty⟩

instance [Resolver σ] : Resolver (Caching σ) where
  resolve cache typeName :=
    match cache.remembered.get? typeName with
    | some factory => (.ok factory, cache)
    | none =>
      match Resolver.resolve cache.source typeName with
      | (.ok factory, source) =>
        (.ok factory, ⟨source, cache.remembered.insert typeName factory⟩)
      | (.error error, source) => (.error error, ⟨source, cache.remembered⟩)

end Caching

/-- A result of work that may have changed its resolver and left notices. -/
structure Resolved (σ α : Type) where
  /-- The result. -/
  value : α
  /-- The resolver afterwards. -/
  source : σ
  /-- What was reported, in order. -/
  notices : List Notice

/-- The level that a factory builds, or why there is none. -/
def Factory.build (factory : Factory) (typeName : String) (priority : Int32) :
    Except ResolveError Level :=
  match factory priority with
  | .level level => .ok level
  | .failed error => .error error
  | .crashed => .error (.factoryFailed typeName "factory panicked")

/-- The level of a priority and a type name. Without a type name, and whenever the type gives no
level, it is the nearest built-in one; in the second case with a notice. -/
def resolveLevel {σ : Type} [Resolver σ] (source : σ) (priority : Int32) :
    Option String → Resolved σ Level
  | none => ⟨Level.nearestBuiltin priority, source, []⟩
  | some typeName =>
    let (found, source) := Resolver.resolve source typeName
    match found.bind fun factory => factory.build typeName priority with
    | .ok level => ⟨level, source, []⟩
    | .error error =>
      let fallback := Level.nearestBuiltin priority
      ⟨fallback, source, [.levelReplaced typeName priority fallback error]⟩

end EventSnapshot
