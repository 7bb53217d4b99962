import EventSnapshot.Proofs.Level.Remembering

/-!
# Look-ups that race

A look-up in a resolver that remembers is three moments: it looks for the type in the memory, asks
the registry if the memory has nothing, and puts what it found into the memory. Other look-ups and
registrations can come between them. What is put into the memory takes the place of what another
look-up has put there in the meantime, so the first factory that was found is kept only if the type
was not registered anew while a look-up of it was under way.
-/

namespace EventSnapshot

namespace Caching

/-! ## Turns -/

/-- How far a look-up has come. -/
inductive Progress where
  /-- The memory had nothing. -/
  | missed
  /-- The registry had a factory, which is not in the memory yet. -/
  | found (factory : Factory)
  /-- It has returned. -/
  | answered (answer : Except ResolveError Factory)

/-- Whether the look-up has returned. -/
def Progress.hasReturned : Progress → Bool
  | .answered _ => true
  | .missed | .found _ => false

/-- A resolver that remembers, and the look-ups that were made, the first first: of which type, and
how far each has come. -/
structure Race where
  /-- The resolver. -/
  cache : Caching Registry
  /-- The look-ups. -/
  calls : List (String × Progress)

/-- What can happen next. -/
inductive Turn where
  /-- A type is registered with its factory. -/
  | register (typeName : String) (factory : Factory)
  /-- A type is registered without a factory. -/
  | registerBare (typeName : String)
  /-- A look-up starts, and looks into the memory. -/
  | lookUp (typeName : String)
  /-- The look-up at some place asks the registry. -/
  | ask (place : Nat)
  /-- This look-up puts what it found into the memory, and returns. -/
  | remember (place : Nat)

/-- The type that is registered. -/
def Turn.registered? : Turn → Option String
  | .register typeName _ => some typeName
  | .registerBare typeName => some typeName
  | .lookUp _ | .ask _ | .remember _ => none

namespace Race

/-- Nothing is remembered, and no look-up was made. -/
def new (registry : Registry) : Race := ⟨.new registry, []⟩

/-- The factory that is remembered for a type. -/
def held (race : Race) (typeName : String) : Option Factory :=
  race.cache.remembered.get? typeName

/-- The race after a turn. -/
def step (race : Race) : Turn → Race
  | .register typeName factory =>
    { race with
      cache := { race.cache with source := race.cache.source.register typeName factory } }
  | .registerBare typeName =>
    { race with cache := { race.cache with source := race.cache.source.registerBare typeName } }
  | .lookUp typeName =>
    let progress : Progress :=
      match race.held typeName with
      | some factory => .answered (.ok factory)
      | none => .missed
    { race with calls := race.calls ++ [(typeName, progress)] }
  | .ask place =>
    match race.calls[place]? with
    | some (typeName, .missed) =>
      let progress : Progress :=
        match race.cache.source.find typeName with
        | .ok factory => .found factory
        | .error error => .answered (.error error)
      { race with calls := race.calls.set place (typeName, progress) }
    | _ => race
  | .remember place =>
    match race.calls[place]? with
    | some (typeName, .found factory) =>
      { cache := { race.cache with
          remembered := race.cache.remembered.insert typeName factory }
        calls := race.calls.set place (typeName, .answered (.ok factory)) }
    | _ => race

/-- The race after some turns. -/
def run (race : Race) (turns : List Turn) : Race := turns.foldl step race

variable {race : Race} {typeName : String} {factory : Factory}

/-- A registry answers with the factory that was registered last. -/
@[simp] theorem find_register (registry : Registry) (typeName : String) (factory : Factory) :
    (registry.register typeName factory).find typeName = .ok factory := by
  rw [Registry.find, Registry.register, SortedMap.get?_insert, if_pos rfl]

/-- An empty memory has nothing. -/
@[simp] theorem get?_empty (typeName : String) :
    (SortedMap.empty : SortedMap Factory).get? typeName = none := rfl

/-- Turns after others start from where those lead. -/
theorem run_append (race : Race) (turns more : List Turn) :
    race.run (turns ++ more) = (race.run turns).run more :=
  List.foldl_append ..

/-- A look-up with no turn of another in between is a look-up of the resolver. -/
theorem run_resolve (race : Race) (typeName : String) :
    race.run [.lookUp typeName, .ask race.calls.length, .remember race.calls.length] =
      ⟨(Resolver.resolve race.cache typeName).2,
        race.calls ++ [(typeName, .answered (Resolver.resolve race.cache typeName).1)]⟩ := by
  cases hheld : race.cache.remembered.get? typeName with
  | some found => simp [run, step, held, Resolver.resolve, hheld]
  | none =>
    cases hfind : race.cache.source.find typeName with
    | error error => simp [run, step, held, Resolver.resolve, hheld, hfind]
    | ok found => simp [run, step, held, Resolver.resolve, hheld, hfind]

/-! ## What a turn keeps -/

/-- What holds of the look-ups of a type at any time, if the type is not registered anew while one
of them is under way. -/
structure Steady (typeName : String) (race : Race) : Prop where
  /-- What was found and is not remembered yet is what the registry has now. -/
  found : ∀ factory, (typeName, .found factory) ∈ race.calls →
    race.cache.source.find typeName = .ok factory
  /-- As long as a look-up is under way, so is what is remembered. -/
  held : ∀ factory, race.held typeName = some factory →
    ∀ progress, (typeName, progress) ∈ race.calls → progress.hasReturned = false →
      race.cache.source.find typeName = .ok factory
  /-- What a look-up was answered is remembered. -/
  answered : ∀ factory, (typeName, .answered (.ok factory)) ∈ race.calls →
    race.held typeName = some factory

/-- No look-up was made. -/
theorem steady_new (registry : Registry) (typeName : String) :
    (new registry).Steady typeName := by
  constructor
  · intro factory hmem
    cases hmem
  · intro factory hheld
    cases hheld
  · intro factory hmem
    cases hmem

/-- A turn comes while no look-up of a type is under way, if it registers the type. -/
def Quiet (race : Race) (typeName : String) (turn : Turn) : Prop :=
  turn.registered? = some typeName →
    ∀ progress, (typeName, progress) ∈ race.calls → progress.hasReturned

/-- Every turn of some is quiet: whenever one registers the type, no look-up of it is under way. -/
def Undisturbed (race : Race) (typeName : String) (turns : List Turn) : Prop :=
  ∀ before turn later, turns = before ++ turn :: later → (race.run before).Quiet typeName turn

/-- The look-ups from some place on were all answered with one factory. -/
def Answers (race : Race) (typeName : String) (start : Nat) (factory : Factory) : Prop :=
  ∀ place progress, start ≤ place → race.calls[place]? = some (typeName, progress) →
    progress = .answered (.ok factory)

/-- The first factory that is remembered for a type is kept. -/
structure KeepsFirst (registry : Registry) (turns : List Turn) (typeName : String) : Prop where
  /-- What is remembered at any time is remembered ever after. -/
  kept : ∀ before later, turns = before ++ later → ∀ factory,
    ((new registry).run before).held typeName = some factory →
      ((new registry).run turns).held typeName = some factory
  /-- A look-up that starts after another one found a factory is answered with the same. -/
  alike : ∀ before later, turns = before ++ later → ∀ factory,
    (typeName, Progress.answered (.ok factory)) ∈ ((new registry).run before).calls →
      ((new registry).run turns).Answers typeName ((new registry).run before).calls.length factory

/-- A change of the registry is quiet, or leaves its answer for the type as it was. -/
theorem Steady.change (h : race.Steady typeName) {source : Registry} (registered : String)
    (hfind : registered ≠ typeName → source.find typeName = race.cache.source.find typeName)
    (hquiet : registered = typeName →
      ∀ progress, (typeName, progress) ∈ race.calls → progress.hasReturned) :
    Steady typeName { race with cache := { race.cache with source } } := by
  by_cases hregistered : registered = typeName
  · have hquiet := hquiet hregistered
    refine ⟨?_, ?_, h.answered⟩
    · intro factory hmem
      cases hquiet _ hmem
    · intro factory _ progress hmem hunder
      rw [hquiet progress hmem] at hunder
      cases hunder
  · have hfind := hfind hregistered
    refine ⟨?_, ?_, h.answered⟩
    · intro factory hmem
      exact hfind.trans (h.found factory hmem)
    · intro factory hheld progress hmem hunder
      exact hfind.trans (h.held factory hheld progress hmem hunder)

/-- A look-up that is put into the memory has found what is there, if anything is. -/
theorem Steady.held_eq (h : race.Steady typeName) (hmem : (typeName, .found factory) ∈ race.calls)
    {kept : Factory} (hkept : race.held typeName = some kept) : kept = factory := by
  have hfound := h.found factory hmem
  rw [h.held kept hkept _ hmem rfl] at hfound
  exact Except.ok.inj hfound

/-- A look-up of any type that goes on, with an answer or not, leaves the others as they are. -/
theorem mem_of_mem_set {calls : List (String × Progress)} {place : Nat} {other : String}
    {next progress : Progress} (hmem : (typeName, progress) ∈ calls.set place (other, next)) :
    (typeName, progress) ∈ calls ∨ (other = typeName ∧ next = progress) := by
  obtain hmem | heq := List.mem_or_eq_of_mem_set hmem
  · exact .inl hmem
  · cases heq
    exact .inr ⟨rfl, rfl⟩

/-- What is remembered for a type stays. -/
theorem Steady.held_step (h : race.Steady typeName) {kept : Factory}
    (hkept : race.held typeName = some kept) (turn : Turn) :
    (race.step turn).held typeName = some kept := by
  cases turn with
  | register | registerBare | lookUp => exact hkept
  | ask place =>
    dsimp only [step]
    split
    · exact hkept
    · exact hkept
  | remember place =>
    dsimp only [step]
    split
    · next other found hcall =>
      have hmem := List.mem_of_getElem? hcall
      rw [Race.held, SortedMap.get?_insert]
      split
      · next hother =>
        subst hother
        rw [h.held_eq hmem hkept]
      · exact hkept
    · exact hkept

/-- A look-up that starts is answered with what is remembered, or is under way while nothing is. -/
theorem Steady.lookUp (h : race.Steady typeName) (asked : String) :
    (race.step (.lookUp asked)).Steady typeName := by
  have hcases : ∀ progress, (typeName, progress) ∈ (race.step (.lookUp asked)).calls →
      (typeName, progress) ∈ race.calls ∨
        (∃ factory, race.held typeName = some factory ∧ progress = .answered (.ok factory)) ∨
          (race.held typeName = none ∧ progress = .missed) := by
    intro progress hmem
    obtain hmem | hmem := List.mem_append.mp hmem
    · exact .inl hmem
    · obtain ⟨rfl, rfl⟩ := Prod.mk.inj (List.mem_singleton.mp hmem)
      cases hheld : race.held typeName with
      | some factory => exact .inr (.inl ⟨factory, rfl, rfl⟩)
      | none => exact .inr (.inr ⟨rfl, rfl⟩)
  constructor
  · intro factory hmem
    obtain hmem | ⟨_, -, heq⟩ | ⟨-, heq⟩ := hcases _ hmem
    · exact h.found factory hmem
    · cases heq
    · cases heq
  · intro factory hheld progress hmem hunder
    have hheld : race.held typeName = some factory := hheld
    obtain hmem | ⟨_, -, rfl⟩ | ⟨hnone, -⟩ := hcases _ hmem
    · exact h.held factory hheld progress hmem hunder
    · cases hunder
    · rw [hheld] at hnone
      cases hnone
  · intro factory hmem
    obtain hmem | ⟨found, hheld, heq⟩ | ⟨-, heq⟩ := hcases _ hmem
    · exact h.answered factory hmem
    · cases heq
      exact hheld
    · cases heq

/-- A look-up that asks the registry finds what that has now. -/
theorem Steady.ask (h : race.Steady typeName) (place : Nat) :
    (race.step (.ask place)).Steady typeName := by
  dsimp only [Race.step]
  split
  · next other hcall =>
    have hmissed := List.mem_of_getElem? hcall
    constructor
    · intro factory hmem
      obtain hmem | ⟨rfl, heq⟩ := mem_of_mem_set hmem
      · exact h.found factory hmem
      · cases hfind : race.cache.source.find other with
        | error error =>
          rw [hfind] at heq
          cases heq
        | ok found =>
          rw [hfind] at heq
          cases heq
          rfl
    · intro factory hheld progress hmem hunder
      obtain hmem | ⟨rfl, -⟩ := mem_of_mem_set hmem
      · exact h.held factory hheld progress hmem hunder
      · exact h.held factory hheld .missed hmissed rfl
    · intro factory hmem
      obtain hmem | ⟨rfl, heq⟩ := mem_of_mem_set hmem
      · exact h.answered factory hmem
      · cases hfind : race.cache.source.find other <;> (rw [hfind] at heq; cases heq)
  · exact h

/-- A look-up that puts what it found into the memory leaves there what the registry has now. -/
theorem Steady.remember (h : race.Steady typeName) (place : Nat) :
    (race.step (.remember place)).Steady typeName := by
  have hkept : ∀ kept, race.held typeName = some kept →
      (race.step (.remember place)).held typeName = some kept :=
    fun kept hheld => h.held_step hheld (.remember place)
  revert hkept
  dsimp only [Race.step]
  split
  · next other found hcall =>
    intro hkept
    have hfound := List.mem_of_getElem? hcall
    have hheld : ∀ factory,
        (race.cache.remembered.insert other found).get? typeName = some factory →
          (other = typeName ∧ found = factory) ∨ race.held typeName = some factory := by
      intro factory hget
      rw [SortedMap.get?_insert] at hget
      split at hget
      · next hother => exact .inl ⟨hother.symm, Option.some.inj hget⟩
      · exact .inr hget
    constructor
    · intro factory hmem
      obtain hmem | ⟨-, heq⟩ := mem_of_mem_set hmem
      · exact h.found factory hmem
      · cases heq
    · intro factory hget progress hmem hunder
      obtain hmem | ⟨-, rfl⟩ := mem_of_mem_set hmem
      · obtain ⟨rfl, rfl⟩ | hget := hheld factory hget
        · exact h.found found hfound
        · exact h.held factory hget progress hmem hunder
      · cases hunder
    · intro factory hmem
      obtain hmem | ⟨rfl, heq⟩ := mem_of_mem_set hmem
      · exact hkept factory (h.answered factory hmem)
      · cases heq
        exact (SortedMap.get?_insert ..).trans (if_pos rfl)
  · exact fun _ => h

/-- A quiet turn keeps what holds of the look-ups. -/
theorem Steady.step (h : race.Steady typeName) {turn : Turn} (hquiet : race.Quiet typeName turn) :
    (race.step turn).Steady typeName := by
  cases turn with
  | register registered new =>
    refine h.change registered ?_ fun heq => hquiet (congrArg some heq)
    intro hne
    have hother : (Call.register registered new).registered? ≠ some typeName :=
      fun heq => hne (Option.some.inj heq)
    exact Registry.find_called hother race.cache.source
  | registerBare registered =>
    refine h.change registered ?_ fun heq => hquiet (congrArg some heq)
    intro hne
    have hother : (Call.registerBare registered).registered? ≠ some typeName :=
      fun heq => hne (Option.some.inj heq)
    exact Registry.find_called hother race.cache.source
  | lookUp asked => exact h.lookUp asked
  | ask place => exact h.ask place
  | remember place => exact h.remember place

/-! ## Whole races -/

/-- Turns are all quiet if and only if the first one is, and the others are after it. -/
theorem undisturbed_cons {turn : Turn} {turns : List Turn} :
    race.Undisturbed typeName (turn :: turns) ↔
      race.Quiet typeName turn ∧ (race.step turn).Undisturbed typeName turns := by
  constructor
  · intro h
    refine ⟨h [] turn turns rfl, ?_⟩
    rintro before next later rfl
    exact h (turn :: before) next later rfl
  · rintro ⟨hfirst, hothers⟩ before next later hturns
    cases before with
    | nil =>
      cases hturns
      exact hfirst
    | cons first before =>
      obtain ⟨rfl, hrest⟩ := List.cons.inj hturns
      exact hothers before next later hrest

/-- A turn that registers nothing is quiet. -/
theorem quiet_of_registered?_eq_none {turn : Turn} (h : turn.registered? = none) :
    race.Quiet typeName turn := by
  intro hregistered
  rw [h] at hregistered
  cases hregistered

/-- Where every turn is quiet, those up to any time are, and those after it. -/
theorem Undisturbed.split {before later : List Turn}
    (h : race.Undisturbed typeName (before ++ later)) :
    race.Undisturbed typeName before ∧ (race.run before).Undisturbed typeName later := by
  constructor
  · rintro first turn rest rfl
    exact h first turn (rest ++ later) (by simp)
  · rintro first turn rest rfl
    rw [← run_append]
    exact h (before ++ first) turn rest (by simp)

/-- Quiet turns keep what holds of the look-ups, and what is remembered. -/
theorem Steady.run (h : race.Steady typeName) {turns : List Turn}
    (hquiet : race.Undisturbed typeName turns) :
    (race.run turns).Steady typeName ∧
      ∀ kept, race.held typeName = some kept → (race.run turns).held typeName = some kept := by
  induction turns generalizing race with
  | nil => exact ⟨h, fun _ hkept => hkept⟩
  | cons turn turns ih =>
    obtain ⟨hfirst, hothers⟩ := undisturbed_cons.mp hquiet
    obtain ⟨hsteady, hlater⟩ := ih (h.step hfirst) hothers
    exact ⟨hsteady, fun kept hkept => hlater kept (h.held_step hkept turn)⟩

/-- A look-up that goes on was not answered yet, so it is none of those that were. -/
theorem Answers.set {start place : Nat} (h : race.Answers typeName start factory)
    {other : String} {progress : Progress} (hcall : race.calls[place]? = some (other, progress))
    (hunder : progress.hasReturned = false) (cache : Caching Registry) (next : Progress) :
    Answers ⟨cache, race.calls.set place (other, next)⟩ typeName start factory := by
  intro wanted found hstart hfound
  rw [List.getElem?_set] at hfound
  split at hfound
  · next hplace =>
    subst hplace
    split at hfound
    · cases hfound
      rw [h place progress hstart hcall] at hunder
      cases hunder
    · cases hfound
  · exact h wanted found hstart hfound

/-- As long as a factory is remembered, look-ups that start are answered with it. -/
theorem Answers.step {start : Nat} (h : race.Answers typeName start factory)
    (hheld : race.held typeName = some factory) (turn : Turn) :
    (race.step turn).Answers typeName start factory := by
  cases turn with
  | register | registerBare => exact h
  | lookUp asked =>
    intro wanted found hstart hfound
    dsimp only [Race.step] at hfound
    rw [List.getElem?_append] at hfound
    split at hfound
    · exact h wanted found hstart hfound
    · have hnew := List.mem_singleton.mp (List.mem_of_getElem? hfound)
      obtain ⟨rfl, rfl⟩ := Prod.mk.inj hnew
      rw [hheld]
  | ask place =>
    dsimp only [Race.step]
    split
    · next hcall => exact h.set hcall rfl _ _
    · exact h
  | remember place =>
    dsimp only [Race.step]
    split
    · next hcall => exact h.set hcall rfl _ _
    · exact h

/-- As long as every turn is quiet, look-ups that start are answered with the factory that is
remembered. -/
theorem Steady.answers_run {start : Nat} (h : race.Steady typeName) {turns : List Turn}
    (hquiet : race.Undisturbed typeName turns) (hheld : race.held typeName = some factory)
    (hanswers : race.Answers typeName start factory) :
    (race.run turns).Answers typeName start factory := by
  induction turns generalizing race with
  | nil => exact hanswers
  | cons turn turns ih =>
    obtain ⟨hfirst, hothers⟩ := undisturbed_cons.mp hquiet
    exact ih (h.step hfirst) hothers (h.held_step hheld turn)
      (hanswers.step hheld turn)

/-- However look-ups and registrations interleave, the first factory that is remembered for a type
is kept, if the type is not registered anew while a look-up of it is under way. -/
theorem keepsFirst (registry : Registry) (turns : List Turn) (typeName : String)
    (hquiet : (new registry).Undisturbed typeName turns) : KeepsFirst registry turns typeName := by
  constructor
  · rintro before later rfl factory hheld
    obtain ⟨hbefore, hlater⟩ := hquiet.split
    obtain ⟨hsteady, -⟩ := (steady_new registry typeName).run hbefore
    rw [run_append]
    exact (hsteady.run hlater).2 factory hheld
  · rintro before later rfl factory hmem
    obtain ⟨hbefore, hlater⟩ := hquiet.split
    obtain ⟨hsteady, -⟩ := (steady_new registry typeName).run hbefore
    have hheld := hsteady.answered factory hmem
    rw [run_append]
    apply hsteady.answers_run hlater hheld
    intro place progress hstart hfound
    rw [List.getElem?_eq_none hstart] at hfound
    cases hfound

/-- Two look-ups that race find the same factory. The type is registered anew when both have
returned, and a third look-up is answered with that factory still. -/
theorem keepsFirst_overlapping :
    let audit : Factory := fun _ => .level (.custom "Audit" 25000 "AUDIT" 5)
    let registry := Registry.empty.register "Audit" audit
    let turns : List Turn := [.lookUp "Audit", .lookUp "Audit", .ask 1, .ask 0, .remember 1,
      .remember 0, .register "Audit" fun _ => .crashed, .lookUp "Audit"]
    (new registry).Undisturbed "Audit" turns ∧
      ((new registry).run turns).calls[2]? = some ("Audit", Progress.answered (.ok audit)) := by
  intro audit registry turns
  have hreturned : ((new registry).run (turns.take 6)).calls =
      [("Audit", .answered (.ok audit)), ("Audit", .answered (.ok audit))] := by
    simp [registry, turns, run, step, new, Caching.new, held]
  have hlast : ∃ progress, ((new registry).run turns).calls[2]? = some ("Audit", progress) := by
    simp [registry, turns, run, step, new, Caching.new, held]
  have hquiet : (new registry).Undisturbed "Audit" turns := by
    iterate 6 refine undisturbed_cons.mpr ⟨quiet_of_registered?_eq_none rfl, ?_⟩
    refine undisturbed_cons.mpr ⟨?_, undisturbed_cons.mpr ⟨quiet_of_registered?_eq_none rfl, ?_⟩⟩
    · intro _ progress hmem
      have hmem : ("Audit", progress) ∈ ((new registry).run (turns.take 6)).calls := hmem
      have hprogress : progress = .answered (.ok audit) := by simpa [hreturned] using hmem
      rw [hprogress]
      rfl
    · intro before turn later hturns
      cases before <;> cases hturns
  refine ⟨hquiet, ?_⟩
  have h := keepsFirst registry turns "Audit" hquiet
  have hanswers := h.alike (turns.take 6) (turns.drop 6) rfl audit (by simp [hreturned])
  obtain ⟨progress, hfound⟩ := hlast
  rw [hfound, hanswers 2 progress (by simp [hreturned]) hfound]

/-- A look-up that started before a type was registered anew puts the old factory into the memory
behind a look-up that started later and has returned with the new one. -/
theorem not_keepsFirst_of_race :
    let audit : Factory := fun _ => .level (.custom "Audit" 25000 "AUDIT" 5)
    let broken : Factory := fun _ => .crashed
    let turns : List Turn := [.register "Audit" audit, .lookUp "Audit", .ask 0,
      .register "Audit" broken, .lookUp "Audit", .ask 1, .remember 1, .remember 0, .lookUp "Audit"]
    ((new .empty).run (turns.take 7)).calls[1]? =
        some ("Audit", Progress.answered (.ok broken)) ∧
      ((new .empty).run turns).calls[2]? = some ("Audit", Progress.answered (.ok audit)) ∧
      ¬KeepsFirst .empty turns "Audit" := by
  intro audit broken turns
  have hfirst : ((new .empty).run (turns.take 7)).held "Audit" = some broken := by
    simp [turns, run, step, new, Caching.new, held, SortedMap.get?_insert]
  have hlast : ((new .empty).run turns).held "Audit" = some audit := by
    simp [turns, run, step, new, Caching.new, held, SortedMap.get?_insert]
  refine ⟨?_, ?_, fun h => ?_⟩
  · simp [turns, run, step, new, Caching.new, held]
  · simp [turns, run, step, new, Caching.new, held, SortedMap.get?_insert]
  · have hkept := h.kept (turns.take 7) (turns.drop 7) rfl broken hfirst
    rw [hlast] at hkept
    have hbuilt := congrFun (Option.some.inj hkept) 0
    cases hbuilt

end Race

end Caching

end EventSnapshot
