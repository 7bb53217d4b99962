import EventSnapshot.Level.Resolver

/-!
# Levels that stand in for others

A level is rebuilt by the factory of its type. Where no factory gives a level, the nearest built-in
one stands in for it: the first of the built-in levels, which descend, that is not above the
priority. The least of them is not above any priority, so there always is one, and it is at least as
severe as just those built-in levels that are not above the priority either.
-/

namespace EventSnapshot

namespace Level

/-! ## The nearest built-in level -/

/-- The built-in levels descend. -/
theorem builtins_descend :
    builtins.Pairwise fun level other => other.priority ≤ level.priority := by decide

theorem atLeast_iff {level other : Level} :
    level.atLeast other ↔ other.priority ≤ level.priority := decide_eq_true_iff

/-- The nearest built-in level is the first that is not above the priority. -/
theorem find?_builtins (priority : Int32) :
    (builtins.find? fun level => level.priority ≤ priority) = some (nearestBuiltin priority) := by
  unfold nearestBuiltin
  cases hfind : builtins.find? fun level => level.priority ≤ priority with
  | none =>
    have hall : ¬all.priority ≤ priority := by
      simpa using List.find?_eq_none.mp hfind all (by decide)
    exact absurd (Int32.minValue_le priority) hall
  | some level => rfl

/-- The nearest built-in level is a built-in one. -/
theorem nearestBuiltin_mem_builtins (priority : Int32) : nearestBuiltin priority ∈ builtins :=
  List.mem_of_find?_eq_some (find?_builtins priority)

/-- The nearest built-in level is not above the priority. -/
theorem priority_nearestBuiltin_le (priority : Int32) :
    (nearestBuiltin priority).priority ≤ priority := by
  simpa using List.find?_some (find?_builtins priority)

/-- The nearest built-in level is at least as severe as the built-in levels that are not above the
priority, and as no others. -/
theorem atLeast_nearestBuiltin_iff {level : Level} (h : level ∈ builtins) (priority : Int32) :
    (nearestBuiltin priority).atLeast level ↔ level.priority ≤ priority := by
  obtain ⟨-, above, below, hbuiltins, habove⟩ :=
    List.find?_eq_some_iff_append.mp (find?_builtins priority)
  have hfloor := priority_nearestBuiltin_le priority
  have hdescend := builtins_descend
  rw [atLeast_iff]
  constructor
  · intro hle
    exact Int32.le_trans hle hfloor
  · intro hle
    rw [hbuiltins, List.pairwise_append] at hdescend
    rw [hbuiltins, List.mem_append, List.mem_cons] at h
    -- A level in front of the first that is not above the priority is above it.
    rcases h with hfront | rfl | hbehind
    · have hnot : ¬level.priority ≤ priority := by simpa using habove level hfront
      exact absurd hle hnot
    · exact Int32.le_refl _
    · exact List.rel_of_pairwise_cons hdescend.2.1 hbehind

/-- The nearest built-in level of a greater priority is at least as severe. -/
theorem atLeast_nearestBuiltin_of_le {priority other : Int32} (h : priority ≤ other) :
    (nearestBuiltin other).atLeast (nearestBuiltin priority) := by
  rw [atLeast_nearestBuiltin_iff (nearestBuiltin_mem_builtins priority)]
  exact Int32.le_trans (priority_nearestBuiltin_le priority) h

end Level

/-! ## Levels that no factory gives -/

section Rebuilding

variable {σ : Type} [Resolver σ]

/-- The level is the one that the factory of the type builds from the priority. -/
def IsRebuilt (source : σ) (priority : Int32) (typeName : Option String) (level : Level) : Prop :=
  ∃ name factory, typeName = some name ∧ (Resolver.resolve source name).1 = .ok factory ∧
    factory priority = .level level

/-- No factory gives a level: no type is named, or it is not found, or its factory fails. -/
def Unbuilt (source : σ) (priority : Int32) (typeName : Option String) : Prop :=
  ∀ level, ¬IsRebuilt source priority typeName level

variable {source : σ} {priority : Int32} {typeName : Option String}

/-- A factory builds a level exactly if that is what it makes of the priority. -/
theorem Factory.build_eq_ok_iff {factory : Factory} {name : String} {level : Level} :
    factory.build name priority = .ok level ↔ factory priority = .level level := by
  unfold Factory.build
  cases factory priority with
  | level found => simp
  | failed error => simp
  | crashed => simp

/-- What the type of a level gives is what the look-up and its factory give one after the other. -/
theorem isRebuilt_some_iff {name : String} {level : Level} :
    IsRebuilt source priority (some name) level ↔
      ((Resolver.resolve source name).1.bind fun factory => factory.build name priority) =
        .ok level := by
  constructor
  · rintro ⟨_, factory, ⟨⟩, hfactory, hlevel⟩
    rw [hfactory]
    exact Factory.build_eq_ok_iff.mpr hlevel
  · intro h
    cases hfactory : (Resolver.resolve source name).1 with
    | error error =>
      rw [hfactory] at h
      cases h
    | ok factory =>
      rw [hfactory] at h
      exact ⟨name, factory, rfl, hfactory, Factory.build_eq_ok_iff.mp h⟩

/-- Rebuilding a level gives the level of the factory and reports nothing, or there is none, and it
gives the nearest built-in level, and reports that once if a type was named. -/
theorem resolveLevel_cases (source : σ) (priority : Int32) (typeName : Option String) :
    let resolved := resolveLevel source priority typeName
    (IsRebuilt source priority typeName resolved.value ∧ resolved.notices = []) ∨
      (Unbuilt source priority typeName ∧ resolved.value = .nearestBuiltin priority ∧
        ((typeName = none ∧ resolved.notices = []) ∨
          ∃ name cause, typeName = some name ∧ resolved.notices =
            [.levelReplaced name priority (.nearestBuiltin priority) cause])) := by
  cases typeName with
  | none =>
    refine .inr ⟨?_, rfl, .inl ⟨rfl, rfl⟩⟩
    rintro level ⟨name, factory, htype, -⟩
    cases htype
  | some name =>
    simp only [resolveLevel]
    cases hbuilt : (Resolver.resolve source name).1.bind
        fun factory => factory.build name priority with
    | ok level => exact .inl ⟨isRebuilt_some_iff.mpr hbuilt, rfl⟩
    | error cause =>
      refine .inr ⟨?_, rfl, .inr ⟨name, cause, rfl, rfl⟩⟩
      intro level hlevel
      rw [isRebuilt_some_iff, hbuilt] at hlevel
      cases hlevel

/-- The level that comes of rebuilding is a factory's own, or there is none. -/
theorem unbuilt_of_not_isRebuilt
    (h : ¬IsRebuilt source priority typeName (resolveLevel source priority typeName).value) :
    Unbuilt source priority typeName := by
  obtain ⟨hrebuilt, -⟩ | ⟨hunbuilt, -⟩ := resolveLevel_cases source priority typeName
  · exact absurd hrebuilt h
  · exact hunbuilt

/-- Where no factory gives a level, the nearest built-in one comes of rebuilding. -/
theorem Unbuilt.value_resolveLevel (h : Unbuilt source priority typeName) :
    (resolveLevel source priority typeName).value = .nearestBuiltin priority := by
  obtain ⟨hrebuilt, -⟩ | ⟨-, hvalue, -⟩ := resolveLevel_cases source priority typeName
  · exact absurd hrebuilt (h _)
  · exact hvalue

end Rebuilding

end EventSnapshot
