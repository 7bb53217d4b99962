import EventSnapshot.Proofs.Event.Editing
import EventSnapshot.Proofs.Event.Explicit
import Mathlib.Logic.Function.Basic

/-!
# Histories of the mapped context

The mapped context of an event has a history: threads put values into theirs and take them out, one
of them has its context captured, and the copy is edited from then on. No key has any influence on
another one. So what a history leaves for a key can be told from the deeds that concern that key,
and whether anything is left at all, from that and from whether there were edits.
-/

namespace EventSnapshot

/-! ## Histories -/

/-- Threads, each as it is at the time, and an event. -/
structure Setting where
  threads : Nat → Thread
  event : Event

/-- Something that is done to the mapped context of a thread or of an event. -/
inductive Deed where
  /-- A thread puts a value into its mapped context. -/
  | put (thread : Nat) (key : String) (value : Value)
  /-- A thread takes a value out of its mapped context. -/
  | remove (thread : Nat) (key : String)
  /-- A thread drops its mapped context. -/
  | clear (thread : Nat)
  /-- A thread accesses the event. -/
  | visit (thread : Nat) (access : Access)

/-- The edit of the event's copy that is made, if any. -/
def Deed.edit? : Deed → Option (String × Option Value)
  | .visit _ access => access.edit?
  | .put .. | .remove .. | .clear .. => none

namespace Setting

/-- The setting with one thread changed. -/
def changed (setting : Setting) (thread : Nat) (change : Thread → Thread) : Setting :=
  { setting with
    threads := Function.update setting.threads thread (change (setting.threads thread)) }

/-- The setting after a deed. -/
def step (setting : Setting) : Deed → Setting
  | .put thread key value => setting.changed thread (·.put key value)
  | .remove thread key => setting.changed thread fun before => (before.remove key).2
  | .clear thread => setting.changed thread (·.clearMapped)
  | .visit thread access =>
    { setting with event := setting.event.visited ⟨setting.threads thread, access⟩ }

/-- The setting after a history. -/
def run (setting : Setting) (deeds : List Deed) : Setting := deeds.foldl step setting

end Setting

/-! ## Cells -/

/-- What there is of one key. -/
structure Cell where
  /-- What each thread has for it. -/
  threads : Nat → Option Value
  /-- What the event's copy has for it, once there is a copy. -/
  own : Option (Option Value)

namespace Cell

/-- What the event shows to a thread. -/
def answer (cell : Cell) (thread : Nat) : Option Value := cell.own.getD (cell.threads thread)

/-- The cell of a key after a deed. -/
def step (key : String) (cell : Cell) : Deed → Cell
  | .put thread other value =>
    if key = other then { cell with threads := Function.update cell.threads thread (some value) }
    else cell
  | .remove thread other =>
    if key = other then { cell with threads := Function.update cell.threads thread none } else cell
  | .clear thread => { cell with threads := Function.update cell.threads thread none }
  | .visit thread access =>
    if .mapped ∈ access.slots then
      { cell with own := some ((access.edit?.toList.lookup key).getD (cell.answer thread)) }
    else cell

/-- The cell of a key after a history. -/
def run (key : String) (cell : Cell) (deeds : List Deed) : Cell := deeds.foldl (step key) cell

end Cell

/-- After at most one edit, a copy has for a key what the edit left there, or else what it had
before. -/
theorem get?_withEdits (held : Option ContextMap) (edit? : Option (String × Option Value))
    (key : String) : ((withEdits held edit?.toList).getD .empty).get? key =
      (edit?.toList.lookup key).getD ((held.getD .empty).get? key) := by
  rw [getD_withEdits]
  cases edit? with
  | none => rfl
  | some edit =>
    obtain ⟨edited, left⟩ := edit
    have hedit : applyEdits (held.getD .empty) (some (edited, left)).toList =
        applyEdit (held.getD .empty) (edited, left) := rfl
    rw [hedit, Option.toList_some, lookup_cons_eq_ite]
    cases left with
    | none =>
      rw [applyEdit, SortedMap.get?_erase]
      split <;> rfl
    | some value =>
      rw [applyEdit, SortedMap.get?_insert]
      split <;> rfl

namespace Thread

variable (thread : Thread) (key wanted : String)

/-- Putting a value changes what the thread has for its key, and nothing else. -/
theorem value?_put (value : Value) :
    (thread.put key value).value? wanted =
      if wanted = key then some value else thread.value? wanted := by
  rw [value?, put, Option.bind_some, SortedMap.get?_insert, value?]
  cases thread.mapped <;> rfl

/-- After a value was taken out, the thread has none for its key, and the others as before. -/
theorem value?_remove :
    (thread.remove key).2.value? wanted =
      if wanted = key then none else thread.value? wanted := by
  simp only [value?, remove]
  cases thread.mapped with
  | none => exact (ite_self _).symm
  | some map => exact SortedMap.get?_erase map key wanted

end Thread

namespace Setting

/-- The cell of a key. -/
def cell (setting : Setting) (key : String) : Cell where
  threads thread := (setting.threads thread).value? key
  own := setting.event.mapped.map fun held => (held.getD .empty).get? key

variable {setting : Setting} {key : String}

/-- What an event that takes its context from threads shows for a key is in the cell of the key. -/
theorem answer_cell (hsource : setting.event.source = .thread) (reader : Nat) :
    (setting.cell key).answer reader =
      (setting.event.properties (setting.threads reader)).get? key := by
  rw [Cell.answer, cell, Event.properties, Event.mappedContext, hsource]
  cases setting.event.mapped with
  | some held => rfl
  | none =>
    rw [Option.map_none, Option.getD_none, Option.getD_none, ContextSource.mapped]
    change (setting.threads reader).mapped.bind (·.get? key) = _
    cases (setting.threads reader).mapped with
    | none => rfl
    | some map => exact congrArg (·.get? key) map.getD_nonempty?.symm

/-- A change of a thread changes what that thread has for the key. -/
theorem cell_changed (thread : Nat) (change : Thread → Thread) :
    (setting.changed thread change).cell key =
      { setting.cell key with
        threads := Function.update (setting.cell key).threads thread
          ((change (setting.threads thread)).value? key) } := by
  have hthreads := Function.comp_update (fun thread : Thread => thread.value? key)
    setting.threads thread (change (setting.threads thread))
  exact congrArg (Cell.mk · _) hthreads

/-- A change of a thread that leaves what it has for the key leaves the cell. -/
theorem cell_changed_eq_self {thread : Nat} {change : Thread → Thread}
    (h : (change (setting.threads thread)).value? key = (setting.threads thread).value? key) :
    (setting.changed thread change).cell key = setting.cell key := by
  rw [cell_changed, h]
  exact congrArg (Cell.mk · _) (Function.update_eq_self thread (setting.cell key).threads)

/-- A deed does to the cell of each key what it does to that key, whatever there is of others. -/
theorem cell_step (hsource : setting.event.source = .thread) (deed : Deed) :
    (setting.step deed).cell key = (setting.cell key).step key deed := by
  cases deed with
  | put thread other value =>
    have hvalue := (setting.threads thread).value?_put other key value
    rw [step, Cell.step]
    split
    · next hkey => rw [cell_changed, hvalue, if_pos hkey]
    · next hkey => exact cell_changed_eq_self (hvalue.trans (if_neg hkey))
  | remove thread other =>
    have hvalue := (setting.threads thread).value?_remove other key
    rw [step, Cell.step]
    split
    · next hkey => rw [cell_changed, hvalue, if_pos hkey]
    · next hkey => exact cell_changed_eq_self (hvalue.trans (if_neg hkey))
  | clear thread => exact cell_changed thread _
  | visit thread access =>
    let visit : Visit := ⟨setting.threads thread, access⟩
    rw [step, Cell.step]
    split
    · next hslot =>
      have hmapped : (setting.event.visited visit).mapped =
          some (withEdits (setting.event.mappedContext visit.thread) access.edit?.toList) :=
        Event.mapped_visited_of_mem hslot
      have hanswer : (setting.cell key).answer thread =
          (setting.event.properties visit.thread).get? key := answer_cell hsource thread
      rw [cell, hmapped, Option.map_some, get?_withEdits, hanswer]
      rfl
    · next hslot =>
      have hmapped : (setting.event.visited visit).mapped = setting.event.mapped :=
        Event.mapped_visited_of_notMem hslot
      rw [cell, hmapped]
      rfl

/-- No deed makes the event take its context from elsewhere. -/
theorem source_step (deed : Deed) : (setting.step deed).event.source = setting.event.source := by
  cases deed with
  | visit thread access => exact (setting.event.sameRequest_visited _).source
  | put | remove | clear => rfl

/-- A history does to the cell of each key what its deeds do to that key. -/
theorem cell_run (hsource : setting.event.source = .thread) (deeds : List Deed) :
    (setting.run deeds).cell key = (setting.cell key).run key deeds := by
  induction deeds generalizing setting with
  | nil => rfl
  | cons deed deeds ih =>
    have hnext := ih (source_step deed |>.trans hsource)
    rw [cell_step hsource] at hnext
    exact hnext

/-- No history makes the event take its context from elsewhere. -/
theorem source_run (deeds : List Deed) :
    (setting.run deeds).event.source = setting.event.source := by
  induction deeds generalizing setting with
  | nil => rfl
  | cons deed deeds ih => exact ih.trans (source_step deed)

/-! ## Absence -/

/-- A context is absent exactly if it was not edited and has nothing for any key. -/
def AbsentIfEmpty (edited : Bool) (context : Option ContextMap) : Prop :=
  context = none ↔ edited = false ∧ ∀ key, (context.getD .empty).get? key = none

/-- What is captured after some edits, or after none, tells absence from emptiness. -/
structure Kept (edited : Bool) (mapped : Option (Option ContextMap)) : Prop where
  /-- Who edits has a copy. -/
  captured : edited = true → mapped.isSome
  /-- A copy is absent only if it was not edited. -/
  absent : ∀ held ∈ mapped, AbsentIfEmpty edited held

/-- Where an event reads its context, an empty one counts as absent. -/
theorem absentIfEmpty_source (source : ContextSource) (thread : Thread) :
    AbsentIfEmpty false (source.mapped thread) := by
  have hbind (context : Option ContextMap) :
      AbsentIfEmpty false (context.bind SortedMap.nonempty?) := by
    cases context with
    | none => exact ⟨fun _ => ⟨rfl, fun _ => rfl⟩, fun _ => rfl⟩
    | some map =>
      rw [AbsentIfEmpty, Option.bind_some, SortedMap.getD_nonempty?, map.nonempty?_eq_none_iff]
      simp
  cases source with
  | thread => exact hbind thread.mapped
  | snapshot context => exact hbind context.mapped

/-- What an event shows tells absence from emptiness, captured or not. -/
theorem Kept.mappedContext {edited : Bool} {event : Event} (h : Kept edited event.mapped)
    (thread : Thread) : AbsentIfEmpty edited (event.mappedContext thread) := by
  rw [Event.mappedContext]
  cases hmapped : event.mapped with
  | some held => exact h.absent held hmapped
  | none =>
    have hunedited : edited = false := by
      rw [Bool.eq_false_iff]
      intro hedited
      simpa [hmapped] using h.captured hedited
    rw [hunedited]
    exact absentIfEmpty_source event.source thread

/-- A deed keeps absence apart from emptiness. -/
theorem Kept.step {edited : Bool} (h : Kept edited setting.event.mapped) (deed : Deed) :
    Kept (edited || deed.edit?.isSome) (setting.step deed).event.mapped := by
  cases deed with
  | put | remove | clear =>
    rw [Deed.edit?, Option.isSome_none, Bool.or_false]
    exact h
  | visit thread access =>
    let visit : Visit := ⟨setting.threads thread, access⟩
    change Kept (edited || access.edit?.isSome) (setting.event.visited visit).mapped
    by_cases hslot : .mapped ∈ visit.access.slots
    · rw [Event.mapped_visited_of_mem hslot]
      refine ⟨fun _ => rfl, ?_⟩
      rintro _ ⟨⟩
      -- Without an edit the copy is what was shown before; an edit makes one that is there.
      cases hedit : access.edit? with
      | none =>
        rw [Option.isSome_none, Bool.or_false]
        exact h.mappedContext visit.thread
      | some edit => simp [AbsentIfEmpty, withEdits]
    · have hedit : access.edit? = none := by
        have hedits := Event.edits_eq_nil hslot
        simpa [edits] using hedits
      rw [Event.mapped_visited_of_notMem hslot, hedit, Option.isSome_none, Bool.or_false]
      exact h

/-- A history keeps absence apart from emptiness. -/
theorem Kept.run {edited : Bool} (h : Kept edited setting.event.mapped) (deeds : List Deed) :
    Kept (edited || deeds.any (·.edit?.isSome)) (setting.run deeds).event.mapped := by
  induction deeds generalizing setting edited with
  | nil =>
    rw [List.any_nil, Bool.or_false]
    exact h
  | cons deed deeds ih =>
    rw [List.any_cons, ← Bool.or_assoc]
    exact ih (h.step deed)

/-- A history of an event that nothing was captured of leaves for each key what its deeds leave in
the cell of the key. What it leaves is absent exactly if there was no edit and all cells are left
empty. -/
theorem mappedContext_run (hsource : setting.event.source = .thread)
    (hfresh : setting.event.mapped = none) (deeds : List Deed) (reader : Nat) :
    let last := setting.run deeds
    (∀ key, (last.event.properties (last.threads reader)).get? key =
      ((setting.cell key).run key deeds).answer reader) ∧
    (last.event.mappedContext (last.threads reader) = none ↔
      (∀ deed ∈ deeds, deed.edit? = none) ∧
        ∀ key, ((setting.cell key).run key deeds).answer reader = none) := by
  intro last
  have hcells (key : String) : (last.event.properties (last.threads reader)).get? key =
      ((setting.cell key).run key deeds).answer reader := by
    rw [← cell_run hsource, answer_cell ((source_run deeds).trans hsource)]
  have hstart : Kept false setting.event.mapped := by
    rw [hfresh]
    exact ⟨by simp, by simp⟩
  have habsent := (hstart.run deeds).mappedContext (last.threads reader)
  refine ⟨hcells, ?_⟩
  rw [AbsentIfEmpty, ← Event.properties, Bool.false_or] at habsent
  simp only [← hcells]
  simpa using habsent

end Setting

end EventSnapshot
