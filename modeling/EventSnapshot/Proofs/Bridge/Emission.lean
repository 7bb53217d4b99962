import EventSnapshot.Proofs.Bridge.Fields
import EventSnapshot.Proofs.Event.Independence

/-!
# What the event of an emission shows

The event of an emission is complete when it leaves the thread that emits. It shows the target, the
severity and the message of the emission, the name of the emitting thread, the nested context of
that thread followed by the spans around the emission, and its mapped context overlaid with the
other fields. Nothing is left to be captured, so no other thread can show through, and the emitting
one not as it is later.
-/

namespace EventSnapshot

/-! ## Nested context -/

/-- Texts with a space between each two can be joined again with others. -/
theorem intercalate_intercalate {texts : List String} (h : texts ≠ []) (more : List String) :
    String.intercalate " " (String.intercalate " " texts :: more) =
      String.intercalate " " (texts ++ more) := by
  by_cases hmore : more = []
  · rw [hmore, List.append_nil, String.intercalate_singleton]
  · rw [String.intercalate_cons_of_ne_nil hmore, String.intercalate_append_of_ne_nil h hmore]

/-- The nested context of an emission is that of the thread, text by text, and then the spans. -/
theorem Emission.nested?_eq (thread : Thread) (spans : List String) :
    nested? thread spans =
      if thread.nested ++ spans = [] then none
      else some (String.intercalate " " (thread.nested ++ spans)) := by
  rw [nested?, Thread.nestedText?]
  by_cases hnested : thread.nested = []
  · simp [hnested]
  · simp [hnested, intercalate_intercalate]

/-! ## Events of emissions -/

/-- What an event shows of an emission in some spans, whichever thread reads it and whatever has
become of the threads by then: the emission, and the emitting thread as it was. -/
structure Event.Depicts (event : Event) (thread : Thread) (spans : List String)
    (emission : Emission) : Prop where
  /-- The logger is named after the target. -/
  loggerName_eq : event.loggerName = some emission.target
  /-- The level is that of the severity. -/
  level_eq : event.level = Level.ofSeverity emission.severity
  /-- The message is the last one of the fields. -/
  message_eq : event.renderedMessage = (messageTexts emission.fields).getLast?
  /-- The thread is the one that emitted. -/
  threadName_eq : ∀ reader, event.threadName reader = thread.displayName
  /-- The nested context is that of the thread, followed by the spans, the outermost first. -/
  nested_eq : ∀ reader, event.nestedContext reader =
    if thread.nested ++ spans = [] then none
    else some (String.intercalate " " (thread.nested ++ spans))
  /-- The mapped context is that of the thread, overlaid with the other fields. Of equal names the
  last counts, and an empty one is absent. -/
  mapped_eq : ∃ map : ContextMap,
    (∀ key, map.get? key =
      ((contextValues emission.fields).reverse.lookup key).or (thread.value? key)) ∧
    ∀ reader, event.mappedContext reader = map.nonempty? ∧ event.properties reader = map

namespace Emission

variable (emission : Emission) (thread : Thread) (spans : List String) (timestamp : Int64)

/-- All of the event of an emission is captured. -/
theorem captured_toEvent (slot : Slot) :
    (emission.toEvent thread spans timestamp).captured slot := by
  by_cases hslot : slot = .location
  · subst hslot
    rfl
  · exact Event.captured_prepare _ thread hslot

/-- Reads leave the event of an emission as it is. -/
theorem after_toEvent {visits : List Visit} (hreads : ∀ visit ∈ visits, visit.access.isRead) :
    (emission.toEvent thread spans timestamp).after visits =
      emission.toEvent thread spans timestamp := by
  apply Event.after_eq_of_reads
  intro visit hvisit
  exact ⟨hreads visit hvisit, fun slot _ => emission.captured_toEvent thread spans timestamp slot⟩

/-- A thread has the same values in its mapped context, whether an empty one counts as absent or
not. -/
theorem get?_mapped (key : String) :
    ((ContextSource.thread.mapped thread).getD .empty).get? key = thread.value? key := by
  rw [ContextSource.mapped, Thread.value?]
  cases thread.mapped with
  | none => rfl
  | some map => rw [Option.bind_some, SortedMap.getD_nonempty?, Option.bind_some]

/-- The event of an emission shows the emission, and the emitting thread as it was. -/
theorem depicts_toEvent (h : MessagesAreTexts emission.fields) :
    (emission.toEvent thread spans timestamp).Depicts thread spans emission := by
  let gathered := Gathered.recordAll ⟨(ContextSource.thread.mapped thread).getD .empty, none⟩
    emission.fields
  have hgathered : gathered = _ := Gathered.recordAll_eq h _
  have hmessage : (emission.toEvent thread spans timestamp).renderedMessage =
      (gathered.message.map Message.text).map (·.render none) := rfl
  have hmapped : ∀ reader, (emission.toEvent thread spans timestamp).mappedContext reader =
      gathered.values.nonempty? := fun _ => rfl
  constructor
  · rfl
  · rfl
  · rw [hmessage, hgathered, Option.or_none]
    cases (messageTexts emission.fields).getLast? with
    | none => rfl
    | some text => rfl
  · intro reader
    rfl
  · intro reader
    exact nested?_eq thread spans
  · refine ⟨gathered.values, ?_, ?_⟩
    · intro key
      rw [hgathered, SortedMap.get?_foldl_insert, get?_mapped]
    · intro reader
      rw [Event.properties, hmapped reader, SortedMap.getD_nonempty?]
      exact ⟨rfl, rfl⟩

end Emission

end EventSnapshot
