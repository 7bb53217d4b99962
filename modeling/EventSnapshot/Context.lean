import EventSnapshot.Json.Basic
import EventSnapshot.Stack

/-!
# Diagnostic context

What a thread knows about the work it does: a stack of texts, the nested context, and a map of
values, the mapped context. An event reads its context from the thread that asks, or from a
snapshot taken earlier.
-/

namespace EventSnapshot

/-- Mapped context: values by key. -/
abbrev ContextMap := SortedMap Value

/-- A thread, as far as an event can see it. -/
structure Thread where
  /-- Its name, if it has one. -/
  name : Option String
  /-- Its number in the process. -/
  number : Nat
  /-- The nested context, the outermost text first. -/
  nested : List String
  /-- The mapped context; absent until something is put into it. -/
  mapped : Option ContextMap
  /-- The call stack at the place that asks. -/
  stack : Stack

namespace Thread

/-- A thread that has no context yet. It is the first one of the process, unless it has another
number. -/
def new (name : Option String) (number : Nat := 1) : Thread := ⟨name, number, [], none, []⟩

/-- The name that events show; a thread without a name goes by its number. -/
def displayName (thread : Thread) : String :=
  thread.name.getD ("ThreadId(" ++ toString thread.number ++ ")")

/-- Adds a text to the nested context. -/
def push (thread : Thread) (text : String) : Thread :=
  { thread with nested := thread.nested ++ [text] }

/-- Takes the last text off the nested context. -/
def pop (thread : Thread) : Option String × Thread :=
  (thread.nested.getLast?, { thread with nested := thread.nested.dropLast })

/-- Empties the nested context. -/
def clearNested (thread : Thread) : Thread := { thread with nested := [] }

/-- The texts of the nested context with a space between each two, if there are any. -/
def nestedText? (thread : Thread) : Option String :=
  if thread.nested.isEmpty then none else some (String.intercalate " " thread.nested)

/-- Puts a value into the mapped context. -/
def put (thread : Thread) (key : String) (value : Value) : Thread :=
  { thread with mapped := some ((thread.mapped.getD .empty).insert key value) }

/-- The value of a key in the mapped context. -/
def value? (thread : Thread) (key : String) : Option Value :=
  thread.mapped.bind (·.get? key)

/-- Takes a value out of the mapped context, which stays even if it is empty afterwards. -/
def remove (thread : Thread) (key : String) : Option Value × Thread :=
  (thread.value? key, { thread with mapped := thread.mapped.map (·.erase key) })

/-- Drops the mapped context. -/
def clearMapped (thread : Thread) : Thread := { thread with mapped := none }

end Thread

/-- Diagnostic context as it was at some time. -/
structure ContextSnapshot where
  /-- The nested context on one line. -/
  nested : Option String
  /-- The mapped context. -/
  mapped : Option ContextMap

/-- The context of a thread as it is now. -/
def Thread.snapshot (thread : Thread) : ContextSnapshot :=
  ⟨thread.nestedText?, thread.mapped.bind SortedMap.nonempty?⟩

/-- Where an event reads its diagnostic context. -/
inductive ContextSource where
  /-- The thread that asks. -/
  | thread
  /-- A snapshot. -/
  | snapshot (context : ContextSnapshot)

namespace ContextSource

/-- The nested context on one line. -/
def nested (source : ContextSource) (thread : Thread) : Option String :=
  match source with
  | .thread => thread.nestedText?
  | .snapshot context => context.nested

/-- The mapped context, which counts as absent when it is empty. -/
def mapped (source : ContextSource) (thread : Thread) : Option ContextMap :=
  match source with
  | .thread => thread.mapped.bind SortedMap.nonempty?
  | .snapshot context => context.mapped.bind SortedMap.nonempty?

/-- One value of the mapped context. -/
def value? (source : ContextSource) (thread : Thread) (key : String) : Option Value :=
  match source with
  | .thread => thread.value? key
  | .snapshot context => context.mapped.bind (·.get? key)

end ContextSource

end EventSnapshot
