import EventSnapshot.Level
import EventSnapshot.Level.Error

/-!
# Notices

What the library reports about its own work while it goes on: a level that had to be replaced, a
message that could not be rendered, a record of the other producer that was read under this one.
-/

namespace EventSnapshot

/-- A report of the library about its own work. -/
inductive Notice where
  /-- The level of a named type was replaced by a built-in one. -/
  | levelReplaced (typeName : String) (priority : Int32) (fallback : Level) (cause : ResolveError)
  /-- A message could not be rendered. -/
  | renderingFailed (messageType : String)
  /-- A record of one producer was read as one of the other. -/
  | producerAliased (found used : String)

namespace Notice

/-- How severe a notice is. -/
def severity : Notice → Severity
  | .levelReplaced .. => .warn
  | .renderingFailed .. => .warn
  | .producerAliased .. => .debug

/-- The named texts of a notice. -/
def fields : Notice → List (String × String)
  | .levelReplaced typeName priority fallback cause =>
    [("type_name", typeName), ("priority", toString priority.toInt), ("fallback", fallback.name),
      ("error", cause.message), ("message", "could not rebuild level, falling back to built-in")]
  | .renderingFailed messageType =>
    [("message_type", messageType), ("message", "message rendering failed")]
  | .producerAliased found used =>
    [("from", found), ("to", used), ("message", "decoding aliased producer stream")]

end Notice

end EventSnapshot
