/-!
# Producers

The component that wrote a record names itself in it. Two names are known. They have the same
length, so that one can be put in the place of the other.
-/

namespace EventSnapshot

/-- A component that writes records. -/
inductive Producer where
  | legacy
  | current
  deriving DecidableEq

namespace Producer

/-- The name that a producer writes into its records. -/
def name : Producer → String
  | .legacy => "logsnap.spi.LoggingEvent"
  | .current => "logsnap.pattern.LogEvent"

/-- The producer of a name. -/
def ofName? (name : String) : Option Producer :=
  if name = legacy.name then some legacy
  else if name = current.name then some current
  else none

/-- The other producer. -/
def counterpart : Producer → Producer
  | .legacy => .current
  | .current => .legacy

/-- The diagnostic form of a producer. -/
def tag : Producer → String
  | .legacy => "Legacy"
  | .current => "Current"

end Producer

end EventSnapshot
