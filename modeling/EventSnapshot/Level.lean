import EventSnapshot.Outline
import EventSnapshot.Text.Blank

/-!
# Levels

The severity of an event: a priority, a name and the matching syslog severity. Eight levels are
built in; all others belong to a named type, which can rebuild them from their priority.
-/

namespace EventSnapshot

/-- The severity of an event. -/
structure Level where
  /-- Orders levels; greater is more severe. -/
  priority : Int32
  /-- The name that is shown. -/
  name : String
  /-- The matching syslog severity. -/
  syslog : Int32
  /-- The type that the level belongs to; built-in levels have none. -/
  typeName : Option String
  deriving DecidableEq

/-- The severities that emitted events come with. -/
inductive Severity where
  | error
  | warn
  | info
  | debug
  | trace
  deriving DecidableEq

/-- The name of a severity. -/
def Severity.name : Severity → String
  | .error => "ERROR"
  | .warn => "WARN"
  | .info => "INFO"
  | .debug => "DEBUG"
  | .trace => "TRACE"

namespace Level

/-- A built-in level. -/
def builtin (priority : Int32) (name : String) (syslog : Int32) : Level :=
  ⟨priority, name, syslog, none⟩

def off : Level := builtin 2147483647 "OFF" 0
def fatal : Level := builtin 50000 "FATAL" 0
def error : Level := builtin 40000 "ERROR" 3
def warn : Level := builtin 30000 "WARN" 4
def info : Level := builtin 20000 "INFO" 6
def debug : Level := builtin 10000 "DEBUG" 7
def trace : Level := builtin 5000 "TRACE" 7
def all : Level := builtin (-2147483648) "ALL" 7

/-- The built-in levels, the most severe first. -/
def builtins : List Level := [off, fatal, error, warn, info, debug, trace, all]

/-- A level of a named type. -/
def custom (typeName : String) (priority : Int32) (name : String) (syslog : Int32) : Level :=
  ⟨priority, name, syslog, some typeName⟩

/-- Whether the level belongs to no named type. -/
def isBuiltin (level : Level) : Bool := level.typeName.isNone

/-- Whether the level is at least as severe as another. -/
def atLeast (level other : Level) : Bool := other.priority ≤ level.priority

/-- The built-in level with exactly this priority. -/
def builtinAt? (priority : Int32) : Option Level :=
  builtins.find? fun level => level.priority = priority

/-- The most severe built-in level whose priority is not above the given one. -/
def nearestBuiltin (priority : Int32) : Level :=
  (builtins.find? fun level => level.priority ≤ priority).getD all

/-- The built-in level of a name, up to blanks around it and the case of ASCII letters. -/
def ofName? (name : String) : Option Level :=
  let wanted := (Text.trimmed name.toList).map Char.toUpper
  builtins.find? fun level => level.name.toList = wanted

/-- The built-in level of a severity. -/
def ofSeverity : Severity → Level
  | .error => error
  | .warn => warn
  | .info => info
  | .debug => debug
  | .trace => trace

/-- The diagnostic form of a level. -/
def outline (level : Level) : Outline :=
  .fields "Level" [
    ("priority", .int level.priority.toInt),
    ("name", .text level.name),
    ("syslog_equivalent", .int level.syslog.toInt),
    ("type_name", .option .text level.typeName)]

/-- The JSON object of a level; a built-in level has no type name in it. -/
def jsonText (level : Level) : String :=
  "\x7b\"priority\":" ++ toString level.priority.toInt ++
    ",\"name\":" ++ Json.quoted level.name ++
    ",\"syslog_equivalent\":" ++ toString level.syslog.toInt ++
    (match level.typeName with
      | some typeName => ",\"type_name\":" ++ Json.quoted typeName
      | none => "") ++ "\x7d"

end Level

end EventSnapshot
