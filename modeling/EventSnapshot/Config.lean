import EventSnapshot.Level
import EventSnapshot.Text.Numeral

/-!
# Configuration

The settings of the bridge, and how they are taken from the environment. A variable that is unset,
is not text or does not hold a value of its type leaves the default in place; no variable has a say
in any setting but its own.
-/

namespace EventSnapshot

/-- The variables of a process, as bytes. -/
structure Environment where
  /-- The value of each variable that is set. -/
  values : SortedMap ByteArray

namespace Environment

/-- The environment without variables. -/
def empty : Environment := ⟨.empty⟩

/-- The text of a variable, if it is set and is text. -/
def text? (environment : Environment) (name : String) : Option String :=
  (environment.values.get? name).bind String.fromUTF8?

/-- The text of a variable, or a default. -/
def textOr (environment : Environment) (name default : String) : String :=
  (environment.text? name).getD default

/-- The value of a variable read without the blanks around it, or a default. -/
def parseOr {α : Type} (environment : Environment) (name : String) (read : String → Option α)
    (default : α) : α :=
  ((environment.text? name).bind fun text => read (Text.trim text)).getD default

end Environment

/-- The settings of the bridge. -/
structure Config where
  /-- How many events the channel holds. -/
  buffer : Nat
  /-- How many events make a full batch. -/
  batchSize : Nat
  /-- How many milliseconds a batch waits at most. -/
  flushMillis : Nat
  /-- Whether events are shown on the standard output too. -/
  stdout : Bool
  /-- The least severe level that is taken. -/
  maxLevel : Level

/-- A span of milliseconds as text: in the greatest unit of which it is not less than one. -/
def millisText (millis : Nat) : String :=
  if millis = 0 then "0ns"
  else if millis < 1000 then toString millis ++ "ms"
  else
    let digits := (toString (millis % 1000 + 1000)).toList.drop 1
    let fraction := (digits.reverse.dropWhile (· = '0')).reverse
    toString (millis / 1000) ++ (if fraction.isEmpty then "" else "." ++ String.ofList fraction) ++
      "s"

namespace Config

/-- The settings where nothing else is said. -/
def default : Config :=
  { buffer := 1024, batchSize := 128, flushMillis := 1000, stdout := true, maxLevel := .info }

/-- The settings that an environment asks for. -/
def ofEnvironment (environment : Environment) : Config :=
  { buffer := environment.parseOr "LOG_EVENT_CHANNEL_BUFFER" (Text.unsigned? Text.topWord)
      default.buffer
    batchSize := environment.parseOr "LOG_EVENT_BATCH_SIZE" (Text.unsigned? Text.topWord)
      default.batchSize
    flushMillis := environment.parseOr "LOG_EVENT_FLUSH_MS" (Text.unsigned? Text.topWord)
      default.flushMillis
    stdout := environment.parseOr "LOG_EVENT_STDOUT" Text.truth? default.stdout
    maxLevel :=
      (Level.ofName? (environment.textOr "LOG_EVENT_MAX_LEVEL" default.maxLevel.name)).getD
        default.maxLevel }

/-- The diagnostic form of the settings. -/
def outline (config : Config) : Outline :=
  .fields "LayerConfig" [
    ("channel_buffer", .int config.buffer),
    ("batch_size", .int config.batchSize),
    ("flush_interval", .atom (millisText config.flushMillis)),
    ("enable_stdout", .atom (toString config.stdout)),
    ("max_level", config.maxLevel.outline)]

end Config

end EventSnapshot
