import EventSnapshot.Context
import EventSnapshot.Failure
import EventSnapshot.Message

/-!
# Events

The snapshot of one logging request. The request itself is fixed when the event is made. The
rendered message, the thread name, the nested and the mapped context and the location are captured
when they are first asked for, on the thread that asks, and stay as captured from then on. For each
of these slots there is a function that reads it, captured or not, and one that captures it.
-/

namespace EventSnapshot

/-- The snapshot of one logging request. -/
structure Event where
  /-- The path of the logging wrapper, outward of which the location lies. -/
  wrapper : Option String
  /-- The logger that asked, if it is known here. -/
  logger : Option Logger
  /-- The name of the logger. -/
  loggerName : Option String
  /-- The severity. -/
  level : Level
  /-- Milliseconds since 1970. -/
  timestamp : Int64
  /-- The message as supplied, if it is known here. -/
  message : Option Message
  /-- The failure that came with the request. -/
  failure : Option Failure
  /-- Where the diagnostic context is read. -/
  source : ContextSource
  /-- The rendered message, once captured. -/
  rendered : Option (Option String)
  /-- The name of the thread, once captured. -/
  thread : Option String
  /-- The nested context, once captured. -/
  nested : Option (Option String)
  /-- The mapped context, once captured. -/
  mapped : Option (Option ContextMap)
  /-- The location, once captured. -/
  location : Option Location

/-- What is known of a request whose context was captured elsewhere. -/
structure EventParts where
  /-- The path of the logging wrapper. -/
  wrapper : Option String
  /-- The logger that asked. -/
  logger : Option Logger
  /-- The name of the logger, if not that of `logger`. -/
  loggerName : Option String
  /-- Milliseconds since 1970. -/
  timestamp : Int64
  /-- The severity. -/
  level : Level
  /-- The message as supplied. -/
  message : Option Message
  /-- The name of the thread, if it is known. -/
  threadName : Option String
  /-- The failure that came with the request. -/
  failure : Option Failure
  /-- The nested context. -/
  nested : Option String
  /-- The location, if it is known. -/
  location : Option Location
  /-- The mapped context. -/
  properties : Option ContextMap

namespace Event

/-- An event of which nothing is captured yet. -/
def new (wrapper : Option String) (logger : Option Logger) (timestamp : Int64) (level : Level)
    (message : Option Message) (failure : Option Failure) : Event :=
  { wrapper, logger, loggerName := logger.map (·.name), level, timestamp, message, failure
    source := .thread, rendered := none, thread := none, nested := none, mapped := none
    location := none }

/-- An event whose context was captured elsewhere, absent parts included. Only the message, and the
name of the thread if it is not known, are left to be captured. -/
def ofParts (parts : EventParts) : Event :=
  { wrapper := parts.wrapper
    logger := parts.logger
    loggerName := parts.loggerName.or (parts.logger.map (·.name))
    level := parts.level
    timestamp := parts.timestamp
    message := parts.message
    failure := parts.failure
    source := .thread
    rendered := none
    thread := parts.threadName
    nested := some parts.nested
    mapped := some parts.properties
    location := some (parts.location.getD .unknown) }

/-- The event with its diagnostic context read from a snapshot. -/
def withContext (event : Event) (context : ContextSnapshot) : Event :=
  { event with source := .snapshot context }

/-- The event with its message rendered already. -/
def withRendered (event : Event) (rendered : Option String) : Event :=
  { event with rendered := some rendered }

/-- The event with another level. -/
def setLevel (event : Event) (level : Level) : Event := { event with level }

/-- The renderer of the logger. -/
def renderer (event : Event) : Option Renderer := event.logger.bind (·.renderer)

/-- The text of the message. -/
def renderedMessage (event : Event) : Option String :=
  event.rendered.getD (event.message.map (·.render event.renderer))

/-- The event with its rendered message captured. -/
def captureRendered (event : Event) : Event :=
  { event with rendered := some event.renderedMessage }

/-- What reading the rendered message reports. -/
def renderNotices (event : Event) : List Notice :=
  match event.rendered, event.message with
  | none, some message => message.renderNotices event.renderer
  | _, _ => []

/-- The name of the thread. -/
def threadName (event : Event) (thread : Thread) : String :=
  event.thread.getD thread.displayName

/-- The event with the name of the thread captured. -/
def captureThreadName (event : Event) (thread : Thread) : Event :=
  { event with thread := some (event.threadName thread) }

/-- The nested context. -/
def nestedContext (event : Event) (thread : Thread) : Option String :=
  event.nested.getD (event.source.nested thread)

/-- The event with the nested context captured. -/
def captureNested (event : Event) (thread : Thread) : Event :=
  { event with nested := some (event.nestedContext thread) }

/-- The mapped context. -/
def mappedContext (event : Event) (thread : Thread) : Option ContextMap :=
  event.mapped.getD (event.source.mapped thread)

/-- The event with the mapped context captured. -/
def captureMapped (event : Event) (thread : Thread) : Event :=
  { event with mapped := some (event.mappedContext thread) }

/-- All properties: the mapped context, empty if it is absent. -/
def properties (event : Event) (thread : Thread) : ContextMap :=
  (event.mappedContext thread).getD .empty

/-- One value of the mapped context: of the captured one if that has the key, else of the source. -/
def mappedValue? (event : Event) (thread : Thread) (key : String) : Option Value :=
  match event.mapped.join.bind (·.get? key) with
  | some value => some value
  | none => event.source.value? thread key

/-- The text of one value of the mapped context; a text stands for itself. -/
def property? (event : Event) (thread : Thread) (key : String) : Option String :=
  (event.mappedValue? thread key).map fun value =>
    match value.json with
    | .string text => text
    | _ => value.text

/-- The event with a value in its own copy of the mapped context. -/
def setProperty (event : Event) (thread : Thread) (key : String) (value : Value) : Event :=
  { event with mapped := some (some ((event.properties thread).insert key value)) }

/-- Takes a value out of the event's own copy of the mapped context. -/
def removeProperty (event : Event) (thread : Thread) (key : String) : Option Value × Event :=
  let copy := event.properties thread
  (copy.get? key, { event with mapped := some (some (copy.erase key)) })

/-- The place that asked for the event. -/
def locationInformation (event : Event) (thread : Thread) : Location :=
  event.location.getD (Location.capture thread.stack event.wrapper)

/-- The event with the location captured. -/
def captureLocation (event : Event) (thread : Thread) : Event :=
  { event with location := some (event.locationInformation thread) }

/-- Whether the location is captured. -/
def hasLocation (event : Event) : Bool := event.location.isSome

/-- The event with everything captured that depends on the thread, the location excepted. Capturing
reports what rendering the message does. -/
def prepare (event : Event) (thread : Thread) : Event :=
  (((event.captureThreadName thread).captureRendered).captureNested thread).captureMapped thread

/-- The whole seconds and the milliseconds since 1970, `none` for years beyond 262142. -/
def time? (event : Event) : Option (Int × Int) :=
  let millis := event.timestamp.toInt
  if -8334601228800000 ≤ millis ∧ millis ≤ 8210266876799999 then
    some (millis.fdiv 1000, millis.fmod 1000)
  else none

/-- The diagnostic form of an event: what is captured, and nothing read for it. -/
def outline (event : Event) : Outline :=
  .fields "LogEvent" [
    ("fqn_of_category_class", .option .text event.wrapper),
    ("logger_name", .option .text event.loggerName),
    ("level", event.level.outline),
    ("timestamp", .int event.timestamp.toInt),
    ("message", .option Message.outline event.message),
    ("rendered_message", .option (.option .text) event.rendered),
    ("thread_name", .option .text event.thread),
    ("ndc", .option (.option .text) event.nested),
    ("mdc", .option (.option fun map => .map "" (map.entries.map fun entry =>
      (Text.quoted entry.1, entry.2.json.outline))) event.mapped),
    ("location", .option Location.outline event.location),
    ("throwable", .option Failure.outline event.failure)]

end Event

end EventSnapshot
