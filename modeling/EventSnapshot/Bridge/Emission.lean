import EventSnapshot.Event

/-!
# Emissions

What a program emits while it runs: a severity, a target and named values, inside some spans. An
emission becomes an event whose context is that of the emitting thread at that time, joined with the
spans around it and overlaid with the emission's own values.
-/

namespace EventSnapshot

/-- The value of an emitted field. -/
inductive FieldValue where
  /-- A text. -/
  | text (s : String)
  /-- A value that is known only by its diagnostic form. -/
  | shown (form : String)
  /-- A signed whole number. -/
  | int (n : Int64)
  /-- An unsigned whole number. -/
  | natural (n : UInt64)
  /-- A floating-point number, by its bits. -/
  | float (bits : UInt64)
  /-- A truth value. -/
  | bool (b : Bool)

/-- What a program emits. -/
structure Emission where
  /-- How severe it is. -/
  severity : Severity
  /-- The name under which it is emitted. -/
  target : String
  /-- The module that emits it. -/
  modulePath : Option String
  /-- The file that emits it. -/
  file : Option String
  /-- The line that emits it. -/
  line : Option Nat
  /-- The values, in the order they are recorded. -/
  fields : List (String × FieldValue)

/-- What is gathered from the fields of an emission. -/
structure Gathered where
  /-- The values by name. -/
  values : ContextMap
  /-- The message. -/
  message : Option String

/-- The name of the field that holds the message. -/
def messageField : String := "message"

namespace Gathered

/-- Gathers a text, which may be the message. -/
def recordText (gathered : Gathered) (name text : String) : Gathered :=
  if name = messageField then { gathered with message := some text }
  else { gathered with values := gathered.values.insert name (.ofString text) }

/-- Gathers a value that is no text. -/
def recordValue (gathered : Gathered) (name : String) (value : Value) : Gathered :=
  { gathered with values := gathered.values.insert name value }

/-- Gathers a field. -/
def record (gathered : Gathered) (name : String) : FieldValue → Gathered
  | .text s => gathered.recordText name s
  | .shown form => gathered.recordText name form
  | .int n => gathered.recordValue name (.ofNumber (.ofInt64 n))
  | .natural n => gathered.recordValue name (.ofNumber (.natural n))
  | .float bits => gathered.recordValue name (.ofFloatBits bits)
  | .bool b => gathered.recordValue name (.ofBool b)

/-- Gathers fields, the first first. -/
def recordAll (gathered : Gathered) (fields : List (String × FieldValue)) : Gathered :=
  fields.foldl (fun gathered field => gathered.record field.1 field.2) gathered

end Gathered

namespace Emission

/-- The place that the emission comes from. -/
def location (emission : Emission) : Location :=
  { className := emission.modulePath.getD unknownPart
    methodName := unknownPart
    fileName := (emission.file.bind Text.fileName?).getD unknownPart
    lineNumber := (emission.line.map toString).getD unknownPart }

/-- The nested context of a thread followed by the names of the spans, the outermost first. -/
def nested? (thread : Thread) (spans : List String) : Option String :=
  let texts := thread.nestedText?.toList ++ spans
  if texts.isEmpty then none else some (String.intercalate " " texts)

/-- The event of an emission, with everything captured on the emitting thread. -/
def toEvent (emission : Emission) (thread : Thread) (spans : List String) (timestamp : Int64) :
    Event :=
  let gathered := Gathered.recordAll
    ⟨(ContextSource.thread.mapped thread).getD .empty, none⟩ emission.fields
  (Event.ofParts {
    wrapper := none
    logger := none
    loggerName := some emission.target
    timestamp
    level := Level.ofSeverity emission.severity
    message := gathered.message.map .text
    threadName := none
    failure := none
    nested := nested? thread spans
    location := some emission.location
    properties := gathered.values.nonempty? }).prepare thread

end Emission

end EventSnapshot
