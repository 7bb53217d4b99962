import EventSnapshot.Event
import EventSnapshot.Level.Resolver
import EventSnapshot.Wire.Record

/-!
# Writing and reading events

An event is written as a record after everything that depends on the thread has been captured. A
record is read as an event under the name of one producer, or of either. Levels are rebuilt only
after the whole record has been read, and whether that works does not decide whether the record is
accepted.
-/

namespace EventSnapshot

open Wire (Record)

/-- The record of an event as a thread sees it. The location is recorded only if it is captured. -/
def Event.record (event : Event) (thread : Thread) : Record String :=
  { wrapper := event.wrapper
    loggerName := event.loggerName
    timestamp := event.timestamp
    threadName := some (event.threadName thread)
    message := event.renderedMessage
    nested := event.nestedContext thread
    properties := (event.mappedContext thread).map fun map =>
      map.entries.map fun entry => (entry.1, entry.2.text)
    failure := event.failure.map (·.lines)
    location := event.location
    priority := event.level.priority
    typeName := event.level.typeName }

/-- The event that a record describes, with its level rebuilt. Of equal keys the last counts. -/
def Event.ofRecord (record : Record Value) (level : Level) : Event :=
  (Event.ofParts {
    wrapper := record.wrapper
    logger := none
    loggerName := record.loggerName
    timestamp := record.timestamp
    level
    message := none
    threadName := record.threadName
    failure := record.failure.map Failure.mk
    nested := record.nested
    location := record.location
    properties := record.properties.map SortedMap.ofList }).withRendered record.message

namespace Wire

/-- What comes of writing an event. -/
structure Written where
  /-- The output so far, whether or not the whole record is in it. -/
  output : ByteArray
  /-- Whether the whole record is in the output, and if not, why. -/
  result : Except WireError Unit
  /-- The event, with what the writing captured. -/
  event : Event
  /-- What was reported, in order. -/
  notices : List Notice

/-- Appends the record of an event to an output that may have limited room. -/
def writeEvent (producer : Producer) (room : Option Nat) (output : ByteArray) (event : Event)
    (thread : Thread) : Written :=
  let prepared := event.prepare thread
  let written := write room output ((prepared.record thread).pieces producer)
  ⟨written.1, written.2, prepared, event.renderNotices⟩

/-- The bytes of an event. -/
def encode (producer : Producer) (event : Event) (thread : Thread) : Except WireError ByteArray :=
  let written := writeEvent producer none .empty event thread
  written.result.map fun _ => written.output

/-- Reads the event at a position, and gives the position after it. -/
def readEvent {σ : Type} [Resolver σ] (producer : Producer) (source : σ) (bytes : ByteArray)
    (position : Nat) : Resolved σ (Except WireError (Event × Nat)) :=
  match (readRecord producer).run bytes position with
  | .error error => ⟨.error error, source, []⟩
  | .ok (record, position) =>
    let resolved := resolveLevel source record.priority record.typeName
    ⟨.ok (Event.ofRecord record resolved.value, position), resolved.source, resolved.notices⟩

/-- Reads the event that some bytes start with. -/
def decode {σ : Type} [Resolver σ] (producer : Producer) (source : σ) (bytes : ByteArray) :
    Resolved σ (Except WireError Event) :=
  let read := readEvent producer source bytes 0
  ⟨read.value.map (·.1), read.source, read.notices⟩

/-- The name of the producer of a record, without reading further. -/
def peekProducer (bytes : ByteArray) : Except WireError String := do
  let (name, _) ← readName.run bytes 0
  decodeText name

/-- Where the name of the producer starts. -/
def nameOffset : Nat := 4

/-- The bytes with the name `target` in the place of the name `source`, which they must have. -/
def substituteProducer (bytes : ByteArray) (source target : Producer) :
    Except WireError ByteArray := do
  let found ← peekProducer bytes
  if found ≠ source.name then .error (.producerMismatch source.name found)
  else
    let name := target.name.toUTF8
    .ok (bytes.extract 0 nameOffset ++ name ++
      bytes.extract (nameOffset + name.size) bytes.size)

/-- Reads the event that some bytes start with, under the name of either producer. A record of the
other one is read with the name put in its place. -/
def decodeCompatible {σ : Type} [Resolver σ] (producer : Producer) (source : σ)
    (bytes : ByteArray) : Resolved σ (Except WireError Event) :=
  match peekProducer bytes with
  | .error error => ⟨.error error, source, []⟩
  | .ok found =>
    match Producer.ofName? found with
    | none => ⟨.error (.producerMismatch producer.name found), source, []⟩
    | some other =>
      if other = producer then decode producer source bytes
      else
        match substituteProducer bytes other producer with
        | .error error => ⟨.error error, source, []⟩
        | .ok bytes =>
          let decoded := decode producer source bytes
          { decoded with
            notices := .producerAliased other.name producer.name :: decoded.notices }

/-- Reads events one after the other while there are bytes left. Each comes with the position after
it; an error ends the reading. The fuel bounds the number of events. -/
def readEvents {σ : Type} [Resolver σ] (producer : Producer) (bytes : ByteArray) :
    Nat → σ → Nat → Resolved σ (List (Event × Nat) × Option WireError)
  | 0, source, _ => ⟨([], none), source, []⟩
  | fuel + 1, source, position =>
    if bytes.size ≤ position then ⟨([], none), source, []⟩
    else
      let read := readEvent producer source bytes position
      match read.value with
      | .error error => ⟨([], some error), read.source, read.notices⟩
      | .ok (event, position) =>
        let more := readEvents producer bytes fuel read.source position
        ⟨((event, position) :: more.value.1, more.value.2), more.source,
          read.notices ++ more.notices⟩

/-- Reads all events of some bytes. -/
def readAll {σ : Type} [Resolver σ] (producer : Producer) (source : σ) (bytes : ByteArray) :
    Resolved σ (List (Event × Nat) × Option WireError) :=
  readEvents producer bytes bytes.size source 0

end Wire

end EventSnapshot
