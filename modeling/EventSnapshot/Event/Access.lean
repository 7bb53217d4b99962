import EventSnapshot.Wire.Codec

/-!
# Accesses

What a program does with an event, one access at a time. Each access comes from some thread, as that
is at the time. It gives an answer, leaves the event with what it captured or changed, and may
report something.
-/

namespace EventSnapshot

/-- Something that a program does with an event. -/
inductive Access where
  /-- Reads the rendered message. -/
  | message
  /-- Reads the name of the thread. -/
  | threadName
  /-- Reads the nested context. -/
  | nested
  /-- Reads the mapped context, which may be absent. -/
  | mapped
  /-- Reads all properties. -/
  | properties
  /-- Reads the keys of all properties. -/
  | propertyKeys
  /-- Reads one value of the mapped context. -/
  | value (key : String)
  /-- Reads the text of one value of the mapped context. -/
  | property (key : String)
  /-- Reads the location. -/
  | location
  /-- Captures everything that depends on the thread, the location excepted. -/
  | prepare
  /-- Appends the record of the event to an output that may have limited room. -/
  | write (producer : Producer) (room : Option Nat) (output : ByteArray)
  /-- Replaces the level. -/
  | setLevel (level : Level)
  /-- Puts a value into the event's own copy of the mapped context. -/
  | setProperty (key : String) (value : Value)
  /-- Takes a value out of the event's own copy of the mapped context. -/
  | removeProperty (key : String)

/-- What an access gives. -/
inductive Answer where
  /-- Nothing. -/
  | nothing
  /-- A text that may be absent. -/
  | text (text : Option String)
  /-- The name of a thread. -/
  | name (name : String)
  /-- A mapped context that may be absent. -/
  | context (map : Option ContextMap)
  /-- Properties. -/
  | properties (map : ContextMap)
  /-- Keys of properties. -/
  | keys (keys : List String)
  /-- A value that may be absent. -/
  | value (value : Option Value)
  /-- A location. -/
  | location (location : Location)
  /-- The output so far, and whether the whole record is in it. -/
  | written (output : ByteArray) (result : Except WireError Unit)

/-- What comes of an access. -/
structure Reply where
  /-- What the access gives. -/
  answer : Answer
  /-- The event afterwards. -/
  event : Event
  /-- What was reported, in order. -/
  notices : List Notice

namespace Event

/-- What comes of an access of a thread to an event. -/
def serve (event : Event) (thread : Thread) : Access → Reply
  | .message => ⟨.text event.renderedMessage, event.captureRendered, event.renderNotices⟩
  | .threadName => ⟨.name (event.threadName thread), event.captureThreadName thread, []⟩
  | .nested => ⟨.text (event.nestedContext thread), event.captureNested thread, []⟩
  | .mapped => ⟨.context (event.mappedContext thread), event.captureMapped thread, []⟩
  | .properties => ⟨.properties (event.properties thread), event.captureMapped thread, []⟩
  | .propertyKeys => ⟨.keys (event.properties thread).keys, event.captureMapped thread, []⟩
  | .value key => ⟨.value (event.mappedValue? thread key), event, []⟩
  | .property key => ⟨.text (event.property? thread key), event, []⟩
  | .location => ⟨.location (event.locationInformation thread), event.captureLocation thread, []⟩
  | .prepare => ⟨.nothing, event.prepare thread, event.renderNotices⟩
  | .write producer room output =>
    let written := Wire.writeEvent producer room output event thread
    ⟨.written written.output written.result, written.event, written.notices⟩
  | .setLevel level => ⟨.nothing, event.setLevel level, []⟩
  | .setProperty key value => ⟨.nothing, event.setProperty thread key value, []⟩
  | .removeProperty key =>
    let (removed, event) := event.removeProperty thread key
    ⟨.value removed, event, []⟩

end Event

end EventSnapshot
