import EventSnapshot.Notice

/-!
# Messages

The message of an event as the program supplied it: a text, or an object that knows how to display
itself. Rendering gives a text in every case; an object that cannot be rendered is replaced by a
placeholder that names its type.
-/

namespace EventSnapshot

/-- What comes of asking an object, or a renderer, for a text. -/
inductive Display where
  /-- A text. -/
  | text (text : String)
  /-- A failure, after some part of the text was written. -/
  | failed (written : String)
  /-- A breakdown, after some part of the text was written. -/
  | crashed (written : String)

/-- A message that is not a text. -/
structure MessageObject where
  /-- The name of its type. -/
  typeName : String
  /-- How it displays itself. -/
  display : Display

/-- Renders message objects in a way of its own; `none` if it breaks down. -/
abbrev Renderer := MessageObject → Option String

/-- The message of an event as the program supplied it. -/
inductive Message where
  /-- A text. -/
  | text (text : String)
  /-- An object. -/
  | object (object : MessageObject)

namespace MessageObject

/-- The text of an object, by the renderer if there is one. Failures and breakdowns give none. -/
def text? (object : MessageObject) : Option Renderer → Option String
  | some renderer => renderer object
  | none =>
    match object.display with
    | .text text => some text
    | .failed _ => none
    | .crashed _ => none

/-- What stands for an object that cannot be rendered. -/
def placeholder (object : MessageObject) : String :=
  "[" ++ object.typeName ++ ": message rendering failed]"

end MessageObject

namespace Message

/-- The text of a message that is a text. -/
def asText? : Message → Option String
  | .text s => some s
  | .object _ => none

/-- The text of a message. -/
def render (renderer : Option Renderer) : Message → String
  | .text s => s
  | .object o => (o.text? renderer).getD o.placeholder

/-- What rendering a message reports. -/
def renderNotices (renderer : Option Renderer) : Message → List Notice
  | .text _ => []
  | .object o => if (o.text? renderer).isSome then [] else [.renderingFailed o.typeName]

/-- The type that the diagnostic form of a message gives for every object. -/
def sharedObjectType : String :=
  "alloc::sync::Arc<dyn log_event_snapshot::message::MessageObject>"

/-- The diagnostic form of a message. -/
def outline : Message → Outline
  | .text s => .tuple "Text" [.text s]
  | .object _ => .tuple "Object" [.text sharedObjectType]

end Message

/-- The logger that asked for an event. -/
structure Logger where
  /-- Its name. -/
  name : String
  /-- Its renderer of message objects, if it has one. -/
  renderer : Option Renderer

end EventSnapshot
