import EventSnapshot.Location
import EventSnapshot.Text.Lenient
import EventSnapshot.Wire.Output
import EventSnapshot.Wire.Producer
import EventSnapshot.Wire.Reader

/-!
# Records

The written form of an event. A record starts with a header: a magic number, the name of its
producer, a version and the identity of the layout. The fields follow in a fixed order. Texts and
the location are marked as present or absent, lists and maps are counted, and the values of mapped
context are JSON texts. All numbers are big-endian.
-/

namespace EventSnapshot.Wire

/-- What a record says of an event, with the values of mapped context in the form `V`. -/
structure Record (V : Type) where
  /-- The path of the logging wrapper. -/
  wrapper : Option String
  /-- The name of the logger. -/
  loggerName : Option String
  /-- Milliseconds since 1970. -/
  timestamp : Int64
  /-- The name of the thread. -/
  threadName : Option String
  /-- The rendered message. -/
  message : Option String
  /-- The nested context. -/
  nested : Option String
  /-- The entries of the mapped context. -/
  properties : Option (List (String × V))
  /-- The lines of the failure. -/
  failure : Option (List String)
  /-- The location. -/
  location : Option Location
  /-- The priority of the level. -/
  priority : Int32
  /-- The type of the level. -/
  typeName : Option String

/-- The first two bytes of a record, as a number. -/
def magic : Nat := 0x4c45

/-- The version of the layout. -/
def version : Nat := 1

/-- Identifies the layout. -/
def streamUid : Int64 := -868428216207166145

/-- The greatest length of a producer's name. -/
def maxNameLength : Nat := 256

/-- The greatest length of a text, in bytes. -/
def maxLength : Nat := 64 * 1024 * 1024

/-- The greatest number of entries or lines. -/
def maxEntries : Nat := 1024 * 1024

/-- The marker of an absent part. -/
def absent : UInt8 := 0

/-- The marker of a present part. -/
def present : UInt8 := 1

/-! ## Writing -/

/-- A marker. -/
def markerPiece (marker : UInt8) : Piece := .bytes ⟨#[marker]⟩

/-- A whole number of a given width. -/
def numberPiece (width n : Nat) : Piece := .bytes (bigEndian width n)

/-- A text that is present. -/
def textPieces (text : String) : List Piece :=
  if text.utf8ByteSize ≤ maxLength then
    [markerPiece present, numberPiece 4 text.utf8ByteSize, .bytes text.toUTF8]
  else [.excess text.utf8ByteSize]

/-- A text that may be absent. -/
def optionalTextPieces : Option String → List Piece
  | none => [markerPiece absent]
  | some text => textPieces text

/-- The count of a list that may be absent. -/
def countPiece (count : Nat) : Piece :=
  if count ≤ maxEntries then numberPiece 4 count else .excess count

/-- What is written in the place of the count of an absent list: -1 in 32 bits. -/
def absentCount : Nat := 0xffffffff

/-- A counted list that may be absent. -/
def countedPieces {α : Type} (item : α → List Piece) : Option (List α) → List Piece
  | none => [numberPiece 4 absentCount]
  | some items => countPiece items.length :: items.flatMap item

/-- An entry of the mapped context. -/
def entryPieces (entry : String × String) : List Piece :=
  textPieces entry.1 ++ textPieces entry.2

/-- A location that may be absent. -/
def locationPieces : Option Location → List Piece
  | none => [markerPiece absent]
  | some location =>
    markerPiece present :: location.parts.flatMap fun part => textPieces part.2

/-- The header of a record. -/
def headerPieces (producer : Producer) : List Piece :=
  [numberPiece 2 magic, numberPiece 2 producer.name.utf8ByteSize, .bytes producer.name.toUTF8,
    numberPiece 2 version, numberPiece 8 streamUid.toUInt64.toNat]

/-- The fields of a record. -/
def Record.fieldPieces (record : Record String) : List Piece :=
  optionalTextPieces record.wrapper ++
  optionalTextPieces record.loggerName ++
  [numberPiece 8 record.timestamp.toUInt64.toNat] ++
  optionalTextPieces record.threadName ++
  optionalTextPieces record.message ++
  optionalTextPieces record.nested ++
  countedPieces entryPieces record.properties ++
  countedPieces textPieces record.failure ++
  locationPieces record.location ++
  [numberPiece 4 record.priority.toUInt32.toNat] ++
  optionalTextPieces record.typeName

/-- A whole record. -/
def Record.pieces (producer : Producer) (record : Record String) : List Piece :=
  headerPieces producer ++ record.fieldPieces

/-! ## Reading -/

/-- Reads a marker: whether a part is present. -/
def readMarker : Reader Bool := do
  let marker ← Reader.number 1
  if marker = absent.toNat then .done false
  else if marker = present.toNat then .done true
  else .fail (.invalidMarker (UInt8.ofNat marker))

/-- Bytes as text. -/
def decodeText (bytes : ByteArray) : Except WireError String :=
  match String.fromUTF8? bytes with
  | some text => .ok text
  | none => .error .invalidText

/-- Reads a text that may be absent. -/
def readOptionalText : Reader (Option String) := do
  if ← readMarker then
    let length ← Reader.number 4
    if maxLength < length then .fail (.invalidLength length)
    else
      let text ← Reader.bytes length
      some <$> Reader.ofExcept (decodeText text)
  else return none

/-- Reads a text that must be present. -/
def readText : Reader String := do
  match ← readOptionalText with
  | some text => return text
  | none => .fail (.invalidMarker absent)

/-- Reads the count of a list that may be absent. -/
def readCount : Reader (Option Nat) := do
  let count := (UInt32.ofNat (← Reader.number 4)).toInt32.toInt
  if count = -1 then return none
  else if 0 ≤ count ∧ count ≤ maxEntries then return some count.toNat
  else .fail (.invalidLength count)

/-- Reads a counted list that may be absent. -/
def readCounted {α : Type} (item : Reader α) : Reader (Option (List α)) := do
  match ← readCount with
  | none => return none
  | some count => some <$> Reader.times count item

/-- The value of a JSON text. -/
def decodeValue (text : String) : Except WireError Value :=
  match Value.parse text with
  | .ok value => .ok value
  | .error fault => .error (.invalidValue fault)

/-- Reads an entry of the mapped context, whose value has a text that is decoded in some way. -/
def readEntry {V : Type} (decode : String → Except WireError V) : Reader (String × V) := do
  let key ← readText
  let text ← readText
  let value ← Reader.ofExcept (decode text)
  return (key, value)

/-- Reads a location that may be absent. -/
def readLocation : Reader (Option Location) := do
  if ← readMarker then
    let className ← readText
    let methodName ← readText
    let fileName ← readText
    let lineNumber ← readText
    return some ⟨className, methodName, fileName, lineNumber⟩
  else return none

/-- Reads the magic number and the bytes of the producer's name. -/
def readName : Reader ByteArray := do
  let found ← Reader.number 2
  if found ≠ magic then .fail (.badMagic (UInt16.ofNat found))
  else
    let length ← Reader.number 2
    if maxNameLength < length then .fail (.invalidLength length)
    else Reader.bytes length

/-- Reads the header of a record of the given producer. -/
def readHeader (producer : Producer) : Reader Unit := do
  let name ← readName
  if name.data ≠ producer.name.toUTF8.data then
    .fail (.producerMismatch producer.name (Text.lenient name))
  else
    let found ← Reader.number 2
    if found = 0 ∨ version < found then .fail (.unsupportedVersion (UInt16.ofNat found))
    else
      let uid := (UInt64.ofNat (← Reader.number 8)).toInt64
      if uid ≠ streamUid then .fail (.streamMismatch uid) else return ()

/-- Reads the fields of a record, with the values of mapped context decoded in some way. -/
def readFields {V : Type} (decode : String → Except WireError V) : Reader (Record V) := do
  let wrapper ← readOptionalText
  let loggerName ← readOptionalText
  let timestamp := (UInt64.ofNat (← Reader.number 8)).toInt64
  let threadName ← readOptionalText
  let message ← readOptionalText
  let nested ← readOptionalText
  let properties ← readCounted (readEntry decode)
  let failure ← readCounted readText
  let location ← readLocation
  let priority := (UInt32.ofNat (← Reader.number 4)).toInt32
  let typeName ← readOptionalText
  return { wrapper, loggerName, timestamp, threadName, message, nested, properties, failure
           location, priority, typeName }

/-- Reads a whole record of the given producer. -/
def readRecord (producer : Producer) : Reader (Record Value) := do
  readHeader producer
  readFields decodeValue

end EventSnapshot.Wire
