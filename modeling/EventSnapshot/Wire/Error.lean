import EventSnapshot.Json.Parser

/-!
# Errors of the written form

Why bytes are no record, or a record cannot be written.
-/

namespace EventSnapshot

/-- Why bytes are no record, or a record cannot be written. -/
inductive WireError where
  /-- The bytes end before the record does. -/
  | endOfInput
  /-- There is no room for the rest of the record. -/
  | noRoom
  /-- The first two bytes do not mark a record. -/
  | badMagic (found : UInt16)
  /-- The record was written under another name. -/
  | producerMismatch (expected found : String)
  /-- The version is not one that is understood. -/
  | unsupportedVersion (found : UInt16)
  /-- The layout is another one. -/
  | streamMismatch (found : Int64)
  /-- A text is not well-formed UTF-8. -/
  | invalidText
  /-- A length or a count is out of bounds. -/
  | invalidLength (length : Int)
  /-- A marker is neither of the two that exist, or marks a text as absent that must be there. -/
  | invalidMarker (marker : UInt8)
  /-- The text of a value is no JSON. -/
  | invalidValue (fault : Json.Fault)
  deriving DecidableEq

/-- The text of an error. -/
def WireError.message : WireError → String
  | .endOfInput => "i/o error: failed to fill whole buffer"
  | .noRoom => "i/o error: failed to write whole buffer"
  | .badMagic found =>
    "bad magic 0x" ++ Text.hexadecimalFilled 4 found.toNat ++ ", not an encoded log event"
  | .producerMismatch expected found =>
    "producer mismatch: expected " ++ Text.quoted expected ++ ", found " ++ Text.quoted found
  | .unsupportedVersion found => "unsupported wire version " ++ toString found.toNat
  | .streamMismatch found => "stream uid mismatch: " ++ toString found.toInt
  | .invalidText => "invalid utf-8 in string field"
  | .invalidLength length => "length " ++ toString length ++ " exceeds the allowed maximum"
  | .invalidMarker marker => "invalid marker byte " ++ toString marker.toNat
  | .invalidValue .truncated => "invalid context value: the text ends too early"
  | .invalidValue .malformed => "invalid context value: the text is malformed"

end EventSnapshot
