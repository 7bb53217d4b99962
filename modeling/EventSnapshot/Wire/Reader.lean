import EventSnapshot.Wire.BigEndian
import EventSnapshot.Wire.Error

/-!
# Readers

A reader is a tree of exact reads: it asks for a number of bytes and goes on according to what they
are, until it gives a value or an error. All that a reader can see of its input are the bytes that
it asks for, so what it does is settled by the bytes that it takes.
-/

namespace EventSnapshot.Wire

/-- A tree of exact reads. -/
inductive Reader (α : Type) where
  /-- Gives a value. -/
  | done (value : α)
  /-- Gives an error. -/
  | fail (error : WireError)
  /-- Takes the next `count` bytes. -/
  | take (count : Nat) (next : ByteArray → Reader α)

namespace Reader

variable {α β : Type}

/-- Goes on with another reader after the first. -/
def bind : Reader α → (α → Reader β) → Reader β
  | .done value, next => next value
  | .fail error, _ => .fail error
  | .take count rest, next => .take count fun bytes => (rest bytes).bind next

instance : Monad Reader where
  pure := .done
  bind := bind

/-- Reads `bytes` from a position on, and gives the value and the position after it. -/
def run : Reader α → ByteArray → Nat → Except WireError (α × Nat)
  | .done value, _, position => .ok (value, position)
  | .fail error, _, _ => .error error
  | .take count next, bytes, position =>
    if position + count ≤ bytes.size then
      (next (bytes.extract position (position + count))).run bytes (position + count)
    else .error .endOfInput

/-- Takes a number of bytes. -/
def bytes (count : Nat) : Reader ByteArray := .take count .done

/-- Takes a whole number of a given width. -/
def number (width : Nat) : Reader Nat := .take width fun bytes => .done (ofBigEndian bytes)

/-- Gives the value of an `Except`. -/
def ofExcept : Except WireError α → Reader α
  | .ok value => .done value
  | .error error => .fail error

/-- Reads with the same reader a number of times, after what was read `before`, the last first. -/
def timesAfter (reader : Reader α) : Nat → List α → Reader (List α)
  | 0, before => .done before.reverse
  | count + 1, before => reader.bind fun value => timesAfter reader count (value :: before)

/-- Reads with the same reader a number of times. -/
def times (count : Nat) (reader : Reader α) : Reader (List α) := timesAfter reader count []

end Reader

end EventSnapshot.Wire
