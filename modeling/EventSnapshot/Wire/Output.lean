import EventSnapshot.Wire.Error

/-!
# Output

What is written is a list of pieces: bytes, or a length beyond the allowed maximum, which ends the
writing with an error. The room for the output may be limited; it is then filled to the last byte.
-/

namespace EventSnapshot.Wire

/-- A piece of output. -/
inductive Piece where
  /-- Some bytes. -/
  | bytes (bytes : ByteArray)
  /-- A length beyond the allowed maximum. -/
  | excess (length : Nat)

/-- How many of `count` more bytes fit after `used` bytes. -/
def fitting (room : Option Nat) (used count : Nat) : Nat :=
  match room with
  | none => count
  | some room => min count (room - used)

/-- Appends pieces to an output, up to the first that cannot be written. -/
def write (room : Option Nat) (out : ByteArray) : List Piece → ByteArray × Except WireError Unit
  | [] => (out, .ok ())
  | .excess length :: _ => (out, .error (.invalidLength length))
  | .bytes bytes :: pieces =>
    let fits := fitting room out.size bytes.size
    if fits = bytes.size then write room (out ++ bytes) pieces
    else (out ++ bytes.extract 0 fits, .error .noRoom)

end EventSnapshot.Wire
