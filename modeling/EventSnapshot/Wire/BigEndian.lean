/-!
# Big-endian numbers

Whole numbers as byte strings of a fixed width, the most significant byte first.
-/

namespace EventSnapshot.Wire

/-- The low `width` bytes of a number, the most significant first. -/
def bigEndianList : Nat → Nat → List UInt8
  | 0, _ => []
  | width + 1, n => bigEndianList width (n / 256) ++ [UInt8.ofNat n]

/-- The low `width` bytes of a number, the most significant first. -/
def bigEndian (width n : Nat) : ByteArray := (bigEndianList width n).toByteArray

/-- The number that some bytes make, the most significant first. -/
def ofBigEndianList (bytes : List UInt8) : Nat :=
  bytes.foldl (fun n b => n * 256 + b.toNat) 0

/-- The number that some bytes make, the most significant first. -/
def ofBigEndian (bytes : ByteArray) : Nat := ofBigEndianList bytes.data.toList

end EventSnapshot.Wire
