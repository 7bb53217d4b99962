/-!
# Finite binary floating-point numbers

The finite numbers of the 64-bit binary format, by their bits. Each is a whole multiple of
`2 ^ -1074`, so that sums of digits, products and quotients are exact fractions, rounded once by
`nearest?`. The number of a bit pattern grows with the pattern, which is why a rounded significand
may carry into the exponent.
-/

namespace EventSnapshot

/-- The first bit pattern, sign left out, that stands for no finite number. -/
def binary64Limit : Nat := 2047 <<< 52

/-- A finite number of the 64-bit binary format. -/
structure Binary64 where
  /-- Whether the sign bit is set. -/
  negative : Bool
  /-- The other 63 bits. -/
  magnitude : Fin binary64Limit
  deriving DecidableEq

namespace Binary64

/-- How many numbers share one exponent. -/
def binade : Nat := 1 <<< 52

/-- The significand of a bit pattern, with the leading one of a normal number. -/
def significand (pattern : Nat) : Nat :=
  if pattern < binade then pattern else binade + pattern % binade

/-- The exponent of a bit pattern, counted from the least one. -/
def scale (pattern : Nat) : Nat :=
  pattern / binade - 1

/-- The absolute value of a bit pattern as a multiple of `2 ^ -1074`. -/
def units (pattern : Nat) : Nat :=
  significand pattern <<< scale pattern

/-- The quotient rounded to the nearest whole number, a half to the even neighbour. -/
def roundHalfEven (numerator denominator : Nat) : Nat :=
  let quotient := numerator / denominator
  let remainder := numerator % denominator
  if 2 * remainder < denominator then quotient
  else if denominator < 2 * remainder then quotient + 1
  else quotient + quotient % 2

/-- The bit pattern nearest to a quotient, a half to the even neighbour; `none` beyond the finite
numbers. -/
def nearest? (numerator denominator : Nat) : Option (Fin binary64Limit) :=
  let numerator := numerator <<< 1074
  let exponent := Nat.log2 (numerator / denominator) - 52
  let pattern := exponent * binade + roundHalfEven numerator (denominator <<< exponent)
  if h : pattern < binary64Limit then some ⟨pattern, h⟩ else none

/-- The rounded product of two bit patterns. -/
def mul? (a b : Fin binary64Limit) : Option (Fin binary64Limit) :=
  nearest? (units a * units b) (1 <<< 2148)

/-- The rounded quotient of two bit patterns. -/
def div? (a b : Fin binary64Limit) : Option (Fin binary64Limit) :=
  nearest? (units a) (units b)

/-- The sign bit. -/
def signBit : Nat := 1 <<< 63

/-- The number with the given bits, `none` for the infinities and what is no number. -/
def ofBits? (bits : UInt64) : Option Binary64 :=
  let pattern := bits.toNat % signBit
  if h : pattern < binary64Limit then some ⟨signBit ≤ bits.toNat, ⟨pattern, h⟩⟩ else none

end Binary64

end EventSnapshot
