import EventSnapshot.Binary64

/-!
# Shortest decimals

The decimal of fewest digits that rounds to a given floating-point number, and of those the one
nearest to it. The decimals with one digit, two digits and so on are tried in turn; on each grid
only the two neighbours of the number can be nearest.
-/

namespace EventSnapshot.Binary64

/-- A decimal number: some digits and the power of ten that they count. -/
structure Decimal where
  /-- The digits, read as a whole number. -/
  digits : Nat
  /-- The power of ten of the last digit. -/
  exponent : Int

/-- The exponent of the first digit of a positive number, `floor (log10 v)`. -/
def leadingExponent (pattern : Nat) : Int :=
  let whole := units pattern >>> 1074
  if 0 < whole then ((Nat.toDigits 10 whole).length : Int) - 1
  else
    match (List.range 325).find? fun j => 1 <<< 1074 ≤ units pattern * Nat.pow 10 j with
    | some j => -(j : Int)
    | none => -324

/-- The ends of the interval of numbers that round to a bit pattern, as multiples of
`2 ^ -1076`. The lower end is nearer where the exponent changes. -/
def roundingEnds (pattern : Nat) : Nat × Nat :=
  let centre := 4 * units pattern
  let gap := 1 <<< scale pattern
  let below := if pattern % binade = 0 ∧ binade < pattern then gap else 2 * gap
  (centre - below, centre + 2 * gap)

/-- Whether `digits` times a power of ten, given as a fraction, rounds to the bit pattern. The
ends of the interval count if the significand is even. -/
def roundsBack (pattern digits tenUp tenDown : Nat) : Bool :=
  let ends := roundingEnds pattern
  let point := (digits * tenUp) <<< 1076
  if significand pattern % 2 = 0 then ends.1 * tenDown ≤ point && point ≤ ends.2 * tenDown
  else ends.1 * tenDown < point && point < ends.2 * tenDown

/-- The nearest decimal of `length` digits that rounds to the bit pattern, if there is one; of two
that are equally near, the even one. -/
def decimalOfLength? (pattern : Nat) (leading : Int) (length : Nat) : Option Decimal :=
  let exponent := leading - length + 1
  let tenUp := Nat.pow 10 exponent.toNat
  let tenDown := Nat.pow 10 (-exponent).toNat
  let numerator := units pattern * tenDown
  let denominator := tenUp <<< 1074
  let below := numerator / denominator
  let near := roundHalfEven numerator denominator
  let far := if near = below then below + 1 else below
  if roundsBack pattern near tenUp tenDown then some ⟨near, exponent⟩
  else if roundsBack pattern far tenUp tenDown then some ⟨far, exponent⟩
  else none

/-- The same decimal without zeros after its last other digit. -/
def Decimal.withoutZeros (decimal : Decimal) : Decimal :=
  let zeros := ((Nat.toDigits 10 decimal.digits).reverse.takeWhile (· = '0')).length
  ⟨decimal.digits / Nat.pow 10 zeros, decimal.exponent + zeros⟩

/-- The shortest decimal that rounds to a positive bit pattern. -/
def shortest (pattern : Nat) : Decimal :=
  let leading := leadingExponent pattern
  match (List.range 17).findSome? fun n => decimalOfLength? pattern leading (n + 1) with
  | some decimal => decimal.withoutZeros
  | none => ⟨0, 0⟩

end EventSnapshot.Binary64
