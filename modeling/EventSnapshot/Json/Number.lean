import EventSnapshot.Binary64.Shortest

/-!
# JSON numbers

A number is a whole number of 64 bits, without or with a minus sign, or a finite floating-point
number. The module gives the text of each and reads the parts of a written number: whole numbers
that fit stay whole, all others are computed in floating point with two roundings, one of the
digits and one of the power of ten.
-/

namespace EventSnapshot.Json

/-- A number. -/
inductive Number where
  /-- A whole number that is not negative. -/
  | natural (n : UInt64)
  /-- The whole number `-(n + 1)`. -/
  | negative (n : Fin 9223372036854775808)
  /-- A floating-point number. -/
  | real (x : Binary64)
  deriving DecidableEq

namespace Number

/-- The number of a signed whole number of 64 bits. -/
def ofInt64 (n : Int64) : Number :=
  if n < 0 then .negative (Fin.ofNat _ ((-n.toInt - 1).toNat)) else .natural n.toUInt64

/-- The digits of a decimal with the point at its place: `leading` is the exponent of the first
digit and lies between -5 and 15. -/
def positional (digits : List Char) (leading : Int) : List Char :=
  if leading < 0 then
    '0' :: '.' :: (List.replicate (-leading - 1).toNat '0' ++ digits)
  else
    let places := leading.toNat + 1
    let whole := digits.take places
    let fraction := digits.drop places
    whole ++ List.replicate (places - digits.length) '0' ++
      '.' :: (if fraction.isEmpty then ['0'] else fraction)

/-- The digits of a decimal with one digit before the point, and an exponent that always has a
sign. -/
def exponential (digits : List Char) (leading : Int) : List Char :=
  let fraction := digits.drop 1
  digits.take 1 ++ (if fraction.isEmpty then [] else '.' :: fraction) ++
    'e' :: (if leading < 0 then '-' else '+') :: Nat.toDigits 10 leading.natAbs

/-- The text of a floating-point number: the shortest digits that read back, positional for
exponents from -5 to 15, always with a point or an exponent. -/
def realText (x : Binary64) : List Char :=
  let sign := if x.negative then ['-'] else []
  if x.magnitude.val = 0 then sign ++ ['0', '.', '0']
  else
    let decimal := Binary64.shortest x.magnitude
    let digits := Nat.toDigits 10 decimal.digits
    let leading := decimal.exponent + digits.length - 1
    sign ++ if -5 ≤ leading ∧ leading < 16 then positional digits leading
      else exponential digits leading

/-- The text of a number. -/
def text : Number → List Char
  | .natural n => Nat.toDigits 10 n.toNat
  | .negative n => '-' :: Nat.toDigits 10 (n.val + 1)
  | .real x => realText x

/-- The parts of a written number. -/
structure Literal where
  /-- Whether it starts with a minus sign. -/
  negative : Bool
  /-- The digits before the point. -/
  whole : List Char
  /-- The digits after the point, if there is one. -/
  fraction : Option (List Char)
  /-- The exponent, if there is one. -/
  exponent : Option Int

/-- The value of a digit. -/
def digitValue (c : Char) : Nat := c.toNat - '0'.toNat

/-- The least number that does not fit in 64 bits. -/
def wordLimit : Nat := 18446744073709551616

/-- Appends digits to a significand as long as it fits in 64 bits, and returns the digits that are
left. -/
def gather (significand : Nat) : List Char → Nat × List Char
  | [] => (significand, [])
  | c :: rest =>
    let longer := significand * 10 + digitValue c
    if longer < wordLimit then gather longer rest else (significand, c :: rest)

/-- A power of ten in floating point. -/
def powerOfTen? (k : Nat) : Option (Fin binary64Limit) :=
  Binary64.nearest? (Nat.pow 10 k) 1

/-- The exponent of the greatest power of ten that is a finite number. -/
def topExponent : Nat := 308

/-- A bit pattern divided by the greatest power of ten a number of times and then by a last one. -/
def divideByPowers (x : Fin binary64Limit) (last : Nat) : Nat → Option (Fin binary64Limit)
  | 0 => (powerOfTen? last).bind (Binary64.div? x)
  | times + 1 =>
    if x.val = 0 then some x
    else do
      let power ← powerOfTen? topExponent
      let quotient ← Binary64.div? x power
      divideByPowers quotient last times

/-- A floating-point number times a power of ten, `none` beyond the finite numbers. -/
def timesPower? (x : Fin binary64Limit) (exponent : Int) : Option (Fin binary64Limit) :=
  if exponent < 0 then
    let times := (exponent.natAbs - 1) / topExponent
    divideByPowers x (exponent.natAbs - times * topExponent) times
  else if x.val = 0 then some x
  else if topExponent < exponent then none
  else (powerOfTen? exponent.natAbs).bind (Binary64.mul? x)

/-- A significand times a power of ten in floating point, `none` beyond the finite numbers. -/
def scaled? (significand : Nat) (exponent : Int) : Option (Fin binary64Limit) :=
  (Binary64.nearest? significand 1).bind (timesPower? · exponent)

/-- The number that a literal stands for, `none` beyond the finite numbers. Digits that no longer
fit count as zeros before the point and are left out after it. -/
def Literal.value? (literal : Literal) : Option Number :=
  let (whole, surplus) := gather 0 literal.whole
  let real (significand : Nat) (exponent : Int) : Option Number :=
    (scaled? significand exponent).map fun x => .real ⟨literal.negative, x⟩
  match literal.fraction, literal.exponent with
  | none, none =>
    if surplus ≠ [] then real whole surplus.length
    else if !literal.negative then some (.natural (UInt64.ofNat whole))
    else if h : 0 < whole ∧ whole ≤ 9223372036854775808 then some (.negative ⟨whole - 1, by omega⟩)
    else real whole 0
  | fraction, exponent =>
    let digits := fraction.getD []
    let (significand, cut) := gather whole digits
    real significand (surplus.length - (digits.length - cut.length : Nat) + exponent.getD 0)

end Number

end EventSnapshot.Json
