import EventSnapshot.Text.Blank

/-!
# Reading settings from text

The scalar types that a setting may have, each with the texts that it accepts: decimal integers
with an optional sign, the two truth values, one single character, or any text.
-/

namespace EventSnapshot.Text

/-- The value of a string of decimal digits, `none` if it is empty or holds anything else. -/
def digits? (cs : List Char) : Option Nat :=
  if cs.isEmpty || !cs.all Char.isDigit then none
  else some (cs.foldl (fun n c => n * 10 + (c.toNat - '0'.toNat)) 0)

/-- An unsigned integer: decimal digits after an optional plus sign, at most `top`. -/
def unsigned? (top : Nat) (text : String) : Option Nat :=
  let digits := match text.toList with
    | '+' :: rest => digits? rest
    | cs => digits? cs
  digits.filter (· ≤ top)

/-- A signed integer: decimal digits after an optional sign, between `low` and `top`. -/
def signed? (low top : Int) (text : String) : Option Int :=
  let value := match text.toList with
    | '+' :: rest => (digits? rest).map fun n => (n : Int)
    | '-' :: rest => (digits? rest).map fun n => -(n : Int)
    | cs => (digits? cs).map fun n => (n : Int)
  value.filter fun n => low ≤ n && n ≤ top

/-- A truth value, spelled `true` or `false`. -/
def truth? (text : String) : Option Bool :=
  if text = "true" then some true else if text = "false" then some false else none

/-- A text that is one single character. -/
def character? (text : String) : Option Char :=
  match text.toList with
  | [c] => some c
  | _ => none

/-- The greatest unsigned integer of 64 bits. -/
def topWord : Nat := 18446744073709551615

end EventSnapshot.Text
