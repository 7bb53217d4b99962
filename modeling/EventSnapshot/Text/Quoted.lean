import EventSnapshot.Text.Printable

/-!
# Quoted texts

A text between double quotes in which every character that has no glyph, or would run into its
neighbour, is spelled as an escape. Diagnostic messages show names and values this way.
-/

namespace EventSnapshot.Text

/-- A number in lower-case hexadecimal, without leading zeros. -/
def hexadecimal (n : Nat) : String :=
  String.ofList (Nat.toDigits 16 n)

/-- A number in lower-case hexadecimal, filled up with zeros to at least `width` digits. -/
def hexadecimalFilled (width n : Nat) : String :=
  let digits := Nat.toDigits 16 n
  String.ofList (List.replicate (width - digits.length) '0' ++ digits)

/-- The spelling of one character inside a quoted text. -/
def escaped (c : Char) : String :=
  if c = '\x00' then "\\0"
  else if c = '\t' then "\\t"
  else if c = '\n' then "\\n"
  else if c = '\r' then "\\r"
  else if c = '"' then "\\\""
  else if c = '\\' then "\\\\"
  else if isExtender c || !isPrintable c then "\\u\x7b" ++ hexadecimal c.toNat ++ "\x7d"
  else c.toString

/-- A text between double quotes, escaped where needed. -/
def quoted (text : String) : String :=
  (text.foldl (fun out c => out ++ escaped c) "\"").push '"'

end EventSnapshot.Text
