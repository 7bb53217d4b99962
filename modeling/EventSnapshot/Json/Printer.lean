import EventSnapshot.Json.Basic
import EventSnapshot.Text.Quoted

/-!
# Writing JSON

The compact text of a value. Only quotes, backslashes and control characters are escaped.
-/

namespace EventSnapshot

namespace Json

/-- The spelling of one character inside a JSON string. -/
def escaped (c : Char) : String :=
  if c = '"' then "\\\""
  else if c = '\\' then "\\\\"
  else if c = '\x08' then "\\b"
  else if c = '\x0c' then "\\f"
  else if c = '\n' then "\\n"
  else if c = '\r' then "\\r"
  else if c = '\t' then "\\t"
  else if c.toNat < 0x20 then "\\u" ++ Text.hexadecimalFilled 4 c.toNat
  else c.toString

/-- Whether a character stands for itself inside a JSON string. -/
def isPlain (c : Char) : Bool :=
  0x20 ≤ c.toNat && c ≠ '"' && c ≠ '\\'

/-- A text as a JSON string, appended to `out`. -/
def writeString (out text : String) : String :=
  (text.foldl (fun out c => if isPlain c then out.push c else out ++ escaped c)
    (out.push '"')).push '"'

mutual

/-- The text of a value, appended to `out`. -/
def write (out : String) : Json → String
  | .null => out ++ "null"
  | .bool b => out ++ if b then "true" else "false"
  | .number n => out ++ String.ofList n.text
  | .string s => writeString out s
  | .array items => (writeItems (out.push '[') true items).push ']'
  | .object members => (writeMembers (out.push '\x7b') true members).push '\x7d'

/-- The texts of some items, with a comma before each but the `first` of the array. -/
def writeItems (out : String) (first : Bool) : List Json → String
  | [] => out
  | item :: items => writeItems (write (if first then out else out.push ',') item) false items

/-- The texts of some members, with a comma before each but the `first` of the object. -/
def writeMembers (out : String) (first : Bool) : List (String × Json) → String
  | [] => out
  | (key, value) :: members =>
    let out := writeString (if first then out else out.push ',') key
    writeMembers (write (out.push ':') value) false members

end

/-- A text as a JSON string. -/
def quoted (text : String) : String := writeString "" text

end Json

/-- The text of a value. -/
def Value.text (value : Value) : String := value.json.write ""

end EventSnapshot
