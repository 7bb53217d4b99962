import EventSnapshot.Json.Printer

/-!
# Outlines

The diagnostic form of a value: named fields, tuples, lists and maps over atoms, shown on one line
or indented.
-/

namespace EventSnapshot

/-- The diagnostic form of a value. -/
inductive Outline where
  /-- A text that stands for itself. -/
  | atom (text : String)
  /-- A named group of fields. -/
  | fields (name : String) (items : List (String × Outline))
  /-- A named group of parts. -/
  | tuple (name : String) (items : List Outline)
  /-- A list, after some text that introduces it. -/
  | list (lead : String) (items : List Outline)
  /-- A map from quoted keys, after some text that introduces it. -/
  | map (lead : String) (items : List (String × Outline))
  deriving Inhabited

namespace Outline

/-- A quoted text. -/
def text (s : String) : Outline := .atom (Text.quoted s)

/-- A whole number. -/
def int (n : Int) : Outline := .atom (toString n)

/-- A value that may be absent. -/
def option {α : Type u} (outline : α → Outline) : Option α → Outline
  | none => .atom "None"
  | some a => .tuple "Some" [outline a]

/-- Some texts with a comma between each two. -/
def commas (texts : List String) : String := String.intercalate ", " texts

mutual

/-- The outline on one line. -/
def compact : Outline → String
  | .atom text => text
  | .fields name items => name ++ " \x7b " ++ commas (compactFields items) ++ " \x7d"
  | .tuple name items => name ++ "(" ++ commas (compactItems items) ++ ")"
  | .list lead items => lead ++ "[" ++ commas (compactItems items) ++ "]"
  | .map lead items => lead ++ "\x7b" ++ commas (compactFields items) ++ "\x7d"

/-- Each part on one line. -/
def compactItems : List Outline → List String
  | [] => []
  | item :: items => compact item :: compactItems items

/-- Each field or entry on one line, after its name or key. -/
def compactFields : List (String × Outline) → List String
  | [] => []
  | (key, item) :: items => (key ++ ": " ++ compact item) :: compactFields items

end

mutual

/-- The outline with each part on lines of its own, all but the first line behind `indent`. -/
def indented (indent : String) : Outline → String
  | .atom text => text
  | .fields name items =>
    name ++ " \x7b\n" ++ indentedFields (indent ++ "    ") items ++ indent ++ "\x7d"
  | .tuple name items =>
    name ++ "(\n" ++ indentedItems (indent ++ "    ") items ++ indent ++ ")"
  | .list lead [] => lead ++ "[]"
  | .list lead (item :: items) =>
    lead ++ "[\n" ++ indent ++ "    " ++ indented (indent ++ "    ") item ++ ",\n" ++
      indentedItems (indent ++ "    ") items ++ indent ++ "]"
  | .map lead [] => lead ++ "\x7b\x7d"
  | .map lead ((key, item) :: items) =>
    lead ++ "\x7b\n" ++ indent ++ "    " ++ key ++ ": " ++
      indented (indent ++ "    ") item ++ ",\n" ++
      indentedFields (indent ++ "    ") items ++ indent ++ "\x7d"

/-- The lines of some parts, each part ended by a comma. -/
def indentedItems (indent : String) : List Outline → String
  | [] => ""
  | item :: items => indent ++ indented indent item ++ ",\n" ++ indentedItems indent items

/-- The lines of some fields or entries, each ended by a comma. -/
def indentedFields (indent : String) : List (String × Outline) → String
  | [] => ""
  | (key, item) :: items =>
    indent ++ key ++ ": " ++ indented indent item ++ ",\n" ++ indentedFields indent items

end

/-- The outline with each part on lines of its own. -/
def pretty (outline : Outline) : String := indented "" outline

end Outline

mutual

/-- The outline of a JSON tree. -/
def Json.outline : Json → Outline
  | .null => .atom "Null"
  | .bool b => .atom (if b then "Bool(true)" else "Bool(false)")
  | .number n => .atom ("Number(" ++ String.ofList n.text ++ ")")
  | .string s => .atom ("String(" ++ Text.quoted s ++ ")")
  | .array items => .list "Array " (Json.outlineItems items)
  | .object members => .map "Object " (Json.outlineMembers members)

/-- The outlines of some trees. -/
def Json.outlineItems : List Json → List Outline
  | [] => []
  | item :: items => Json.outline item :: Json.outlineItems items

/-- The outlines of some members, each with its key. -/
def Json.outlineMembers : List (String × Json) → List (String × Outline)
  | [] => []
  | (key, value) :: members =>
    (Text.quoted key, Json.outline value) :: Json.outlineMembers members

end

end EventSnapshot
