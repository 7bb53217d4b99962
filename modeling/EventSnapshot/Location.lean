import EventSnapshot.Outline
import EventSnapshot.Stack

/-!
# Locations

The place in the code that asked for an event. It is found on the call stack as the caller of the
logging wrapper: the first symbol outward of all symbols in the wrapper's scope.
-/

namespace EventSnapshot

/-- What stands for a part of a location that is not known. -/
def unknownPart : String := "?"

/-- The place in the code that asked for an event. -/
structure Location where
  /-- The path of the enclosing type or module. -/
  className : String
  /-- The function. -/
  methodName : String
  /-- The file. -/
  fileName : String
  /-- The line within the file. -/
  lineNumber : String
  deriving DecidableEq

/-- What follows the last element that satisfies a condition, if any element does. -/
def afterLast {α : Type} (p : α → Bool) : List α → Option (List α)
  | [] => none
  | a :: rest =>
    match afterLast p rest with
    | some outward => some outward
    | none => if p a then some rest else none

namespace Location

/-- The location of which nothing is known. -/
def unknown : Location := ⟨unknownPart, unknownPart, unknownPart, unknownPart⟩

/-- Whether nothing is known of the location. -/
def isUnknown (location : Location) : Bool := location = unknown

/-- The mark of a closure at the end of a path, read backwards. -/
def closureMark : List Char := "::\x7b\x7bclosure\x7d\x7d".toList.reverse

/-- A backward path without the closure marks at its end. -/
def withoutClosures (path : List Char) : List Char :=
  match _h : stripStart? closureMark path with
  | some rest => withoutClosures rest
  | none => path
termination_by path.length
decreasing_by
  rw [eq_append_of_stripStart? _h, List.length_append]
  exact Nat.lt_add_of_pos_left (by decide)

/-- The parts of a list before and after its first double colon. -/
def splitAtColons : List Char → Option (List Char × List Char)
  | [] => none
  | ':' :: ':' :: rest => some ([], rest)
  | c :: rest => (splitAtColons rest).map fun parts => (c :: parts.1, parts.2)

/-- The location of a symbol. The path splits at its last double colon. -/
def ofSymbol (symbol : Symbol) : Location :=
  let backward := withoutClosures symbol.function.toList.reverse
  let (className, methodName) :=
    match splitAtColons backward with
    | some (method, scope) =>
      (String.ofList (scope.reverse.dropWhile (· = '<')), String.ofList method.reverse)
    | none => (unknownPart, String.ofList backward.reverse)
  { className
    methodName
    fileName := (symbol.file.bind Text.fileName?).getD unknownPart
    lineNumber := (symbol.line.map toString).getD unknownPart }

/-- The caller of the wrapper named `bound`, on the innermost part of the stack. -/
def capture (stack : Stack) (bound : Option String) : Location :=
  match bound with
  | none => unknown
  | some bound =>
    if bound = "" then unknown
    else
      match afterLast (Symbol.inScope bound) stack.visible with
      | some (caller :: _) => ofSymbol caller
      | _ => unknown

/-- The location on one line. -/
def fullInfo (location : Location) : String :=
  location.className ++ "." ++ location.methodName ++ "(" ++ location.fileName ++ ":" ++
    location.lineNumber ++ ")"

/-- The parts of a location, each with its name. -/
def parts (location : Location) : List (String × String) :=
  [("class_name", location.className), ("method_name", location.methodName),
    ("file_name", location.fileName), ("line_number", location.lineNumber)]

/-- The diagnostic form of a location. -/
def outline (location : Location) : Outline :=
  .fields "LocationInfo" (location.parts.map fun part => (part.1, .text part.2))

/-- The JSON object of a location. -/
def jsonText (location : Location) : String :=
  "\x7b" ++ String.intercalate "," (location.parts.map fun part =>
    Json.quoted part.1 ++ ":" ++ Json.quoted part.2) ++ "\x7d"

end Location

end EventSnapshot
