import EventSnapshot.Text.FileName

/-!
# Call stacks

A call stack is a list of frames, innermost first, and each frame resolves to some symbols. A walk
visits a bounded number of frames and leaves out the symbols of the unwinder itself.
-/

namespace EventSnapshot

/-- What is left of a list after a given start, if it starts so. -/
def stripStart? {α : Type} [DecidableEq α] : List α → List α → Option (List α)
  | [], rest => some rest
  | _ :: _, [] => none
  | a :: start, b :: rest => if a = b then stripStart? start rest else none

/-- A list that starts as asked is that start and what is left. -/
theorem eq_append_of_stripStart? {α : Type} [DecidableEq α] {start whole rest : List α}
    (h : stripStart? start whole = some rest) : whole = start ++ rest := by
  induction start generalizing whole with
  | nil => simpa [stripStart?] using h
  | cons a start ih =>
    cases whole with
    | nil => simp [stripStart?] at h
    | cons b whole =>
      rw [stripStart?] at h
      split at h
      · next heq => rw [heq, ih h, List.cons_append]
      · cases h

/-- A named place in the program's code. -/
structure Symbol where
  /-- The path of the function. -/
  function : String
  /-- The file that holds it. -/
  file : Option String
  /-- The line within the file. -/
  line : Option Nat

namespace Symbol

/-- The path of the function without the angle brackets that open it. -/
def path (symbol : Symbol) : List Char :=
  symbol.function.toList.dropWhile (· = '<')

/-- Whether the function is `bound` or lies inside it. -/
def inScope (bound : String) (symbol : Symbol) : Bool :=
  match stripStart? bound.toList symbol.path with
  | none => false
  | some [] => true
  | some (c :: rest) => c = ' ' || c = '>' || (c = ':' && rest.head? = some ':')

/-- Whether the function belongs to the unwinder. -/
def isUnwinder (symbol : Symbol) : Bool :=
  (stripStart? "backtrace::".toList symbol.function.toList).isSome

/-- The line that shows the symbol in the report of a failure. -/
def reportLine (symbol : Symbol) : String :=
  "\tat " ++ symbol.function ++
    match symbol.file, symbol.line with
    | some file, some line => "(" ++ file ++ ":" ++ toString line ++ ")"
    | _, _ => "(Unknown Source)"

end Symbol

/-- One frame of a call stack: the symbols at its place, the innermost first. -/
abbrev Frame := List Symbol

/-- A call stack, the innermost frame first. -/
abbrev Stack := List Frame

/-- How many frames a walk visits. -/
def maxFrames : Nat := 256

/-- The symbols that a walk of the stack sees. -/
def Stack.visible (stack : Stack) : List Symbol :=
  (stack.take maxFrames).flatten.filter fun symbol => !symbol.isUnwinder

end EventSnapshot
