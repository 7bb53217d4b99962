import EventSnapshot.Location

/-!
# Failures

The textual report of a failure: its message, a line for each cause, and the call stack from the
first frame outside the library.
-/

namespace EventSnapshot

/-- The report of a failure, by lines. -/
structure Failure where
  /-- The lines. -/
  lines : List String
  deriving DecidableEq

/-- The paths under which the library's own frames, and the core calls among them, appear. -/
def libraryPaths : List String := ["core", "log_event_snapshot"]

/-- Whether a symbol belongs to the library's own part of a stack. -/
def Symbol.isLibrary (symbol : Symbol) : Bool :=
  libraryPaths.any fun path => (stripStart? (path ++ "::").toList symbol.path).isSome

namespace Failure

/-- The report of a failure with a message and its chain of causes, made at some point of the
program. -/
def report (message : String) (causes : List String) (stack : Stack) : Failure :=
  ⟨message :: causes.map ("Caused by: " ++ ·) ++
    (stack.visible.dropWhile Symbol.isLibrary).map Symbol.reportLine⟩

/-- The first line, which is the failure's own message. -/
def summary? (failure : Failure) : Option String := failure.lines.head?

/-- The diagnostic form of a report. -/
def outline (failure : Failure) : Outline :=
  .fields "ThrowableInfo" [("rep", .list "" (failure.lines.map .text))]

/-- The JSON object of a report. -/
def jsonText (failure : Failure) : String :=
  "\x7b\"rep\":[" ++ String.intercalate "," (failure.lines.map Json.quoted) ++ "]\x7d"

end Failure

end EventSnapshot
