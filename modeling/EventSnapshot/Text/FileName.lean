/-!
# File names

The last part of a slash-separated path. Empty parts and the part `.` do not count, and the part
`..` names no file.
-/

namespace EventSnapshot.Text

/-- The parts of a path that are neither empty nor `.`. -/
def pathParts (path : List Char) : List (List Char) :=
  (path.splitOn '/').filter fun part => part ≠ [] && part ≠ ['.']

/-- The file that a path names, if it names one. -/
def fileName? (path : String) : Option String :=
  match (pathParts path.toList).getLast? with
  | some part => if part = ['.', '.'] then none else some (String.ofList part)
  | none => none

end EventSnapshot.Text
