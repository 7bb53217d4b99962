import EventSnapshot.Text.Quoted

/-!
# Failures to rebuild a level

Why the name of a level type could not be turned into a level.
-/

namespace EventSnapshot

/-- Why the name of a level type could not be turned into a level. -/
inductive ResolveError where
  /-- No type of this name is registered. -/
  | unknownType (typeName : String)
  /-- The type is registered without a factory. -/
  | missingFactory (typeName : String)
  /-- The factory of the type gave no level. -/
  | factoryFailed (typeName reason : String)
  deriving DecidableEq

/-- The text of a failure. -/
def ResolveError.message : ResolveError → String
  | .unknownType typeName => "unknown level type " ++ Text.quoted typeName
  | .missingFactory typeName =>
    "level type " ++ Text.quoted typeName ++ " has no from-priority factory"
  | .factoryFailed typeName reason =>
    "level factory for " ++ Text.quoted typeName ++ " failed: " ++ reason

end EventSnapshot
