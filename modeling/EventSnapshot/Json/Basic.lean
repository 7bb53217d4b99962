import EventSnapshot.Json.Number
import EventSnapshot.SortedMap

/-!
# JSON values

The values of mapped context. The members of an object are kept in ascending key order without
repetition, which `Json.Canonical` says of a tree and `Value` carries along.
-/

namespace EventSnapshot

open Json (Number)

/-- A JSON tree. -/
inductive Json where
  /-- The null value. -/
  | null
  /-- A truth value. -/
  | bool (b : Bool)
  /-- A number. -/
  | number (n : Number)
  /-- A text. -/
  | string (s : String)
  /-- A list of values. -/
  | array (items : List Json)
  /-- Values by key. -/
  | object (members : List (String × Json))
  deriving Inhabited

namespace Json

mutual

/-- The members of every object in a tree ascend by key. -/
def Canonical : Json → Prop
  | .array items => CanonicalItems items
  | .object members => KeysAscend members ∧ CanonicalMembers members
  | _ => True

/-- All trees of a list are canonical. -/
def CanonicalItems : List Json → Prop
  | [] => True
  | item :: items => Canonical item ∧ CanonicalItems items

/-- The values of all members are canonical. -/
def CanonicalMembers : List (String × Json) → Prop
  | [] => True
  | (_, value) :: members => Canonical value ∧ CanonicalMembers members

end

/-- A list of trees is canonical when each of them is. -/
theorem canonicalItems_iff {items : List Json} :
    CanonicalItems items ↔ ∀ item ∈ items, Canonical item := by
  induction items with
  | nil => simp [CanonicalItems]
  | cons item items ih => simp [CanonicalItems, ih]

/-- A list of members is canonical when each value is. -/
theorem canonicalMembers_iff {members : List (String × Json)} :
    CanonicalMembers members ↔ ∀ member ∈ members, Canonical member.2 := by
  induction members with
  | nil => simp [CanonicalMembers]
  | cons member members ih => simp [CanonicalMembers, ih]

/-- The object of a list of members; of equal keys the last counts. -/
def ofMembers (members : List (String × Json)) : Json :=
  .object (SortedMap.ofList members).entries

/-- The object of canonical members is canonical. -/
theorem canonical_ofMembers {members : List (String × Json)}
    (h : ∀ member ∈ members, Canonical member.2) : Canonical (ofMembers members) :=
  ⟨(SortedMap.ofList members).ascending,
    canonicalMembers_iff.mpr fun member hmember => h member (SortedMap.mem_of_mem_ofList hmember)⟩

end Json

/-- A value of mapped context: a canonical JSON tree. -/
structure Value where
  /-- The tree. -/
  json : Json
  /-- Its objects have their members in order. -/
  canonical : json.Canonical

namespace Value

/-- The null value. -/
def null : Value := ⟨.null, by simp [Json.Canonical]⟩

/-- A truth value. -/
def ofBool (b : Bool) : Value := ⟨.bool b, by simp [Json.Canonical]⟩

/-- A number. -/
def ofNumber (n : Number) : Value := ⟨.number n, by simp [Json.Canonical]⟩

/-- A text. -/
def ofString (s : String) : Value := ⟨.string s, by simp [Json.Canonical]⟩

/-- The floating-point number with the given bits; null if there is no such finite number. -/
def ofFloatBits (bits : UInt64) : Value :=
  match Binary64.ofBits? bits with
  | some x => ofNumber (.real x)
  | none => null

/-- A value in an array of its own. -/
def inArray (value : Value) : Value :=
  ⟨.array [value.json], by simpa [Json.Canonical, Json.CanonicalItems] using value.canonical⟩

/-- A value as the only member of an object. -/
def inObject (key : String) (value : Value) : Value :=
  ⟨.object [(key, value.json)], by
    simpa [Json.Canonical, Json.CanonicalMembers, KeysAscend] using value.canonical⟩

end Value

end EventSnapshot
