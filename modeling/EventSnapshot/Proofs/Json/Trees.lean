import EventSnapshot.Json.Basic
import EventSnapshot.Proofs.Json.Number
import EventSnapshot.Proofs.SortedMap

/-!
# Trees

What decides about the text of a tree that is read: how deep the tree nests, and what its numbers
are read as. Without floating-point numbers a tree is read as itself.
-/

namespace EventSnapshot.Json

/-- What holds of every leaf, and of a tree if it holds of its parts, holds of every tree. -/
theorem induction {motive : Json → Prop} (null : motive .null) (bool : ∀ b, motive (.bool b))
    (number : ∀ n, motive (.number n)) (string : ∀ s, motive (.string s))
    (array : ∀ items, (∀ item ∈ items, motive item) → motive (.array items))
    (object : ∀ members : List (String × Json),
      (∀ member ∈ members, motive member.2) → motive (.object members))
    (json : Json) : motive json := by
  refine @Json.rec motive (fun items => ∀ item ∈ items, motive item)
    (fun members => ∀ member ∈ members, motive member.2) (fun member => motive member.2)
    null bool number string array object ?_ ?_ ?_ ?_ ?_ json
  · simp
  · intro item items hitem hitems
    exact List.forall_mem_cons.mpr ⟨hitem, hitems⟩
  · simp
  · intro member members hmember hmembers
    exact List.forall_mem_cons.mpr ⟨hmember, hmembers⟩
  · exact fun _ _ hvalue => hvalue

mutual

/-- How deep arrays and objects nest in a tree. -/
def nesting : Json → Nat
  | .null => 0
  | .bool _ => 0
  | .number _ => 0
  | .string _ => 0
  | .array items => itemNesting items + 1
  | .object members => memberNesting members + 1

/-- How deep the deepest item nests. -/
def itemNesting : List Json → Nat
  | [] => 0
  | item :: items => max (nesting item) (itemNesting items)

/-- How deep the deepest member nests. -/
def memberNesting : List (String × Json) → Nat
  | [] => 0
  | (_, value) :: members => max (nesting value) (memberNesting members)

end

mutual

/-- The tree with the numbers that its texts are read as. -/
def reread : Json → Json
  | .null => .null
  | .bool b => .bool b
  | .number n => .number n.reread
  | .string s => .string s
  | .array items => .array (rereadItems items)
  | .object members => .object (rereadMembers members)

/-- All trees of a list with the numbers that their texts are read as. -/
def rereadItems : List Json → List Json
  | [] => []
  | item :: items => reread item :: rereadItems items

/-- The members with the numbers that their texts are read as. -/
def rereadMembers : List (String × Json) → List (String × Json)
  | [] => []
  | (key, value) :: members => (key, reread value) :: rereadMembers members

end

mutual

/-- No number in a tree is a floating-point number. -/
def Exact : Json → Prop
  | .null => True
  | .bool _ => True
  | .number n => ∀ x, n ≠ .real x
  | .string _ => True
  | .array items => ExactItems items
  | .object members => ExactMembers members

/-- No number in any tree of a list is a floating-point number. -/
def ExactItems : List Json → Prop
  | [] => True
  | item :: items => Exact item ∧ ExactItems items

/-- No number in the value of any member is a floating-point number. -/
def ExactMembers : List (String × Json) → Prop
  | [] => True
  | (_, value) :: members => Exact value ∧ ExactMembers members

end

section Lists

variable {items : List Json} {members : List (String × Json)}

/-- The nesting of a list is bounded if that of each item is. -/
theorem itemNesting_le_iff {depth : Nat} :
    itemNesting items ≤ depth ↔ ∀ item ∈ items, item.nesting ≤ depth := by
  induction items with
  | nil => simp [itemNesting]
  | cons item items ih => rw [itemNesting, Nat.max_le, ih, List.forall_mem_cons]

/-- The nesting of members is bounded if that of each value is. -/
theorem memberNesting_le_iff {depth : Nat} :
    memberNesting members ≤ depth ↔ ∀ member ∈ members, member.2.nesting ≤ depth := by
  induction members with
  | nil => simp [memberNesting]
  | cons member members ih => rw [memberNesting, Nat.max_le, ih, List.forall_mem_cons]

/-- The items are read one by one. -/
theorem rereadItems_eq_map : rereadItems items = items.map reread := by
  induction items with
  | nil => rfl
  | cons item items ih => rw [rereadItems, ih, List.map_cons]

/-- The values of members are read one by one, under the same keys. -/
theorem rereadMembers_eq_map :
    rereadMembers members = members.map fun member => (member.1, member.2.reread) := by
  induction members with
  | nil => rfl
  | cons member members ih => rw [rereadMembers, ih, List.map_cons]

/-- A list is free of floating-point numbers if each item is. -/
theorem exactItems_iff : ExactItems items ↔ ∀ item ∈ items, Exact item := by
  induction items with
  | nil => simp [ExactItems]
  | cons item items ih => rw [ExactItems, ih, List.forall_mem_cons]

/-- Members are free of floating-point numbers if each value is. -/
theorem exactMembers_iff : ExactMembers members ↔ ∀ member ∈ members, Exact member.2 := by
  induction members with
  | nil => simp [ExactMembers]
  | cons member members ih => rw [ExactMembers, ih, List.forall_mem_cons]

end Lists

/-- Without floating-point numbers, a tree is read as itself. -/
theorem reread_of_exact {json : Json} (h : Exact json) : json.reread = json := by
  induction json using Json.induction with
  | null | bool | string => simp [reread]
  | number n =>
    cases n with
    | natural n => rw [reread, Number.reread_natural]
    | negative n => rw [reread, Number.reread_negative]
    | real x => exact absurd rfl (h x)
  | array items ih =>
    rw [Exact, exactItems_iff] at h
    have hsame : ∀ item ∈ items, item.reread = item :=
      fun item hitem => ih item hitem (h item hitem)
    rw [reread, rereadItems_eq_map, List.map_congr_left hsame, List.map_id']
  | object members ih =>
    rw [Exact, exactMembers_iff] at h
    have hsame : ∀ member ∈ members, (member.1, member.2.reread) = member :=
      fun member hmember => Prod.ext rfl (ih member hmember (h member hmember))
    rw [reread, rereadMembers_eq_map, List.map_congr_left hsame, List.map_id']

/-- A tree with the numbers that its texts are read as is canonical if the tree is. -/
theorem canonical_reread {json : Json} (h : Canonical json) : Canonical json.reread := by
  induction json using Json.induction with
  | null | bool | number | string => simp [reread, Canonical]
  | array items ih =>
    rw [Canonical, canonicalItems_iff] at h
    rw [reread, Canonical, rereadItems_eq_map, canonicalItems_iff, List.forall_mem_map]
    exact fun item hitem => ih item hitem (h item hitem)
  | object members ih =>
    rw [Canonical, canonicalMembers_iff] at h
    rw [reread, Canonical, rereadMembers_eq_map, canonicalMembers_iff, List.forall_mem_map]
    exact ⟨List.pairwise_map.mpr h.1, fun member hmember => ih member hmember (h.2 member hmember)⟩

/-- Members in order make the object of just them. -/
theorem ofMembers_of_keysAscend {members : List (String × Json)} (h : KeysAscend members) :
    ofMembers members = .object members := by
  rw [ofMembers, SortedMap.ofList_entries ⟨members, h⟩]

end EventSnapshot.Json
