/-!
# Maps sorted by key

A finite map from texts, kept as the list of its entries in strictly ascending key order. The order
is the one of the code points, which is also the order of the UTF-8 bytes. Two maps are equal
exactly when they answer every look-up alike, so a map has one written form.
-/

namespace EventSnapshot

/-- The list with an entry put in its place, in the place of the entry of the same key if there is
one. -/
def insertEntry {α : Type u} (key : String) (value : α) :
    List (String × α) → List (String × α)
  | [] => [(key, value)]
  | entry :: rest =>
    if key < entry.1 then (key, value) :: entry :: rest
    else if key = entry.1 then (key, value) :: rest
    else entry :: insertEntry key value rest

/-- The list without the entries of one key. -/
def eraseEntry {α : Type u} (key : String) (entries : List (String × α)) : List (String × α) :=
  entries.filter fun entry => entry.1 ≠ key

/-- Keys ascend strictly. -/
abbrev KeysAscend {α : Type u} (entries : List (String × α)) : Prop :=
  entries.Pairwise fun a b => a.1 < b.1

/-- Whatever an insertion leaves in the list was put in or was there before. -/
theorem mem_of_mem_insertEntry {α : Type u} {key : String} {value : α} {entry : String × α}
    {entries : List (String × α)} (h : entry ∈ insertEntry key value entries) :
    entry = (key, value) ∨ entry ∈ entries := by
  induction entries with
  | nil => simpa [insertEntry] using h
  | cons first rest ih =>
    rw [insertEntry] at h
    split at h
    · simpa using h
    · split at h
      · rcases List.mem_cons.mp h with h | h
        · exact .inl h
        · exact .inr (List.mem_cons_of_mem _ h)
      · rcases List.mem_cons.mp h with h | h
        · exact .inr (h ▸ List.mem_cons_self ..)
        · exact (ih h).imp_right (List.mem_cons_of_mem _)

/-- Insertion keeps the order. -/
theorem KeysAscend.insertEntry {α : Type u} {entries : List (String × α)}
    (h : KeysAscend entries) (key : String) (value : α) :
    KeysAscend (insertEntry key value entries) := by
  induction entries with
  | nil => simp [EventSnapshot.insertEntry, KeysAscend]
  | cons first rest ih =>
    obtain ⟨hfirst, hrest⟩ := List.pairwise_cons.mp h
    rw [EventSnapshot.insertEntry]
    split
    · next hlt =>
      refine List.pairwise_cons.mpr ⟨fun entry hentry => ?_, h⟩
      rcases List.mem_cons.mp hentry with rfl | hentry
      · exact hlt
      · exact String.lt_trans hlt (hfirst entry hentry)
    · next hlt =>
      split
      · next heq =>
        exact List.pairwise_cons.mpr ⟨fun entry hentry => heq ▸ hfirst entry hentry, hrest⟩
      · next hne =>
        refine List.pairwise_cons.mpr ⟨fun entry hentry => ?_, ih hrest⟩
        rcases mem_of_mem_insertEntry hentry with rfl | hentry
        · show first.1 < key
          grind
        · exact hfirst entry hentry

/-- A finite map from texts, with its entries in key order. -/
structure SortedMap (α : Type u) where
  /-- The entries, by ascending key. -/
  entries : List (String × α)
  /-- The keys ascend strictly. -/
  ascending : KeysAscend entries

namespace SortedMap

variable {α : Type u}

/-- The map without entries. -/
def empty : SortedMap α := ⟨[], .nil⟩

instance : Inhabited (SortedMap α) := ⟨empty⟩

/-- Whether the map has no entries. -/
def isEmpty (map : SortedMap α) : Bool := map.entries.isEmpty

/-- The number of entries. -/
def size (map : SortedMap α) : Nat := map.entries.length

/-- The keys, ascending. -/
def keys (map : SortedMap α) : List String := map.entries.map (·.1)

/-- The value of a key. -/
def get? (map : SortedMap α) (key : String) : Option α := map.entries.lookup key

/-- Whether the map has a value for the key. -/
def contains (map : SortedMap α) (key : String) : Bool := (map.get? key).isSome

/-- The map with a value for a key, in the place of the old one if there was one. -/
def insert (map : SortedMap α) (key : String) (value : α) : SortedMap α :=
  ⟨insertEntry key value map.entries, map.ascending.insertEntry key value⟩

/-- The map without a value for the key. -/
def erase (map : SortedMap α) (key : String) : SortedMap α :=
  ⟨eraseEntry key map.entries, map.ascending.sublist List.filter_sublist⟩

/-- The map of a list of entries; of equal keys the last counts. -/
def ofList (entries : List (String × α)) : SortedMap α :=
  entries.foldl (fun map entry => map.insert entry.1 entry.2) empty

/-- Every entry of the map of a list is an entry of the list. -/
theorem mem_of_mem_ofList {entries : List (String × α)} {entry : String × α}
    (h : entry ∈ (ofList entries).entries) : entry ∈ entries := by
  suffices hfold : ∀ map : SortedMap α,
      entry ∈ (entries.foldl (fun map entry => map.insert entry.1 entry.2) map).entries →
        entry ∈ map.entries ∨ entry ∈ entries by
    simpa [empty] using hfold _ h
  clear h
  induction entries with
  | nil => exact fun map h => .inl h
  | cons first rest ih =>
    intro map h
    rcases ih _ h with h | h
    · rcases mem_of_mem_insertEntry h with rfl | h
      · exact .inr (List.mem_cons_self ..)
      · exact .inl h
    · exact .inr (List.mem_cons_of_mem _ h)

/-- The map itself, or nothing if it has no entries. -/
def nonempty? (map : SortedMap α) : Option (SortedMap α) :=
  if map.isEmpty then none else some map

end SortedMap

end EventSnapshot
