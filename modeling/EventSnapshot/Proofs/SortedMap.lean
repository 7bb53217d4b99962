import EventSnapshot.SortedMap
import Mathlib.Data.List.Perm.Basic

/-!
# Look-up in sorted maps

A map is settled by what it answers to look-ups. An insertion or a removal changes the answer for
one key, also where the order of the list is broken; a map built from a list answers with the last
entry of the key, and the map built from a map's own entries is that map.
-/

namespace EventSnapshot

variable {α : Type u}

/-- A look-up asks the first entry first. -/
theorem lookup_cons_eq_ite (entry : String × α) (entries : List (String × α)) (key : String) :
    (entry :: entries).lookup key = if key = entry.1 then some entry.2 else entries.lookup key := by
  rw [List.lookup_cons]
  by_cases hkey : key = entry.1
  · simp [hkey]
  · simp [beq_false_of_ne hkey, hkey]

/-- A look-up finds the first entry of its key. -/
theorem lookup_eq_head? (entries : List (String × α)) (key : String) :
    entries.lookup key = ((entries.filter (·.1 = key)).map (·.2)).head? := by
  induction entries with
  | nil => rfl
  | cons first rest ih =>
    rw [lookup_cons_eq_ite, ih]
    by_cases hkey : first.1 = key
    · simp [hkey]
    · simp [hkey, Ne.symm hkey]

/-- An insertion changes the answer for its own key and for no other. -/
theorem lookup_insertEntry (entries : List (String × α)) (key wanted : String) (value : α) :
    (insertEntry key value entries).lookup wanted =
      if wanted = key then some value else entries.lookup wanted := by
  induction entries with
  | nil => rw [insertEntry, lookup_cons_eq_ite]
  | cons first rest ih =>
    rw [insertEntry]
    split
    · rw [lookup_cons_eq_ite]
    · split
      · next hkey =>
        rw [lookup_cons_eq_ite, lookup_cons_eq_ite, ← hkey]
        by_cases hwanted : wanted = key
        · simp [hwanted]
        · simp [hwanted]
      · next hkey =>
        rw [lookup_cons_eq_ite, lookup_cons_eq_ite, ih]
        by_cases hwanted : wanted = key
        · simp [hwanted, hkey]
        · simp [hwanted]

/-- Without the entries of a key, that key has no answer, and every other one the same. -/
theorem lookup_eraseEntry (entries : List (String × α)) (key wanted : String) :
    (eraseEntry key entries).lookup wanted =
      if wanted = key then none else entries.lookup wanted := by
  induction entries with
  | nil => simp [eraseEntry]
  | cons first rest ih =>
    rw [eraseEntry] at ih ⊢
    rw [List.filter_cons, lookup_cons_eq_ite]
    by_cases hkey : first.1 = key
    · rw [if_neg (by simpa using hkey), ih, hkey]
      by_cases hwanted : wanted = key
      · simp [hwanted]
      · simp [hwanted]
    · rw [if_pos (by simpa using hkey), lookup_cons_eq_ite, ih]
      by_cases hwanted : wanted = first.1
      · simp [hwanted, hkey]
      · simp [hwanted]

/-- Where no key is repeated, the answers are exactly the entries. -/
theorem lookup_eq_some_iff_mem {entries : List (String × α)}
    (h : entries.Pairwise fun a b => a.1 ≠ b.1) (key : String) (value : α) :
    entries.lookup key = some value ↔ (key, value) ∈ entries := by
  induction entries with
  | nil => simp
  | cons first rest ih =>
    obtain ⟨hfirst, hrest⟩ := List.pairwise_cons.mp h
    rw [lookup_cons_eq_ite, List.mem_cons, Prod.ext_iff]
    by_cases hkey : key = first.1
    · subst hkey
      have habsent : (first.1, value) ∉ rest := by
        intro hmem
        exact hfirst _ hmem rfl
      simp [habsent, eq_comm]
    · simp [hkey, ih hrest]

/-- Where no key is repeated, the order makes no difference to the answers. -/
theorem lookup_eq_of_perm {entries others : List (String × α)}
    (h : entries.Perm others) (hdistinct : entries.Pairwise fun a b => a.1 ≠ b.1) (key : String) :
    entries.lookup key = others.lookup key := by
  have hothers : others.Pairwise fun a b => a.1 ≠ b.1 := (h.pairwise_iff Ne.symm).mp hdistinct
  apply Option.ext
  intro value
  rw [lookup_eq_some_iff_mem hdistinct, lookup_eq_some_iff_mem hothers, h.mem_iff]

/-- Keys that ascend do not repeat. -/
theorem KeysAscend.distinct {entries : List (String × α)} (h : KeysAscend entries) :
    entries.Pairwise fun a b => a.1 ≠ b.1 := by
  apply h.imp
  intro a b hlt heq
  exact String.lt_irrefl b.1 (heq ▸ hlt)

/-- Where keys ascend, equal answers come from equal lists. -/
theorem KeysAscend.eq_of_lookup_eq {entries others : List (String × α)} (h : KeysAscend entries)
    (hothers : KeysAscend others) (hlookup : ∀ key, entries.lookup key = others.lookup key) :
    entries = others := by
  have hmem : ∀ entry, entry ∈ entries ↔ entry ∈ others := by
    rintro ⟨key, value⟩
    rw [← lookup_eq_some_iff_mem h.distinct, hlookup, lookup_eq_some_iff_mem hothers.distinct]
  have hnodup : ∀ {list : List (String × α)}, KeysAscend list → list.Nodup := by
    intro list hlist
    exact hlist.distinct.imp fun hne heq => hne (congrArg Prod.fst heq)
  have hperm := (List.perm_ext_iff_of_nodup (hnodup h) (hnodup hothers)).mpr hmem
  apply hperm.eq_of_pairwise _ h hothers
  intro a b _ _ hlt hgt
  exact absurd (String.lt_trans hlt hgt) (String.lt_irrefl _)

namespace SortedMap

/-- Maps that answer every look-up alike are equal. -/
theorem ext_get? {map other : SortedMap α} (h : ∀ key, map.get? key = other.get? key) :
    map = other := by
  have hentries := map.ascending.eq_of_lookup_eq other.ascending h
  cases map
  cases other
  cases hentries
  rfl

/-- An insertion changes the answer for its own key and for no other. -/
theorem get?_insert (map : SortedMap α) (key wanted : String) (value : α) :
    (map.insert key value).get? wanted = if wanted = key then some value else map.get? wanted :=
  lookup_insertEntry map.entries key wanted value

/-- Without its value, a key has no answer, and every other one the same. -/
theorem get?_erase (map : SortedMap α) (key wanted : String) :
    (map.erase key).get? wanted = if wanted = key then none else map.get? wanted :=
  lookup_eraseEntry map.entries key wanted

/-- Entries that are inserted one after the other count before what was in the map; of equal keys
the last counts. -/
theorem get?_foldl_insert (entries : List (String × α)) (map : SortedMap α) (key : String) :
    (entries.foldl (fun map entry => map.insert entry.1 entry.2) map).get? key =
      (entries.reverse.lookup key).or (map.get? key) := by
  induction entries generalizing map with
  | nil => rfl
  | cons first rest ih =>
    rw [List.foldl_cons, ih, get?_insert, List.reverse_cons, List.lookup_append, Option.or_assoc,
      lookup_cons_eq_ite]
    by_cases hkey : key = first.1
    · simp [hkey]
    · simp [hkey]

/-- The map of a list answers with the last entry of the key. -/
theorem get?_ofList (entries : List (String × α)) (key : String) :
    (ofList entries).get? key = entries.reverse.lookup key := by
  rw [ofList, get?_foldl_insert]
  simp [get?, empty]

/-- Nothing is lost when an empty map counts as absent and what is absent as empty. -/
theorem getD_nonempty? (map : SortedMap α) : map.nonempty?.getD .empty = map := by
  rw [nonempty?]
  split
  · next hempty =>
    apply ext_get?
    intro key
    rw [isEmpty, List.isEmpty_iff] at hempty
    simp [get?, empty, hempty]
  · rfl

/-- The keys are those that have an answer. -/
theorem mem_keys_iff {map : SortedMap α} {key : String} :
    key ∈ map.keys ↔ (map.get? key).isSome := by
  rw [Option.isSome_iff_exists, keys, List.mem_map]
  constructor
  · rintro ⟨⟨_, value⟩, hmem, rfl⟩
    exact ⟨value, (lookup_eq_some_iff_mem map.ascending.distinct _ value).mpr hmem⟩
  · rintro ⟨value, hvalue⟩
    exact ⟨_, (lookup_eq_some_iff_mem map.ascending.distinct key value).mp hvalue, rfl⟩

/-- No key stands twice among the keys. -/
theorem nodup_keys (map : SortedMap α) : map.keys.Nodup :=
  List.pairwise_map.mpr map.ascending.distinct

/-- The map of a map's own entries is that map. -/
theorem ofList_entries (map : SortedMap α) : ofList map.entries = map := by
  apply ext_get?
  intro key
  have hreverse : map.entries.reverse.Pairwise fun a b => a.1 ≠ b.1 := by
    rw [List.pairwise_reverse]
    exact map.ascending.distinct.imp Ne.symm
  apply Option.ext
  intro value
  rw [get?_ofList, get?, lookup_eq_some_iff_mem hreverse,
    lookup_eq_some_iff_mem map.ascending.distinct, List.mem_reverse]

end SortedMap

end EventSnapshot
