import Mathlib.Data.List.Nodup
import Mathlib.Tactic.Common

/-!
# Maps that keep the order of insertion

A map of a scripting language: an entry that is set again keeps its place, a new one goes to the
end, and walking over the map meets the entries in this order. Reading after each operation is
given by one lemma (`get?_set`, `get?_erase`, `get?_mapValues`).
-/

/-- Entries with different keys, in the order of their insertion. -/
structure OrderedMap (K V : Type) where
  entries : List (K × V)
  nodup : (entries.map Prod.fst).Nodup

namespace OrderedMap

variable {K V : Type}

/-- The map without entries. -/
def empty : OrderedMap K V := ⟨[], List.nodup_nil⟩

/-- The number of entries. -/
def size (map : OrderedMap K V) : Nat :=
  map.entries.length

/-- The keys in order. -/
def keys (map : OrderedMap K V) : List K :=
  map.entries.map Prod.fst

/-- The keys whose values pass a test, in order. -/
def keysWhere (test : V → Bool) (map : OrderedMap K V) : List K :=
  (map.entries.filter fun entry => test entry.2).map Prod.fst

/-- Every value is replaced, given its key. -/
def mapValues (change : K → V → V) (map : OrderedMap K V) : OrderedMap K V where
  entries := map.entries.map fun entry => (entry.1, change entry.1 entry.2)
  nodup := by
    rw [List.map_map]
    exact map.nodup

variable [DecidableEq K]

/-- The value of a key. -/
def get? (map : OrderedMap K V) (key : K) : Option V :=
  (map.entries.find? fun entry => entry.1 = key).map Prod.snd

/-- Whether a key has an entry. -/
def has (map : OrderedMap K V) (key : K) : Bool :=
  (map.get? key).isSome

/-- The entries behind `set`. -/
def setEntries (key : K) (value : V) : List (K × V) → List (K × V)
  | [] => [(key, value)]
  | entry :: rest =>
    if entry.1 = key then (key, value) :: rest else entry :: setEntries key value rest

variable (map : OrderedMap K V) {entries : List (K × V)} (key : K) {value : V}

theorem mem_keys_setEntries {key other : K}
    (h : other ∈ (setEntries key value entries).map Prod.fst) :
    other = key ∨ other ∈ entries.map Prod.fst := by
  induction entries with
  | nil => exact .inl (List.mem_singleton.1 h)
  | cons entry rest ih =>
    unfold setEntries at h
    split at h
    · rename_i heq
      rcases List.mem_cons.1 h with h | h
      · exact .inl h
      · exact .inr (List.mem_cons_of_mem _ h)
    · rcases List.mem_cons.1 h with h | h
      · exact .inr (List.mem_cons.2 (.inl h))
      · exact (ih h).imp_right (List.mem_cons_of_mem _)

theorem nodup_setEntries {key : K} (h : (entries.map Prod.fst).Nodup) :
    ((setEntries key value entries).map Prod.fst).Nodup := by
  induction entries with
  | nil => exact List.nodup_singleton key
  | cons entry rest ih =>
    obtain ⟨hfirst, hrest⟩ := List.nodup_cons.1 h
    unfold setEntries
    split
    · rename_i heq
      exact List.nodup_cons.2 ⟨heq ▸ hfirst, hrest⟩
    · rename_i hne
      refine List.nodup_cons.2 ⟨fun hmem => ?_, ih hrest⟩
      rcases mem_keys_setEntries hmem with heq | hmem
      · exact hne heq
      · exact hfirst hmem

/-- `set`: an entry keeps its place, a new one goes to the end. -/
def set (map : OrderedMap K V) (key : K) (value : V) : OrderedMap K V :=
  ⟨setEntries key value map.entries, nodup_setEntries map.nodup⟩

/-- `delete`. -/
def erase (map : OrderedMap K V) (key : K) : OrderedMap K V where
  entries := map.entries.filter fun entry => entry.1 ≠ key
  nodup := map.nodup.sublist (List.filter_sublist.map Prod.fst)

/-- `delete`, for several keys one after another. -/
def eraseAll (map : OrderedMap K V) (keys : List K) : OrderedMap K V :=
  keys.foldl erase map

/-! ## Reading -/

@[simp] theorem get?_empty : (empty : OrderedMap K V).get? key = none := rfl

/-- What is read after an entry was set. -/
theorem get?_set (value : V) (other : K) :
    (map.set key value).get? other = if other = key then some value else map.get? other := by
  have hentries : ∀ entries : List (K × V),
      ((setEntries key value entries).find? fun entry => entry.1 = other).map Prod.snd =
        if other = key then some value
        else (entries.find? fun entry => entry.1 = other).map Prod.snd := by
    intro entries
    induction entries with
    | nil =>
      by_cases h : other = key
      · simp [setEntries, h]
      · simp [setEntries, h, Ne.symm h]
    | cons entry rest ih =>
      unfold setEntries
      by_cases hentry : entry.1 = key
      · by_cases h : other = key
        · simp [hentry, h]
        · simp [hentry, h, Ne.symm h]
      · rw [if_neg hentry, List.find?_cons, List.find?_cons]
        by_cases h : entry.1 = other
        · have hne : other ≠ key := fun heq => hentry (h.trans heq)
          simp [h, hne]
        · simp only [h, decide_false]
          exact ih
  exact hentries map.entries

@[simp] theorem get?_set_self (value : V) : (map.set key value).get? key = some value := by
  rw [get?_set, if_pos rfl]

theorem get?_set_of_ne {key other : K} (h : other ≠ key) (value : V) :
    (map.set key value).get? other = map.get? other := by
  rw [get?_set, if_neg h]

/-- What is read after an entry was deleted. -/
theorem get?_erase (key other : K) :
    (map.erase key).get? other = if other = key then none else map.get? other := by
  unfold get? erase
  dsimp only
  rw [List.find?_filter]
  by_cases h : other = key
  · rw [if_pos h, List.find?_eq_none.2, Option.map_none]
    intro entry _
    simp [h]
  · rw [if_neg h]
    congr 2
    funext entry
    by_cases hentry : entry.1 = other
    · simp [hentry, h]
    · simp [hentry]

/-- What is read after several entries were deleted. -/
theorem get?_eraseAll (keys : List K) (other : K) :
    (map.eraseAll keys).get? other = if other ∈ keys then none else map.get? other := by
  induction keys generalizing map with
  | nil => rfl
  | cons key keys ih =>
    show ((map.erase key).eraseAll keys).get? other = _
    rw [ih, get?_erase]
    by_cases hkeys : other ∈ keys
    · rw [if_pos hkeys, if_pos (List.mem_cons_of_mem _ hkeys)]
    · rw [if_neg hkeys]
      by_cases hkey : other = key
      · rw [if_pos hkey, if_pos (List.mem_cons.2 (.inl hkey))]
      · have hmem : other ∉ key :: keys := fun h =>
          (List.mem_cons.1 h).elim hkey hkeys
        rw [if_neg hkey, if_neg hmem]

/-- An entry that is found has the key. -/
theorem key_of_find? {key : K} {entry : K × V}
    (h : (entries.find? fun entry => entry.1 = key) = some entry) : entry.1 = key := by
  simpa using List.find?_some h

/-- What is read after every value was replaced. -/
theorem get?_mapValues (change : K → V → V) (map : OrderedMap K V) (key : K) :
    (map.mapValues change).get? key = (map.get? key).map (change key) := by
  unfold get? mapValues
  dsimp only
  rw [List.find?_map, Option.map_map, Option.map_map]
  cases hfind : map.entries.find? fun entry => entry.1 = key with
  | none =>
    have hnone : map.entries.find? ((fun entry : K × V => decide (entry.1 = key)) ∘
        fun entry => (entry.1, change entry.1 entry.2)) = none := hfind
    rw [hnone]
    rfl
  | some entry =>
    have hsome : map.entries.find? ((fun entry : K × V => decide (entry.1 = key)) ∘
        fun entry => (entry.1, change entry.1 entry.2)) = some entry := hfind
    have hkey : entry.1 = key := key_of_find? hfind
    rw [hsome, Option.map_some, Option.map_some]
    show some (change entry.1 entry.2) = some (change key entry.2)
    rw [hkey]

/-- An entry is what is read under its key. -/
theorem mem_entries_iff {key : K} : (key, value) ∈ map.entries ↔ map.get? key = some value := by
  unfold get?
  constructor
  · intro hmem
    cases hfind : map.entries.find? fun entry => entry.1 = key with
    | none => exact absurd hmem fun hmem => by simpa using List.find?_eq_none.1 hfind _ hmem
    | some entry =>
      have hkey : entry.1 = key := key_of_find? hfind
      have hsame : entry = (key, value) :=
        List.inj_on_of_nodup_map map.nodup (List.mem_of_find?_eq_some hfind) hmem hkey
      rw [hsame]
      rfl
  · intro hread
    obtain ⟨entry, hfind, rfl⟩ := Option.map_eq_some_iff.1 hread
    have hkey : entry.1 = key := key_of_find? hfind
    rw [← hkey]
    exact List.mem_of_find?_eq_some hfind

/-- `set` keeps the order of the keys. -/
theorem keys_set (value : V) :
    (map.set key value).keys = if key ∈ map.keys then map.keys else map.keys ++ [key] := by
  have hentries : ∀ entries : List (K × V), (setEntries key value entries).map Prod.fst =
      if key ∈ entries.map Prod.fst then entries.map Prod.fst
      else entries.map Prod.fst ++ [key] := by
    intro entries
    induction entries with
    | nil => rfl
    | cons entry rest ih =>
      unfold setEntries
      by_cases hentry : entry.1 = key
      · simp [hentry]
      · rw [if_neg hentry, List.map_cons, ih, List.map_cons]
        by_cases hrest : key ∈ rest.map Prod.fst
        · rw [if_pos hrest, if_pos (List.mem_cons_of_mem _ hrest)]
        · have hnone : key ∉ entry.1 :: rest.map Prod.fst := fun h =>
            (List.mem_cons.1 h).elim (fun heq => hentry heq.symm) hrest
          rw [if_neg hrest, if_neg hnone]
          rfl
  exact hentries map.entries

/-- The values in order are what is read under the keys in order. -/
theorem values_eq : map.entries.map Prod.snd = map.keys.filterMap map.get? := by
  unfold keys
  rw [List.filterMap_map, ← List.filterMap_eq_map]
  refine List.filterMap_congr fun entry hentry => ?_
  exact ((map.mem_entries_iff).1 hentry).symm

/-- The keys that a test selects are those under which a value that passes it is read. -/
theorem mem_keysWhere (test : V → Bool) (map : OrderedMap K V) {key : K} :
    key ∈ map.keysWhere test ↔ ∃ value, map.get? key = some value ∧ test value = true := by
  unfold keysWhere
  constructor
  · intro hmem
    obtain ⟨entry, hentry, rfl⟩ := List.mem_map.1 hmem
    obtain ⟨hentry, htest⟩ := List.mem_filter.1 hentry
    exact ⟨entry.2, map.mem_entries_iff.1 hentry, htest⟩
  · rintro ⟨value, hread, htest⟩
    exact List.mem_map.2 ⟨(key, value), List.mem_filter.2 ⟨map.mem_entries_iff.2 hread, htest⟩, rfl⟩

omit [DecidableEq K] in
theorem nodup_keysWhere (test : V → Bool) (map : OrderedMap K V) : (map.keysWhere test).Nodup :=
  map.nodup.sublist (List.filter_sublist.map Prod.fst)

end OrderedMap
