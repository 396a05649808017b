import Mathlib.Data.List.Sort

/-!
# A record store with revision fences

A store maps keys to records that carry a revision, timestamps and an optional expiry. Records
are created at revision 1 and changed only by a compare-and-swap that names the revision it
read, so a record that is still at the revision read is still the record read. `Seen` states
this for a store in which the record has not been deleted, and `Seen.of_swap` is how a
compare-and-swap uses it. A record that is deleted and created again starts over at revision 1;
nothing here says otherwise.
-/

namespace Fenced

/-- A record with its revision. -/
structure Record (K V : Type) where
  key : K
  value : V
  revision : Nat
  createdAt : Int
  updatedAt : Int
  expiresAt : Option Int
deriving DecidableEq, Repr

/-- A finite map from keys to records, in the order in which the records were created. -/
structure Store (K V : Type) where
  records : List (Record K V)
  nodup : (records.map Record.key).Nodup

/-- The outcome of creating a record if its key is free. -/
inductive CreateResult (K V : Type) where
  | created (record : Record K V)
  | existing (record : Record K V)
deriving DecidableEq, Repr

/-- The outcome of a compare-and-swap. -/
inductive CasResult (K V : Type) where
  | updated (record : Record K V)
  | conflict (record : Record K V)
  | missing
deriving DecidableEq, Repr

/-- The outcome of a fenced deletion. -/
inductive DeleteResult where
  | deleted
  | conflict
  | missing
deriving DecidableEq, Repr

/-- The record that is in the store after a creation, whether or not it was there before. -/
def CreateResult.record {K V : Type} : CreateResult K V → Record K V
  | .created record => record
  | .existing record => record

namespace Store

variable {K V : Type} [DecidableEq K]

/-- The store without records. -/
def empty : Store K V := ⟨[], List.nodup_nil⟩

/-- The record stored under `key`. -/
def get (store : Store K V) (key : K) : Option (Record K V) :=
  store.records.find? fun record => record.key = key

/-- The store without the record under `key`. -/
def erase (store : Store K V) (key : K) : Store K V where
  records := store.records.filter fun record => record.key ≠ key
  nodup := store.nodup.sublist (List.filter_sublist.map Record.key)

/-- The store with `record` appended. -/
def insert (store : Store K V) (record : Record K V) : Store K V where
  records := (store.erase record.key).records ++ [record]
  nodup := by
    rw [List.map_append, List.nodup_append]
    refine ⟨(store.erase record.key).nodup, by simp, ?_⟩
    intro key hkey other hother
    simp only [erase, List.mem_map, List.mem_filter, decide_eq_true_eq] at hkey
    obtain ⟨found, ⟨-, hne⟩, rfl⟩ := hkey
    simpa [List.mem_singleton.1 hother] using hne

/-- The store with `record` in place of the record under its key. -/
def replace (store : Store K V) (record : Record K V) : Store K V where
  records := store.records.map fun old => if old.key = record.key then record else old
  nodup := by
    have hkeys : (store.records.map fun old => if old.key = record.key then record else old).map
        Record.key = store.records.map Record.key := by
      rw [List.map_map]
      refine List.map_congr_left fun old _ => ?_
      by_cases h : old.key = record.key <;> simp [h]
    exact hkeys ▸ store.nodup

@[simp] theorem get_empty (key : K) : (empty : Store K V).get key = none := rfl

variable {record : Record K V} {other : K}

/-- A stored record is found under its own key. -/
theorem get_key {store : Store K V} {key : K} (h : store.get key = some record) :
    record.key = key := by
  simpa using List.find?_some h

theorem get_mem {store : Store K V} {key : K} (h : store.get key = some record) :
    record ∈ store.records :=
  List.mem_of_find?_eq_some h

/-- Keys are unique, so every record of the list is the one found under its key. -/
theorem get_of_mem {store : Store K V} (h : record ∈ store.records) :
    store.get record.key = some record := by
  have key : ∀ records : List (Record K V), (records.map Record.key).Nodup → record ∈ records →
      (records.find? fun other => other.key = record.key) = some record := by
    intro records
    induction records with
    | nil => simp
    | cons head tail ih =>
      intro hnodup hmem
      rw [List.map_cons, List.nodup_cons] at hnodup
      rcases List.mem_cons.1 hmem with rfl | hmem
      · simp
      · have hne : head.key ≠ record.key := fun heq =>
          hnodup.1 (heq ▸ List.mem_map_of_mem hmem)
        rw [List.find?_cons_of_neg (by simpa using hne)]
        exact ih hnodup.2 hmem
  exact key store.records store.nodup h

@[simp] theorem get_erase (store : Store K V) (key other : K) :
    (store.erase key).get other = if key = other then none else store.get other := by
  by_cases h : key = other
  · subst h
    simp [get, erase]
  · rw [if_neg h, get, erase, List.find?_filter]
    refine congrFun (congrArg List.find? ?_) _
    funext record
    by_cases hkey : record.key = other
    · simp [hkey, Ne.symm h]
    · simp [hkey]

@[simp] theorem get_insert (store : Store K V) (record : Record K V) (key : K) :
    (store.insert record).get key = if record.key = key then some record else store.get key := by
  by_cases h : record.key = key
  · subst h
    have hnone : (store.erase record.key).records.find? (fun other => other.key = record.key) =
        none := by
      simp [erase]
    simp [get, insert, List.find?_append, hnone]
  · have hother := get_erase store record.key key
    rw [if_neg h] at hother ⊢
    rw [← hother]
    simp [get, insert, List.find?_append, h]

@[simp] theorem get_replace (store : Store K V) (record : Record K V) (key : K) :
    (store.replace record).get key =
      if record.key = key then (store.get key).map fun _ => record else store.get key := by
  simp only [get, replace]
  induction store.records with
  | nil => by_cases h : record.key = key <;> simp [h]
  | cons head tail ih =>
    by_cases hhead : head.key = record.key
    · by_cases h : record.key = key
      · simp [hhead, h]
      · have : ¬ head.key = key := fun heq => h (hhead ▸ heq)
        simpa [hhead, h, this] using ih
    · by_cases h : head.key = key
      · have hne : ¬ record.key = key := fun heq => hhead (h.trans heq.symm)
        have hne' : ¬ key = record.key := fun heq => hne heq.symm
        simp [h, hne, hne']
      · simpa [hhead, h] using ih

/-! ## Operations -/

/-- Create a record at revision 1 unless the key is taken. -/
def createIfAbsent (store : Store K V) (key : K) (value : V) (nowMs : Int)
    (expiresAt : Option Int) : Store K V × CreateResult K V :=
  match store.get key with
  | some record => (store, .existing record)
  | none =>
    let record := ⟨key, value, 1, nowMs, nowMs, expiresAt⟩
    (store.insert record, .created record)

/-- Replace the value of the record under `key` if it is at `expectedRevision`. -/
def compareAndSwap (store : Store K V) (key : K) (expectedRevision : Nat) (value : V)
    (nowMs : Int) (expiresAt : Option Int) : Store K V × CasResult K V :=
  match store.get key with
  | none => (store, .missing)
  | some current =>
    if current.revision = expectedRevision then
      let record := ⟨key, value, current.revision + 1, current.createdAt, nowMs, expiresAt⟩
      (store.replace record, .updated record)
    else (store, .conflict current)

/-- Delete the record under `key` if it is at `expectedRevision`. -/
def deleteIfRevision (store : Store K V) (key : K) (expectedRevision : Nat) :
    Store K V × DeleteResult :=
  match store.get key with
  | none => (store, .missing)
  | some current =>
    if current.revision = expectedRevision then (store.erase key, .deleted)
    else (store, .conflict)

variable {store : Store K V} {key : K} {value : V} {nowMs : Int} {expiresAt : Option Int}

/-- A creation finds the key taken or adds a record at revision 1. -/
theorem createIfAbsent_cases (store : Store K V) (key : K) (value : V) (nowMs : Int)
    (expiresAt : Option Int) :
    (∃ record, store.get key = some record ∧
        store.createIfAbsent key value nowMs expiresAt = (store, .existing record)) ∨
      (store.get key = none ∧ store.createIfAbsent key value nowMs expiresAt =
        (store.insert ⟨key, value, 1, nowMs, nowMs, expiresAt⟩,
          .created ⟨key, value, 1, nowMs, nowMs, expiresAt⟩)) := by
  rw [createIfAbsent]
  cases h : store.get key with
  | some record => exact .inl ⟨record, rfl, rfl⟩
  | none => exact .inr ⟨rfl, rfl⟩

/-- A compare-and-swap finds no record, finds another revision, or replaces the record and
counts its revision up. -/
theorem compareAndSwap_cases (store : Store K V) (key : K) (expectedRevision : Nat) (value : V)
    (nowMs : Int) (expiresAt : Option Int) :
    (store.get key = none ∧ store.compareAndSwap key expectedRevision value nowMs expiresAt =
        (store, .missing)) ∨
      (∃ current, store.get key = some current ∧ current.revision ≠ expectedRevision ∧
        store.compareAndSwap key expectedRevision value nowMs expiresAt =
          (store, .conflict current)) ∨
      ∃ current, store.get key = some current ∧ current.revision = expectedRevision ∧
        store.compareAndSwap key expectedRevision value nowMs expiresAt =
          (store.replace ⟨key, value, current.revision + 1, current.createdAt, nowMs, expiresAt⟩,
            .updated ⟨key, value, current.revision + 1, current.createdAt, nowMs, expiresAt⟩) := by
  rw [compareAndSwap]
  cases h : store.get key with
  | none => exact .inl ⟨rfl, rfl⟩
  | some current =>
    by_cases hrevision : current.revision = expectedRevision
    · exact .inr (.inr ⟨current, rfl, hrevision, by simp [hrevision]⟩)
    · exact .inr (.inl ⟨current, rfl, hrevision, by simp [hrevision]⟩)

/-- A deletion finds no record, finds another revision, or removes the record. -/
theorem deleteIfRevision_cases (store : Store K V) (key : K) (expectedRevision : Nat) :
    (store.get key = none ∧
        store.deleteIfRevision key expectedRevision = (store, .missing)) ∨
      (∃ current, store.get key = some current ∧ current.revision ≠ expectedRevision ∧
        store.deleteIfRevision key expectedRevision = (store, .conflict)) ∨
      ∃ current, store.get key = some current ∧ current.revision = expectedRevision ∧
        store.deleteIfRevision key expectedRevision = (store.erase key, .deleted) := by
  rw [deleteIfRevision]
  cases h : store.get key with
  | none => exact .inl ⟨rfl, rfl⟩
  | some current =>
    by_cases hrevision : current.revision = expectedRevision
    · exact .inr (.inr ⟨current, rfl, hrevision, by simp [hrevision]⟩)
    · exact .inr (.inl ⟨current, rfl, hrevision, by simp [hrevision]⟩)

/-- Operations on one key leave every other key alone. -/
theorem get_createIfAbsent_of_ne (h : key ≠ other) :
    (store.createIfAbsent key value nowMs expiresAt).1.get other = store.get other := by
  rcases createIfAbsent_cases store key value nowMs expiresAt with ⟨_, _, heq⟩ | ⟨_, heq⟩ <;>
    simp [heq, h]

theorem get_compareAndSwap_of_ne {expectedRevision : Nat} (h : key ≠ other) :
    (store.compareAndSwap key expectedRevision value nowMs expiresAt).1.get other =
      store.get other := by
  rcases compareAndSwap_cases store key expectedRevision value nowMs expiresAt with
    ⟨_, heq⟩ | ⟨_, _, _, heq⟩ | ⟨_, _, _, heq⟩ <;> simp [heq, h]

theorem get_deleteIfRevision_of_ne {expectedRevision : Nat} (h : key ≠ other) :
    (store.deleteIfRevision key expectedRevision).1.get other = store.get other := by
  rcases deleteIfRevision_cases store key expectedRevision with
    ⟨_, heq⟩ | ⟨_, _, _, heq⟩ | ⟨_, _, _, heq⟩ <;> simp [heq, h]

/-! ## Expiry scans -/

/-- The records due at `nowMs` behind the cursor, in key order, and where the next page starts:
at most `limit` of them, with a cursor exactly if some are left over. -/
def scanExpired (before : K → K → Bool) (store : Store K V) (nowMs : Int) (cursor : Option K)
    (limit : Nat) : List (Record K V) × Option K :=
  let due := store.records.filter fun record =>
    (match record.expiresAt with
      | some expiresAt => decide (expiresAt ≤ nowMs)
      | none => false) &&
    match cursor with
      | some last => before last record.key
      | none => true
  let sorted := due.insertionSort fun left right => before right.key left.key = false
  let page := sorted.take limit
  (page, if limit < sorted.length then page.getLast?.map Record.key else none)

/-- Every record of a page is stored and due. -/
theorem mem_scanExpired {before : K → K → Bool} {cursor : Option K} {limit : Nat}
    (h : record ∈ (scanExpired before store nowMs cursor limit).1) :
    store.get record.key = some record ∧
      ∃ expiresAt, record.expiresAt = some expiresAt ∧ expiresAt ≤ nowMs := by
  have hmem := List.mem_of_mem_take h
  rw [List.mem_insertionSort, List.mem_filter, Bool.and_eq_true] at hmem
  obtain ⟨hstored, hdue, -⟩ := hmem
  refine ⟨get_of_mem hstored, ?_⟩
  cases hexpiry : record.expiresAt with
  | none => simp [hexpiry] at hdue
  | some expiresAt => exact ⟨expiresAt, rfl, by simpa [hexpiry] using hdue⟩

/-! ## What a reader may conclude later -/

/-- `record` was read earlier: what is stored now has a later revision or is still `record`. -/
def Seen (record : Record K V) (store : Store K V) : Prop :=
  ∃ current, store.get record.key = some current ∧ record.revision ≤ current.revision ∧
    (current.revision = record.revision → current = record)

theorem Seen.of_get (h : store.get key = some record) : Seen record store :=
  ⟨record, (get_key h) ▸ h, Nat.le_refl _, fun _ => rfl⟩

/-- If the fence matches, the stored record is the one that was read. -/
theorem Seen.of_swap {record current : Record K V} (h : Seen record store)
    (hget : store.get record.key = some current) (hrevision : current.revision = record.revision) :
    current = record := by
  obtain ⟨found, hfound, -, heq⟩ := h
  obtain rfl : found = current := Option.some.inj (hfound.symm.trans hget)
  exact heq hrevision

end Store

end Fenced
