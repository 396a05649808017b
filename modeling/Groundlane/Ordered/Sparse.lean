import Mathlib.Data.List.Induction

/-!
# Arrays that are written entry by entry

An array with holes, and what is in it after a list of writes. A write behind the end extends the
array and leaves holes. After all writes each entry is the one that was written there last
(`foldl_put`).
-/

namespace Sparse

variable {α : Type}

/-- Write an entry; `none` is a hole. -/
def put (row : List (Option α)) (col : Nat) (entry : α) : List (Option α) :=
  if col < row.length then row.set col (some entry)
  else row ++ List.replicate (col - row.length) none ++ [some entry]

/-- What was written at the position last. -/
def lastAt (writes : List (Nat × α)) (col : Nat) : Option α :=
  (writes.reverse.find? fun write => write.1 = col).map Prod.snd

/-- The length of an array of the width after the writes. -/
def extent (width : Nat) (writes : List (Nat × α)) : Nat :=
  writes.foldl (fun length write => max length (write.1 + 1)) width

/-- The entry at a position of an array that was filled up to the width before the writes. -/
def entryAt (width : Nat) (blank : α) (writes : List (Nat × α)) (col : Nat) : Option α :=
  match lastAt writes col with
  | some entry => some entry
  | none => if col < width then some blank else none

/-- The array after the writes. -/
def laid (width : Nat) (blank : α) (writes : List (Nat × α)) : List (Option α) :=
  (List.range (extent width writes)).map (entryAt width blank writes)

theorem getElem?_put (row : List (Option α)) (col : Nat) (entry : α) (i : Nat) :
    (put row col entry)[i]? =
      if i = col then some (some entry)
      else if i < row.length then row[i]? else if i < col then some none else none := by
  unfold put
  by_cases hcol : col < row.length
  · rw [if_pos hcol, List.getElem?_set]
    by_cases hi : i = col
    · rw [if_pos hi.symm, if_pos hi, if_pos hcol]
    · rw [if_neg (Ne.symm hi), if_neg hi]
      by_cases hlt : i < row.length
      · rw [if_pos hlt]
      · rw [if_neg hlt, if_neg (by omega), List.getElem?_eq_none (by omega)]
  · rw [if_neg hcol, List.append_assoc]
    by_cases hlt : i < row.length
    · rw [List.getElem?_append_left hlt, if_neg (by omega), if_pos hlt]
    · rw [List.getElem?_append_right (by omega), if_neg hlt]
      by_cases hi : i = col
      · rw [if_pos hi, List.getElem?_append_right (by simp; omega)]
        simp [hi]
      · rw [if_neg hi]
        by_cases hbefore : i < col
        · rw [if_pos hbefore, List.getElem?_append_left (by simp; omega),
            List.getElem?_replicate, if_pos (by omega)]
        · rw [if_neg hbefore, List.getElem?_eq_none (by simp; omega)]

theorem lastAt_concat (writes : List (Nat × α)) (write : Nat × α) (col : Nat) :
    lastAt (writes ++ [write]) col = if write.1 = col then some write.2 else lastAt writes col := by
  unfold lastAt
  rw [List.reverse_append, List.reverse_singleton, List.singleton_append, List.find?_cons]
  by_cases h : write.1 = col
  · simp [h]
  · simp [h]

theorem extent_concat (width : Nat) (writes : List (Nat × α)) (write : Nat × α) :
    extent width (writes ++ [write]) = max (extent width writes) (write.1 + 1) := by
  unfold extent
  rw [List.foldl_append, List.foldl_cons, List.foldl_nil]

theorem le_extent (width : Nat) (writes : List (Nat × α)) : width ≤ extent width writes := by
  induction writes using List.reverseRecOn with
  | nil => exact Nat.le_refl _
  | append_singleton writes write ih =>
    rw [extent_concat]
    exact Nat.le_trans ih (Nat.le_max_left _ _)

variable {writes : List (Nat × α)} {write : Nat × α} {width : Nat}

/-- A position that was written is in the array. -/
theorem lt_extent (h : write ∈ writes) : write.1 < extent width writes := by
  induction writes using List.reverseRecOn with
  | nil => exact absurd h List.not_mem_nil
  | append_singleton writes last ih =>
    rw [extent_concat]
    rcases List.mem_append.1 h with h | h
    · exact Nat.lt_of_lt_of_le (ih h) (Nat.le_max_left _ _)
    · rw [List.mem_singleton.1 h]
      exact Nat.le_max_right _ _

/-- The writes one after the other give the array. -/
theorem foldl_put (width : Nat) (blank : α) (writes : List (Nat × α)) :
    writes.foldl (fun row write => put row write.1 write.2)
        (List.replicate width (some blank)) = laid width blank writes := by
  induction writes using List.reverseRecOn with
  | nil =>
    refine List.ext_getElem? fun i => ?_
    rw [laid, List.getElem?_map, List.foldl_nil, List.getElem?_replicate]
    by_cases hi : i < width
    · simp [extent, entryAt, lastAt, hi]
    · simp [extent, hi]
  | append_singleton writes write ih =>
    rw [List.foldl_append, List.foldl_cons, List.foldl_nil, ih]
    refine List.ext_getElem? fun i => ?_
    have hwidth := le_extent width writes
    rw [getElem?_put, laid, laid, List.length_map, List.length_range, List.getElem?_map,
      List.getElem?_map, extent_concat]
    -- The last write decides at its own position, and the array before it at the others.
    by_cases hi : i = write.1
    · rw [if_pos hi, List.getElem?_range (by omega), Option.map_some, entryAt, lastAt_concat,
        if_pos hi.symm]
    · rw [if_neg hi]
      have hentry : entryAt width blank (writes ++ [write]) i = entryAt width blank writes i := by
        rw [entryAt, lastAt_concat, if_neg (Ne.symm hi)]
        rfl
      by_cases hlt : i < extent width writes
      · rw [if_pos hlt, List.getElem?_range hlt, List.getElem?_range (by omega), Option.map_some,
          Option.map_some, hentry]
      · rw [if_neg hlt]
        by_cases hbefore : i < write.1
        · rw [if_pos hbefore, List.getElem?_range (by omega), Option.map_some, hentry, entryAt]
          cases hlast : lastAt writes i with
          | none => simp only [if_neg (show ¬ i < width by omega)]
          | some entry =>
            obtain ⟨last, hfind, -⟩ := Option.map_eq_some_iff.1 hlast
            have hmem := List.mem_reverse.1 (List.mem_of_find?_eq_some hfind)
            have hcol : last.1 = i := by simpa using List.find?_some hfind
            have hbound : last.1 < extent width writes := lt_extent hmem
            omega
        · rw [if_neg hbefore, List.getElem?_eq_none (by simp; omega), Option.map_none]

/-- A write at a position that no other write has stays there. -/
theorem lastAt_of_nodup (hmem : write ∈ writes) (hnodup : (writes.map Prod.fst).Nodup) :
    lastAt writes write.1 = some write.2 := by
  induction writes using List.reverseRecOn with
  | nil => exact absurd hmem List.not_mem_nil
  | append_singleton writes last ih =>
    rw [List.map_append, List.map_singleton, List.nodup_append] at hnodup
    obtain ⟨hbefore, -, hdiffer⟩ := hnodup
    rw [lastAt_concat]
    rcases List.mem_append.1 hmem with hmem | hmem
    · have hne := hdiffer _ (List.mem_map_of_mem hmem) _ (List.mem_singleton_self _)
      rw [if_neg (Ne.symm hne), ih hmem hbefore]
    · rw [List.mem_singleton.1 hmem, if_pos rfl]

/-- What is written over later does not matter. -/
theorem laid_overwritten {blank a b : α} {col : Nat} {before after : List (Nat × α)}
    (h : ∃ write ∈ after, write.1 = col) : laid width blank (before ++ (col, a) :: after) =
      laid width blank (before ++ (col, b) :: after) := by
  have hextent : ∀ entry, extent width (before ++ (col, entry) :: after) =
      after.foldl (fun length write => max length (write.1 + 1))
        (max (extent width before) (col + 1)) := by
    intro entry
    rw [extent, List.foldl_append, List.foldl_cons]
    rfl
  have hlast : ∀ i, lastAt (before ++ (col, a) :: after) i =
      lastAt (before ++ (col, b) :: after) i := by
    intro i
    simp only [lastAt, List.reverse_append, List.reverse_cons, List.append_assoc, List.find?_append]
    by_cases hi : col = i
    · -- A later write at the same position is found first.
      obtain ⟨write, hmem, hcol⟩ := h
      have hfound : (after.reverse.find? fun write => decide (write.1 = i)).isSome := by
        rw [List.find?_isSome]
        exact ⟨write, List.mem_reverse.2 hmem, decide_eq_true (hcol.trans hi)⟩
      obtain ⟨found, hfound⟩ := Option.isSome_iff_exists.1 hfound
      rw [hfound, Option.some_or, Option.some_or]
    · simp [hi]
  rw [laid, laid, hextent, hextent]
  exact congrArg (List.map · _) (funext fun i => by rw [entryAt, entryAt, hlast])

end Sparse
