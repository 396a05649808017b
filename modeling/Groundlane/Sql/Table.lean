import Mathlib.Data.List.Nodup

/-!
# Tables with a primary key

A table is a list of rows no two of which have the same primary key. The writing statements
answer with the table that they leave and the number of rows that they have changed; an insertion
can fail. Each comes with what is found under a key after it, and with the count for the common
case that the condition names a key.
-/

namespace Sql

/-- Rows with a primary key. -/
@[ext] structure Table (K R : Type) (key : R → K) where
  rows : List R
  nodup : (rows.map key).Nodup

namespace Table

variable {K R : Type} {key : R → K} [DecidableEq K]

/-- The table without rows. -/
def empty : Table K R key := ⟨[], List.nodup_nil⟩

/-- The row with the primary key. -/
def find (table : Table K R key) (k : K) : Option R :=
  table.rows.find? fun row => key row = k

/-- The table with a new row at its end. -/
def append (table : Table K R key) (row : R) (h : table.find (key row) = none) :
    Table K R key where
  rows := table.rows ++ [row]
  nodup := by
    rw [List.map_append, List.nodup_append]
    refine ⟨table.nodup, by simp, ?_⟩
    intro k hk other hother heq
    obtain ⟨found, hfound, rfl⟩ := List.mem_map.1 hk
    rw [List.map_singleton, List.mem_singleton] at hother
    have := List.find?_eq_none.1 h found hfound
    simp [heq, hother] at this

/-- `INSERT`, which fails when the primary key is taken. -/
def insert (table : Table K R key) (row : R) : Option (Table K R key × Nat) :=
  if h : table.find (key row) = none then some (table.append row h, 1) else none

/-- `INSERT .. ON CONFLICT DO NOTHING`. -/
def insertOrIgnore (table : Table K R key) (row : R) : Table K R key × Nat :=
  if h : table.find (key row) = none then (table.append row h, 1) else (table, 0)

/-- `UPDATE .. WHERE`, which leaves the primary keys alone. -/
def update (table : Table K R key) (condition : R → Bool) (change : R → R)
    (h : ∀ row, key (change row) = key row) : Table K R key × Nat :=
  ({ rows := table.rows.map fun row => if condition row then change row else row
     nodup := by
      have hkeys : (table.rows.map fun row => if condition row then change row else row).map key =
          table.rows.map key := by
        rw [List.map_map]
        refine List.map_congr_left fun row _ => ?_
        by_cases hcondition : condition row <;> simp [hcondition, h]
      exact hkeys ▸ table.nodup },
    table.rows.countP condition)

/-- `DELETE .. WHERE`. -/
def delete (table : Table K R key) (condition : R → Bool) : Table K R key × Nat :=
  ({ rows := table.rows.filter fun row => !condition row
     nodup := table.nodup.sublist (List.filter_sublist.map key) },
    table.rows.countP condition)

/-! ## What is found -/

variable (table : Table K R key) (condition : R → Bool) (k : K) {row : R}

@[simp] theorem find_empty : (empty : Table K R key).find k = none := rfl

theorem find_key {table : Table K R key} {k : K} (h : table.find k = some row) : key row = k := by
  simpa using List.find?_some h

theorem find_mem {table : Table K R key} {k : K} (h : table.find k = some row) : row ∈ table.rows :=
  List.mem_of_find?_eq_some h

/-- Primary keys are unique. -/
theorem find_of_mem {table : Table K R key} (h : row ∈ table.rows) :
    table.find (key row) = some row := by
  cases hfind : table.find (key row) with
  | none =>
    have := List.find?_eq_none.1 hfind row h
    simp at this
  | some found =>
    exact congrArg some (List.inj_on_of_nodup_map table.nodup (find_mem hfind) h (find_key hfind))

theorem find_append (row : R) (h : table.find (key row) = none) (k : K) :
    (table.append row h).find k = if key row = k then some row else table.find k := by
  by_cases hk : key row = k
  · subst hk
    have hnone : table.rows.find? (fun other => key other = key row) = none := h
    simp [find, append, List.find?_append, hnone]
  · simp [find, append, List.find?_append, hk]

theorem find_insertOrIgnore (row : R) (k : K) : (table.insertOrIgnore row).1.find k =
      (table.find k).or (if key row = k then some row else none) := by
  by_cases h : table.find (key row) = none
  · rw [insertOrIgnore, dif_pos h]
    by_cases hk : key row = k
    · subst hk
      simp [find_append, h]
    · simp [find_append, hk]
  · rw [insertOrIgnore, dif_neg h]
    by_cases hk : key row = k
    · subst hk
      obtain ⟨found, hfound⟩ := Option.ne_none_iff_exists'.1 h
      simp [hfound]
    · simp [hk]

theorem count_insertOrIgnore (row : R) :
    (table.insertOrIgnore row).2 = if (table.find (key row)).isSome then 0 else 1 := by
  cases h : table.find (key row) with
  | none => rw [insertOrIgnore, dif_pos h]; rfl
  | some found => rw [insertOrIgnore, dif_neg (by simp [h])]; rfl

theorem insert_of_free {table : Table K R key} (h : table.find (key row) = none) :
    table.insert row = some (table.append row h, 1) :=
  dif_pos h

theorem find_update (change : R → R) (h : ∀ row, key (change row) = key row) (k : K) :
    (table.update condition change h).1.find k =
      (table.find k).map fun row => if condition row then change row else row := by
  have hkey : ∀ row, key (if condition row then change row else row) = key row := by
    intro row
    by_cases hcondition : condition row <;> simp [hcondition, h]
  simp only [find, update, List.find?_map, Function.comp_def, hkey]

theorem find_delete :
    (table.delete condition).1.find k = (table.find k).filter fun row => !condition row := by
  cases hfind : table.find k with
  | none =>
    refine List.find?_eq_none.2 fun row hrow => ?_
    exact List.find?_eq_none.1 hfind row (List.mem_of_mem_filter hrow)
  | some row =>
    by_cases hcondition : condition row
    · rw [Option.filter_some, if_neg (by simp [hcondition])]
      refine List.find?_eq_none.2 fun other hother => ?_
      obtain ⟨hmem, hkept⟩ := List.mem_filter.1 hother
      rw [decide_eq_true_eq]
      rintro rfl
      obtain rfl := Option.some.inj (hfind.symm.trans (find_of_mem hmem))
      simp [hcondition] at hkept
    · have hmem : row ∈ (table.delete condition).1.rows :=
        List.mem_filter.2 ⟨find_mem hfind, by simp [hcondition]⟩
      rw [Option.filter_some, if_pos (by simp [hcondition]), ← find_key hfind]
      exact find_of_mem hmem

/-- A condition that names a primary key holds of some row exactly if it holds of the row found. -/
theorem any_of_key (condition : R → Bool) :
    table.rows.any (fun row => decide (key row = k) && condition row) =
      (table.find k).any condition := by
  rw [Bool.eq_iff_iff, List.any_eq_true]
  constructor
  · rintro ⟨row, hrow, htest⟩
    rw [Bool.and_eq_true, decide_eq_true_eq] at htest
    obtain ⟨rfl, htest⟩ := htest
    rw [find_of_mem hrow]
    exact htest
  · intro h
    obtain ⟨row, hrow, htest⟩ := (Option.any_eq_true _ _).1 h
    exact ⟨row, find_mem hrow, by simp [find_key hrow, htest]⟩

/-- A condition that names a primary key holds of at most one row. -/
theorem count_of_key (condition : R → Bool) :
    table.rows.countP (fun row => decide (key row = k) && condition row) =
      if (table.find k).any condition then 1 else 0 := by
  cases hfind : table.find k with
  | none =>
    rw [List.countP_eq_zero.2]
    · rfl
    · intro row hrow
      have := List.find?_eq_none.1 hfind row hrow
      simp only [decide_eq_true_eq] at this
      simp [this]
  | some row =>
    have hle : table.rows.countP (fun other => decide (key other = k)) ≤ 1 := by
      have hcount := List.nodup_iff_count_le_one.1 table.nodup k
      rw [List.count, List.countP_map] at hcount
      exact hcount
    have hsub : table.rows.countP (fun other => decide (key other = k) && condition other) ≤
        table.rows.countP fun other => decide (key other = k) :=
      List.countP_mono_left fun other _ h => ((Bool.and_eq_true _ _).mp h).1
    by_cases hcondition : condition row
    · have hpos : 0 < table.rows.countP (fun other => decide (key other = k) && condition other) :=
        List.countP_pos_iff.2 ⟨row, find_mem hfind, by simp [find_key hfind, hcondition]⟩
      rw [Option.any_some, if_pos hcondition]
      omega
    · rw [Option.any_some, if_neg hcondition, List.countP_eq_zero]
      intro other hother htest
      rw [Bool.and_eq_true, decide_eq_true_eq] at htest
      obtain ⟨rfl, htest⟩ := htest
      obtain rfl := Option.some.inj (hfind.symm.trans (find_of_mem hother))
      exact hcondition htest

end Table

end Sql
