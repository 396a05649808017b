import Mathlib.Data.List.Sublists
import Mathlib.Order.Lattice

/-!
# Common subsequences

The length of a longest common subsequence by its recursion (`longest`): no common subsequence is
longer (`length_le_longest`). For tables that are filled from the front, `longestBefore` takes the
first elements of each list.
-/

namespace Subsequence

variable {α : Type}

/-- A list that starts with another element lies in the rest. -/
theorem sublist_of_ne {c l : List α} {x z : α} (h : (z :: c).Sublist (x :: l)) (hne : z ≠ x) :
    (z :: c).Sublist l := by
  cases h with
  | cons _ h => exact h
  | cons_cons _ h => exact absurd rfl hne

variable [DecidableEq α]

/-- The length of a longest common subsequence. -/
def longest : List α → List α → Nat
  | [], _ => 0
  | _ :: _, [] => 0
  | x :: xs, y :: ys =>
    if x = y then longest xs ys + 1 else max (longest xs (y :: ys)) (longest (x :: xs) ys)
termination_by a b => a.length + b.length

/-- No common subsequence is longer. -/
theorem length_le_longest {a b c : List α} (ha : c.Sublist a) (hb : c.Sublist b) :
    c.length ≤ longest a b := by
  fun_induction longest a b generalizing c with
  | case1 b => simp [List.sublist_nil.1 ha]
  | case2 x xs => simp [List.sublist_nil.1 hb]
  | case3 x xs ys ih =>
    cases c with
    | nil => exact Nat.zero_le _
    | cons z c => exact Nat.succ_le_succ (ih ha.tail hb.tail)
  | case4 x xs y ys hne ihx ihy =>
    cases c with
    | nil => exact Nat.zero_le _
    | cons z c =>
      by_cases hz : z = x
      · have hzy : z ≠ y := hz ▸ hne
        exact (ihy ha (sublist_of_ne hb hzy)).trans (Nat.le_max_right _ _)
      · exact (ihx (sublist_of_ne ha hz) hb).trans (Nat.le_max_left _ _)

/-- The same for the first `i` and the first `j` elements. -/
def longestBefore (a b : List α) (i j : Nat) : Nat :=
  longest (a.take i).reverse (b.take j).reverse

@[simp] theorem longestBefore_zero_left (a b : List α) (j : Nat) : longestBefore a b 0 j = 0 := by
  simp [longestBefore, longest]

@[simp] theorem longestBefore_zero_right (a b : List α) (i : Nat) : longestBefore a b i 0 = 0 := by
  unfold longestBefore
  cases (a.take i).reverse <;> simp [longest]

/-- The recursion over the last elements. -/
theorem longestBefore_succ {a b : List α} {i j : Nat} (hi : i < a.length) (hj : j < b.length) :
    longestBefore a b (i + 1) (j + 1) =
      if a[i] = b[j] then longestBefore a b i j + 1
      else max (longestBefore a b i (j + 1)) (longestBefore a b (i + 1) j) := by
  unfold longestBefore
  rw [← List.take_append_getElem hi, ← List.take_append_getElem hj, List.reverse_concat,
    List.reverse_concat, longest]

/-- No common subsequence is longer. -/
theorem length_le_longestBefore {a b c : List α} (ha : c.Sublist a) (hb : c.Sublist b) :
    c.length ≤ longestBefore a b a.length b.length := by
  unfold longestBefore
  rw [List.take_length, List.take_length, ← List.length_reverse]
  exact length_le_longest ha.reverse hb.reverse

end Subsequence
