import Mathlib.Data.List.Basic
import Mathlib.Tactic.Common

/-!
# A quota for each group

Of a list, only the first `quota` elements of each group are kept (`firstPerGroup`). The kept ones
keep their order, no group has more of them than the quota (`count_firstPerGroup_le`), and an
element that is not kept has as many elements of its group before it as the quota allows
(`quota_le_of_notMem`).
-/

namespace Quota

variable {α γ : Type} [DecidableEq γ] (group : α → γ) (quota : Nat)

/-- The number of elements of a group. -/
def countOf (l : List α) (g : γ) : Nat := l.countP fun a => group a = g

@[simp] theorem countOf_nil (g : γ) : countOf group [] g = 0 := rfl

@[simp] theorem countOf_concat (l : List α) (a : α) (g : γ) :
    countOf group (l ++ [a]) g = countOf group l g + if group a = g then 1 else 0 := by
  simp [countOf, List.countP_append, List.countP_cons]

/-- The elements that have fewer than `quota` of their group among those passed before them. -/
def keepFrom (passed : List α) : List α → List α
  | [] => []
  | a :: l =>
    if countOf group passed (group a) < quota then a :: keepFrom (passed ++ [a]) l
    else keepFrom (passed ++ [a]) l

/-- The first `quota` elements of each group. -/
def firstPerGroup (l : List α) : List α := keepFrom group quota [] l

variable {group quota}

theorem keepFrom_sublist (passed l : List α) : (keepFrom group quota passed l).Sublist l := by
  induction l generalizing passed with
  | nil => exact List.Sublist.refl []
  | cons a l ih =>
    unfold keepFrom
    split
    · exact (ih _).cons_cons a
    · exact (ih _).cons a

theorem firstPerGroup_sublist (l : List α) : (firstPerGroup group quota l).Sublist l :=
  keepFrom_sublist [] l

/-- A group gets what the elements passed have left of its quota. -/
theorem count_keepFrom_le (passed l : List α) (g : γ) :
    countOf group (keepFrom group quota passed l) g ≤ quota - countOf group passed g := by
  induction l generalizing passed with
  | nil => exact Nat.zero_le _
  | cons a l ih =>
    have hrest := ih (passed ++ [a])
    rw [countOf_concat] at hrest
    unfold keepFrom
    split
    · next hroom =>
        unfold countOf at *
        rw [List.countP_cons]
        by_cases hg : group a = g
        · subst hg
          simp only [if_true, decide_true] at hrest ⊢
          omega
        · simp only [hg, if_false, decide_false, Bool.false_eq_true] at hrest ⊢
          omega
    · exact Nat.le_trans hrest (by omega)

/-- No group has more elements than the quota. -/
theorem count_firstPerGroup_le (l : List α) (g : γ) :
    countOf group (firstPerGroup group quota l) g ≤ quota :=
  Nat.le_trans (count_keepFrom_le [] l g) (Nat.sub_le _ _)

/-- An element that is not kept comes behind enough elements of its group. -/
theorem quota_le_of_notMem_keepFrom {passed l : List α} {a : α} (ha : a ∈ l)
    (hout : a ∉ keepFrom group quota passed l) :
    ∃ before behind, l = before ++ a :: behind ∧
      quota ≤ countOf group (passed ++ before) (group a) := by
  induction l generalizing passed with
  | nil => exact absurd ha List.not_mem_nil
  | cons b l ih =>
    unfold keepFrom at hout
    split at hout
    · next hroom =>
        obtain ⟨hne, hout⟩ := not_or.1 (List.mem_cons.not.1 hout)
        obtain ⟨before, behind, rfl, hcount⟩ :=
          ih ((List.mem_cons.1 ha).resolve_left hne) hout
        exact ⟨b :: before, behind, rfl, by simpa using hcount⟩
    · next hfull =>
        rcases List.mem_cons.1 ha with rfl | ha
        · exact ⟨[], l, rfl, by simpa using hfull⟩
        · obtain ⟨before, behind, rfl, hcount⟩ := ih ha hout
          exact ⟨b :: before, behind, rfl, by simpa using hcount⟩

theorem quota_le_of_notMem {l : List α} {a : α} (ha : a ∈ l)
    (hout : a ∉ firstPerGroup group quota l) :
    ∃ before behind, l = before ++ a :: behind ∧ quota ≤ countOf group before (group a) :=
  quota_le_of_notMem_keepFrom ha hout

end Quota
