import Mathlib.Data.List.Basic
import Mathlib.Tactic.Common
import Mathlib.Algebra.GroupWithZero.Nat

/-!
# Packing in order

Items with weights are packed in the order in which they come: a run takes items as long as their
weights sum up to the capacity at most, and an item that is heavier than the capacity ends the run
and stays alone. Nothing is lost or reordered (`pack_items`), and the heavy items are exactly the
ones that stay alone (`single_mem_pack`, `heavy_of_single_mem`).
-/

namespace Packing

variable {σ τ : Type}

/-- What is packed together. -/
inductive Bin (σ : Type) where
  | run (items : List σ)
  | single (item : σ)

def Bin.items : Bin σ → List σ
  | .run items => items
  | .single item => [item]

def Bin.map (f : σ → τ) : Bin σ → Bin τ
  | .run items => .run (items.map f)
  | .single item => .single (f item)

/-- The bins for the items of an open run and the items behind it. A run may be empty. -/
def pack (weight : σ → Nat) (capacity : Nat) (run : List σ) : List σ → List (Bin σ)
  | [] => [.run run]
  | item :: rest =>
    if capacity < weight item then .run run :: .single item :: pack weight capacity [] rest
    else if capacity < (run.map weight).sum + weight item then
      .run run :: pack weight capacity [item] rest
    else pack weight capacity (run ++ [item]) rest

variable {weight : σ → Nat} {capacity : Nat}

/-- Nothing is lost or reordered. -/
theorem pack_items (run items : List σ) :
    (pack weight capacity run items).flatMap Bin.items = run ++ items := by
  induction items generalizing run with
  | nil => rfl
  | cons item rest ih =>
    unfold pack
    split
    · show run ++ (item :: (pack weight capacity [] rest).flatMap Bin.items) = _
      rw [ih]
      rfl
    · split
      · show run ++ (pack weight capacity [item] rest).flatMap Bin.items = _
        rw [ih]
        rfl
      · rw [ih, List.append_assoc]
        rfl

theorem mem_of_mem_bin {items : List σ} {bin : Bin σ} {item : σ}
    (hbin : bin ∈ pack weight capacity [] items) (h : item ∈ bin.items) : item ∈ items := by
  have hmem : item ∈ (pack weight capacity [] items).flatMap Bin.items :=
    List.mem_flatMap.2 ⟨bin, hbin, h⟩
  rw [pack_items] at hmem
  exact hmem

/-- An item that stays alone is heavy. -/
theorem heavy_of_single_mem {run items : List σ} {item : σ}
    (h : .single item ∈ pack weight capacity run items) :
    item ∈ items ∧ capacity < weight item := by
  induction items generalizing run with
  | nil => exact absurd (List.mem_singleton.1 h) nofun
  | cons first rest ih =>
    unfold pack at h
    split at h
    · next hheavy =>
        rcases List.mem_cons.1 h with hrun | h
        · exact absurd hrun nofun
        rcases List.mem_cons.1 h with hsingle | h
        · cases hsingle
          exact ⟨List.mem_cons_self, hheavy⟩
        · exact (ih h).imp_left (List.mem_cons_of_mem _)
    · split at h
      · rcases List.mem_cons.1 h with hrun | h
        · exact absurd hrun nofun
        · exact (ih h).imp_left (List.mem_cons_of_mem _)
      · exact (ih h).imp_left (List.mem_cons_of_mem _)

/-- A heavy item stays alone. -/
theorem single_mem_pack {run items : List σ} {item : σ} (hmem : item ∈ items)
    (hheavy : capacity < weight item) : .single item ∈ pack weight capacity run items := by
  induction items generalizing run with
  | nil => exact absurd hmem List.not_mem_nil
  | cons first rest ih =>
    unfold pack
    by_cases hfirst : capacity < weight first
    · rw [if_pos hfirst]
      rcases List.mem_cons.1 hmem with rfl | hrest
      · exact List.mem_cons_of_mem _ List.mem_cons_self
      · exact List.mem_cons_of_mem _ (List.mem_cons_of_mem _ (ih hrest))
    · rw [if_neg hfirst]
      have hrest : item ∈ rest := by
        rcases List.mem_cons.1 hmem with rfl | hrest
        · exact absurd hheavy hfirst
        · exact hrest
      split
      · exact List.mem_cons_of_mem _ (ih hrest)
      · exact ih hrest

/-- Only the weights matter for what is packed together. -/
theorem pack_map {weight' : τ → Nat} (f : σ → τ) (hweight : ∀ item, weight' (f item) = weight item)
    (run items : List σ) :
    pack weight' capacity (run.map f) (items.map f) =
      (pack weight capacity run items).map (Bin.map f) := by
  have hsum : ∀ run : List σ, ((run.map f).map weight').sum = (run.map weight).sum := by
    intro run
    rw [List.map_map]
    exact congrArg List.sum (List.map_congr_left fun item _ => hweight item)
  induction items generalizing run with
  | nil => rfl
  | cons item rest ih =>
    have hnone := ih []
    have hone := ih [item]
    have hmore := ih (run ++ [item])
    rw [List.map_append] at hmore
    unfold pack
    rw [List.map_cons]
    simp only [hweight, hsum]
    split
    · exact congrArg _ (congrArg _ hnone)
    · split
      · exact congrArg _ hone
      · exact hmore

end Packing
