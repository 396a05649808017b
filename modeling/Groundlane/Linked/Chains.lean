import Mathlib.Logic.Function.Basic
import Mathlib.Logic.Relation

/-!
# Chains of linked elements

Elements that name at most one next and at most one previous element form chains when both
directions agree and no element is reached from itself. Chains stay chains when an element that
has no next one is linked to a fresh element (`Chains.link`).
-/

namespace Linked

open Relation

variable {α : Type} {next prev : α → Option α}

/-- `b` follows `a`. -/
def Follows (next : α → Option α) (a b : α) : Prop :=
  next a = some b

/-- The links of both directions agree and lead nowhere back. -/
structure Chains (next prev : α → Option α) : Prop where
  agree : ∀ a b, next a = some b ↔ prev b = some a
  acyclic : ∀ a, ¬ TransGen (Follows next) a a

namespace Chains

/-- No element is linked. -/
theorem unlinked : Chains (fun _ : α => none) (fun _ => none) where
  agree _ _ := ⟨nofun, nofun⟩
  acyclic a h := by
    obtain ⟨b, hab, -⟩ := TransGen.head'_iff.1 h
    cases hab

/-- An element is followed by at most one other. -/
theorem prev_injective (h : Chains next prev) {a b c : α} (hb : prev b = some a)
    (hc : prev c = some a) : b = c :=
  Option.some.inj (((h.agree a b).2 hb).symm.trans ((h.agree a c).2 hc))

/-- A fresh element may follow an element that none follows yet. -/
theorem link [DecidableEq α] (h : Chains next prev) {a b : α} (hne : a ≠ b) (ha : next a = none)
    (hnext : next b = none) (hprev : prev b = none) :
    Chains (Function.update next a (some b)) (Function.update prev b (some a)) where
  agree x y := by
    by_cases hx : x = a
    · subst hx
      by_cases hy : y = b
      · subst hy
        simp
      · have hyx : prev y ≠ some x := fun hyx => by
          rw [← h.agree, ha] at hyx
          cases hyx
        simp [hy, hyx, Ne.symm hy]
    · by_cases hy : y = b
      · subst hy
        have hxy : next x ≠ some y := fun hxy => by
          rw [h.agree, hprev] at hxy
          cases hxy
        simp [hx, hxy, Ne.symm hx]
      · simp [hx, hy, h.agree]
  acyclic := by
    -- Nothing follows the fresh element, so a cycle would have been there before.
    have hlast : ∀ y, ¬ Follows (Function.update next a (some b)) b y := by
      intro y hy
      rw [Follows, Function.update_of_ne (Ne.symm hne), hnext] at hy
      cases hy
    have hold : ∀ {x y}, Follows (Function.update next a (some b)) x y →
        Follows next x y ∨ y = b := by
      intro x y hxy
      by_cases hx : x = a
      · subst hx
        rw [Follows, Function.update_self] at hxy
        exact .inr (Option.some.inj hxy).symm
      · rw [Follows, Function.update_of_ne hx] at hxy
        exact .inl hxy
    have hpath : ∀ {x y}, TransGen (Follows (Function.update next a (some b))) x y →
        TransGen (Follows next) x y ∨ y = b := by
      intro x y hxy
      induction hxy with
      | single hxy => exact (hold hxy).imp_left .single
      | tail _ hyz ih =>
        rcases ih with ih | rfl
        · exact (hold hyz).imp_left ih.tail
        · exact absurd hyz (hlast _)
    intro x hx
    rcases hpath hx with hcycle | rfl
    · exact h.acyclic x hcycle
    · obtain ⟨y, hxy, -⟩ := TransGen.head'_iff.1 hx
      exact hlast y hxy

end Chains

end Linked
