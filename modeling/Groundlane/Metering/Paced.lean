import Mathlib.Data.List.Count

/-!
# Histories that a meter admits

A meter admits a use at a time when fewer earlier uses than its limit are still alive at that time.
Whatever part of time in which every use outlives the later ones holds at most the limit of uses
(`Paced.within`).
-/

namespace Metering

variable {τ : Type} [LE τ]

/-- A history of uses, each of which was admitted. `alive` tells whether a use still counts at a
later time. -/
inductive Paced (alive : τ → τ → Bool) (limit : Nat) : List τ → Prop where
  | nil : Paced alive limit []
  | append {history : List τ} {now : τ} :
    Paced alive limit history → (∀ use ∈ history, use ≤ now) →
    history.countP (alive · now) < limit → Paced alive limit (history ++ [now])

namespace Paced

variable {alive : τ → τ → Bool} {limit : Nat} {history : List τ}

/-- A part of time in which every use is alive until the last one holds at most the limit. -/
theorem within {part : τ → Bool}
    (halive : ∀ use now, part use = true → part now = true → use ≤ now → alive use now = true)
    (h : Paced alive limit history) : history.countP part ≤ limit := by
  induction h with
  | nil => exact Nat.zero_le _
  | @append history now _ hpast hroom ih =>
    rw [List.countP_append, List.countP_singleton]
    by_cases hnow : part now = true
    · -- The uses of this part are alive at the last one.
      have hle : history.countP part ≤ history.countP (alive · now) :=
        List.countP_mono_left fun use huse hpart => halive use now hpart hnow (hpast use huse)
      rw [if_pos hnow]
      omega
    · rw [if_neg hnow]
      exact ih

end Paced

end Metering
