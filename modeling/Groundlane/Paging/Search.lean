import Mathlib.Tactic.Common

/-!
# Searching for a count that fits

The binary search for a largest count: a middle count that fits becomes the lower bound, one that
does not fit ends the range. Nothing is assumed of the test. When it is not monotone the search
may miss the largest count that fits, but what it finds fits if the lower bound does
(`lastFitting_fits`), it is not below a count up to which every count fits
(`le_lastFitting_of_fits`), and it is the upper bound only if the count before that fits too
(`fits_of_lastFitting_eq`).
-/

namespace Paging

/-- The loop, with as much fuel as there are counts between the bounds. -/
def searchFitting (fits : Nat → Bool) : Nat → Nat → Nat → Nat
  | 0, low, _ => low
  | fuel + 1, low, high =>
    if low < high then
      if fits ((low + high + 1) / 2) then searchFitting fits fuel ((low + high + 1) / 2) high
      else searchFitting fits fuel low ((low + high + 1) / 2 - 1)
    else low

/-- The count that the search finds. -/
def lastFitting (fits : Nat → Bool) (low high : Nat) : Nat :=
  searchFitting fits (high - low) low high

variable {fits : Nat → Bool} {low high : Nat}

/-- More fuel changes nothing. -/
theorem searchFitting_fuel {fuel more : Nat} (hfuel : high - low ≤ fuel) (hmore : fuel ≤ more) :
    searchFitting fits more low high = searchFitting fits fuel low high := by
  induction fuel generalizing more low high with
  | zero =>
    have hdone : ¬ low < high := by omega
    cases more with
    | zero => rfl
    | succ more =>
      unfold searchFitting
      rw [if_neg hdone]
  | succ fuel ih =>
    obtain ⟨more, rfl⟩ : ∃ rest, more = rest + 1 := ⟨more - 1, by omega⟩
    unfold searchFitting
    by_cases hlow : low < high
    · rw [if_pos hlow, if_pos hlow]
      split
      · exact ih (by omega) (by omega)
      · exact ih (by omega) (by omega)
    · rw [if_neg hlow, if_neg hlow]

/-- One round of the loop. -/
theorem lastFitting_eq (fits : Nat → Bool) (low high : Nat) :
    lastFitting fits low high =
      if low < high then
        if fits ((low + high + 1) / 2) then lastFitting fits ((low + high + 1) / 2) high
        else lastFitting fits low ((low + high + 1) / 2 - 1)
      else low := by
  unfold lastFitting
  by_cases hlow : low < high
  · obtain ⟨fuel, hfuel⟩ : ∃ fuel, high - low = fuel + 1 := ⟨high - low - 1, by omega⟩
    rw [hfuel, if_pos hlow]
    conv_lhs => unfold searchFitting
    rw [if_pos hlow]
    split
    · exact searchFitting_fuel (by omega) (by omega)
    · exact searchFitting_fuel (by omega) (by omega)
  · rw [if_neg hlow, show high - low = 0 by omega]
    rfl

/-- The loop stays within its bounds, and its lower bound fits if it did at the start. -/
theorem searchFitting_spec (fuel : Nat) (h : low ≤ high) :
    low ≤ searchFitting fits fuel low high ∧ searchFitting fits fuel low high ≤ high ∧
      (fits low = true → fits (searchFitting fits fuel low high) = true) := by
  induction fuel generalizing low high with
  | zero => exact ⟨Nat.le_refl low, h, id⟩
  | succ fuel ih =>
    unfold searchFitting
    by_cases hlow : low < high
    · rw [if_pos hlow]
      split
      · rename_i hmiddle
        have hrange : (low + high + 1) / 2 ≤ high := by omega
        obtain ⟨hlower, hupper, hfits⟩ := ih hrange
        exact ⟨by omega, hupper, fun _ => hfits hmiddle⟩
      · have hrange : low ≤ (low + high + 1) / 2 - 1 := by omega
        obtain ⟨hlower, hupper, hfits⟩ := ih hrange
        exact ⟨hlower, by omega, hfits⟩
    · rw [if_neg hlow]
      exact ⟨Nat.le_refl low, h, id⟩

/-- What is found is not below the lower bound. -/
theorem le_lastFitting (fits : Nat → Bool) (h : low ≤ high) : low ≤ lastFitting fits low high :=
  (searchFitting_spec (high - low) h).1

/-- What is found is not above the upper bound. -/
theorem lastFitting_le (fits : Nat → Bool) (h : low ≤ high) : lastFitting fits low high ≤ high :=
  (searchFitting_spec (high - low) h).2.1

/-- What is found fits, if the lower bound does. -/
theorem lastFitting_fits (h : low ≤ high) (hfits : fits low = true) :
    fits (lastFitting fits low high) = true :=
  (searchFitting_spec (high - low) h).2.2 hfits

/-- The search does not stop below a count up to which every count fits. -/
theorem le_lastFitting_of_fits {count : Nat} (hcount : count ≤ high) (hlow : low ≤ high)
    (h : ∀ smaller, low < smaller → smaller ≤ count → fits smaller = true) :
    count ≤ lastFitting fits low high := by
  induction hrange : high - low using Nat.strongRecOn generalizing low high with
  | ind range ih =>
    rw [lastFitting_eq]
    by_cases hmore : low < high
    · rw [if_pos hmore]
      split
      · exact ih _ (by omega) hcount (by omega) (fun smaller hsmaller => h smaller (by omega)) rfl
      · rename_i hmiddle
        have habove : count < (low + high + 1) / 2 := by
          by_contra hnot
          exact hmiddle (h _ (by omega) (by omega))
        exact ih _ (by omega) (by omega) (by omega) h rfl
    · rw [if_neg hmore]
      omega

/-- The search reaches the upper bound only from the count before it. -/
theorem fits_of_lastFitting_eq (hlow : low < high) (h : lastFitting fits low high = high) :
    fits high = true ∧ (low < high - 1 → fits (high - 1) = true) := by
  induction hrange : high - low using Nat.strongRecOn generalizing low with
  | ind range ih =>
    rw [lastFitting_eq, if_pos hlow] at h
    split at h
    · rename_i hmiddle
      by_cases hlast : (low + high + 1) / 2 = high
      · -- The range was one count long.
        rw [hlast] at hmiddle
        exact ⟨hmiddle, fun hbefore => by omega⟩
      · obtain ⟨hhigh, hbefore⟩ := ih _ (by omega) (by omega) h rfl
        refine ⟨hhigh, fun _ => ?_⟩
        by_cases hnext : (low + high + 1) / 2 = high - 1
        · rw [← hnext]
          exact hmiddle
        · exact hbefore (by omega)
    · have hle := lastFitting_le fits (show low ≤ (low + high + 1) / 2 - 1 by omega)
      omega

end Paging
