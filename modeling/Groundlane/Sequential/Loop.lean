import Mathlib.Tactic.Common

/-!
# Loops

A `while` loop is run for a number of rounds at most (`loop`); it terminates when from some number
on its result stays the same (`Settles`). An invariant of the rounds holds at the end
(`loop_invariant`). A measure that every round lowers bounds the rounds (`loop_of_measure`), and an
invariant under which the test never fails keeps the loop going for ever (`loop_eq_none`).
-/

namespace Sequential

variable {σ : Type} {test : σ → Bool} {body : σ → σ}

/-- `while (test) body`, for `fuel` tests at most. -/
def loop (test : σ → Bool) (body : σ → σ) : Nat → σ → Option σ
  | 0, _ => none
  | fuel + 1, state => if test state then loop test body fuel (body state) else some state

/-- From some number of rounds on, the result is there and stays the same. -/
def Settles {α : Type} (compute : Nat → Option α) (result : α) : Prop :=
  ∃ fuel, ∀ more, fuel ≤ more → compute more = some result

/-- There is one result. -/
theorem Settles.unique {α : Type} {compute : Nat → Option α} {result other : α}
    (h : Settles compute result) (hother : Settles compute other) : result = other := by
  obtain ⟨fuel, hfuel⟩ := h
  obtain ⟨fuel', hfuel'⟩ := hother
  have hsame := (hfuel (max fuel fuel') (by omega)).symm.trans (hfuel' _ (by omega))
  exact Option.some.inj hsame

theorem Settles.pure {α : Type} (result : α) : Settles (fun _ => some result) result :=
  ⟨0, fun _ _ => rfl⟩

theorem Settles.bind {α β : Type} {first : Nat → Option α} {second : Nat → α → Option β}
    {middle : α} {result : β} (hfirst : Settles first middle)
    (hsecond : Settles (fun fuel => second fuel middle) result) :
    Settles (fun fuel => (first fuel).bind (second fuel)) result := by
  obtain ⟨fuel, hfuel⟩ := hfirst
  obtain ⟨fuel', hfuel'⟩ := hsecond
  refine ⟨max fuel fuel', fun more hmore => ?_⟩
  show (first more).bind (second more) = some result
  rw [hfuel more (by omega)]
  exact hfuel' more (by omega)

theorem Settles.map {α β : Type} {compute : Nat → Option α} {result : α} (f : α → β)
    (h : Settles compute result) : Settles (fun fuel => (compute fuel).map f) (f result) := by
  obtain ⟨fuel, hfuel⟩ := h
  refine ⟨fuel, fun more hmore => ?_⟩
  show (compute more).map f = _
  rw [hfuel more hmore]
  rfl

/-- A loop that ends keeps what every round keeps, and its test fails. -/
theorem loop_invariant (Inv : σ → Prop)
    (hround : ∀ state, Inv state → test state = true → Inv (body state)) {fuel : Nat}
    {state result : σ} (hinv : Inv state) (h : loop test body fuel state = some result) :
    Inv result ∧ test result = false := by
  induction fuel generalizing state with
  | zero => cases h
  | succ fuel ih =>
    unfold loop at h
    split at h
    · next htest => exact ih (hround state hinv htest) h
    · next htest =>
        cases h
        exact ⟨hinv, Bool.eq_false_iff.2 htest⟩

/-- A loop whose rounds lower a measure takes no more rounds than the measure says. -/
theorem loop_of_measure (Inv : σ → Prop) (measure : σ → Nat)
    (hround : ∀ state, Inv state → test state = true →
      Inv (body state) ∧ measure (body state) < measure state)
    {state : σ} (hinv : Inv state) :
    ∃ result, Settles (fun fuel => loop test body fuel state) result := by
  have hbound : ∀ (bound : Nat) (state : σ), Inv state → measure state < bound →
      ∃ result, ∀ more, bound ≤ more → loop test body more state = some result := by
    intro bound
    induction bound with
    | zero => exact fun state _ hlt => absurd hlt (Nat.not_lt_zero _)
    | succ bound ih =>
      intro state hinv hlt
      by_cases htest : test state = true
      · obtain ⟨hnext, hlower⟩ := hround state hinv htest
        obtain ⟨result, hresult⟩ := ih (body state) hnext (by omega)
        refine ⟨result, fun more hmore => ?_⟩
        obtain ⟨more, rfl⟩ : ∃ rest, more = rest + 1 := ⟨more - 1, by omega⟩
        unfold loop
        rw [if_pos htest]
        exact hresult more (by omega)
      · refine ⟨state, fun more hmore => ?_⟩
        obtain ⟨more, rfl⟩ : ∃ rest, more = rest + 1 := ⟨more - 1, by omega⟩
        unfold loop
        exact if_neg htest
  obtain ⟨result, hresult⟩ := hbound _ state hinv (Nat.lt_succ_self _)
  exact ⟨result, _, hresult⟩

/-- A loop whose test holds whatever happens does not terminate. -/
theorem loop_eq_none (Inv : σ → Prop)
    (hround : ∀ state, Inv state → test state = true ∧ Inv (body state))
    {state : σ} (hinv : Inv state) (fuel : Nat) : loop test body fuel state = none := by
  induction fuel generalizing state with
  | zero => rfl
  | succ fuel ih =>
    obtain ⟨htest, hnext⟩ := hround state hinv
    unfold loop
    rw [if_pos htest]
    exact ih hnext

end Sequential
