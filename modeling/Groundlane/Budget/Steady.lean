import Groundlane.Budget.Limits

/-!
# Budgets within one period

As long as every reading of the clock lies in the period that a tracker counts in, nothing lapses:
what is left of a limit is the limit less the attempts that were counted, looking does not change
it, and an attempt takes one (`Steady.tryConsume_left`). The pipeline is given a tracker or a
composite of trackers; both behave in this way.
-/

namespace Groundlane

open Calendar

variable {clock : Clock} {provider : SearchProviderId} {tick : Nat}

namespace SearchBudgetTracker

/-- What is left of the limit of a provider. -/
def left (tracker : SearchBudgetTracker) (provider : SearchProviderId) : Option Nat :=
  (tracker.limit? provider).map fun limit => limit - tracker.stored provider

/-- All readings of the clock lie in the period of what is stored. -/
def Steady (clock : Clock) : SearchBudgetTracker → Prop
  | calendar budget => ∀ k, budget.kind.current (clock.reading k) = budget.period
  | minute limiter =>
    (∀ j k, clock.reading k - 60000 < clock.reading j) ∧
      ∀ k provider, ∀ use ∈ limiter.times provider, clock.reading k - 60000 < use

end SearchBudgetTracker

open SearchBudgetTracker

/-! ## One tracker -/

/-- Within the period there is nothing to reset. -/
theorem CalendarBudget.resetIfNeeded_of_steady {budget : CalendarBudget}
    (h : (calendar budget).Steady clock) :
    budget.resetIfNeeded (clock.reading tick) = budget := by
  unfold resetIfNeeded
  dsimp only
  rw [if_pos (h tick)]

/-- Within a minute there is nothing to prune. -/
theorem MinuteRateLimiter.prune_of_steady {limiter : MinuteRateLimiter}
    (h : (minute limiter).Steady clock) (other : SearchProviderId) :
    (limiter.prune clock provider tick).1.times other = limiter.times other := by
  by_cases hother : other = provider
  · rw [hother, prune_times_self, List.filter_eq_self]
    exact fun use huse => decide_eq_true (h.2 tick provider use huse)
  · exact prune_times_of_ne hother

namespace SearchBudgetTracker

variable {tracker : SearchBudgetTracker}

/-- A tracker after it was looked at within the period. -/
structure Same (clock : Clock) (before after : SearchBudgetTracker) : Prop where
  steady : after.Steady clock
  left : ∀ provider, after.left provider = before.left provider

/-- A tracker after it was asked for an attempt within the period. -/
structure Takes (clock : Clock) (provider : SearchProviderId)
    (before after : SearchBudgetTracker) : Prop where
  steady : after.Steady clock
  self : after.left provider = (before.left provider).map (· - 1)
  other : ∀ other, other ≠ provider → after.left other = before.left other

/-- A pruned limiter is the same within a minute. -/
theorem same_prune {limiter : MinuteRateLimiter} (h : (minute limiter).Steady clock) :
    Same clock (minute limiter) (minute (limiter.prune clock provider tick).1) where
  steady := ⟨h.1, fun k other use huse =>
    h.2 k other use (MinuteRateLimiter.prune_of_steady h other ▸ huse)⟩
  left other := by
    show (Limits.get? _ _).map _ = (Limits.get? _ _).map _
    rw [show (minute (limiter.prune clock provider tick).1).limits = limiter.limits from
      MinuteRateLimiter.prune_limits]
    show Option.map (fun limit => limit - (MinuteRateLimiter.times _ _).length) _ = _
    rw [MinuteRateLimiter.prune_of_steady h other]
    rfl

/-- `remaining` answers what is left and leaves it. -/
theorem remaining_steady (provider : SearchProviderId) (tick : Nat)
    (h : tracker.Steady clock) :
    (tracker.remaining clock provider tick).1 = tracker.left provider ∧
      Same clock tracker (tracker.remaining clock provider tick).2.1 := by
  cases tracker with
  | calendar budget =>
    unfold SearchBudgetTracker.remaining CalendarBudget.remaining
    dsimp only
    rw [CalendarBudget.resetIfNeeded_of_steady h]
    exact ⟨rfl, h, fun _ => rfl⟩
  | minute limiter =>
    unfold SearchBudgetTracker.remaining
    dsimp only
    cases hlimit : limiter.limits.get? provider with
    | none =>
      rw [MinuteRateLimiter.remaining_of_none hlimit]
      refine ⟨?_, h, fun _ => rfl⟩
      show none = (limiter.limits.get? provider).map _
      rw [hlimit]
      rfl
    | some limit =>
      rw [MinuteRateLimiter.remaining_of_some hlimit]
      refine ⟨?_, same_prune h⟩
      show some (limit - _) = (limiter.limits.get? provider).map _
      rw [hlimit, MinuteRateLimiter.prune_of_steady h]
      rfl

/-- What is left after one more attempt was stored. -/
theorem takes_of_stored {after : SearchBudgetTracker} (hsteady : after.Steady clock)
    (hlimits : after.limits = tracker.limits)
    (hself : tracker.limit? provider ≠ none →
      after.stored provider = tracker.stored provider + 1)
    (hother : ∀ other, other ≠ provider → after.stored other = tracker.stored other) :
    Takes clock provider tracker after where
  steady := hsteady
  self := by
    unfold left limit?
    rw [hlimits]
    cases hlimit : tracker.limits.get? provider with
    | none => rfl
    | some limit =>
      have hstored := hself (by
        show tracker.limits.get? provider ≠ none
        rw [hlimit]
        nofun)
      simp only [Option.map_some, hstored, Option.some.injEq]
      omega
  other other hne := by
    unfold left limit?
    rw [hlimits, hother other hne]

/-- `tryConsume` takes an attempt, if one is left. -/
theorem tryConsume_steady (provider : SearchProviderId) (tick : Nat)
    (h : tracker.Steady clock) :
    Takes clock provider tracker (tracker.tryConsume clock provider tick).2.1 := by
  cases tracker with
  | calendar budget =>
    unfold SearchBudgetTracker.tryConsume CalendarBudget.tryConsume
    dsimp only
    rw [CalendarBudget.resetIfNeeded_of_steady h]
    cases hlimit : budget.budgets.get? provider with
    | none => refine takes_of_stored h rfl (fun hsome => absurd hlimit hsome) fun _ _ => rfl
    | some limit =>
      dsimp only
      by_cases hfull : limit ≤ budget.attempts provider
      · rw [if_pos hfull]
        refine ⟨h, ?_, fun _ _ => rfl⟩
        show (budget.budgets.get? provider).map _ =
          ((budget.budgets.get? provider).map _).map _
        rw [hlimit]
        show some (limit - budget.attempts provider) =
          some (limit - budget.attempts provider - 1)
        rw [Nat.sub_eq_zero_of_le hfull]
      · rw [if_neg hfull]
        exact takes_of_stored h rfl (fun _ => Function.update_self ..)
          fun _ hne => Function.update_of_ne hne ..
  | minute limiter =>
    unfold SearchBudgetTracker.tryConsume
    dsimp only
    cases hlimit : limiter.limits.get? provider with
    | none =>
      rw [MinuteRateLimiter.tryConsume_of_none hlimit]
      exact takes_of_stored h rfl (fun hsome => absurd hlimit hsome) fun _ _ => rfl
    | some limit =>
      rw [MinuteRateLimiter.tryConsume_of_some hlimit]
      dsimp only
      rw [MinuteRateLimiter.prune_of_steady h]
      have hsame : Same clock (minute limiter) (minute (limiter.prune clock provider tick).1) :=
        same_prune h
      by_cases hfull : limit ≤ (limiter.times provider).length
      · rw [if_pos hfull]
        refine ⟨hsame.steady, ?_, fun other _ => hsame.left other⟩
        rw [hsame.left]
        show (limiter.limits.get? provider).map _ =
          ((limiter.limits.get? provider).map _).map _
        rw [hlimit]
        show some (limit - (limiter.times provider).length) =
          some (limit - (limiter.times provider).length - 1)
        rw [Nat.sub_eq_zero_of_le hfull]
      · rw [if_neg hfull]
        refine takes_of_stored ⟨h.1, fun k other use huse => ?_⟩
          MinuteRateLimiter.prune_limits (fun _ => ?_) fun other hne => ?_
        · by_cases hother : other = provider
          · rw [hother, MinuteRateLimiter.setTimes_times_self, Option.getD_some] at huse
            rcases List.mem_append.1 huse with hold | hnew
            · exact h.2 k provider use hold
            · rw [List.mem_singleton.1 hnew]
              exact h.1 _ k
          · rw [MinuteRateLimiter.setTimes_times_of_ne hother,
              MinuteRateLimiter.prune_of_steady h] at huse
            exact h.2 k other use huse
        · show (MinuteRateLimiter.times _ _).length = (limiter.times provider).length + 1
          rw [MinuteRateLimiter.setTimes_times_self, Option.getD_some, List.length_append]
          rfl
        · show (MinuteRateLimiter.times _ _).length = (limiter.times other).length
          rw [MinuteRateLimiter.setTimes_times_of_ne hne, MinuteRateLimiter.prune_of_steady h]

end SearchBudgetTracker

/-! ## Composites -/

namespace CompositeSearchBudget

/-- The least of what is left, among the trackers that limit a provider. -/
def leastLeft (provider : SearchProviderId) : List Metered → Option Nat
  | [] => none
  | first :: rest =>
    match first.tracker.left provider, leastLeft provider rest with
    | none, least => least
    | some left, none => some left
    | some left, some least => some (min left least)

/-- All readings of the clock lie in the periods of all trackers. -/
def AllSteady (clock : Clock) (trackers : List Metered) : Prop :=
  ∀ metered ∈ trackers, metered.tracker.Steady clock

variable {trackers : List Metered}

theorem leastLeft_cons (first : Metered) (rest : List Metered) :
    leastLeft provider (first :: rest) =
      match first.tracker.left provider, leastLeft provider rest with
      | none, least => least
      | some left, none => some left
      | some left, some least => some (min left least) := rfl

variable {after : List Metered}

/-- Looking at the trackers leaves what is left of them. -/
theorem leastLeft_of_same
    (h : List.Forall₂ (fun before after => Same clock before.tracker after.tracker)
      trackers after) : leastLeft provider after = leastLeft provider trackers := by
  induction h with
  | nil => rfl
  | cons hfirst _ ih => rw [leastLeft_cons, leastLeft_cons, hfirst.left, ih]

/-- Every tracker takes an attempt, so the least of what is left is one less. -/
theorem leastLeft_of_takes
    (h : List.Forall₂ (fun before after => Takes clock provider before.tracker after.tracker)
      trackers after) : leastLeft provider after = (leastLeft provider trackers).map (· - 1) ∧
      ∀ other, other ≠ provider → leastLeft other after = leastLeft other trackers := by
  induction h with
  | nil => exact ⟨rfl, fun _ _ => rfl⟩
  | @cons first first' rest rest' hfirst _ ih =>
    constructor
    · rw [leastLeft_cons, leastLeft_cons, hfirst.self, ih.1]
      cases first.tracker.left provider <;> cases leastLeft provider rest
      · rfl
      · rfl
      · rfl
      · simp only [Option.map_some, Option.some.injEq]
        omega
    · intro other hne
      rw [leastLeft_cons, leastLeft_cons, hfirst.other other hne, ih.2 other hne]

/-- Trackers that were looked at are steady. -/
theorem allSteady_of_same
    (h : List.Forall₂ (fun before after => Same clock before.tracker after.tracker)
      trackers after) : AllSteady clock after := by
  induction h with
  | nil => exact nofun
  | cons hfirst _ ih => exact List.forall_mem_cons.2 ⟨hfirst.steady, ih⟩

/-- Trackers that were asked for an attempt are steady. -/
theorem allSteady_of_takes
    (h : List.Forall₂ (fun before after => Takes clock provider before.tracker after.tracker)
      trackers after) : AllSteady clock after := by
  induction h with
  | nil => exact nofun
  | cons hfirst _ ih => exact List.forall_mem_cons.2 ⟨hfirst.steady, ih⟩

/-- The first loop of `tryConsume` looks at the trackers and asks whether nothing is left. -/
theorem allRemaining_steady (provider : SearchProviderId) (tick : Nat)
    (h : AllSteady clock trackers) :
    let result := allRemaining clock provider trackers tick
    List.Forall₂ (fun before after => Same clock before.tracker after.tracker) trackers result.2.1 ∧
      (result.1 = false → leastLeft provider trackers = some 0) := by
  induction trackers generalizing tick with
  | nil => exact ⟨.nil, nofun⟩
  | cons first rest ih =>
    obtain ⟨hfirst, hrest⟩ := List.forall_mem_cons.1 h
    obtain ⟨hanswer, hsame⟩ := remaining_steady provider tick hfirst
    obtain ⟨hsames, hnone⟩ := ih (first.remaining clock provider tick).2.2 hrest
    unfold allRemaining
    dsimp only
    by_cases hzero : (first.remaining clock provider tick).1 = some 0
    · rw [if_pos hzero]
      refine ⟨.cons hsame (List.forall₂_same.2 fun metered hmem =>
        ⟨hrest metered hmem, fun _ => rfl⟩), fun _ => ?_⟩
      have hleft : first.tracker.left provider = some 0 := hanswer.symm.trans hzero
      rw [leastLeft_cons, hleft]
      cases leastLeft provider rest with
      | none => rfl
      | some least => exact congrArg some (Nat.zero_min least)
    · rw [if_neg hzero]
      refine ⟨.cons hsame hsames, fun hall => ?_⟩
      rw [leastLeft_cons, hnone hall]
      cases first.tracker.left provider with
      | none => rfl
      | some left => exact congrArg some (Nat.min_zero left)

/-- The second loop of `tryConsume` takes an attempt from each tracker. -/
theorem consumeAll_steady (provider : SearchProviderId) (tick : Nat)
    (h : AllSteady clock trackers) :
    List.Forall₂ (fun before after => Takes clock provider before.tracker after.tracker)
      trackers (consumeAll clock provider trackers tick).1 := by
  induction trackers generalizing tick with
  | nil => exact .nil
  | cons first rest ih =>
    obtain ⟨hfirst, hrest⟩ := List.forall_mem_cons.1 h
    exact .cons (tryConsume_steady provider tick hfirst) (ih _ hrest)

/-- The loop of `remaining` answers the least of what is left. -/
theorem leastRemaining_steady (provider : SearchProviderId) (least : Option Nat) (tick : Nat)
    (h : AllSteady clock trackers) :
    let result := leastRemaining clock provider trackers least tick
    List.Forall₂ (fun before after => Same clock before.tracker after.tracker) trackers result.2.1 ∧
      result.1 = match least, leastLeft provider trackers with
        | none, left => left
        | some least, none => some least
        | some least, some left => some (min least left) := by
  induction trackers generalizing least tick with
  | nil =>
    refine ⟨.nil, ?_⟩
    cases least <;> rfl
  | cons first rest ih =>
    obtain ⟨hfirst, hrest⟩ := List.forall_mem_cons.1 h
    obtain ⟨hanswer, hsame⟩ := remaining_steady provider tick hfirst
    have hanswer : (first.remaining clock provider tick).1 = first.tracker.left provider :=
      hanswer
    unfold leastRemaining
    dsimp only
    obtain ⟨hsames, hleast⟩ := ih _ (first.remaining clock provider tick).2.2 hrest
    refine ⟨.cons hsame hsames, hleast.trans ?_⟩
    rw [leastLeft_cons, hanswer]
    cases first.tracker.left provider with
    | none => rfl
    | some left =>
      cases least with
      | none => cases leastLeft provider rest <;> rfl
      | some least =>
        have hmin : (if left < least then some left else some least) =
            some (min least left) := by
          by_cases hlt : left < least
          · rw [if_pos hlt, Nat.min_eq_right (Nat.le_of_lt hlt)]
          · rw [if_neg hlt, Nat.min_eq_left (Nat.le_of_not_lt hlt)]
        dsimp only
        rw [hmin]
        cases leastLeft provider rest with
        | none => rfl
        | some others => exact congrArg some (Nat.min_assoc least left others)

end CompositeSearchBudget

/-! ## The budget of the pipeline -/

/-- The budget that the pipeline is given, one tracker or a composite, with the number of readings
taken from the clock. -/
inductive BackendBudget where
  | single (tracker : SearchBudgetTracker) (tick : Nat)
  | composite (budget : CompositeSearchBudget) (tick : Nat)

namespace BackendBudget

/-- `remaining`. -/
def remaining (clock : Clock) (provider : SearchProviderId) :
    BackendBudget → Option Nat × BackendBudget
  | single tracker tick =>
    let (left, tracker, tick) := tracker.remaining clock provider tick
    (left, single tracker tick)
  | composite budget tick =>
    let (left, budget, tick) := budget.remaining clock provider tick
    (left, composite budget tick)

/-- `tryConsume`. -/
def tryConsume (clock : Clock) (provider : SearchProviderId) :
    BackendBudget → Bool × BackendBudget
  | single tracker tick =>
    let (consumed, tracker, tick) := tracker.tryConsume clock provider tick
    (consumed, single tracker tick)
  | composite budget tick =>
    let (consumed, budget, tick) := budget.tryConsume clock provider tick
    (consumed, composite budget tick)

/-- What is left of the limit of a provider. -/
def left : BackendBudget → SearchProviderId → Option Nat
  | single tracker _, provider => tracker.left provider
  | composite budget _, provider => CompositeSearchBudget.leastLeft provider budget.trackers

/-- All readings of the clock lie in the periods of the budget. -/
def Steady (clock : Clock) : BackendBudget → Prop
  | single tracker _ => tracker.Steady clock
  | composite budget _ => CompositeSearchBudget.AllSteady clock budget.trackers

variable {budget : BackendBudget}

/-- `remaining` leaves what is left. -/
theorem Steady.remaining (h : budget.Steady clock) (provider : SearchProviderId) :
    (budget.remaining clock provider).2.Steady clock ∧
      ∀ other, (budget.remaining clock provider).2.left other = budget.left other := by
  cases budget with
  | single tracker tick =>
    have hsame := (remaining_steady provider tick h).2
    exact ⟨hsame.steady, hsame.left⟩
  | composite budget tick =>
    have hsame := (CompositeSearchBudget.leastRemaining_steady provider none tick h).1
    exact ⟨CompositeSearchBudget.allSteady_of_same hsame,
      fun other => CompositeSearchBudget.leastLeft_of_same hsame⟩

/-- `tryConsume` takes one of what is left of a provider. -/
theorem Steady.tryConsume (h : budget.Steady clock) (provider : SearchProviderId) :
    (budget.tryConsume clock provider).2.Steady clock ∧
      (budget.tryConsume clock provider).2.left provider =
        (budget.left provider).map (· - 1) ∧
      ∀ other, other ≠ provider →
        (budget.tryConsume clock provider).2.left other = budget.left other := by
  cases budget with
  | single tracker tick =>
    have htakes := tryConsume_steady provider tick h
    exact ⟨htakes.steady, htakes.self, htakes.other⟩
  | composite budget tick =>
    obtain ⟨hsame, hnone⟩ := CompositeSearchBudget.allRemaining_steady provider tick h
    have hsteady := CompositeSearchBudget.allSteady_of_same hsame
    unfold BackendBudget.tryConsume CompositeSearchBudget.tryConsume
    dsimp only
    by_cases hall :
        (CompositeSearchBudget.allRemaining clock provider budget.trackers tick).1 = true
    · rw [if_pos hall]
      have htakes := CompositeSearchBudget.consumeAll_steady provider
        (CompositeSearchBudget.allRemaining clock provider budget.trackers tick).2.2 hsteady
      obtain ⟨hself, hother⟩ := CompositeSearchBudget.leastLeft_of_takes htakes
      refine ⟨?_, ?_, fun other hne => ?_⟩
      · exact CompositeSearchBudget.allSteady_of_takes htakes
      · exact hself.trans (congrArg _ (CompositeSearchBudget.leastLeft_of_same hsame))
      · exact (hother other hne).trans (CompositeSearchBudget.leastLeft_of_same hsame)
    · rw [if_neg hall]
      refine ⟨hsteady, ?_, fun other _ => CompositeSearchBudget.leastLeft_of_same hsame⟩
      have hzero := hnone (Bool.eq_false_iff.2 hall)
      show CompositeSearchBudget.leastLeft _ _ =
        (CompositeSearchBudget.leastLeft _ _).map (· - 1)
      rw [CompositeSearchBudget.leastLeft_of_same hsame, hzero]
      rfl

end BackendBudget

end Groundlane
