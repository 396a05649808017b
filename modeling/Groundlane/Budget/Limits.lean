import Groundlane.Budget.Tracker
import Groundlane.Metering.Paced
import Mathlib.Data.List.Forall2
import Std.Data.String.ToInt

/-!
# Attempts stay within their limits

Whatever calls are made on a composite of trackers, the attempts that it let through stay within
the limits of every month, every day and every minute; a refusal leaves all counts as they were,
and an attempt that is let through raises the count of each tracker that limits its provider by
one (`attempts_within_limits`).

The count of a tracker at a time is what a snapshot would then report. Looking at the clock does
not change it (`Keeps`), although looking resets or prunes what is stored.
-/

namespace Groundlane

open Calendar Metering

/-! ## Uses that still count -/

/-- Whether a use lies in the period of a later time. -/
def SearchBudgetPeriod.alive : SearchBudgetPeriod → Int → Int → Bool
  | monthly, use, now => month use = month now
  | daily, use, now => day use = day now
  | minute, use, now => now - 60000 < use

/-- The month, the day or the sixty seconds that a time begins or lies in. -/
def SearchBudgetPeriod.window : SearchBudgetPeriod → Int → Int → Bool
  | monthly, start, time => month time = month start
  | daily, start, time => day time = day start
  | minute, start, time => start ≤ time && time < start + 60000

/-- A use in a window is alive at every later time of the window. -/
theorem SearchBudgetPeriod.alive_of_window (period : SearchBudgetPeriod) {start use now : Int}
    (huse : period.window start use = true) (hnow : period.window start now = true) :
    period.alive use now = true := by
  cases period with
  | monthly =>
    unfold window at huse hnow
    exact decide_eq_true ((of_decide_eq_true huse).trans (of_decide_eq_true hnow).symm)
  | daily =>
    unfold window at huse hnow
    exact decide_eq_true ((of_decide_eq_true huse).trans (of_decide_eq_true hnow).symm)
  | minute =>
    simp only [window, Bool.and_eq_true, decide_eq_true_eq] at huse hnow
    simp only [alive, decide_eq_true_eq]
    omega

variable {tracker : SearchBudgetTracker} (providers : List SearchProviderId)
  (budget : CalendarBudget) {first second third : SearchBudgetTracker} {now later : Int}
  {next : Nat} {limit : Nat} {s t : Int}

/-- A day lies in one month and has one text. -/
theorem currentDay_congr (h : day s = day t) : currentDay s = currentDay t := by
  have hyear : utcFullYear s = utcFullYear t := congrArg yearFromDay h
  unfold currentDay
  by_cases hshort : isShort (utcFullYear s)
  · rw [take_isoText_of_short hshort, take_isoText_of_short (hyear ▸ hshort), dateText_congr h]
  · rw [take_isoText_of_long hshort, take_isoText_of_long (hyear ▸ hshort)]
    unfold monthText utcMonth dayWithinYear
    rw [hyear, h]

/-- A month has one text. -/
theorem currentMonth_congr (h : month s = month t) : currentMonth s = currentMonth t := by
  obtain ⟨hyear, hmonth⟩ := Prod.mk.inj h
  unfold currentMonth monthText
  rw [hyear, hmonth]

/-- The text of a month determines it. -/
theorem month_of_currentMonth (h : currentMonth s = currentMonth t) : month s = month t := by
  have hchars := congrArg String.toList h
  simp only [currentMonth, String.toList_append, String.toList_ofList] at hchars
  obtain ⟨hyears, hmonth⟩ := List.append_inj' hchars (by simp [monthText])
  have hyear : utcFullYear s = utcFullYear t :=
    Int.repr_injective (String.toList_inj.1 (List.append_inj' hyears rfl).1)
  exact Prod.ext hyear (utcMonth_of_monthText hmonth)

namespace CalendarPeriod

/-- A use in the period of a time has the text of that period. -/
theorem current_of_alive (kind : CalendarPeriod) {use now : Int}
    (h : kind.name.alive use now = true) : kind.current use = kind.current now := by
  cases kind with
  | month => exact currentMonth_congr (of_decide_eq_true h)
  | day => exact currentDay_congr (of_decide_eq_true h)

/-- The text of a period does not come back. -/
theorem current_eq_of_between (kind : CalendarPeriod) {r s t : Int} (hr : IsTimeValue r)
    (ht : IsTimeValue t) (hrs : r ≤ s) (hst : s ≤ t) (h : kind.current r = kind.current t) :
    kind.current s = kind.current t := by
  cases kind with
  | month => exact currentMonth_congr (month_eq_of_between hrs hst (month_of_currentMonth h))
  | day =>
    exact congrArg String.ofList
      (take_isoText_eq_of_between hr ht hrs hst (String.ofList_injective h))

end CalendarPeriod

/-! ## Counts -/

namespace SearchBudgetTracker

/-- What is stored for a provider, lapsed or not. -/
def stored : SearchBudgetTracker → SearchProviderId → Nat
  | calendar budget, provider => budget.attempts provider
  | minute limiter, provider => (limiter.times provider).length

/-- The count of a provider at a time, which a snapshot would then report. -/
def count : SearchBudgetTracker → Int → SearchProviderId → Nat
  | calendar budget, now, provider =>
    if budget.kind.current now = budget.period then budget.attempts provider else 0
  | minute limiter, now, provider => (limiter.times provider).countP fun use => now - 60000 < use

/-- Whether an attempt that is counted at `use` is still counted at a later time. -/
def counted : SearchBudgetTracker → Int → Int → Bool
  | calendar budget, use, now => budget.kind.current use = budget.kind.current now
  | minute _, use, now => now - 60000 < use

/-- The period that is stored was seen on the clock. -/
def Seen : SearchBudgetTracker → Int → Prop
  | calendar budget, now =>
    ∃ time, IsTimeValue time ∧ time ≤ now ∧ budget.period = budget.kind.current time
  | minute _, _ => True

/-- A tracker after it was looked at: from a time on it counts as before. -/
structure Keeps (now : Int) (before after : SearchBudgetTracker) : Prop where
  period : after.period = before.period
  limits : after.limits = before.limits
  counted : after.counted = before.counted
  count : ∀ time, IsTimeValue time → now ≤ time → ∀ provider,
    after.count time provider = before.count time provider

/-- A tracker after an attempt of a provider was counted at a time. -/
structure Raises (use : Int) (provider : SearchProviderId)
    (before after : SearchBudgetTracker) : Prop where
  period : after.period = before.period
  limits : after.limits = before.limits
  counted : after.counted = before.counted
  count : ∀ time, IsTimeValue time → use ≤ time → ∀ other,
    after.count time other =
      before.count time other + if other = provider ∧ before.counted use time then 1 else 0

/-- Nothing was looked at. -/
theorem Keeps.refl (now : Int) (tracker : SearchBudgetTracker) : Keeps now tracker tracker :=
  ⟨rfl, rfl, rfl, fun _ _ _ _ => rfl⟩

/-- A tracker that counts as before from a time on does so from a later time on. -/
theorem Keeps.mono {before after : SearchBudgetTracker} (hle : now ≤ later)
    (h : Keeps now before after) : Keeps later before after where
  period := h.period
  limits := h.limits
  counted := h.counted
  count time hvalid htime := h.count time hvalid (Int.le_trans hle htime)

/-- A tracker may be looked at twice. -/
theorem Keeps.trans {now : Int} (h : Keeps now first second) (h' : Keeps now second third) :
    Keeps now first third where
  period := h'.period.trans h.period
  limits := h'.limits.trans h.limits
  counted := h'.counted.trans h.counted
  count time hvalid htime provider :=
    (h'.count time hvalid htime provider).trans (h.count time hvalid htime provider)

/-- A tracker may be looked at before an attempt is counted. -/
theorem Keeps.raises {use : Int} {provider : SearchProviderId} (h : Keeps use first second)
    (h' : Raises use provider second third) : Raises use provider first third where
  period := h'.period.trans h.period
  limits := h'.limits.trans h.limits
  counted := h'.counted.trans h.counted
  count time hvalid htime other := by
    rw [h'.count time hvalid htime other, h.count time hvalid htime other, h.counted]

/-- A period that was seen stays seen. -/
theorem Seen.mono (hle : now ≤ later) (h : tracker.Seen now) : tracker.Seen later := by
  cases tracker with
  | calendar budget =>
    obtain ⟨time, hvalid, htime, hperiod⟩ := h
    exact ⟨time, hvalid, Int.le_trans htime hle, hperiod⟩
  | minute limiter => trivial

end SearchBudgetTracker

/-! ## Looking at the clock -/

open SearchBudgetTracker

namespace CalendarBudget

/-- A reset stores the period of now. -/
theorem resetIfNeeded_period (now : Int) :
    (budget.resetIfNeeded now).period = budget.kind.current now := by
  unfold resetIfNeeded
  dsimp only
  split
  · rename_i h
    exact h.symm
  · rfl

/-- A reset keeps the kind of the budget. -/
@[simp] theorem resetIfNeeded_kind (now : Int) : (budget.resetIfNeeded now).kind = budget.kind := by
  unfold resetIfNeeded
  dsimp only
  split <;> rfl

/-- A reset keeps the limits. -/
@[simp] theorem resetIfNeeded_budgets (now : Int) :
    (budget.resetIfNeeded now).budgets = budget.budgets := by
  unfold resetIfNeeded
  dsimp only
  split <;> rfl

/-- A reset leaves no more attempts than there were. -/
theorem resetIfNeeded_attempts_le (now : Int) (provider : SearchProviderId) :
    (budget.resetIfNeeded now).attempts provider ≤ budget.attempts provider := by
  unfold resetIfNeeded
  dsimp only
  split
  · exact Nat.le_refl _
  · exact Nat.zero_le _

/-- After a reset the period of now was seen. -/
theorem resetIfNeeded_seen {budget : CalendarBudget} (hvalid : IsTimeValue now) (hle : now ≤ later)
    : (calendar (budget.resetIfNeeded now)).Seen later :=
  ⟨now, hvalid, hle, by rw [resetIfNeeded_period, resetIfNeeded_kind]⟩

/-- A reset does not change what is counted from now on. -/
theorem resetIfNeeded_keeps {budget : CalendarBudget} {now : Int}
    (hseen : (calendar budget).Seen now) :
    Keeps now (calendar budget) (calendar (budget.resetIfNeeded now)) where
  period := congrArg CalendarPeriod.name (resetIfNeeded_kind budget now)
  limits := resetIfNeeded_budgets budget now
  counted := by
    show (fun _ _ => decide _) = _
    rw [resetIfNeeded_kind]
    rfl
  count time hvalid htime provider := by
    obtain ⟨_, hlast, hle, hperiod⟩ := hseen
    unfold resetIfNeeded
    dsimp only
    split
    · rfl
    · rename_i hlapsed
      -- The period that has passed by now does not come back.
      have hpassed : budget.kind.current time ≠ budget.period := fun h =>
        hlapsed ((CalendarPeriod.current_eq_of_between _ hlast hvalid hle htime
          (hperiod.symm.trans h.symm)).trans h)
      show (if _ then 0 else 0) = if _ then _ else _
      rw [if_neg hpassed, ite_self]

end CalendarBudget

namespace MinuteRateLimiter

variable {clock : Clock} {provider : SearchProviderId} {limiter : MinuteRateLimiter} {tick : Nat}

@[simp] theorem setTimes_limits (entry : Option (List Int)) :
    (limiter.setTimes provider entry).limits = limiter.limits := rfl

/-- The times of the provider whose entry is replaced. -/
@[simp] theorem setTimes_times_self (entry : Option (List Int)) :
    (limiter.setTimes provider entry).times provider = entry.getD [] := by
  simp [setTimes, times]

/-- The times of any other provider. -/
theorem setTimes_times_of_ne {other : SearchProviderId} (h : other ≠ provider)
    (entry : Option (List Int)) :
    (limiter.setTimes provider entry).times other = limiter.times other := by
  simp [setTimes, times, h]

/-- Pruning keeps the times after the cutoff, if any are stored. -/
theorem prune_times_self :
    (limiter.prune clock provider tick).1.times provider =
      (limiter.times provider).filter fun use => clock.reading tick - 60000 < use := by
  unfold prune
  cases hentry : limiter.timestamps provider with
  | none => simp [times, hentry]
  | some times =>
    dsimp only
    rw [setTimes_times_self]
    have htimes : limiter.times provider = times := by simp [MinuteRateLimiter.times, hentry]
    rw [htimes]
    split
    · rename_i hempty
      exact (List.isEmpty_iff.1 hempty).symm
    · rfl

/-- Pruning leaves other providers alone. -/
theorem prune_times_of_ne {other : SearchProviderId} (h : other ≠ provider) :
    (limiter.prune clock provider tick).1.times other = limiter.times other := by
  unfold prune
  split
  · rfl
  · exact setTimes_times_of_ne h _

/-- Pruning keeps the limits. -/
@[simp] theorem prune_limits :
    (limiter.prune clock provider tick).1.limits = limiter.limits := by
  unfold prune
  split <;> rfl

/-- Pruning reads the clock at most once. -/
theorem le_prune_tick : tick ≤ (limiter.prune clock provider tick).2 := by
  unfold prune
  split
  · exact Nat.le_refl _
  · exact Nat.le_succ _

/-- Pruning leaves no more times than there were. -/
theorem prune_length_le (clock : Clock) (provider : SearchProviderId)
    (limiter : MinuteRateLimiter) (tick : Nat) (other : SearchProviderId) :
    ((limiter.prune clock provider tick).1.times other).length ≤ (limiter.times other).length := by
  by_cases h : other = provider
  · rw [h, prune_times_self]
    exact List.length_filter_le _ _
  · rw [prune_times_of_ne h]

/-- Pruning does not change what is counted from the reading of the clock on. -/
theorem prune_keeps :
    Keeps (clock.reading tick) (minute limiter) (minute (limiter.prune clock provider tick).1) where
  period := rfl
  limits := prune_limits
  counted := rfl
  count time _ htime other := by
    show List.countP _ _ = List.countP _ _
    by_cases h : other = provider
    · rw [h, prune_times_self, List.countP_filter]
      apply List.countP_congr
      intro use _
      simp only [Bool.and_eq_true, decide_eq_true_eq, and_iff_left_iff_imp]
      omega
    · rw [prune_times_of_ne h]

/-- `remaining` of a provider without a limit. -/
theorem remaining_of_none (h : limiter.limits.get? provider = none) :
    limiter.remaining clock provider tick = (none, limiter, tick) := by
  unfold remaining
  rw [h]

/-- `remaining` of a provider with a limit. -/
theorem remaining_of_some (h : limiter.limits.get? provider = some limit) :
    limiter.remaining clock provider tick =
      (some (limit - ((limiter.prune clock provider tick).1.times provider).length),
        limiter.prune clock provider tick) := by
  unfold remaining
  rw [h]

/-- `tryConsume` of a provider without a limit. -/
theorem tryConsume_of_none (h : limiter.limits.get? provider = none) :
    limiter.tryConsume clock provider tick = (true, limiter, tick) := by
  unfold tryConsume
  rw [h]

/-- `tryConsume` of a provider with a limit. -/
theorem tryConsume_of_some (h : limiter.limits.get? provider = some limit) :
    limiter.tryConsume clock provider tick =
      let (limiter, tick) := limiter.prune clock provider tick
      let times := limiter.times provider
      if limit ≤ times.length then (false, limiter, tick)
      else
        (true, limiter.setTimes provider (some (times ++ [clock.reading tick])), tick + 1) := by
  unfold tryConsume
  rw [h]

end MinuteRateLimiter

/-! ## The operations of a tracker -/

variable {clock : Clock} {provider : SearchProviderId} {tick : Nat}

namespace SearchBudgetTracker

/-- A tracker before and after an operation that only looked at it. -/
structure Looked (clock : Clock) (before : SearchBudgetTracker) (tick : Nat)
    (after : SearchBudgetTracker) (next : Nat) : Prop where
  ticks : tick ≤ next
  keeps : Keeps (clock.reading next) before after
  seen : after.Seen (clock.reading next)

/-- What is stored is below the limit. -/
def HasRoom (tracker : SearchBudgetTracker) (provider : SearchProviderId) : Prop :=
  ∀ limit, tracker.limit? provider = some limit → tracker.stored provider < limit

/-- Looking twice. -/
theorem Looked.trans {next last : Nat} (h : Looked clock first tick second next)
    (h' : Looked clock second next third last) : Looked clock first tick third last where
  ticks := Nat.le_trans h.ticks h'.ticks
  keeps := (h.keeps.mono (clock.forward h'.ticks)).trans h'.keeps
  seen := h'.seen

/-- A reset of a calendar budget, with any readings after it. -/
theorem looked_reset {budget : CalendarBudget} (hseen : (calendar budget).Seen (clock.reading tick))
    (hle : tick ≤ next) : Looked clock (calendar budget) tick
      (calendar (budget.resetIfNeeded (clock.reading tick))) next where
  ticks := hle
  keeps := (CalendarBudget.resetIfNeeded_keeps hseen).mono (clock.forward hle)
  seen := CalendarBudget.resetIfNeeded_seen (clock.valid tick) (clock.forward hle)

variable {limiter : MinuteRateLimiter}

/-- A pruning of a limiter. -/
theorem looked_prune :
    Looked clock (minute limiter) tick (minute (limiter.prune clock provider tick).1)
      (limiter.prune clock provider tick).2 where
  ticks := MinuteRateLimiter.le_prune_tick
  keeps := MinuteRateLimiter.prune_keeps.mono (clock.forward MinuteRateLimiter.le_prune_tick)
  seen := trivial

/-- `remaining` only looks, and what it reports to be left is left. -/
theorem remaining_looked (provider : SearchProviderId) (hseen : tracker.Seen (clock.reading tick)) :
    Looked clock tracker tick (tracker.remaining clock provider tick).2.1
        (tracker.remaining clock provider tick).2.2 ∧
      ((tracker.remaining clock provider tick).1 ≠ some 0 →
        (tracker.remaining clock provider tick).2.1.HasRoom provider) := by
  cases tracker with
  | calendar budget =>
    refine ⟨looked_reset hseen (Nat.le_succ _), fun hleft limit hlimit => ?_⟩
    have hlimit : (budget.resetIfNeeded (clock.reading tick)).budgets.get? provider
      = some limit := hlimit
    have hleft : ((budget.resetIfNeeded (clock.reading tick)).budgets.get? provider).map
      (fun limit => limit - (budget.resetIfNeeded (clock.reading tick)).attempts provider)
      ≠ some 0 := hleft
    rw [hlimit, Option.map_some] at hleft
    show (budget.resetIfNeeded (clock.reading tick)).attempts provider < limit
    exact Nat.lt_of_sub_ne_zero fun hzero => hleft (congrArg some hzero)
  | minute limiter =>
    unfold SearchBudgetTracker.remaining
    cases hget : limiter.limits.get? provider with
    | none =>
      dsimp only
      rw [MinuteRateLimiter.remaining_of_none hget]
      refine ⟨⟨Nat.le_refl _, Keeps.refl _ _, trivial⟩, fun _ limit hlimit => ?_⟩
      have hlimit : limiter.limits.get? provider = some limit := hlimit
      rw [hget] at hlimit
      cases hlimit
    | some limit =>
      dsimp only
      rw [MinuteRateLimiter.remaining_of_some hget]
      refine ⟨looked_prune, fun hleft limit' hlimit => ?_⟩
      have hlimit : (limiter.prune clock provider tick).1.limits.get? provider
        = some limit' := hlimit
      rw [MinuteRateLimiter.prune_limits, hget] at hlimit
      cases hlimit
      show ((limiter.prune clock provider tick).1.times provider).length < limit
      exact Nat.lt_of_sub_ne_zero fun hzero => hleft (congrArg some hzero)

/-- The snapshots of a calendar budget read the clock. -/
theorem le_snapshotEach_tick (providers : List SearchProviderId) :
    tick ≤ (budget.snapshotEach clock providers tick).2 := by
  induction providers generalizing tick with
  | nil => exact Nat.le_refl _
  | cons provider rest ih => exact Nat.le_trans (Nat.le_succ _) ih

/-- The snapshots of a limiter only look at it. -/
theorem minute_snapshots_looked :
    Looked clock (minute limiter) tick (minute (limiter.snapshots clock providers tick).2.1)
      (limiter.snapshots clock providers tick).2.2 := by
  induction providers generalizing limiter tick with
  | nil => exact ⟨Nat.le_refl _, Keeps.refl _ _, trivial⟩
  | cons provider rest ih =>
    have hfirst : Looked clock (minute limiter) tick
        (minute (limiter.snapshot clock provider tick).2.1)
        (limiter.snapshot clock provider tick).2.2 := by
      unfold MinuteRateLimiter.snapshot
      split
      · exact ⟨Nat.le_refl _, Keeps.refl _ _, trivial⟩
      · exact looked_prune
    exact hfirst.trans ih

/-- `snapshots` only looks. -/
theorem snapshots_looked (hseen : tracker.Seen (clock.reading tick)) :
    Looked clock tracker tick (tracker.snapshots clock providers tick).2.1
      (tracker.snapshots clock providers tick).2.2 := by
  cases tracker with
  | calendar budget =>
    exact looked_reset hseen (Nat.le_trans (Nat.le_succ _) (le_snapshotEach_tick _ providers))
  | minute limiter => exact minute_snapshots_looked providers

/-- `tryConsume` lets an attempt through without looking further when the provider has no limit. -/
theorem tryConsume_unlimited (provider : SearchProviderId)
    (hseen : tracker.Seen (clock.reading tick)) (h : tracker.limit? provider = none) :
    Looked clock tracker tick (tracker.tryConsume clock provider tick).2.1
      (tracker.tryConsume clock provider tick).2.2 := by
  cases tracker with
  | calendar budget =>
    unfold SearchBudgetTracker.tryConsume CalendarBudget.tryConsume
    have h : budget.budgets.get? provider = none := h
    dsimp only
    rw [CalendarBudget.resetIfNeeded_budgets, h]
    exact looked_reset hseen (Nat.le_succ _)
  | minute limiter =>
    unfold SearchBudgetTracker.tryConsume
    dsimp only
    rw [MinuteRateLimiter.tryConsume_of_none h]
    exact ⟨Nat.le_refl _, Keeps.refl _ _, trivial⟩

/-- A tracker before and after it counted an attempt. The attempt is stamped with the last reading
of the clock. -/
structure Consumed (clock : Clock) (provider : SearchProviderId) (limit : Nat)
    (before : SearchBudgetTracker) (tick : Nat) (after : SearchBudgetTracker) (next : Nat) :
    Prop where
  ticks : tick < next
  room : before.count (clock.reading (next - 1)) provider < limit
  raises : Raises (clock.reading (next - 1)) provider before after
  seen : after.Seen (clock.reading next)

/-- A calendar budget counts an attempt after its reset. -/
theorem calendar_consumed {budget : CalendarBudget}
    (hseen : (calendar budget).Seen (clock.reading tick))
    (hroom : (budget.resetIfNeeded (clock.reading tick)).attempts provider < limit) :
    let reset := budget.resetIfNeeded (clock.reading tick)
    Consumed clock provider limit (calendar budget) tick
      (calendar { reset with
        attempts := Function.update reset.attempts provider (reset.attempts provider + 1) })
      (tick + 1) := by
  intro reset
  have hkeeps := CalendarBudget.resetIfNeeded_keeps hseen
  have hkind : reset.kind = budget.kind := CalendarBudget.resetIfNeeded_kind _ _
  have hperiod : reset.kind.current (clock.reading tick) = reset.period := by
    rw [hkind]
    exact (CalendarBudget.resetIfNeeded_period _ _).symm
  refine ⟨Nat.lt_succ_self _, ?_, ?_, CalendarBudget.resetIfNeeded_seen (clock.valid tick)
    (clock.forward (Nat.le_succ _))⟩
  · show (calendar budget).count (clock.reading tick) provider < limit
    rw [← hkeeps.count _ (clock.valid tick) (Int.le_refl _) provider]
    show (if _ then _ else _) < limit
    rw [if_pos hperiod]
    exact hroom
  · refine hkeeps.raises ⟨rfl, rfl, rfl, fun time _ _ other => ?_⟩
    show (if _ then Function.update reset.attempts provider _ other else 0) =
      (if _ then _ else _) + if other = provider ∧ decide _ = true then 1 else 0
    by_cases hsame : reset.kind.current time = reset.period
    · rw [if_pos hsame, if_pos hsame]
      by_cases hother : other = provider
      · have halive : decide (reset.kind.current (clock.reading tick) = reset.kind.current time)
            = true := decide_eq_true (hperiod.trans hsame.symm)
        rw [if_pos ⟨hother, halive⟩, hother, Function.update_self]
      · rw [if_neg fun h => hother h.1, Function.update_of_ne hother]
        rfl
    · have hlapsed : ¬ decide (reset.kind.current (clock.reading tick) = reset.kind.current time)
          = true := fun h => hsame ((of_decide_eq_true h).symm.trans hperiod)
      rw [if_neg hsame, if_neg hsame, if_neg fun h => hlapsed h.2]

/-- A limiter counts an attempt after it pruned. -/
theorem minute_consumed
    (hroom : ((limiter.prune clock provider tick).1.times provider).length < limit) :
    let pruned := limiter.prune clock provider tick
    Consumed clock provider limit (minute limiter) tick
      (minute (pruned.1.setTimes provider
        (some (pruned.1.times provider ++ [clock.reading pruned.2])))) (pruned.2 + 1) := by
  intro pruned
  have hticks : tick ≤ pruned.2 := MinuteRateLimiter.le_prune_tick
  have hkeeps : Keeps (clock.reading pruned.2) (minute limiter) (minute pruned.1) :=
    MinuteRateLimiter.prune_keeps.mono (clock.forward hticks)
  refine ⟨Nat.lt_succ_of_le hticks, ?_, ?_, trivial⟩
  · show (minute limiter).count (clock.reading pruned.2) provider < limit
    rw [← hkeeps.count _ (clock.valid _) (Int.le_refl _) provider]
    exact Nat.lt_of_le_of_lt List.countP_le_length hroom
  · refine hkeeps.raises ⟨rfl, rfl, rfl, fun time _ _ other => ?_⟩
    show List.countP _ ((pruned.1.setTimes provider _).times other) = List.countP _ _ + _
    by_cases hother : other = provider
    · rw [hother, MinuteRateLimiter.setTimes_times_self, Option.getD_some, List.countP_append,
        List.countP_singleton]
      congr 1
      show (if decide _ = true then 1 else 0) = if _ ∧ decide _ = true then 1 else 0
      simp only [true_and]
    · rw [MinuteRateLimiter.setTimes_times_of_ne hother, if_neg fun h => hother h.1]
      rfl

/-- `tryConsume` of a provider with a limit counts the attempt or only looks; it counts it when
there is room. -/
theorem tryConsume_limited (provider : SearchProviderId) (hseen : tracker.Seen (clock.reading tick))
    (h : tracker.limit? provider = some limit) :
    let result := tracker.tryConsume clock provider tick
    (result.1 = true ∧ Consumed clock provider limit tracker tick result.2.1 result.2.2) ∨
      (result.1 = false ∧ ¬ tracker.HasRoom provider ∧
        Looked clock tracker tick result.2.1 result.2.2) := by
  cases tracker with
  | calendar budget =>
    have hlimit : budget.budgets.get? provider = some limit := h
    have hreset : (budget.resetIfNeeded (clock.reading tick)).budgets.get? provider
      = some limit := by rw [CalendarBudget.resetIfNeeded_budgets, hlimit]
    unfold SearchBudgetTracker.tryConsume CalendarBudget.tryConsume
    dsimp only
    rw [hreset]
    dsimp only
    by_cases hfull : limit ≤ (budget.resetIfNeeded (clock.reading tick)).attempts provider
    · rw [if_pos hfull]
      refine .inr ⟨rfl, fun hroom => ?_, looked_reset hseen (Nat.le_succ _)⟩
      have hstored : budget.attempts provider < limit := hroom limit h
      have hle := CalendarBudget.resetIfNeeded_attempts_le budget (clock.reading tick) provider
      omega
    · rw [if_neg hfull]
      exact .inl ⟨rfl, calendar_consumed hseen (Nat.lt_of_not_le hfull)⟩
  | minute limiter =>
    unfold SearchBudgetTracker.tryConsume
    dsimp only
    rw [MinuteRateLimiter.tryConsume_of_some h]
    dsimp only
    by_cases hfull : limit ≤ ((limiter.prune clock provider tick).1.times provider).length
    · rw [if_pos hfull]
      refine .inr ⟨rfl, fun hroom => ?_, looked_prune⟩
      have hstored : (limiter.times provider).length < limit := hroom limit h
      have hle := MinuteRateLimiter.prune_length_le clock provider limiter tick provider
      omega
    · rw [if_neg hfull]
      exact .inl ⟨rfl, minute_consumed (Nat.lt_of_not_le hfull)⟩

end SearchBudgetTracker

/-! ## What has been consumed -/

namespace Metered

/-- The times at which a provider was consumed. -/
def uses (metered : Metered) (provider : SearchProviderId) : List Int :=
  (metered.consumed.filter fun use => use.1 = provider).map Prod.snd

/-- In every month, day or minute no more was consumed than the limit of the tracker allows. -/
def WithinLimits (metered : Metered) : Prop :=
  ∀ provider limit, metered.tracker.limit? provider = some limit →
    ∀ start, (metered.uses provider).countP (metered.tracker.period.window start) ≤ limit

/-- Nothing was consumed, and the tracker counts as before from a time on. -/
structure Kept (now : Int) (before after : Metered) : Prop where
  tracker : Keeps now before.tracker after.tracker
  consumed : after.consumed = before.consumed

/-- An attempt of a provider was consumed and counted at a time. -/
structure Counted (use : Int) (provider : SearchProviderId) (before after : Metered) : Prop where
  tracker : Raises use provider before.tracker after.tracker
  consumed : after.consumed = before.consumed ++ [(provider, use)]

/-- What the tracker counts covers what was consumed. -/
structure Accounts (metered : Metered) (now : Int) : Prop where
  seen : metered.tracker.Seen now
  past : ∀ use ∈ metered.consumed, use.2 ≤ now
  paced : ∀ provider limit, metered.tracker.limit? provider = some limit →
    Paced metered.tracker.period.alive limit (metered.uses provider)
  covers : ∀ provider limit, metered.tracker.limit? provider = some limit →
    ∀ time, IsTimeValue time → now ≤ time →
      (metered.uses provider).countP (metered.tracker.period.alive · time) ≤
        metered.tracker.count time provider

/-- An attempt that is alive is still counted. -/
theorem counted_of_alive (tracker : SearchBudgetTracker) {use now : Int}
    (h : tracker.period.alive use now = true) : tracker.counted use now = true := by
  cases tracker with
  | calendar budget => exact decide_eq_true (budget.kind.current_of_alive h)
  | minute limiter => exact h

variable {before after : Metered} {metered : Metered}

/-- The uses of a provider after one more. -/
theorem uses_append {use : Int} {provider other : SearchProviderId}
    (h : after.consumed = before.consumed ++ [(provider, use)]) :
    after.uses other = before.uses other ++ if provider = other then [use] else [] := by
  unfold uses
  rw [h, List.filter_append, List.map_append]
  by_cases hother : provider = other
  · simp [hother]
  · simp [hother]

/-- The accounts keep all windows within their limits. -/
theorem Accounts.withinLimits {now : Int} (h : metered.Accounts now) :
    metered.WithinLimits := fun provider limit hlimit _ =>
  (h.paced provider limit hlimit).within fun _ _ huse hnow _ =>
    metered.tracker.period.alive_of_window huse hnow

/-- The accounts stay in order while time passes. -/
theorem Accounts.mono (hle : now ≤ later) (h : metered.Accounts now) : metered.Accounts later where
  seen := h.seen.mono hle
  past use huse := Int.le_trans (h.past use huse) hle
  paced := h.paced
  covers provider limit hlimit time hvalid htime :=
    h.covers provider limit hlimit time hvalid (Int.le_trans hle htime)

/-- What is kept from a time on is kept from a later time on. -/
theorem Kept.mono (hle : now ≤ later) (h : Kept now before after) : Kept later before after :=
  ⟨h.tracker.mono hle, h.consumed⟩

/-- A tracker that was only looked at keeps its accounts. -/
theorem Accounts.looked (h : before.Accounts (clock.reading tick))
    (hlooked : Looked clock before.tracker tick after.tracker next)
    (hconsumed : after.consumed = before.consumed) : after.Accounts (clock.reading next) := by
  have hlater := h.mono (clock.forward hlooked.ticks)
  have hlimit : ∀ provider, after.tracker.limit? provider = before.tracker.limit? provider :=
    fun provider => congrArg (fun limits => limits.get? provider) hlooked.keeps.limits
  have huses : ∀ provider, after.uses provider = before.uses provider := fun provider => by
    unfold uses
    rw [hconsumed]
  refine ⟨hlooked.seen, fun use huse => hlater.past use (hconsumed ▸ huse), ?_, ?_⟩
  · intro provider limit hsome
    rw [huses, hlooked.keeps.period]
    exact h.paced provider limit ((hlimit provider).symm.trans hsome)
  · intro provider limit hsome time hvalid htime
    rw [huses, hlooked.keeps.period, hlooked.keeps.count time hvalid htime]
    exact hlater.covers provider limit ((hlimit provider).symm.trans hsome) time hvalid htime

/-- A tracker that counts an attempt keeps its accounts. -/
theorem Accounts.consumed {next limit : Nat} (h : before.Accounts (clock.reading tick))
    (hlimit : before.tracker.limit? provider = some limit)
    (hcounts : Consumed clock provider limit before.tracker tick after.tracker next)
    (hconsumed : after.consumed = before.consumed ++ [(provider, clock.reading (next - 1))]) :
    after.Accounts (clock.reading next) := by
  have hlt := hcounts.ticks
  have huse : clock.reading tick ≤ clock.reading (next - 1) := clock.forward (by omega)
  have hnext : clock.reading (next - 1) ≤ clock.reading next := clock.forward (by omega)
  have hraises := hcounts.raises
  have hsame : ∀ provider, after.tracker.limit? provider = before.tracker.limit? provider :=
    fun provider => congrArg (fun limits => limits.get? provider) hraises.limits
  refine ⟨hcounts.seen, ?_, ?_, ?_⟩
  · intro use hmem
    rw [hconsumed] at hmem
    rcases List.mem_append.1 hmem with hold | hnew
    · exact Int.le_trans (h.past use hold) (Int.le_trans huse hnext)
    · rw [List.mem_singleton.1 hnew]
      exact hnext
  · intro other limit' hother
    rw [hsame] at hother
    rw [uses_append hconsumed, hraises.period]
    by_cases hprovider : provider = other
    · subst hprovider
      cases hlimit.symm.trans hother
      rw [if_pos rfl]
      refine .append (h.paced _ _ hlimit) (fun use hmem => ?_) ?_
      · obtain ⟨entry, hentry, rfl⟩ := List.mem_map.1 hmem
        exact Int.le_trans (h.past entry (List.mem_filter.1 hentry).1) huse
      · exact Nat.lt_of_le_of_lt (h.covers _ _ hlimit _ (clock.valid _) huse) hcounts.room
    · rw [if_neg hprovider, List.append_nil]
      exact h.paced other limit' hother
  · intro other limit' hother time hvalid htime
    rw [hsame] at hother
    have hcovers := h.covers other limit' hother time hvalid
      (Int.le_trans huse (Int.le_trans hnext htime))
    rw [uses_append hconsumed, hraises.period,
      hraises.count time hvalid (Int.le_trans hnext htime) other, List.countP_append]
    by_cases hprovider : provider = other
    · rw [if_pos hprovider, List.countP_singleton]
      by_cases halive : before.tracker.period.alive (clock.reading (next - 1)) time = true
      · rw [if_pos halive, if_pos ⟨hprovider.symm, counted_of_alive _ halive⟩]
        exact Nat.add_le_add_right hcovers 1
      · rw [if_neg halive]
        exact Nat.le_trans hcovers (Nat.le_add_right _ _)
    · rw [if_neg hprovider]
      exact Nat.le_trans hcovers (Nat.le_add_right _ _)

/-- Every tracker of a list has its accounts in order when the clock is read next. -/
def AllAccounts (clock : Clock) (trackers : List Metered) (tick : Nat) : Prop :=
  ∀ metered ∈ trackers, metered.Accounts (clock.reading tick)

/-- What became of a tracker when an attempt was let through: a tracker that limits the provider
counted it during the call. -/
def Passed (clock : Clock) (provider : SearchProviderId) (tick next : Nat)
    (before after : Metered) : Prop :=
  match before.tracker.limit? provider with
  | none => Kept (clock.reading next) before after
  | some _ => ∃ k, tick ≤ k ∧ k < next ∧ Counted (clock.reading k) provider before after

/-- A call may begin earlier and end later. -/
theorem Passed.mono {tick' next next' : Nat} (htick : tick' ≤ tick) (hnext : next ≤ next')
    (h : Passed clock provider tick next before after) :
    Passed clock provider tick' next' before after := by
  unfold Passed at h ⊢
  split
  · rename_i hlimit
    rw [hlimit] at h
    exact Kept.mono (clock.forward hnext) h
  · rename_i hlimit
    rw [hlimit] at h
    obtain ⟨k, hk, hlt, hcounted⟩ := h
    exact ⟨k, Nat.le_trans htick hk, Nat.lt_of_lt_of_le hlt hnext, hcounted⟩

/-- A tracker may be looked at before an attempt is let through. -/
theorem Kept.passed {first second third : Metered} (h : Kept (clock.reading tick) first second)
    (h' : Passed clock provider tick next second third) (hle : tick ≤ next) :
    Passed clock provider tick next first third := by
  have hlimit : second.tracker.limit? provider = first.tracker.limit? provider :=
    congrArg (fun limits => limits.get? provider) h.tracker.limits
  unfold Passed at h' ⊢
  rw [hlimit] at h'
  cases hsome : first.tracker.limit? provider with
  | none =>
    rw [hsome] at h'
    exact ⟨(h.tracker.mono (clock.forward hle)).trans h'.tracker, h'.consumed.trans h.consumed⟩
  | some limit =>
    rw [hsome] at h'
    obtain ⟨k, hk, hlt, hcounted⟩ := h'
    exact ⟨k, hk, hlt, (h.tracker.mono (clock.forward hk)).raises hcounted.tracker,
      by rw [hcounted.consumed, h.consumed]⟩

/-- `remaining` of a tracker. -/
theorem remaining_spec (provider : SearchProviderId) (h : metered.Accounts (clock.reading tick)) :
    let result := metered.remaining clock provider tick
    tick ≤ result.2.2 ∧ Kept (clock.reading result.2.2) metered result.2.1 ∧
      result.2.1.Accounts (clock.reading result.2.2) ∧
      (result.1 ≠ some 0 → result.2.1.tracker.HasRoom provider) := by
  obtain ⟨hlooked, hroom⟩ := remaining_looked provider h.seen
  exact ⟨hlooked.ticks, ⟨hlooked.keeps, rfl⟩, h.looked hlooked rfl, hroom⟩

/-- `snapshots` of a tracker. -/
theorem snapshots_spec (h : metered.Accounts (clock.reading tick)) :
    let result := metered.snapshots clock providers tick
    tick ≤ result.2.2 ∧ Kept (clock.reading result.2.2) metered result.2.1 ∧
      result.2.1.Accounts (clock.reading result.2.2) := by
  have hlooked := snapshots_looked providers h.seen
  exact ⟨hlooked.ticks, ⟨hlooked.keeps, rfl⟩, h.looked hlooked rfl⟩

/-- `tryConsume` of a tracker with room. -/
theorem tryConsume_spec (h : metered.Accounts (clock.reading tick))
    (hroom : metered.tracker.HasRoom provider) :
    let result := metered.tryConsume clock provider tick
    tick ≤ result.2.2 ∧ Passed clock provider tick result.2.2 metered result.2.1 ∧
      result.2.1.Accounts (clock.reading result.2.2) := by
  unfold Metered.tryConsume Passed
  dsimp only
  cases hlimit : metered.tracker.limit? provider with
  | none =>
    have hlooked := tryConsume_unlimited provider h.seen hlimit
    simp only [Option.isSome_none, Bool.and_false, Bool.false_eq_true, if_false]
    exact ⟨hlooked.ticks, ⟨hlooked.keeps, rfl⟩, h.looked hlooked rfl⟩
  | some limit =>
    rcases tryConsume_limited provider h.seen hlimit with
      ⟨htrue, hconsumed⟩ | ⟨-, hfull, -⟩
    · simp only [htrue, Option.isSome_some, Bool.and_true, if_true]
      have hlt : tick < (metered.tracker.tryConsume clock provider tick).2.2 := hconsumed.ticks
      exact ⟨Nat.le_of_lt hlt,
        ⟨_, Nat.le_sub_one_of_lt hlt, Nat.sub_one_lt_of_lt hlt, hconsumed.raises, rfl⟩,
        h.consumed hlimit hconsumed rfl⟩
    · exact absurd hroom hfull

end Metered

/-! ## The composite -/

open Metered

/-- Steps of the trackers of a list follow one another. -/
theorem forall₂_trans {R S T : Metered → Metered → Prop} {first second third : List Metered}
    (hcompose : ∀ a b c, R a b → S b c → T a c) (h : List.Forall₂ R first second)
    (h' : List.Forall₂ S second third) : List.Forall₂ T first third := by
  induction h generalizing third with
  | nil =>
    cases h'
    exact .nil
  | cons hhead _ ih =>
    cases h' with
    | cons hhead' htail' => exact .cons (hcompose _ _ _ hhead hhead') (ih htail')

namespace CompositeSearchBudget

variable {trackers : List Metered}

/-- The first loop of `tryConsume` only looks, and after it every tracker has room unless the
attempt is refused. -/
theorem allRemaining_spec (provider : SearchProviderId) (h : AllAccounts clock trackers tick) :
    let result := allRemaining clock provider trackers tick
    tick ≤ result.2.2 ∧
      List.Forall₂ (Kept (clock.reading result.2.2)) trackers result.2.1 ∧
      AllAccounts clock result.2.1 result.2.2 ∧
      (result.1 = true → ∀ metered ∈ result.2.1, metered.tracker.HasRoom provider) := by
  induction trackers generalizing tick with
  | nil => exact ⟨Nat.le_refl _, .nil, nofun, nofun⟩
  | cons first rest ih =>
    obtain ⟨hticks, hkept, haccounts, hroom⟩ :=
      remaining_spec provider (h first List.mem_cons_self)
    have hrest : AllAccounts clock rest (first.remaining clock provider tick).2.2 :=
      fun metered hmem =>
        (h metered (List.mem_cons_of_mem _ hmem)).mono (clock.forward hticks)
    unfold allRemaining
    dsimp only
    by_cases hzero : (first.remaining clock provider tick).1 = some 0
    · rw [if_pos hzero]
      refine ⟨hticks, .cons hkept ?_, List.forall_mem_cons.2 ⟨haccounts, hrest⟩, nofun⟩
      exact List.forall₂_same.2 fun metered _ => ⟨Keeps.refl _ _, rfl⟩
    · rw [if_neg hzero]
      obtain ⟨hticks', hkept', haccounts', hroom'⟩ := ih hrest
      have hforward := clock.forward hticks'
      exact ⟨Nat.le_trans hticks hticks', .cons (hkept.mono hforward) hkept',
        List.forall_mem_cons.2 ⟨haccounts.mono hforward, haccounts'⟩,
        fun hall => List.forall_mem_cons.2 ⟨hroom hzero, hroom' hall⟩⟩

/-- The second loop of `tryConsume` counts the attempt in every tracker that limits it. -/
theorem consumeAll_spec (h : AllAccounts clock trackers tick)
    (hroom : ∀ metered ∈ trackers, metered.tracker.HasRoom provider) :
    let result := consumeAll clock provider trackers tick
    tick ≤ result.2 ∧
      List.Forall₂ (Passed clock provider tick result.2) trackers result.1 ∧
      AllAccounts clock result.1 result.2 := by
  induction trackers generalizing tick with
  | nil => exact ⟨Nat.le_refl _, .nil, nofun⟩
  | cons first rest ih =>
    obtain ⟨hticks, hpassed, haccounts⟩ :=
      tryConsume_spec (h first List.mem_cons_self) (hroom first List.mem_cons_self)
    have hrest : AllAccounts clock rest (first.tryConsume clock provider tick).2.2 :=
      fun metered hmem =>
        (h metered (List.mem_cons_of_mem _ hmem)).mono (clock.forward hticks)
    obtain ⟨hticks', hpassed', haccounts'⟩ :=
      ih hrest fun metered hmem => hroom metered (List.mem_cons_of_mem _ hmem)
    refine ⟨Nat.le_trans hticks hticks', .cons (hpassed.mono (Nat.le_refl _) hticks') ?_,
      List.forall_mem_cons.2 ⟨haccounts.mono (clock.forward hticks'), haccounts'⟩⟩
    exact hpassed'.imp fun _ _ hone => hone.mono hticks (Nat.le_refl _)

/-- A refused attempt leaves the counts; an attempt that is let through raises those of the
trackers that limit its provider. -/
theorem tryConsume_spec (provider : SearchProviderId) {budget : CompositeSearchBudget}
    (h : AllAccounts clock budget.trackers tick) :
    let result := budget.tryConsume clock provider tick
    tick ≤ result.2.2 ∧ AllAccounts clock result.2.1.trackers result.2.2 ∧
      (result.1 = false →
        List.Forall₂ (Kept (clock.reading result.2.2)) budget.trackers result.2.1.trackers) ∧
      (result.1 = true →
        List.Forall₂ (Passed clock provider tick result.2.2) budget.trackers
          result.2.1.trackers) := by
  obtain ⟨hticks, hkept, haccounts, hroom⟩ := allRemaining_spec provider h
  unfold CompositeSearchBudget.tryConsume
  dsimp only
  by_cases hall : (allRemaining clock provider budget.trackers tick).1 = true
  · rw [if_pos hall]
    obtain ⟨hticks', hpassed, haccounts'⟩ := consumeAll_spec haccounts (hroom hall)
    refine ⟨Nat.le_trans hticks hticks', haccounts', nofun, fun _ => ?_⟩
    exact forall₂_trans
      (fun _ _ _ hone htwo => (hone.passed htwo hticks').mono hticks (Nat.le_refl _))
      hkept hpassed
  · rw [if_neg hall]
    exact ⟨hticks, haccounts, fun _ => hkept, nofun⟩

/-- `remaining` leaves the counts. -/
theorem leastRemaining_spec (provider : SearchProviderId) (least : Option Nat)
    (h : AllAccounts clock trackers tick) :
    let result := leastRemaining clock provider trackers least tick
    tick ≤ result.2.2 ∧ AllAccounts clock result.2.1 result.2.2 ∧
      List.Forall₂ (Kept (clock.reading result.2.2)) trackers result.2.1 := by
  induction trackers generalizing least tick with
  | nil => exact ⟨Nat.le_refl _, nofun, .nil⟩
  | cons first rest ih =>
    obtain ⟨hticks, hkept, haccounts, -⟩ :=
      remaining_spec provider (h first List.mem_cons_self)
    unfold leastRemaining
    dsimp only
    obtain ⟨hticks', haccounts', hkept'⟩ := ih _ fun metered hmem =>
      (h metered (List.mem_cons_of_mem _ hmem)).mono (clock.forward hticks)
    have hforward := clock.forward hticks'
    exact ⟨Nat.le_trans hticks hticks',
      List.forall_mem_cons.2 ⟨haccounts.mono hforward, haccounts'⟩,
      .cons (hkept.mono hforward) hkept'⟩

/-- `snapshots` leaves the counts. -/
theorem allSnapshots_spec (h : AllAccounts clock trackers tick) :
    let result := allSnapshots clock providers trackers tick
    tick ≤ result.2.2 ∧ AllAccounts clock result.2.1 result.2.2 ∧
      List.Forall₂ (Kept (clock.reading result.2.2)) trackers result.2.1 := by
  induction trackers generalizing tick with
  | nil => exact ⟨Nat.le_refl _, nofun, .nil⟩
  | cons first rest ih =>
    obtain ⟨hticks, hkept, haccounts⟩ :=
      snapshots_spec providers (h first List.mem_cons_self)
    unfold allSnapshots
    dsimp only
    have hrest : AllAccounts clock rest (first.snapshots clock providers tick).2.2 :=
      fun metered hmem =>
        (h metered (List.mem_cons_of_mem _ hmem)).mono (clock.forward hticks)
    obtain ⟨hticks', haccounts', hkept'⟩ := ih hrest
    have hforward := clock.forward hticks'
    exact ⟨Nat.le_trans hticks hticks',
      List.forall_mem_cons.2 ⟨haccounts.mono hforward, haccounts'⟩,
      .cons (hkept.mono hforward) hkept'⟩

/-- What a call does to the counts. -/
def Call.Effect (clock : Clock) (budget : CompositeSearchBudget) (tick : Nat) :
    Call → Prop
  | tryConsume provider =>
    match budget.tryConsume clock provider tick with
    | (false, after, next) =>
      List.Forall₂ (Kept (clock.reading next)) budget.trackers after.trackers
    | (true, after, next) =>
      List.Forall₂ (Passed clock provider tick next) budget.trackers after.trackers
  | remaining provider =>
    let (_, after, next) := budget.remaining clock provider tick
    List.Forall₂ (Kept (clock.reading next)) budget.trackers after.trackers
  | snapshots providers =>
    let (_, after, next) := budget.snapshots clock providers tick
    List.Forall₂ (Kept (clock.reading next)) budget.trackers after.trackers

/-- A call keeps the accounts in order and does to the counts what it should. -/
theorem Call.perform_spec {budget : CompositeSearchBudget} (call : Call)
    (h : AllAccounts clock budget.trackers tick) :
    AllAccounts clock (call.perform clock budget tick).1.trackers
        (call.perform clock budget tick).2 ∧
      call.Effect clock budget tick := by
  cases call with
  | tryConsume provider =>
    obtain ⟨-, haccounts, hrefused, hpassed⟩ :=
      CompositeSearchBudget.tryConsume_spec provider h
    refine ⟨haccounts, ?_⟩
    unfold Call.Effect
    dsimp only
    split
    · rename_i after next heq
      rw [heq] at hrefused
      exact hrefused rfl
    · rename_i after next heq
      rw [heq] at hpassed
      exact hpassed rfl
  | remaining provider =>
    obtain ⟨-, haccounts, hkept⟩ := leastRemaining_spec provider none h
    exact ⟨haccounts, hkept⟩
  | snapshots providers =>
    obtain ⟨-, haccounts, hkept⟩ := allSnapshots_spec providers h
    exact ⟨haccounts, hkept⟩

/-- The accounts are in order after every sequence of calls. -/
theorem perform_accounts {budget : CompositeSearchBudget} (calls : List Call)
    (h : AllAccounts clock budget.trackers tick) :
    AllAccounts clock (perform clock (budget, tick) calls).1.trackers
      (perform clock (budget, tick) calls).2 := by
  induction calls generalizing budget tick with
  | nil => exact h
  | cons call rest ih => exact ih (call.perform_spec h).1

/-- What a sequence of two steps that may fail has done. -/
theorem of_bind_ok {α β : Type} {first : Except Fault α} {second : α → Except Fault β} {result : β}
    (h : (first >>= second) = .ok result) :
    ∃ middle, first = .ok middle ∧ second middle = .ok result := by
  cases first with
  | error fault => cases h
  | ok middle => exact ⟨middle, rfl, h⟩

/-- A new calendar budget has seen the period of now. -/
theorem calendar_create_seen {kind : CalendarPeriod} {label : String} {budgets : ConfiguredLimits}
    {budget : CalendarBudget}
    (h : CalendarBudget.create kind label clock budgets tick = .ok (budget, next)) :
    tick ≤ next ∧ (calendar budget).Seen (clock.reading next) := by
  obtain ⟨_, -, h⟩ := of_bind_ok h
  cases h
  exact ⟨Nat.le_succ _, _, clock.valid tick, clock.forward (Nat.le_succ _), rfl⟩

/-- A new tracker has seen its period. -/
theorem tracker_create_seen {config : TrackerConfig}
    (h : config.create clock tick = .ok (tracker, next)) :
    tick ≤ next ∧ tracker.Seen (clock.reading next) := by
  cases config with
  | monthly budgets =>
    obtain ⟨created, hbudget, h⟩ := of_bind_ok h
    cases h
    exact calendar_create_seen hbudget
  | daily budgets =>
    obtain ⟨_, hbudget, h⟩ := of_bind_ok h
    cases h
    exact calendar_create_seen hbudget
  | minute limits =>
    obtain ⟨_, -, h⟩ := of_bind_ok h
    cases h
    exact ⟨Nat.le_refl _, trivial⟩

/-- A new composite has its accounts in order. -/
theorem create_accounts {configs : List TrackerConfig} {budget : CompositeSearchBudget}
    (h : create clock configs tick = .ok (budget, next)) :
    tick ≤ next ∧ AllAccounts clock budget.trackers next := by
  induction configs generalizing tick budget next with
  | nil =>
    cases h
    exact ⟨Nat.le_refl _, nofun⟩
  | cons config rest ih =>
    obtain ⟨⟨_, _⟩, htracker, h⟩ := of_bind_ok h
    obtain ⟨_, hrest, h⟩ := of_bind_ok h
    cases h
    obtain ⟨hticks, hseen⟩ := tracker_create_seen htracker
    obtain ⟨hticks', haccounts⟩ := ih hrest
    refine ⟨Nat.le_trans hticks hticks', List.forall_mem_cons.2 ⟨⟨?_, ?_, ?_, ?_⟩, haccounts⟩⟩
    · exact hseen.mono (clock.forward hticks')
    · exact nofun
    · exact fun _ _ _ => .nil
    · exact fun _ _ _ _ _ _ => Nat.zero_le _

/-- A composite of new trackers keeps every provider within its limits through any sequence of
calls. A refused attempt leaves the count of every tracker from the next reading of the clock on;
an attempt that is let through is counted once by every tracker that limits its provider, at a
reading of the clock that the call took. -/
theorem attempts_within_limits (clock : Clock) (configs : List TrackerConfig) (start : Nat)
    (budget : CompositeSearchBudget) (tick : Nat)
    (hcreate : create clock configs start = .ok (budget, tick)) (calls : List Call) :
    let state := perform clock (budget, tick) calls
    (∀ metered ∈ state.1.trackers, metered.WithinLimits) ∧
      ∀ call : Call, call.Effect clock state.1 state.2 := by
  have haccounts := perform_accounts calls (create_accounts hcreate).2
  exact ⟨fun metered hmem => (haccounts metered hmem).withinLimits,
    fun call => (call.perform_spec haccounts).2⟩

/-- A clock that moves by ten seconds at each of its first readings. -/
def sampleClock : Clock where
  reading n := 10000 * (min n 12 : Nat)
  forward h := by omega
  valid n := by
    unfold IsTimeValue
    omega

/-- A composite of one month and one minute. -/
def sampleBudget : CompositeSearchBudget :=
  ⟨[⟨calendar ⟨.month, ⟨[("jina", 3)]⟩, currentMonth 0, fun _ => 0⟩, []⟩,
    ⟨minute ⟨⟨[("jina", 1)]⟩, fun _ => none⟩, []⟩]⟩

example : (sampleBudget.tryConsume sampleClock "jina" 1).1 = true := by decide +kernel

/-- Two attempts within a minute: the second is refused, and the limits hold. -/
theorem attempts_within_limits_sample :
    let calls := [Call.tryConsume "jina", .snapshots ["jina"]]
    let state := perform sampleClock (sampleBudget, 1) calls
    (state.1.tryConsume sampleClock "jina" state.2).1 = false ∧
      ∀ metered ∈ state.1.trackers, metered.WithinLimits := by
  refine ⟨by decide +kernel, ?_⟩
  exact (attempts_within_limits sampleClock
    [.monthly [("jina", some (.integer 3)), ("brave", none)],
      .minute [("jina", some (.integer 1))]] 0 sampleBudget 1 rfl
    [.tryConsume "jina", .snapshots ["jina"]]).1

end CompositeSearchBudget

end Groundlane
