import Groundlane.Calendar.Utc
import Groundlane.Durable.Store
import Mathlib.Logic.Function.Basic

/-!
# Attempt budgets of search providers

The trackers of `core/search-budget.ts`: attempts by month, attempts by day and attempts within
the last minute, and the composite of several of them. A tracker looks at the clock when it is
called, resets or prunes what has lapsed, and answers. The clock is the sequence of its readings,
and a call begins at the number of readings taken before it.
-/

namespace Groundlane

open Calendar

/-- `SearchProviderId`: a known provider or any other text. -/
abbrev SearchProviderId := String

/-- A clock that never goes backwards, as the sequence of its readings. -/
structure Clock where
  reading : Nat → Int
  forward : ∀ {m n}, m ≤ n → reading m ≤ reading n
  valid : ∀ n, IsTimeValue (reading n)

/-- `SearchBudgetPeriod`. -/
inductive SearchBudgetPeriod where
  | monthly
  | daily
  | minute
deriving DecidableEq, Repr

/-- `SearchBudgetSnapshot`. -/
structure SearchBudgetSnapshot where
  period : SearchBudgetPeriod
  provider : SearchProviderId
  limited : Bool
  limit : Option Nat
  used : Nat
  remaining : Option Nat
  exhausted : Bool
  resetAt : Option String
deriving DecidableEq, Repr

/-! ## Configured limits -/

/-- A configured number: an integer, or a number that is no integer. -/
inductive ConfiguredNumber where
  | integer (value : Int)
  | other
deriving DecidableEq, Repr

/-- The limits of a configuration, by provider. -/
abbrev ConfiguredLimits := List (SearchProviderId × Option ConfiguredNumber)

/-- Limits that have been checked. -/
structure Limits where
  entries : List (SearchProviderId × Nat)
deriving DecidableEq, Repr

namespace Limits

/-- The limit of a provider. -/
def get? (limits : Limits) (provider : SearchProviderId) : Option Nat :=
  limits.entries.lookup provider

/-- Every number that is there is an integer and at least `least`. -/
def ofConfigured (least : Nat) (message : String) : ConfiguredLimits → Except Fault Limits
  | [] => .ok ⟨[]⟩
  | (_, none) :: rest => ofConfigured least message rest
  | (provider, some (.integer value)) :: rest =>
    if value < least then .error (.groundlane .invalidInput "search-budget" message)
    else do
      let limits ← ofConfigured least message rest
      pure ⟨(provider, value.toNat) :: limits.entries⟩
  | (_, some .other) :: _ => .error (.groundlane .invalidInput "search-budget" message)

end Limits

/-- `validateBudgets`. -/
def validateBudgets (budgets : ConfiguredLimits) (label : String) : Except Fault Limits :=
  Limits.ofConfigured 0 (label ++ " must be non-negative integers") budgets

/-! ## Attempts of a calendar period -/

/-- `currentMonth`, with the time that the clock shows. -/
def currentMonth (now : Int) : String :=
  toString (utcFullYear now) ++ "-" ++ String.ofList (monthText now)

/-- `currentDay`, with the time that the clock shows. -/
def currentDay (now : Int) : String :=
  String.ofList ((isoText now).take 10)

/-- The calendar periods. -/
inductive CalendarPeriod where
  | month
  | day
deriving DecidableEq, Repr

namespace CalendarPeriod

/-- The name of a period in snapshots. -/
def name : CalendarPeriod → SearchBudgetPeriod
  | month => .monthly
  | day => .daily

/-- The text that stands for the period of a time. -/
def current : CalendarPeriod → Int → String
  | month => currentMonth
  | day => currentDay

/-- `nextResetAt`. -/
def nextResetAt : CalendarPeriod → Int → String
  | month, now => toISOString (utc (utcFullYear now) (utcMonth now + 1) 1)
  | day, now => toISOString (utc (utcFullYear now) (utcMonth now) (utcDate now + 1))

end CalendarPeriod

/-- The budgets of a calendar period, with the period that was seen last and the attempts in it. -/
structure CalendarBudget where
  kind : CalendarPeriod
  budgets : Limits
  period : String
  attempts : SearchProviderId → Nat

namespace CalendarBudget

/-- The constructors: the limits are checked and the period of now is stored. -/
def create (kind : CalendarPeriod) (label : String) (clock : Clock) (budgets : ConfiguredLimits)
    (tick : Nat) : Except Fault (CalendarBudget × Nat) := do
  let limits ← validateBudgets budgets label
  pure (⟨kind, limits, kind.current (clock.reading tick), fun _ => 0⟩, tick + 1)

/-- `resetIfNeeded`, with the time that the clock shows. -/
def resetIfNeeded (budget : CalendarBudget) (now : Int) : CalendarBudget :=
  let current := budget.kind.current now
  if current = budget.period then budget
  else { budget with period := current, attempts := fun _ => 0 }

/-- `tryConsume`. -/
def tryConsume (clock : Clock) (provider : SearchProviderId) (budget : CalendarBudget)
    (tick : Nat) : Bool × CalendarBudget × Nat :=
  let budget := budget.resetIfNeeded (clock.reading tick)
  match budget.budgets.get? provider with
  | none => (true, budget, tick + 1)
  | some limit =>
    let used := budget.attempts provider
    if limit ≤ used then (false, budget, tick + 1)
    else
      (true, { budget with attempts := Function.update budget.attempts provider (used + 1) },
        tick + 1)

/-- `remaining`. -/
def remaining (clock : Clock) (provider : SearchProviderId) (budget : CalendarBudget)
    (tick : Nat) : Option Nat × CalendarBudget × Nat :=
  let budget := budget.resetIfNeeded (clock.reading tick)
  ((budget.budgets.get? provider).map fun limit => limit - budget.attempts provider, budget,
    tick + 1)

/-- The snapshot of one provider; the clock is read for the time of the reset. -/
def snapshot (budget : CalendarBudget) (provider : SearchProviderId) (now : Int) :
    SearchBudgetSnapshot :=
  let used := budget.attempts provider
  match budget.budgets.get? provider with
  | none =>
    { period := budget.kind.name, provider, limited := false, limit := none, used,
      remaining := none, exhausted := false, resetAt := some (budget.kind.nextResetAt now) }
  | some limit =>
    { period := budget.kind.name, provider, limited := true, limit := some limit, used,
      remaining := some (limit - used), exhausted := decide (limit ≤ used),
      resetAt := some (budget.kind.nextResetAt now) }

/-- The snapshots of the providers in turn. -/
def snapshotEach (clock : Clock) (budget : CalendarBudget) :
    List SearchProviderId → Nat → List SearchBudgetSnapshot × Nat
  | [], tick => ([], tick)
  | provider :: rest, tick =>
    let (snapshots, next) := budget.snapshotEach clock rest (tick + 1)
    (budget.snapshot provider (clock.reading tick) :: snapshots, next)

/-- `snapshots`. -/
def snapshots (clock : Clock) (providers : List SearchProviderId) (budget : CalendarBudget)
    (tick : Nat) : List SearchBudgetSnapshot × CalendarBudget × Nat :=
  let budget := budget.resetIfNeeded (clock.reading tick)
  let (snapshots, next) := budget.snapshotEach clock providers (tick + 1)
  (snapshots, budget, next)

end CalendarBudget

/-- `MonthlySearchBudget`. -/
def MonthlySearchBudget.create (clock : Clock) (budgets : ConfiguredLimits) (tick : Nat) :
    Except Fault (CalendarBudget × Nat) :=
  CalendarBudget.create .month "Monthly search budgets" clock budgets tick

/-- `DailySearchBudget`. -/
def DailySearchBudget.create (clock : Clock) (budgets : ConfiguredLimits) (tick : Nat) :
    Except Fault (CalendarBudget × Nat) :=
  CalendarBudget.create .day "Daily search budgets" clock budgets tick

/-! ## Attempts of the last minute -/

/-- `MinuteRateLimiter`: the limits and the times of the attempts that were kept. -/
structure MinuteRateLimiter where
  limits : Limits
  timestamps : SearchProviderId → Option (List Int)

namespace MinuteRateLimiter

/-- The constructor. -/
def create (limits : ConfiguredLimits) : Except Fault MinuteRateLimiter := do
  let limits ← Limits.ofConfigured 1 "Per-minute rate limits must be positive integers" limits
  pure ⟨limits, fun _ => none⟩

/-- The times that are kept for a provider, `timestamps.get(provider) ?? []`. -/
def times (limiter : MinuteRateLimiter) (provider : SearchProviderId) : List Int :=
  (limiter.timestamps provider).getD []

/-- The entry of a provider is replaced. -/
def setTimes (limiter : MinuteRateLimiter) (provider : SearchProviderId)
    (entry : Option (List Int)) : MinuteRateLimiter :=
  { limiter with timestamps := Function.update limiter.timestamps provider entry }

/-- `prune`. The clock is read when the provider has an entry. -/
def prune (clock : Clock) (provider : SearchProviderId) (limiter : MinuteRateLimiter)
    (tick : Nat) : MinuteRateLimiter × Nat :=
  match limiter.timestamps provider with
  | none => (limiter, tick)
  | some times =>
    let cutoff := clock.reading tick - 60000
    let pruned := times.filter (fun time => cutoff < time)
    (limiter.setTimes provider (if pruned.isEmpty then none else some pruned), tick + 1)

/-- `tryConsume`. -/
def tryConsume (clock : Clock) (provider : SearchProviderId) (limiter : MinuteRateLimiter)
    (tick : Nat) : Bool × MinuteRateLimiter × Nat :=
  match limiter.limits.get? provider with
  | none => (true, limiter, tick)
  | some limit =>
    let (limiter, tick) := limiter.prune clock provider tick
    let times := limiter.times provider
    if limit ≤ times.length then (false, limiter, tick)
    else (true, limiter.setTimes provider (some (times ++ [clock.reading tick])), tick + 1)

/-- `remaining`. -/
def remaining (clock : Clock) (provider : SearchProviderId) (limiter : MinuteRateLimiter)
    (tick : Nat) : Option Nat × MinuteRateLimiter × Nat :=
  match limiter.limits.get? provider with
  | none => (none, limiter, tick)
  | some limit =>
    let (limiter, tick) := limiter.prune clock provider tick
    (some (limit - (limiter.times provider).length), limiter, tick)

/-- The snapshot of one provider. -/
def snapshot (clock : Clock) (provider : SearchProviderId) (limiter : MinuteRateLimiter)
    (tick : Nat) : SearchBudgetSnapshot × MinuteRateLimiter × Nat :=
  match limiter.limits.get? provider with
  | none =>
    ({ period := .minute, provider, limited := false, limit := none, used := 0,
       remaining := none, exhausted := false, resetAt := none }, limiter, tick)
  | some limit =>
    let (limiter, tick) := limiter.prune clock provider tick
    let used := (limiter.times provider).length
    ({ period := .minute, provider, limited := true, limit := some limit, used,
       remaining := some (limit - used), exhausted := decide (limit ≤ used), resetAt := none },
      limiter, tick)

/-- `snapshots`. -/
def snapshots (clock : Clock) : List SearchProviderId → MinuteRateLimiter → Nat →
    List SearchBudgetSnapshot × MinuteRateLimiter × Nat
  | [], limiter, tick => ([], limiter, tick)
  | provider :: rest, limiter, tick =>
    let (first, limiter, tick) := limiter.snapshot clock provider tick
    let (others, limiter, tick) := snapshots clock rest limiter tick
    (first :: others, limiter, tick)

end MinuteRateLimiter

/-! ## Trackers -/

/-- The trackers of budgets. -/
inductive SearchBudgetTracker where
  | calendar (budget : CalendarBudget)
  | minute (limiter : MinuteRateLimiter)

namespace SearchBudgetTracker

/-- The period that a tracker counts in. -/
def period : SearchBudgetTracker → SearchBudgetPeriod
  | calendar budget => budget.kind.name
  | minute _ => .minute

/-- The limits of a tracker. -/
def limits : SearchBudgetTracker → Limits
  | calendar budget => budget.budgets
  | minute limiter => limiter.limits

/-- The limit of a provider. -/
def limit? (tracker : SearchBudgetTracker) (provider : SearchProviderId) : Option Nat :=
  tracker.limits.get? provider

/-- `tryConsume`. -/
def tryConsume (clock : Clock) (provider : SearchProviderId) :
    SearchBudgetTracker → Nat → Bool × SearchBudgetTracker × Nat
  | calendar budget, tick =>
    let (consumed, budget, tick) := budget.tryConsume clock provider tick
    (consumed, calendar budget, tick)
  | minute limiter, tick =>
    let (consumed, limiter, tick) := limiter.tryConsume clock provider tick
    (consumed, minute limiter, tick)

/-- `remaining`. -/
def remaining (clock : Clock) (provider : SearchProviderId) :
    SearchBudgetTracker → Nat → Option Nat × SearchBudgetTracker × Nat
  | calendar budget, tick =>
    let (left, budget, tick) := budget.remaining clock provider tick
    (left, calendar budget, tick)
  | minute limiter, tick =>
    let (left, limiter, tick) := limiter.remaining clock provider tick
    (left, minute limiter, tick)

/-- `snapshots`. -/
def snapshots (clock : Clock) (providers : List SearchProviderId) :
    SearchBudgetTracker → Nat → List SearchBudgetSnapshot × SearchBudgetTracker × Nat
  | calendar budget, tick =>
    let (snapshots, budget, tick) := budget.snapshots clock providers tick
    (snapshots, calendar budget, tick)
  | minute limiter, tick =>
    let (snapshots, limiter, tick) := limiter.snapshots clock providers tick
    (snapshots, minute limiter, tick)

end SearchBudgetTracker

/-- A tracker together with what it has consumed so far, which no operation reads. -/
structure Metered where
  tracker : SearchBudgetTracker
  consumed : List (SearchProviderId × Int)

namespace Metered

/-- `tryConsume` of the tracker. What is consumed is stamped with the last reading of the clock
that the tracker has taken. -/
def tryConsume (clock : Clock) (provider : SearchProviderId) (metered : Metered) (tick : Nat) :
    Bool × Metered × Nat :=
  let (consumed, tracker, next) := metered.tracker.tryConsume clock provider tick
  (consumed,
    ⟨tracker,
      if consumed && (metered.tracker.limit? provider).isSome then
        metered.consumed ++ [(provider, clock.reading (next - 1))]
      else metered.consumed⟩,
    next)

/-- `remaining` of the tracker. -/
def remaining (clock : Clock) (provider : SearchProviderId) (metered : Metered) (tick : Nat) :
    Option Nat × Metered × Nat :=
  let (left, tracker, next) := metered.tracker.remaining clock provider tick
  (left, { metered with tracker }, next)

/-- `snapshots` of the tracker. -/
def snapshots (clock : Clock) (providers : List SearchProviderId) (metered : Metered)
    (tick : Nat) : List SearchBudgetSnapshot × Metered × Nat :=
  let (snapshots, tracker, next) := metered.tracker.snapshots clock providers tick
  (snapshots, { metered with tracker }, next)

end Metered

/-! ## The composite -/

/-- `CompositeSearchBudget`. -/
structure CompositeSearchBudget where
  trackers : List Metered

namespace CompositeSearchBudget

/-- The first loop of `tryConsume`: the trackers up to the first that has nothing left. -/
def allRemaining (clock : Clock) (provider : SearchProviderId) :
    List Metered → Nat → Bool × List Metered × Nat
  | [], tick => (true, [], tick)
  | first :: rest, tick =>
    let (left, first, tick) := first.remaining clock provider tick
    if left = some 0 then (false, first :: rest, tick)
    else
      let (all, rest, tick) := allRemaining clock provider rest tick
      (all, first :: rest, tick)

/-- The second loop of `tryConsume`: every tracker is asked, and no answer is looked at. -/
def consumeAll (clock : Clock) (provider : SearchProviderId) :
    List Metered → Nat → List Metered × Nat
  | [], tick => ([], tick)
  | first :: rest, tick =>
    let (_, first, tick) := first.tryConsume clock provider tick
    let (rest, tick) := consumeAll clock provider rest tick
    (first :: rest, tick)

/-- `tryConsume`. -/
def tryConsume (clock : Clock) (provider : SearchProviderId) (budget : CompositeSearchBudget)
    (tick : Nat) : Bool × CompositeSearchBudget × Nat :=
  let (all, trackers, tick) := allRemaining clock provider budget.trackers tick
  if all then
    let (trackers, tick) := consumeAll clock provider trackers tick
    (true, ⟨trackers⟩, tick)
  else (false, ⟨trackers⟩, tick)

/-- The loop of `remaining`, with the least number so far. -/
def leastRemaining (clock : Clock) (provider : SearchProviderId) :
    List Metered → Option Nat → Nat → Option Nat × List Metered × Nat
  | [], least, tick => (least, [], tick)
  | first :: rest, least, tick =>
    let (left, first, tick) := first.remaining clock provider tick
    let least := match left, least with
      | none, least => least
      | some left, none => some left
      | some left, some least => if left < least then some left else some least
    let (least, rest, tick) := leastRemaining clock provider rest least tick
    (least, first :: rest, tick)

/-- `remaining`. -/
def remaining (clock : Clock) (provider : SearchProviderId) (budget : CompositeSearchBudget)
    (tick : Nat) : Option Nat × CompositeSearchBudget × Nat :=
  let (least, trackers, tick) := leastRemaining clock provider budget.trackers none tick
  (least, ⟨trackers⟩, tick)

/-- The snapshots of the trackers in turn. -/
def allSnapshots (clock : Clock) (providers : List SearchProviderId) :
    List Metered → Nat → List SearchBudgetSnapshot × List Metered × Nat
  | [], tick => ([], [], tick)
  | first :: rest, tick =>
    let (snapshots, first, tick) := first.snapshots clock providers tick
    let (others, rest, tick) := allSnapshots clock providers rest tick
    (snapshots ++ others, first :: rest, tick)

/-- `snapshots`. -/
def snapshots (clock : Clock) (providers : List SearchProviderId)
    (budget : CompositeSearchBudget) (tick : Nat) :
    List SearchBudgetSnapshot × CompositeSearchBudget × Nat :=
  let (snapshots, trackers, tick) := allSnapshots clock providers budget.trackers tick
  (snapshots, ⟨trackers⟩, tick)

end CompositeSearchBudget

/-! ## Configurations and runs -/

/-- The configuration of a tracker. -/
inductive TrackerConfig where
  | monthly (budgets : ConfiguredLimits)
  | daily (budgets : ConfiguredLimits)
  | minute (limits : ConfiguredLimits)

/-- The tracker of a configuration, with nothing consumed. -/
def TrackerConfig.create (clock : Clock) :
    TrackerConfig → Nat → Except Fault (SearchBudgetTracker × Nat)
  | monthly budgets, tick => do
    let (budget, tick) ← MonthlySearchBudget.create clock budgets tick
    pure (.calendar budget, tick)
  | daily budgets, tick => do
    let (budget, tick) ← DailySearchBudget.create clock budgets tick
    pure (.calendar budget, tick)
  | minute limits, tick => do
    let limiter ← MinuteRateLimiter.create limits
    pure (.minute limiter, tick)

namespace CompositeSearchBudget

/-- The composite of new trackers. -/
def create (clock : Clock) :
    List TrackerConfig → Nat → Except Fault (CompositeSearchBudget × Nat)
  | [], tick => pure (⟨[]⟩, tick)
  | first :: rest, tick => do
    let (tracker, tick) ← first.create clock tick
    let (composite, tick) ← create clock rest tick
    pure (⟨⟨tracker, []⟩ :: composite.trackers⟩, tick)

/-- A call on the composite. -/
inductive Call where
  | tryConsume (provider : SearchProviderId)
  | remaining (provider : SearchProviderId)
  | snapshots (providers : List SearchProviderId)

/-- What a call leaves. -/
def Call.perform (clock : Clock) (budget : CompositeSearchBudget) (tick : Nat) :
    Call → CompositeSearchBudget × Nat
  | tryConsume provider => (budget.tryConsume clock provider tick).2
  | remaining provider => (budget.remaining clock provider tick).2
  | snapshots providers => (budget.snapshots clock providers tick).2

/-- What a sequence of calls leaves. -/
def perform (clock : Clock) : CompositeSearchBudget × Nat → List Call → CompositeSearchBudget × Nat
  | state, [] => state
  | (budget, tick), call :: rest => perform clock (call.perform clock budget tick) rest

end CompositeSearchBudget

end Groundlane
