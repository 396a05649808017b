import Groundlane.Budget.Tracker
import Groundlane.Ordered.Map
import Mathlib.Algebra.Order.Field.Rat
import Mathlib.Tactic.Linarith

/-!
# The health of search providers

`DynamicPenaltyHealthTracker` of `core/provider-health.ts`: a circuit breaker for each provider and
a penalty that fades with time. Times, scores and the numbers of a configuration are rational. A
call may read the clock more than once, so each call comes with what the clock showed at the places
where it is read.
-/

namespace Groundlane.Search

/-- `PenaltyEntry`. -/
structure PenaltyEntry where
  score : ℚ
  lastUpdate : ℚ
deriving DecidableEq, Repr

/-- `CircuitState`. -/
structure CircuitState where
  consecutive : ℚ
  openUntil : ℚ
deriving DecidableEq, Repr

/-- `HealthTrackerConfig`. -/
structure HealthTrackerConfig where
  penaltyIncrement : ℚ
  decayPerMinute : ℚ
  circuitThreshold : ℚ
  circuitCooldownMs : ℚ
deriving DecidableEq, Repr

/-- `DEFAULT_CONFIG`. -/
def HealthTrackerConfig.default : HealthTrackerConfig := ⟨3, 1, 5, 60000⟩

/-- The two maps of a `DynamicPenaltyHealthTracker`. -/
structure DynamicPenaltyHealthTracker where
  penalties : OrderedMap SearchProviderId PenaltyEntry
  circuits : OrderedMap SearchProviderId CircuitState

/-- `decayedScore`, at the time that the clock shows. -/
def HealthTrackerConfig.decayedScore (config : HealthTrackerConfig) (entry : PenaltyEntry)
    (now : ℚ) : ℚ :=
  let elapsedMinutes := (now - entry.lastUpdate) / 60000
  max 0 (entry.score - elapsedMinutes * config.decayPerMinute)

namespace DynamicPenaltyHealthTracker

variable (config : HealthTrackerConfig) (tracker : DynamicPenaltyHealthTracker)
  (provider : SearchProviderId)

/-- A new tracker. -/
def new : DynamicPenaltyHealthTracker := ⟨.empty, .empty⟩

def isHealthy (now : ℚ) : Bool :=
  match tracker.circuits.get? provider with
  | none => true
  | some state =>
    if state.consecutive < config.circuitThreshold then true
    else decide (state.openUntil ≤ now)

/-- `recordSuccess`. The clock shows `decayed` when the score is taken and `updated` when the entry
is written. -/
def recordSuccess (decayed updated : ℚ) : DynamicPenaltyHealthTracker where
  circuits := tracker.circuits.erase provider
  penalties :=
    match tracker.penalties.get? provider with
    | none => tracker.penalties
    | some entry =>
      let score := max 0 (config.decayedScore entry decayed - 1)
      if score = 0 then tracker.penalties.erase provider
      else tracker.penalties.set provider ⟨score, updated⟩

/-- `recordFailure`. The clock shows `created` when a new entry is made, `decayed` when the score is
taken, `updated` when the entry is written, `compared` when the end of the cooldown is looked at
and `opened` when the cooldown starts again. -/
def recordFailure (created decayed updated compared opened : ℚ) :
    DynamicPenaltyHealthTracker where
  penalties :=
    let entry := (tracker.penalties.get? provider).getD ⟨0, created⟩
    tracker.penalties.set provider
      ⟨config.decayedScore entry decayed + config.penaltyIncrement, updated⟩
  circuits :=
    let state := (tracker.circuits.get? provider).getD ⟨0, 0⟩
    let consecutive :=
      if 0 < state.openUntil ∧ state.openUntil ≤ compared then config.circuitThreshold
      else state.consecutive + 1
    let openUntil :=
      if config.circuitThreshold ≤ consecutive then opened + config.circuitCooldownMs
      else state.openUntil
    tracker.circuits.set provider ⟨consecutive, openUntil⟩

def penalty (now : ℚ) : ℚ :=
  match tracker.penalties.get? provider with
  | none => 0
  | some entry => max 0 (config.decayedScore entry now)

end DynamicPenaltyHealthTracker

/-! ## Calls -/

/-- The calls of a tracker, with what the clock shows at the places where they read it. -/
inductive HealthCall where
  | isHealthy (provider : SearchProviderId) (now : ℚ)
  | recordSuccess (provider : SearchProviderId) (decayed updated : ℚ)
  | recordFailure (provider : SearchProviderId) (created decayed updated compared opened : ℚ)
  | penalty (provider : SearchProviderId) (now : ℚ)
deriving DecidableEq, Repr

namespace HealthCall

/-- The provider that a call is about. -/
def provider : HealthCall → SearchProviderId
  | isHealthy provider _ => provider
  | recordSuccess provider _ _ => provider
  | recordFailure provider _ _ _ _ _ => provider
  | penalty provider _ => provider

/-- What the clock shows during a call, in order. -/
def readings : HealthCall → List ℚ
  | isHealthy _ now => [now]
  | recordSuccess _ decayed updated => [decayed, updated]
  | recordFailure _ created decayed updated compared opened =>
    [created, decayed, updated, compared, opened]
  | penalty _ now => [now]

/-- Whether a call records a success of a provider. -/
def succeeds (provider : SearchProviderId) : HealthCall → Bool
  | recordSuccess other _ _ => other = provider
  | _ => false

/-- The time at which a call records a failure of a provider: what the clock shows last. -/
def failedAt (provider : SearchProviderId) : HealthCall → Option ℚ
  | recordFailure other _ _ _ _ opened => if other = provider then some opened else none
  | _ => none

/-- What a call leaves of a tracker. -/
def perform (config : HealthTrackerConfig) (tracker : DynamicPenaltyHealthTracker) :
    HealthCall → DynamicPenaltyHealthTracker
  | isHealthy _ _ => tracker
  | recordSuccess provider decayed updated => tracker.recordSuccess config provider decayed updated
  | recordFailure provider created decayed updated compared opened =>
    tracker.recordFailure config provider created decayed updated compared opened
  | penalty _ _ => tracker

end HealthCall

namespace DynamicPenaltyHealthTracker

/-- One call after the other. -/
def run (config : HealthTrackerConfig) (calls : List HealthCall)
    (tracker : DynamicPenaltyHealthTracker) : DynamicPenaltyHealthTracker :=
  calls.foldl (HealthCall.perform config) tracker

@[simp] theorem run_nil (config : HealthTrackerConfig) (tracker : DynamicPenaltyHealthTracker) :
    tracker.run config [] = tracker := rfl

@[simp] theorem run_cons (config : HealthTrackerConfig) (call : HealthCall)
    (calls : List HealthCall) (tracker : DynamicPenaltyHealthTracker) :
    tracker.run config (call :: calls) = (call.perform config tracker).run config calls := rfl

@[simp] theorem run_append (config : HealthTrackerConfig) (before after : List HealthCall)
    (tracker : DynamicPenaltyHealthTracker) :
    tracker.run config (before ++ after) = (tracker.run config before).run config after := by
  simp [run]

end DynamicPenaltyHealthTracker

end Groundlane.Search
