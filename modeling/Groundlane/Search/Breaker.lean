import Groundlane.Search.Health
import Mathlib.Tactic.FieldSimp
import Mathlib.Tactic.Ring

/-!
# The circuit breaker by its history

A tracker calls a provider unhealthy exactly if enough failures were recorded since its last
success and the last of them is less than the cooldown ago, and calls about other providers have no
influence. With a decay that is not negative the penalty falls between two failures, and with an
increment that is not negative either, the penalty is at most the increment for each failure
(`breaker_history`). A negative decay lets the penalty grow by itself (`penalty_grows`).
-/

namespace Groundlane.Search

/-! ## Histories -/

/-- The clock never goes backwards, neither between two calls nor during one. -/
def Chronological (calls : List HealthCall) : Prop :=
  (calls.flatMap HealthCall.readings).Pairwise (· ≤ ·)

/-- The times of the failures of a provider since its last success, the last failure first. -/
def failuresSinceSuccess (provider : SearchProviderId) (calls : List HealthCall) : List ℚ :=
  (calls.reverse.takeWhile fun call => !call.succeeds provider).filterMap
    (HealthCall.failedAt provider)

/-- The times of all failures of a provider. -/
def failures (provider : SearchProviderId) (calls : List HealthCall) : List ℚ :=
  calls.filterMap (HealthCall.failedAt provider)

namespace HealthTrackerConfig

variable (config : HealthTrackerConfig)

/-- The tracker after the calls. -/
def after (calls : List HealthCall) : DynamicPenaltyHealthTracker :=
  DynamicPenaltyHealthTracker.new.run config calls

/-- A provider is unhealthy exactly if it failed often enough since its last success, and the last
time less than the cooldown ago. -/
def HealthByHistory : Prop :=
  ∀ calls provider now, Chronological (calls ++ [.isHealthy provider now]) →
    ((config.after calls).isHealthy config provider now = false ↔
      config.circuitThreshold ≤ (failuresSinceSuccess provider calls).length ∧
        ∃ last, (failuresSinceSuccess provider calls).head? = some last ∧
          now - last < config.circuitCooldownMs)

/-- Calls about other providers have no influence. -/
def Independent : Prop :=
  ∀ calls provider now,
    (config.after calls).isHealthy config provider now =
      (config.after (calls.filter fun call => call.provider = provider)).isHealthy config provider
        now ∧
    (config.after calls).penalty config provider now =
      (config.after (calls.filter fun call => call.provider = provider)).penalty config provider now

/-- The penalty never increases between two failures. -/
def PenaltyFalls : Prop :=
  ∀ before between provider now later,
    Chronological (before ++ .penalty provider now :: between ++ [.penalty provider later]) →
    failures provider between = [] →
    (config.after (before ++ .penalty provider now :: between)).penalty config provider later ≤
      (config.after before).penalty config provider now

/-- The penalty is at most the increment for each failure. -/
def PenaltyBounded : Prop :=
  ∀ calls provider now, Chronological (calls ++ [.penalty provider now]) →
    (config.after calls).penalty config provider now ≤
      config.penaltyIncrement * (failures provider calls).length

end HealthTrackerConfig

@[simp] theorem failuresSinceSuccess_nil (provider : SearchProviderId) :
    failuresSinceSuccess provider [] = [] := rfl

/-- What one more call does to the failures since the last success. -/
theorem failuresSinceSuccess_concat (provider : SearchProviderId) (calls : List HealthCall)
    (call : HealthCall) :
    failuresSinceSuccess provider (calls ++ [call]) =
      if call.succeeds provider then []
      else (call.failedAt provider).toList ++ failuresSinceSuccess provider calls := by
  unfold failuresSinceSuccess
  rw [List.reverse_concat, List.takeWhile_cons]
  cases call.succeeds provider with
  | true => simp
  | false => cases hfailed : call.failedAt provider <;> simp [hfailed]

/-! ## What one call does to one provider -/

namespace DynamicPenaltyHealthTracker

variable {config : HealthTrackerConfig} {tracker other : DynamicPenaltyHealthTracker}
  {provider : SearchProviderId}

/-- Two trackers hold the same of a provider. -/
structure SameFor (provider : SearchProviderId)
    (tracker other : DynamicPenaltyHealthTracker) : Prop where
  penalties : tracker.penalties.get? provider = other.penalties.get? provider
  circuits : tracker.circuits.get? provider = other.circuits.get? provider

theorem SameFor.isHealthy (h : SameFor provider tracker other) (now : ℚ) :
    tracker.isHealthy config provider now = other.isHealthy config provider now := by
  unfold DynamicPenaltyHealthTracker.isHealthy
  rw [h.circuits]

theorem SameFor.penalty (h : SameFor provider tracker other) (now : ℚ) :
    tracker.penalty config provider now = other.penalty config provider now := by
  unfold DynamicPenaltyHealthTracker.penalty
  rw [h.penalties]

/-- A call about another provider leaves what the tracker holds. -/
theorem perform_of_ne (call : HealthCall) (h : provider ≠ call.provider) :
    SameFor provider (call.perform config tracker) tracker := by
  cases call with
  | isHealthy p now => exact ⟨rfl, rfl⟩
  | penalty p now => exact ⟨rfl, rfl⟩
  | recordFailure p created decayed updated compared opened =>
    exact ⟨OrderedMap.get?_set_of_ne _ h _, OrderedMap.get?_set_of_ne _ h _⟩
  | recordSuccess p decayed updated =>
    have hne : provider ≠ p := h
    constructor
    · simp only [HealthCall.perform, DynamicPenaltyHealthTracker.recordSuccess]
      cases tracker.penalties.get? p with
      | none => rfl
      | some entry =>
        dsimp only
        split
        · rw [OrderedMap.get?_erase, if_neg hne]
        · rw [OrderedMap.get?_set_of_ne _ hne]
    · show (tracker.circuits.erase p).get? provider = _
      rw [OrderedMap.get?_erase, if_neg hne]

/-- A call about another provider records nothing of this one. -/
theorem recorded_of_ne {call : HealthCall} (h : provider ≠ call.provider) :
    call.succeeds provider = false ∧ call.failedAt provider = none := by
  cases call with
  | isHealthy p now => exact ⟨rfl, rfl⟩
  | penalty p now => exact ⟨rfl, rfl⟩
  | recordSuccess p decayed updated => exact ⟨decide_eq_false (Ne.symm h), rfl⟩
  | recordFailure p created decayed updated compared opened => exact ⟨rfl, if_neg (Ne.symm h)⟩

/-- What a call leaves of its provider depends on what was there of the provider only. -/
theorem SameFor.perform (h : SameFor provider tracker other) (call : HealthCall) :
    SameFor provider (call.perform config tracker) (call.perform config other) := by
  by_cases hprovider : provider = call.provider
  · subst hprovider
    cases call with
    | isHealthy p now => exact h
    | penalty p now => exact h
    | recordFailure p created decayed updated compared opened =>
      constructor
      · simp only [HealthCall.perform, recordFailure, HealthCall.provider,
          OrderedMap.get?_set_self] at h ⊢
        rw [h.penalties]
      · simp only [HealthCall.perform, recordFailure, HealthCall.provider,
          OrderedMap.get?_set_self] at h ⊢
        rw [h.circuits]
    | recordSuccess p decayed updated =>
      have hsame : tracker.penalties.get? p = other.penalties.get? p := h.penalties
      constructor
      · simp only [HealthCall.perform, recordSuccess, HealthCall.provider, hsame]
        cases hentry : other.penalties.get? p with
        | none => exact hsame
        | some entry =>
          dsimp only
          split
          · simp [OrderedMap.get?_erase]
          · simp
      · simp [HealthCall.perform, recordSuccess, HealthCall.provider, OrderedMap.get?_erase]
  · have hleft : SameFor provider (call.perform config tracker) tracker :=
      perform_of_ne call hprovider
    have hright : SameFor provider (call.perform config other) other :=
      perform_of_ne call hprovider
    exact ⟨hleft.penalties.trans (h.penalties.trans hright.penalties.symm),
      hleft.circuits.trans (h.circuits.trans hright.circuits.symm)⟩

/-- Calls about other providers can be left out of a run. -/
theorem SameFor.run (h : SameFor provider tracker other) (calls : List HealthCall) :
    SameFor provider (tracker.run config calls)
      (other.run config (calls.filter fun call => call.provider = provider)) := by
  induction calls generalizing tracker other with
  | nil => exact h
  | cons call calls ih =>
    by_cases hprovider : call.provider = provider
    · rw [List.filter_cons_of_pos (by simpa using hprovider)]
      exact ih (h.perform call)
    · rw [List.filter_cons_of_neg (by simpa using hprovider)]
      have hcall : SameFor provider (call.perform config tracker) tracker :=
        perform_of_ne call (Ne.symm hprovider)
      exact ih ⟨hcall.penalties.trans h.penalties, hcall.circuits.trans h.circuits⟩

/-! ## The circuit breaker -/

/-- What the circuit of a provider tells of the failures since the last success. Below the
threshold it counts them and is not open; from the threshold on its counter stays there, and it is
open until the cooldown after the last failure is over. -/
def Tells (config : HealthTrackerConfig) : List ℚ → Option CircuitState → Prop
  | [], state => state = none
  | last :: earlier, state =>
    ∃ circuit, state = some circuit ∧
      (((last :: earlier).length : ℚ) < config.circuitThreshold →
        circuit = ⟨(last :: earlier).length, 0⟩) ∧
      (config.circuitThreshold ≤ (last :: earlier).length →
        config.circuitThreshold ≤ circuit.consecutive ∧
          circuit.openUntil = last + config.circuitCooldownMs)

/-- A failure is told of. -/
theorem Tells.recordFailure {times : List ℚ}
    (h : Tells config times (tracker.circuits.get? provider))
    (created decayed updated compared opened : ℚ) :
    Tells config (opened :: times) ((tracker.recordFailure config provider created decayed updated
      compared opened).circuits.get? provider) := by
  unfold DynamicPenaltyHealthTracker.recordFailure
  rw [OrderedMap.get?_set_self]
  refine ⟨_, rfl, ?_⟩
  cases times with
  | nil =>
    have hnone : tracker.circuits.get? provider = none := h
    rw [hnone, Option.getD_none]
    constructor
    · intro hbelow
      have hlt : (1 : ℚ) < config.circuitThreshold := by simpa using hbelow
      simp [hlt]
    · intro hreached
      have hle : config.circuitThreshold ≤ 1 := by simpa using hreached
      simp [hle]
  | cons last earlier =>
    obtain ⟨circuit, hsome, hbelow, hreached⟩ := h
    rw [hsome, Option.getD_some]
    have hcount : ((opened :: last :: earlier).length : ℚ) = (last :: earlier).length + 1 := by
      rw [List.length_cons]
      exact Nat.cast_succ _
    rcases lt_or_ge ((last :: earlier).length : ℚ) config.circuitThreshold with hlt | hge
    · -- The circuit has counted all failures and was never open.
      rw [hbelow hlt, hcount]
      simp only [lt_irrefl, false_and, if_false]
      constructor
      · intro hstill
        rw [if_neg (not_le.2 hstill)]
      · intro hnow
        rw [if_pos hnow]
        exact ⟨hnow, rfl⟩
    · -- The counter may be set back to the threshold, and is not below it in any case.
      have hkept : config.circuitThreshold ≤
          if 0 < circuit.openUntil ∧ circuit.openUntil ≤ compared then config.circuitThreshold
          else circuit.consecutive + 1 := by
        have := (hreached hge).1
        split <;> linarith
      rw [hcount]
      constructor
      · intro hstill
        linarith
      · intro _
        exact ⟨hkept, if_pos hkept⟩

/-- The circuit of a provider tells of its history. -/
theorem tells_after (config : HealthTrackerConfig) (provider : SearchProviderId)
    (calls : List HealthCall) :
    Tells config (failuresSinceSuccess provider calls)
      ((config.after calls).circuits.get? provider) := by
  induction calls using List.reverseRecOn with
  | nil => rfl
  | append_singleton calls call ih =>
    have hrun : config.after (calls ++ [call]) = call.perform config (config.after calls) := by
      simp [HealthTrackerConfig.after]
    rw [hrun, failuresSinceSuccess_concat]
    by_cases hprovider : provider = call.provider
    · subst hprovider
      cases call with
      | isHealthy p now => exact ih
      | penalty p now => exact ih
      | recordSuccess p decayed updated =>
        simp [HealthCall.succeeds, HealthCall.provider, HealthCall.perform, recordSuccess,
          OrderedMap.get?_erase, Tells]
      | recordFailure p created decayed updated compared opened =>
        have hstep := ih.recordFailure created decayed updated compared opened
        simpa [HealthCall.succeeds, HealthCall.failedAt, HealthCall.provider,
          HealthCall.perform] using hstep
    · obtain ⟨hsucceeds, hfailed⟩ := recorded_of_ne hprovider
      rw [hsucceeds, hfailed, (perform_of_ne call hprovider).circuits]
      exact ih

theorem healthByHistory (config : HealthTrackerConfig) : config.HealthByHistory := by
  intro calls provider now _
  have htells := tells_after config provider calls
  unfold isHealthy
  cases hfailures : failuresSinceSuccess provider calls with
  | nil =>
    rw [hfailures] at htells
    have hnone : (config.after calls).circuits.get? provider = none := htells
    rw [hnone]
    simp
  | cons last earlier =>
    rw [hfailures] at htells
    obtain ⟨_, hsome, hbelow, hreached⟩ := htells
    rw [hsome]
    dsimp only
    rcases lt_or_ge ((last :: earlier).length : ℚ) config.circuitThreshold with hlt | hge
    · rw [if_pos (by rw [hbelow hlt]; exact hlt)]
      simp only [Bool.true_eq_false, false_iff, not_and]
      intro hle
      exact absurd hlt (not_lt.2 hle)
    · obtain ⟨hconsecutive, hopen⟩ := hreached hge
      rw [if_neg (not_lt.2 hconsecutive), hopen, decide_eq_false_iff_not, not_le]
      constructor
      · intro hlt
        exact ⟨hge, last, rfl, by linarith⟩
      · intro h
        obtain ⟨-, _, hlast, _⟩ := h
        obtain rfl := Option.some.inj hlast
        linarith

/-! ## The penalty -/

theorem penalty_nonneg (now : ℚ) : 0 ≤ tracker.penalty config provider now := by
  unfold penalty
  split
  · exact le_refl 0
  · exact le_max_left _ _

variable {entry : PenaltyEntry} {now : ℚ}

/-- The penalty is the score of the entry, as far as it has not decayed. -/
theorem penalty_of_entry (h : tracker.penalties.get? provider = some entry) (now : ℚ) :
    tracker.penalty config provider now = config.decayedScore entry now := by
  unfold penalty
  rw [h]
  exact max_eq_right (le_max_left _ _)

/-- A score does not decay upwards. -/
theorem decayedScore_le (hdecay : 0 ≤ config.decayPerMinute) (hnow : entry.lastUpdate ≤ now) :
    config.decayedScore entry now ≤ max 0 entry.score := by
  have helapsed : 0 ≤ (now - entry.lastUpdate) / 60000 := by
    apply div_nonneg <;> linarith
  have hlost := mul_nonneg helapsed hdecay
  exact max_le_max_left 0 (by linarith)

/-- From a time on, the penalty of a provider is at most the bound. -/
def Below (config : HealthTrackerConfig) (tracker : DynamicPenaltyHealthTracker)
    (provider : SearchProviderId) (bound time : ℚ) : Prop :=
  ∀ now, time ≤ now → tracker.penalty config provider now ≤ bound

variable {bound time : ℚ}

theorem Below.nonneg (h : Below config tracker provider bound time) : 0 ≤ bound :=
  (penalty_nonneg time).trans (h time (le_refl time))

theorem Below.mono {time' : ℚ} (h : Below config tracker provider bound time)
    (htime : time ≤ time') : Below config tracker provider bound time' :=
  fun now hnow => h now (htime.trans hnow)

/-- A score that is taken after the time is within the bound. -/
theorem Below.decayedScore (h : Below config tracker provider bound time)
    (hentry : tracker.penalties.get? provider = some entry) (hnow : time ≤ now) :
    config.decayedScore entry now ≤ bound := by
  rw [← penalty_of_entry hentry]
  exact h now hnow

/-- An entry that was written within a bound stays within it. -/
theorem below_of_entry (hdecay : 0 ≤ config.decayPerMinute)
    (hentry : tracker.penalties.get? provider = some entry) (hscore : entry.score ≤ bound)
    (hbound : 0 ≤ bound) : Below config tracker provider bound entry.lastUpdate := by
  intro now hnow
  rw [penalty_of_entry hentry]
  exact (decayedScore_le hdecay hnow).trans (max_le hbound hscore)

/-- A success lowers the penalty. -/
theorem Below.recordSuccess (hdecay : 0 ≤ config.decayPerMinute)
    (h : Below config tracker provider bound time) {decayed updated : ℚ} (hdecayed : time ≤ decayed) :
    Below config (tracker.recordSuccess config provider decayed updated) provider bound updated := by
  cases hentry : tracker.penalties.get? provider with
  | none =>
    have hnone : (tracker.recordSuccess config provider decayed updated).penalties.get? provider =
        none := by
      simp [DynamicPenaltyHealthTracker.recordSuccess, hentry]
    intro now _
    unfold penalty
    rw [hnone]
    exact h.nonneg
  | some entry =>
    have hscore := h.decayedScore hentry hdecayed
    by_cases hzero : max 0 (config.decayedScore entry decayed - 1) = 0
    · have hnone : (tracker.recordSuccess config provider decayed updated).penalties.get?
          provider = none := by
        simp only [DynamicPenaltyHealthTracker.recordSuccess, hentry, if_pos hzero]
        simp [OrderedMap.get?_erase]
      intro now _
      unfold penalty
      rw [hnone]
      exact h.nonneg
    · have hsome : (tracker.recordSuccess config provider decayed updated).penalties.get?
          provider = some ⟨max 0 (config.decayedScore entry decayed - 1), updated⟩ := by
        simp only [DynamicPenaltyHealthTracker.recordSuccess, hentry, if_neg hzero]
        simp
      exact below_of_entry hdecay hsome (max_le h.nonneg (by linarith)) h.nonneg

/-- A failure adds the increment. -/
theorem Below.recordFailure (hdecay : 0 ≤ config.decayPerMinute)
    (hincrement : 0 ≤ config.penaltyIncrement) (h : Below config tracker provider bound time)
    {created decayed updated compared opened : ℚ} (hcreated : time ≤ created)
    (hdecayed : created ≤ decayed) :
    Below config (tracker.recordFailure config provider created decayed updated compared opened)
      provider (bound + config.penaltyIncrement) updated := by
  have hbound := h.nonneg
  have hsome : (tracker.recordFailure config provider created decayed updated compared
      opened).penalties.get? provider =
        some ⟨config.decayedScore ((tracker.penalties.get? provider).getD ⟨0, created⟩) decayed +
          config.penaltyIncrement, updated⟩ :=
    OrderedMap.get?_set_self _ _ _
  refine below_of_entry hdecay hsome ?_ (by linarith)
  show _ + config.penaltyIncrement ≤ bound + config.penaltyIncrement
  refine add_le_add_left ?_ _
  cases hentry : tracker.penalties.get? provider with
  | none =>
    -- A new entry has no score yet.
    have hnew : config.decayedScore ⟨0, created⟩ decayed ≤ max 0 0 :=
      decayedScore_le hdecay hdecayed
    rw [Option.getD_none]
    exact hnew.trans (by simpa using hbound)
  | some entry =>
    rw [Option.getD_some]
    exact h.decayedScore hentry (hcreated.trans hdecayed)

/-- What the clock shows when a call ends. -/
def callTime : HealthCall → ℚ
  | .isHealthy _ now => now
  | .recordSuccess _ _ updated => updated
  | .recordFailure _ _ _ _ _ opened => opened
  | .penalty _ now => now

theorem callTime_mem (call : HealthCall) : callTime call ∈ call.readings := by
  cases call <;> simp [callTime, HealthCall.readings]

/-- Each call raises the bound by the increment for each failure that it records. -/
theorem Below.perform (hdecay : 0 ≤ config.decayPerMinute) {call : HealthCall}
    (hincrement : (call.failedAt provider).isSome → 0 ≤ config.penaltyIncrement)
    (h : Below config tracker provider bound time) (htime : ∀ reading ∈ call.readings, time ≤ reading)
    (horder : call.readings.Pairwise (· ≤ ·)) :
    Below config (call.perform config tracker) provider
      (bound + config.penaltyIncrement * (call.failedAt provider).toList.length) (callTime call) := by
  by_cases hprovider : provider = call.provider
  · subst hprovider
    cases call with
    | isHealthy p now =>
      have hkept := h.mono (htime now List.mem_cons_self)
      simpa [HealthCall.failedAt, HealthCall.perform, callTime] using hkept
    | penalty p now =>
      have hkept := h.mono (htime now List.mem_cons_self)
      simpa [HealthCall.failedAt, HealthCall.perform, callTime] using hkept
    | recordSuccess p decayed updated =>
      have hstep : Below config (tracker.recordSuccess config p decayed updated) p bound updated :=
        h.recordSuccess hdecay (htime decayed List.mem_cons_self)
      simpa [HealthCall.failedAt, HealthCall.provider, HealthCall.perform, callTime] using hstep
    | recordFailure p created decayed updated compared opened =>
      simp only [HealthCall.readings, List.pairwise_cons, List.mem_cons, List.not_mem_nil,
        or_false, forall_eq_or_imp, forall_eq] at htime horder
      have hstep : Below config (tracker.recordFailure config p created decayed updated compared
          opened) p (bound + config.penaltyIncrement) updated :=
        h.recordFailure hdecay (hincrement (by simp [HealthCall.failedAt, HealthCall.provider]))
          htime.1 horder.1.1
      have hended := hstep.mono horder.2.2.1.2
      simpa [HealthCall.failedAt, HealthCall.provider, HealthCall.perform, callTime] using hended
  · intro now hnow
    rw [(perform_of_ne call hprovider).penalty, (recorded_of_ne hprovider).2]
    simpa using h now ((htime _ (callTime_mem call)).trans hnow)

/-- Over a run the bound rises by the increment for each failure. -/
theorem Below.run (hdecay : 0 ≤ config.decayPerMinute) {calls : List HealthCall}
    (hincrement : failures provider calls ≠ [] → 0 ≤ config.penaltyIncrement)
    (h : Below config tracker provider bound time)
    (htime : ∀ reading ∈ calls.flatMap HealthCall.readings, time ≤ reading)
    (horder : Chronological calls) (hfrom : time ≤ now)
    (hnow : ∀ reading ∈ calls.flatMap HealthCall.readings, reading ≤ now) :
    (tracker.run config calls).penalty config provider now ≤
      bound + config.penaltyIncrement * (failures provider calls).length := by
  induction calls generalizing tracker bound time with
  | nil => simpa [failures] using h now hfrom
  | cons call calls ih =>
    rw [List.flatMap_cons] at htime hnow
    unfold Chronological at horder
    rw [List.flatMap_cons, List.pairwise_append] at horder
    obtain ⟨hcall, hrest, hbetween⟩ := horder
    have hlast := callTime_mem call
    have hsplit : failures provider (call :: calls) =
        (call.failedAt provider).toList ++ failures provider calls := by
      cases hfailed : call.failedAt provider <;> simp [failures, hfailed]
    have hstep : Below config (call.perform config tracker) provider
        (bound + config.penaltyIncrement * (call.failedAt provider).toList.length)
        (callTime call) := by
      refine h.perform hdecay ?_ (fun reading hmem => htime reading (List.mem_append_left _ hmem))
        hcall
      intro hfailed
      refine hincrement ?_
      rw [hsplit]
      cases hsome : call.failedAt provider <;> simp_all
    have hrun := ih (fun hne => hincrement (by rw [hsplit]; simp [hne])) hstep
      (fun reading hmem => hbetween _ hlast reading hmem) hrest
      (hnow _ (List.mem_append_left _ hlast))
      (fun reading hmem => hnow reading (List.mem_append_right _ hmem))
    rw [run_cons]
    refine hrun.trans (le_of_eq ?_)
    rw [hsplit, List.length_append, Nat.cast_add]
    ring

/-- A new tracker has no penalties. -/
theorem below_new (config : HealthTrackerConfig) (provider : SearchProviderId) (time : ℚ) :
    Below config new provider 0 time :=
  fun _ _ => le_refl 0

/-! ## One failure and nothing else -/

/-- A failure at the beginning of time. -/
def firstFailure : List HealthCall := [.recordFailure "p" 0 0 0 0 0]

theorem penalty_firstFailure (config : HealthTrackerConfig) (now : ℚ) :
    (config.after firstFailure).penalty config "p" now =
      max 0 (config.penaltyIncrement - now / 60000 * config.decayPerMinute) := by
  have hentry : (config.after firstFailure).penalties.get? "p" =
      some ⟨config.decayedScore ⟨0, 0⟩ 0 + config.penaltyIncrement, 0⟩ :=
    OrderedMap.get?_set_self _ _ _
  rw [penalty_of_entry hentry]
  simp [HealthTrackerConfig.decayedScore]

/-- A time at which a negative decay has made the penalty greater than the increment. -/
def growthTime (config : HealthTrackerConfig) : ℚ :=
  60000 * |config.penaltyIncrement| / -config.decayPerMinute

variable (hdecay : config.decayPerMinute < 0)
include hdecay

theorem growthTime_nonneg : 0 ≤ growthTime config := by
  unfold growthTime
  have hpos : 0 < -config.decayPerMinute := by linarith
  exact div_nonneg (mul_nonneg (by norm_num) (abs_nonneg _)) hpos.le

theorem penalty_growthTime {minutes : ℚ} (hminutes : 0 ≤ minutes) :
    (config.after firstFailure).penalty config "p" (growthTime config + 60000 * minutes) =
      config.penaltyIncrement + |config.penaltyIncrement| - minutes * config.decayPerMinute := by
  have hne : config.decayPerMinute ≠ 0 := ne_of_lt hdecay
  have hgrown : (growthTime config + 60000 * minutes) / 60000 * config.decayPerMinute =
      -|config.penaltyIncrement| + minutes * config.decayPerMinute := by
    unfold growthTime
    field_simp
  have hlost : minutes * config.decayPerMinute ≤ 0 :=
    mul_nonpos_of_nonneg_of_nonpos hminutes hdecay.le
  have habs := neg_abs_le config.penaltyIncrement
  rw [penalty_firstFailure, hgrown, max_eq_right (by linarith)]
  ring

end DynamicPenaltyHealthTracker

namespace HealthTrackerConfig

open DynamicPenaltyHealthTracker

variable (config : HealthTrackerConfig)

theorem independent : config.Independent := by
  intro calls provider now
  have hsame : SameFor provider (config.after calls)
      (config.after (calls.filter fun call => call.provider = provider)) :=
    SameFor.run ⟨rfl, rfl⟩ calls
  exact ⟨hsame.isHealthy now, hsame.penalty now⟩

/-- The penalty falls between failures exactly if the decay is not negative. -/
theorem penaltyFalls_iff : config.PenaltyFalls ↔ 0 ≤ config.decayPerMinute := by
  constructor
  · intro h
    by_contra hnot
    have hdecay := not_le.1 hnot
    have hstart := growthTime_nonneg hdecay
    have hcalls : Chronological (firstFailure ++ .penalty "p" (growthTime config) :: [] ++
        [.penalty "p" (growthTime config + 60000)]) := by
      simp [Chronological, firstFailure, HealthCall.readings, hstart]
      linarith
    have hgrows := h firstFailure [] "p" (growthTime config) (growthTime config + 60000) hcalls rfl
    have hfirst := penalty_growthTime hdecay (le_refl 0)
    have hsecond := penalty_growthTime hdecay (zero_le_one' ℚ)
    have hrun : config.after (firstFailure ++ [.penalty "p" (growthTime config)]) =
        config.after firstFailure := rfl
    rw [mul_zero, add_zero] at hfirst
    rw [mul_one] at hsecond
    rw [hrun, hfirst, hsecond] at hgrows
    linarith
  · intro hdecay before between provider now later hcalls hnone
    unfold Chronological at hcalls
    have hrun : config.after (before ++ .penalty provider now :: between) =
        (config.after before).run config between := by
      simp [after, HealthCall.perform]
    simp only [List.flatMap_append, List.flatMap_cons, List.flatMap_nil, HealthCall.readings,
      List.append_assoc, List.pairwise_append, List.mem_append, List.cons_append, List.nil_append,
      List.pairwise_cons, List.mem_cons, List.append_nil] at hcalls
    obtain ⟨-, ⟨hfrom, hbetween, -, hlater⟩, -⟩ := hcalls
    -- From now on the penalty is at most what it is now.
    have hbelow : Below config (config.after before) provider
        ((config.after before).penalty config provider now) now := by
      cases hentry : (config.after before).penalties.get? provider with
      | none =>
        intro time _
        unfold penalty
        rw [hentry]
      | some entry =>
        intro time htime
        rw [penalty_of_entry hentry, penalty_of_entry hentry]
        have helapsed : (now - entry.lastUpdate) / 60000 ≤ (time - entry.lastUpdate) / 60000 := by
          apply div_le_div_of_nonneg_right <;> linarith
        have hlost := mul_le_mul_of_nonneg_right helapsed hdecay
        exact max_le_max_left 0 (by linarith)
    have hpenalty := hbelow.run hdecay (fun hne => absurd hnone hne)
      (fun reading hmem => hfrom reading (.inl hmem)) hbetween (hfrom later (by simp))
      (fun reading hmem => hlater reading hmem later (by simp))
    rw [hrun]
    simpa [hnone] using hpenalty

/-- The penalty is bounded by the failures exactly if neither decay nor increment is negative. -/
theorem penaltyBounded_iff :
    config.PenaltyBounded ↔ 0 ≤ config.decayPerMinute ∧ 0 ≤ config.penaltyIncrement := by
  constructor
  · intro h
    have hone : (failures "p" firstFailure).length = 1 := rfl
    constructor
    · by_contra hnot
      have hdecay := not_le.1 hnot
      have hstart := growthTime_nonneg hdecay
      have hbound := h firstFailure "p" (growthTime config + 60000) (by
        simp [Chronological, firstFailure, HealthCall.readings]
        linarith)
      have hgrown := penalty_growthTime hdecay (zero_le_one' ℚ)
      rw [mul_one] at hgrown
      rw [hone, hgrown] at hbound
      have habs := abs_nonneg config.penaltyIncrement
      push_cast at hbound
      linarith
    · have hbound := h firstFailure "p" 0 (by
        simp [Chronological, firstFailure, HealthCall.readings])
      rw [hone] at hbound
      simpa using (penalty_nonneg 0).trans hbound
  · intro hsigns calls provider now hcalls
    obtain ⟨hdecay, hincrement⟩ := hsigns
    unfold Chronological at hcalls
    simp only [List.flatMap_append, List.flatMap_cons, List.flatMap_nil, HealthCall.readings,
      List.pairwise_append, List.append_nil, List.mem_singleton, forall_eq] at hcalls
    obtain ⟨hchron, -, hnow⟩ := hcalls
    -- The run begins at the first reading, or now.
    have hstart : ∃ time, time ≤ now ∧
        ∀ reading ∈ calls.flatMap HealthCall.readings, time ≤ reading := by
      cases hreadings : calls.flatMap HealthCall.readings with
      | nil => exact ⟨now, le_refl now, nofun⟩
      | cons first rest =>
        rw [hreadings] at hchron hnow
        refine ⟨first, hnow first List.mem_cons_self, ?_⟩
        intro reading hmem
        rcases List.mem_cons.1 hmem with heq | hmem
        · exact heq.ge
        · exact List.rel_of_pairwise_cons hchron hmem
    obtain ⟨time, hfrom, htime⟩ := hstart
    have hpenalty := (below_new config provider time).run hdecay (fun _ => hincrement) htime hchron
      hfrom hnow
    rwa [zero_add] at hpenalty

end HealthTrackerConfig

/-- Health has a meaning by history and does not depend on other providers; the penalty falls
between failures if the decay is not negative, and is bounded by the failures if the increment is
not negative either. -/
theorem breaker_history (config : HealthTrackerConfig) :
    config.HealthByHistory ∧ config.Independent ∧
      (config.PenaltyFalls ↔ 0 ≤ config.decayPerMinute) ∧
      (config.PenaltyBounded ↔ 0 ≤ config.decayPerMinute ∧ 0 ≤ config.penaltyIncrement) :=
  ⟨DynamicPenaltyHealthTracker.healthByHistory config, config.independent,
    config.penaltyFalls_iff, config.penaltyBounded_iff⟩

/-- The default configuration has both properties. -/
example : HealthTrackerConfig.default.PenaltyFalls ∧ HealthTrackerConfig.default.PenaltyBounded :=
  ⟨(HealthTrackerConfig.penaltyFalls_iff _).2 (by decide),
    (HealthTrackerConfig.penaltyBounded_iff _).2 ⟨by decide, by decide⟩⟩

/-- With a negative decay the penalty grows between failures. -/
theorem penalty_grows : ¬ ∀ config : HealthTrackerConfig, 0 < config.circuitThreshold →
    0 < config.circuitCooldownMs → config.HealthByHistory ∧ config.Independent ∧
      config.PenaltyFalls ∧ config.PenaltyBounded := by
  intro h
  have hfalls := (h ⟨1, -1, 1, 1⟩ (by decide) (by decide)).2.2.1
  exact absurd ((HealthTrackerConfig.penaltyFalls_iff _).1 hfalls) (by decide)

end Groundlane.Search
