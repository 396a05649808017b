import Groundlane.Fetch.Pipeline

/-!
# Paid calls and their budget

The pipeline looks at the remaining budget before it invokes a backend and counts the attempt only
when the backend has succeeded. An invocation that is still running, or has failed, is not
counted, so the look does not bound the invocations. They stay within the limit as long as each
finds more left than there are invocations of the backend that are not counted
(`invocations_within_budget`); `invocations_exceed_budget` shows that they can exceed it.
-/

namespace Groundlane

open Interleaving Interleaving.System

variable {B : Type}

abbrev FetchEvent (B : Type) : Type :=
  Event FetchPipelineRequest FetchQuery (FetchQuery.Res B) Fault (FetchPipelineResult B)

abbrev FetchHistory (B : Type) : Type := List (Nat × FetchEvent B)

abbrev FetchWorld (B : Type) : Type :=
  World FetchPipelineRequest FetchQuery (FetchQuery.Res B) Fault (FetchPipelineResult B)
    BackendBudget

/-! ## Invocations -/

/-- The event is an invocation of the backend. -/
def invokes (backend : Backend) : FetchEvent B → Bool
  | .effect (.start request) started => request.backend = backend && started
  | _ => false

/-- The event is the end of an invocation of the backend that is counted. -/
def counts (backend : Backend) : FetchEvent B → Bool
  | .effect (.settle settled) (.ok _) => settled = backend
  | _ => false

/-- The invocations of a backend so far. -/
def invocations (backend : Backend) (history : FetchHistory B) : Nat :=
  history.countP fun entry => invokes backend entry.2

/-- The invocations of a backend that were counted. -/
def countedCalls (backend : Backend) (history : FetchHistory B) : Nat :=
  history.countP fun entry => counts backend entry.2

/-- More is left for the backend than invocations that run or have failed. -/
def sparesFor (backend : Backend) (world : FetchWorld B) : Bool :=
  (world.state.left backend.provider).all fun left =>
    invocations backend world.history - countedCalls backend world.history < left

/-- An invocation finds more left than there are invocations of the backend that run or have
failed. -/
def spares : FetchEvent B → FetchWorld B → Bool
  | .effect (.start request) true, world => sparesFor request.backend world
  | _, _ => true

/-! ## One step -/

variable {pipeline : FetchPipeline B} {clock : Clock}

/-- What is left of each limit, and the invocations so far. -/
structure Balanced (clock : Clock) (start now : BackendBudget) (history : FetchHistory B) :
    Prop where
  steady : now.Steady clock
  left : ∀ backend : Backend, now.left backend.provider =
    (start.left backend.provider).map fun limit => limit - countedCalls backend history
  within : ∀ backend : Backend, ∀ limit, start.left backend.provider = some limit →
    invocations backend history ≤ limit

/-- Providers of different backends are different. -/
theorem provider_ne {backend other : Backend} (h : backend ≠ other) :
    backend.provider ≠ other.provider := by
  cases backend <;> cases other
  · exact absurd rfl h
  · decide
  · decide
  · exact absurd rfl h

theorem invocations_cons (backend : Backend) (i : Nat) (event : FetchEvent B)
    (history : FetchHistory B) :
    invocations backend ((i, event) :: history) =
      invocations backend history + if invokes backend event then 1 else 0 :=
  List.countP_cons

theorem countedCalls_cons (backend : Backend) (i : Nat) (event : FetchEvent B)
    (history : FetchHistory B) :
    countedCalls backend ((i, event) :: history) =
      countedCalls backend history + if counts backend event then 1 else 0 :=
  List.countP_cons

variable {start now : BackendBudget} {history : FetchHistory B} {i : Nat}

/-- An event that neither invokes a backend nor counts an attempt, and leaves what is left. -/
theorem Balanced.quiet (h : Balanced clock start now history) {event : FetchEvent B}
    {after : BackendBudget} (hinvokes : ∀ backend, invokes backend event = false)
    (hcounts : ∀ backend, counts backend event = false) (hsteady : after.Steady clock)
    (hleft : ∀ provider, after.left provider = now.left provider) :
    Balanced clock start after ((i, event) :: history) where
  steady := hsteady
  left backend := by
    rw [countedCalls_cons, hcounts, hleft, h.left]
    rfl
  within backend limit hlimit := by
    rw [invocations_cons, hinvokes]
    exact h.within backend limit hlimit

variable {request : BackendRequest}

/-- A backend is not invoked when nothing is left. -/
theorem Balanced.refused (h : Balanced clock start now history) :
    Balanced clock start (now.remaining clock request.backend.provider).2
      ((i, .effect (.start request) false) :: history) := by
  obtain ⟨hsteady, hleft⟩ := h.steady.remaining request.backend.provider
  exact h.quiet (fun _ => Bool.and_false _) (fun _ => rfl) hsteady hleft

/-- An invocation that was spared for keeps the bound. -/
theorem Balanced.started (h : Balanced clock start now history)
    (hspares : sparesFor request.backend (⟨now, history⟩ : FetchWorld B) = true) :
    Balanced clock start (now.remaining clock request.backend.provider).2
      ((i, .effect (.start request) true) :: history) := by
  obtain ⟨hsteady, hleft⟩ := h.steady.remaining request.backend.provider
  have hinvokes : ∀ backend, invokes (B := B) backend (.effect (.start request) true) =
      decide (request.backend = backend) := fun _ => Bool.and_true _
  refine ⟨hsteady, fun backend => ?_, fun backend limit hlimit => ?_⟩
  · rw [hleft, h.left, countedCalls_cons]
    rfl
  · rw [invocations_cons, hinvokes]
    by_cases hbackend : request.backend = backend
    · -- What is left bounds the invocations that are not counted yet.
      subst hbackend
      unfold sparesFor at hspares
      dsimp only at hspares
      rw [h.left, hlimit] at hspares
      have hlt : invocations request.backend history - countedCalls request.backend history <
          limit - countedCalls request.backend history := of_decide_eq_true hspares
      rw [decide_eq_true rfl, if_pos rfl]
      omega
    · rw [decide_eq_false hbackend]
      exact h.within backend limit hlimit

/-- The look at the budget, and the invocation behind it. -/
theorem Balanced.looked (h : Balanced clock start now history) (invoked : Bool)
    (hspares : spares (.effect (.start request) invoked) (⟨now, history⟩ : FetchWorld B) = true) :
    Balanced clock start (now.remaining clock request.backend.provider).2
      ((i, .effect (.start request) invoked) :: history) := by
  cases invoked with
  | false => exact h.refused
  | true => exact h.started hspares

/-- The end of an invocation that has succeeded is counted. -/
theorem Balanced.settled (h : Balanced clock start now history) {backend : Backend}
    {raw : RawDocument B} :
    Balanced clock start (now.tryConsume clock backend.provider).2
      ((i, .effect (.settle backend) (.ok raw)) :: history) := by
  obtain ⟨hsteady, hself, hother⟩ := h.steady.tryConsume backend.provider
  have hcounts : ∀ other, counts (B := B) other (.effect (.settle backend) (.ok raw)) =
      decide (backend = other) := fun _ => rfl
  refine ⟨hsteady, fun other => ?_, fun other limit hlimit => ?_⟩
  · rw [countedCalls_cons, hcounts]
    by_cases hbackend : backend = other
    · subst hbackend
      rw [hself, h.left, Option.map_map, decide_eq_true rfl]
      rfl
    · rw [hother _ (provider_ne (Ne.symm hbackend)), h.left, decide_eq_false hbackend]
      rfl
  · rw [invocations_cons]
    exact h.within other limit hlimit

/-- An operation whose invocation is spared for keeps the balance. -/
theorem Balanced.exec (h : Balanced clock start now history) (outside : FetchOutside B)
    (op : FetchQuery)
    (hspares : spares (.effect op (FetchQuery.exec clock outside op now).2)
      (⟨now, history⟩ : FetchWorld B) = true) :
    Balanced clock start (FetchQuery.exec clock outside op now).1
      ((i, .effect op (FetchQuery.exec clock outside op now).2) :: history) := by
  cases op with
  | resolveProactively _ => exact h.quiet (fun _ => rfl) (fun _ => rfl) h.steady fun _ => rfl
  | resolveManifests _ => exact h.quiet (fun _ => rfl) (fun _ => rfl) h.steady fun _ => rfl
  | resolve _ => exact h.quiet (fun _ => rfl) (fun _ => rfl) h.steady fun _ => rfl
  | http _ _ _ => exact h.quiet (fun _ => rfl) (fun _ => rfl) h.steady fun _ => rfl
  | start request => exact h.looked _ hspares
  | settle backend =>
    unfold FetchQuery.exec
    cases outside.document with
    | error error => exact h.quiet (fun _ => rfl) (fun _ => rfl) h.steady fun _ => rfl
    | ok raw => exact h.settled

/-- A step whose invocation is spared for keeps the balance. -/
theorem Balanced.act
    {config : Config FetchPipelineRequest FetchQuery (FetchQuery.Res B) Fault
      (FetchPipelineResult B) BackendBudget}
    (h : Balanced clock start config.state config.history)
    {action : Action FetchPipelineRequest (FetchOutside B)}
    (hspares : ∀ i event,
      ((pipeline.calls clock).act config action).history = (i, event) :: config.history →
      spares event config.toWorld = true) :
    Balanced clock start ((pipeline.calls clock).act config action).state
      ((pipeline.calls clock).act config action).history := by
  have hacts : (pipeline.calls clock).Acts config ((pipeline.calls clock).act config action) :=
    acts_act config action
  revert hspares
  generalize (pipeline.calls clock).act config action = after at hacts ⊢
  intro hspares
  cases hacts with
  | idle => exact h
  | invoke call => exact h.quiet (fun _ => rfl) (fun _ => rfl) h.steady fun _ => rfl
  | response j call outcome _ => exact h.quiet (fun _ => rfl) (fun _ => rfl) h.steady fun _ => rfl
  | effect j call op next oracle _ => exact h.exec oracle op (hspares _ _ rfl)

/-! ## Runs -/

/-- Whatever calls run at once, within one budget period no backend is invoked more often than was
left of its limit, if every invocation finds more left than there are earlier invocations of the
backend that are still running or have failed. -/
theorem invocations_within_budget (pipeline : FetchPipeline B) (clock : Clock)
    (budget : BackendBudget) (hperiod : budget.Steady clock)
    (actions : List (Action FetchPipelineRequest (FetchOutside B)))
    (hmeets : (pipeline.calls clock).Meets (fun _ event world => spares event world = true)
      (Config.initial budget) actions)
    (backend : Backend) (limit : Nat) (hlimit : budget.left backend.provider = some limit) :
    invocations backend ((pipeline.calls clock).run (Config.initial budget) actions).history
      ≤ limit := by
  have hrun : ∀ (actions : List (Action FetchPipelineRequest (FetchOutside B))) config,
      Balanced clock budget config.state config.history →
      (pipeline.calls clock).Meets (fun _ event world => spares event world = true) config
        actions →
      Balanced clock budget ((pipeline.calls clock).run config actions).state
        ((pipeline.calls clock).run config actions).history := by
    intro actions
    induction actions with
    | nil => exact fun _ h _ => h
    | cons action rest ih => exact fun config h hmeets => ih _ (h.act hmeets.1) hmeets.2
  refine (hrun actions _ ⟨hperiod, fun backend => ?_, fun _ _ _ => Nat.zero_le _⟩ hmeets).within
    backend limit hlimit
  show budget.left _ = (budget.left _).map fun limit => limit - 0
  cases budget.left backend.provider <;> rfl

/-! ### Samples -/

/-- A pipeline whose documents are their bodies. -/
def samplePipeline : FetchPipeline String where
  libraries :=
    { decode := id
      toLowerCase := String.toLower
      parseUrl := fun _ => none
      normalizeDocument := fun raw _ _ _ _ => .ok ⟨none, raw.body⟩ }
  reader := false
  sourceResolver := false
  resolveProactively := false
  resolveManifests := false

/-- A clock that stands still. -/
def stillClock : Clock where
  reading _ := 0
  forward _ := Int.le_refl _
  valid _ := by decide

/-- One unit in the month. -/
def oneUnit : BackendBudget :=
  .single (.calendar ⟨.month, ⟨[("browserless", 1)]⟩, currentMonth 0, fun _ => 0⟩) 1

example : oneUnit.left Backend.browser.provider = some 1 := by decide +kernel

/-- A call that goes to the browser at once. -/
def renderedRequest : FetchPipelineRequest :=
  ⟨"https://example.com/", .markdown, .always, none, none, none, 1000, 1000, 5⟩

/-- Call `i` goes on, and a document comes back. -/
def fetchStep (i : Nat) : Action FetchPipelineRequest (FetchOutside String) :=
  .advance i ⟨.ok none, .ok ⟨"https://example.com/", 200, "text/html", "text"⟩⟩

/-- One call after another: the second one finds nothing left. -/
theorem invocations_within_budget_sample :
    invocations .browser ((samplePipeline.calls stillClock).run (Config.initial oneUnit)
      [.invoke renderedRequest, fetchStep 0, fetchStep 0, fetchStep 0,
        .invoke renderedRequest, fetchStep 1, fetchStep 1]).history ≤ 1 :=
  invocations_within_budget samplePipeline stillClock oneUnit (fun _ => rfl) _
    (meets_of_checks (by decide +kernel)) .browser 1 rfl

/-- Two calls that look at the budget before either is counted. -/
theorem invocations_exceed_budget :
    ¬ ∀ (pipeline : FetchPipeline String) (clock : Clock) (budget : BackendBudget),
      budget.Steady clock → ∀ actions backend limit,
      budget.left (Backend.provider backend) = some limit →
      invocations backend ((pipeline.calls clock).run (Config.initial budget) actions).history
        ≤ limit := by
  intro h
  have hle := h samplePipeline stillClock oneUnit (fun _ => rfl)
    [.invoke renderedRequest, .invoke renderedRequest, fetchStep 0, fetchStep 1] .browser 1 rfl
  exact absurd hle (by decide +kernel)

end Groundlane
