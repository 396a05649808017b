import Groundlane.Search.Router
import Groundlane.Sequential.Runs

/-!
# Spending after a cancellation

`abort_stops_spending_iff`: once its signal is aborted, a search calls no provider and consumes no
budget exactly when it is not started with an aborted signal and a provider to ask, and when its
fallback loop never takes up a failure after the abort while a provider that is left is granted.
The federated loop looks at the signal before every further batch and needs no condition.
-/

namespace Groundlane.Search

open Sequential

/-- The events that cost something. -/
def Event.spends : Event → Bool
  | .consumed _ | .called _ => true
  | .aborted | .refused _ | .succeeded _ | .failed _ => false

/-- After the abort nothing is spent, and the failures are those of calls made before it. -/
def StopsSpending (trace : List Event) : Prop :=
  ∀ before later, trace = before ++ .aborted :: later → ∀ event ∈ later,
    event.spends = false ∧ ∀ provider, event = .failed provider → .called provider ∈ before

/-! ## Traces -/

/-- Nothing is spent after the abort. -/
def Quiet (trace : List Event) : Prop :=
  trace.Pairwise fun earlier later => earlier = .aborted → later.spends = false

/-- A failure is that of a call before it. -/
def FailsCalled (trace : List Event) : Prop :=
  ∀ before provider later, trace = before ++ .failed provider :: later → .called provider ∈ before

variable {trace events : List Event}

/-- Events without an abort keep a trace quiet as long as the abort forbids none of them. -/
theorem quiet_append (habort : .aborted ∉ events) : Quiet (trace ++ events) ↔
      Quiet trace ∧ (.aborted ∈ trace → ∀ event ∈ events, event.spends = false) := by
  unfold Quiet
  rw [List.pairwise_append]
  constructor
  · intro ⟨htrace, _, hboth⟩
    exact ⟨htrace, fun hmem event hevent => hboth _ hmem event hevent rfl⟩
  · intro ⟨htrace, hevents⟩
    refine ⟨htrace, ?_, fun earlier hearlier later hlater heq => ?_⟩
    · refine List.pairwise_of_forall_mem_list fun earlier hearlier later _ heq => ?_
      exact absurd (heq ▸ hearlier) habort
    · exact hevents (heq ▸ hearlier) later hlater

theorem quiet_aborted {trace : List Event} (h : Quiet trace) : Quiet (trace ++ [.aborted]) := by
  refine List.pairwise_append.2 ⟨h, List.pairwise_singleton _ _, ?_⟩
  intro earlier _ later hlater _
  rw [List.mem_singleton.1 hlater]
  rfl

theorem failsCalled_append (h : FailsCalled trace)
    (hevents : ∀ provider, .failed provider ∈ events → .called provider ∈ trace) :
    FailsCalled (trace ++ events) := by
  intro before provider later heq
  rcases List.append_eq_append_iff.1 heq with ⟨middle, rfl, hmiddle⟩ | ⟨middle, rfl, hmiddle⟩
  · -- The failure is one of the new events.
    have hmem : .failed provider ∈ events := by
      rw [hmiddle]
      exact List.mem_append_right _ List.mem_cons_self
    exact List.mem_append_left _ (hevents provider hmem)
  · cases middle with
    | nil =>
      have hmem : .failed provider ∈ events := by
        rw [List.nil_append] at hmiddle
        exact hmiddle ▸ List.mem_cons_self
      have hcalled := hevents provider hmem
      rwa [List.append_nil] at hcalled
    | cons event middle =>
      obtain ⟨rfl, -⟩ := List.cons.inj hmiddle
      exact h before provider middle rfl

/-- With failures of earlier calls only, a search stops spending when its trace is quiet. -/
theorem stopsSpending_iff {events : List Event} (hfails : FailsCalled events) :
    StopsSpending events ↔ Quiet events := by
  constructor
  · intro h
    refine List.pairwise_iff_getElem.2 fun i j hi hj hlt heq => ?_
    have hsplit : events = events.take i ++ .aborted :: events.drop (i + 1) := by
      rw [← heq, List.cons_getElem_drop_succ, List.take_append_drop]
    refine (h _ _ hsplit events[j] ?_).1
    rw [List.mem_drop_iff_getElem]
    exact ⟨j - (i + 1), by omega, by congr 1; omega⟩
  · intro h before later heq event hevent
    subst heq
    have hquiet : ∀ event ∈ later, event.spends = false := by
      obtain ⟨-, hlater, -⟩ := List.pairwise_append.1 h
      exact fun event hevent => (List.pairwise_cons.1 hlater).1 event hevent rfl
    refine ⟨hquiet event hevent, ?_⟩
    rintro provider rfl
    -- The call of the provider is before its failure, and after the abort there is no call.
    obtain ⟨first, second, rfl⟩ := List.mem_iff_append.1 hevent
    have hcalled := hfails (before ++ .aborted :: first) provider second
      (by rw [List.append_assoc, List.cons_append])
    rcases List.mem_append.1 hcalled with hmem | hmem
    · exact hmem
    · rcases List.mem_cons.1 hmem with heq | hmem
      · cases heq
      · exact absurd (hquiet _ (List.mem_append_left _ hmem)) (nofun : true ≠ false)

/-! ## Turns -/

namespace SearchRouter

variable (router : SearchRouter) (surroundings : Surroundings)

/-- The search waits for the answer of the provider. -/
def Control.WaitsFor (provider : SearchProviderId) : Control → Prop
  | .fallback _ _ current _ => provider = current
  | .federated _ outcomes => (provider, Outcome.waiting) ∈ outcomes
  | .done _ => False

/-- What a turn that starts attempts does: every failure is a later one, and the providers that
it waits for were called. -/
structure Starts (turn : Control × List Event) : Prop where
  aborted : .aborted ∉ turn.2
  failed : ∀ provider, .failed provider ∉ turn.2
  called : ∀ provider, turn.1.WaitsFor provider → .called provider ∈ turn.2

/-- A turn that ends the search at once. -/
theorem starts_done (result : Except Fault RoutedResult) : Starts (.done result, []) where
  aborted := List.not_mem_nil
  failed _ := List.not_mem_nil
  called _ := False.elim

/-- The events of an attempt. -/
def attempt (provider : SearchProviderId) : List Event :=
  (if router.budget then [.consumed provider] else []) ++ [.called provider]

variable {provider : SearchProviderId} {current : SearchProviderId} {event : Event}

theorem mem_attempt : event ∈ router.attempt provider ↔
      (router.budget ∧ event = .consumed provider) ∨ event = .called provider := by
  unfold attempt
  cases router.budget <;> simp

theorem attempt_spends (provider : SearchProviderId) :
    ∃ event ∈ router.attempt provider, event.spends :=
  ⟨_, router.mem_attempt.2 (.inr rfl), rfl⟩

/-! ### The fallback loop -/

theorem fallbackFrom_starts (call : FallbackCall) (tried rest : List SearchProviderId) :
    Starts (router.fallbackFrom surroundings call tried rest) := by
  induction rest generalizing call tried with
  | nil => exact starts_done _
  | cons provider rest ih =>
    unfold fallbackFrom
    split
    · change Starts (_, router.attempt provider)
      refine ⟨fun h => ?_, fun other h => ?_, fun other h => ?_⟩
      · rcases router.mem_attempt.1 h with ⟨-, h⟩ | h <;> cases h
      · rcases router.mem_attempt.1 h with ⟨-, h⟩ | h <;> cases h
      · cases (show other = provider from h)
        exact router.mem_attempt.2 (.inr rfl)
    · split
      · exact ⟨by simp, by simp, fun _ => False.elim⟩
      · have hnext := ih
          { call with warnings := call.warnings ++ [provider ++ " budget exhausted"] }
          (tried ++ [provider])
        refine ⟨?_, fun other h => ?_, fun other h => ?_⟩
        · exact List.not_mem_cons_of_ne_of_not_mem (by simp) hnext.aborted
        · rcases List.mem_cons.1 h with h | h
          · cases h
          · exact hnext.failed other h
        · exact List.mem_cons_of_mem _ (hnext.called other h)

/-- The loop spends nothing exactly when it is let through for none of the providers left. -/
theorem fallbackFrom_spends (call : FallbackCall) (tried rest : List SearchProviderId) :
    (∀ event ∈ (router.fallbackFrom surroundings call tried rest).2, event.spends = false) ↔
      ∀ provider ∈ rest, router.grants surroundings provider = false := by
  induction rest generalizing call tried with
  | nil => simp [fallbackFrom]
  | cons provider rest ih =>
    rw [List.forall_mem_cons]
    unfold fallbackFrom
    by_cases hgrants : router.grants surroundings provider = true
    · rw [if_pos hgrants]
      obtain ⟨event, hevent, hspends⟩ := router.attempt_spends provider
      constructor
      · intro h
        rw [h event hevent] at hspends
        cases hspends
      · intro h
        rw [h.1] at hgrants
        cases hgrants
    · rw [if_neg hgrants]
      have hrefused : router.grants surroundings provider = false := Bool.eq_false_iff.2 hgrants
      split
      · next hone =>
          -- The only provider is refused, so none is left behind it.
          have hrest : rest = [] := by
            rw [List.length_append, List.length_cons] at hone
            exact List.length_eq_zero_iff.1 (by omega)
          subst hrest
          simp [Event.spends, hrefused]
      · dsimp only
        rw [List.forall_mem_cons, ih]
        simp [Event.spends, hrefused]

/-! ### The federated loop -/

theorem startAttempt_events (provider : SearchProviderId) :
    (router.startAttempt surroundings provider).2 =
      if router.grants surroundings provider then router.attempt provider
      else [.refused provider] := by
  unfold startAttempt
  split <;> rfl

theorem mem_startAttempts {batch : List SearchProviderId} :
    event ∈ (batch.map (router.startAttempt surroundings)).flatMap Prod.snd ↔
      ∃ provider ∈ batch, event ∈ (router.startAttempt surroundings provider).2 := by
  simp [List.mem_flatMap]

theorem federatedFrom_starts (call : FederatedCall) :
    Starts (router.federatedFrom surroundings call) := by
  unfold federatedFrom
  dsimp only
  split
  · exact starts_done _
  · refine ⟨fun h => ?_, fun other h => ?_, fun other h => ?_⟩
    · obtain ⟨provider, -, h⟩ := (router.mem_startAttempts surroundings).1 h
      rw [startAttempt_events] at h
      split at h
      · rcases router.mem_attempt.1 h with ⟨-, h⟩ | h <;> cases h
      · cases List.mem_singleton.1 h
    · obtain ⟨provider, -, h⟩ := (router.mem_startAttempts surroundings).1 h
      rw [startAttempt_events] at h
      split at h
      · rcases router.mem_attempt.1 h with ⟨-, h⟩ | h <;> cases h
      · cases List.mem_singleton.1 h
    · obtain ⟨_, hattempt, heq⟩ := List.mem_map.1 (show (other, Outcome.waiting) ∈ _ from h)
      obtain ⟨provider, hprovider, rfl⟩ := List.mem_map.1 hattempt
      refine (router.mem_startAttempts surroundings).2 ⟨provider, hprovider, ?_⟩
      unfold startAttempt at heq ⊢
      split at heq
      · next hgrants =>
          rw [if_pos hgrants]
          cases heq
          exact router.mem_attempt.2 (.inr rfl)
      · cases heq

/-- A batch spends nothing exactly when the budget lets none of it through. -/
theorem federatedFrom_spends (call : FederatedCall) :
    (∀ event ∈ (router.federatedFrom surroundings call).2, event.spends = false) ↔
      ∀ provider ∈ router.selectProviderBatch call.remaining call.strategy,
        router.grants surroundings provider = false := by
  unfold federatedFrom
  dsimp only
  split
  · next hempty => simp [hempty]
  · constructor
    · intro h provider hprovider
      by_contra hgrants
      obtain ⟨event, hevent, hspends⟩ := router.attempt_spends provider
      have hfalse := h event ((router.mem_startAttempts surroundings).2
        ⟨provider, hprovider, by
          rw [startAttempt_events, if_pos (by simpa using hgrants)]
          exact hevent⟩)
      rw [hfalse] at hspends
      cases hspends
    · intro h event hevent
      obtain ⟨provider, hprovider, hevent⟩ := (router.mem_startAttempts surroundings).1 hevent
      rw [startAttempt_events, if_neg (by simp [h provider hprovider])] at hevent
      rw [List.mem_singleton.1 hevent]
      rfl

/-! ## Runs -/

/-- What holds of a search between two moves. -/
structure Honest (state : SearchRun) : Prop where
  aborted : .aborted ∈ state.trace ↔ state.signal.isSome
  failed : FailsCalled state.trace
  called : ∀ provider, state.control.WaitsFor provider → .called provider ∈ state.trace

/-- The fallback loop does not go on to a provider that is granted after a failure that comes when
the signal is aborted, unless the request names its provider. -/
def Meets (state : SearchRun) (move : Move) : Prop :=
  match state.control, move with
  | .fallback call _ current rest, .answer provider (.thrown _ _) surroundings =>
    provider = current → state.signal.isSome → call.explicitProvider = false →
      ∀ next ∈ rest, router.grants surroundings next = false
  | _, _ => True

/-- What a turn of a search that goes on does, where `P` says that it spends nothing after the
abort. -/
structure Continues (state : SearchRun) (P : Prop) (turn : Control × List Event) : Prop where
  aborted : .aborted ∉ turn.2
  failed : ∀ provider, .failed provider ∈ turn.2 → .called provider ∈ state.trace
  called : ∀ provider, turn.1.WaitsFor provider → .called provider ∈ state.trace ++ turn.2
  spends : (state.signal.isSome → ∀ event ∈ turn.2, event.spends = false) ↔ P

variable {router} {surroundings} {state : SearchRun}

theorem continues_same (h : Honest state) : Continues state True (state.control, []) where
  aborted := List.not_mem_nil
  failed _ h := absurd h List.not_mem_nil
  called provider hwaits := List.mem_append_left _ (h.called provider hwaits)
  spends := iff_of_true (fun _ _ h => absurd h List.not_mem_nil) trivial

/-- A failure of a provider that was called, and attempts after it. -/
theorem Starts.continues {turn : Control × List Event} (h : Starts turn)
    (hcalled : .called current ∈ state.trace) {P : Prop}
    (hspends : (state.signal.isSome → ∀ event ∈ turn.2, event.spends = false) ↔ P) :
    Continues state P (turn.1, .failed current :: turn.2) where
  aborted := List.not_mem_cons_of_ne_of_not_mem (by simp) h.aborted
  failed provider hmem := by
    rcases List.mem_cons.1 hmem with heq | hmem
    · cases heq
      exact hcalled
    · exact absurd hmem (h.failed provider)
  called provider hwaits :=
    List.mem_append_right _ (List.mem_cons_of_mem _ (h.called provider hwaits))
  spends := by
    rw [← hspends]
    refine imp_congr_right fun _ => ?_
    rw [List.forall_mem_cons]
    exact and_iff_right rfl

/-- The answer for which the fallback loop waits. -/
theorem fallbackAnswer_continues {call : FallbackCall} {tried rest : List SearchProviderId}
    (hcontrol : state.control = .fallback call tried current rest) (h : Honest state)
    (answer : ProviderAnswer) :
    Continues state (router.Meets state (.answer current answer surroundings))
      (router.fallbackAnswer surroundings call tried current rest answer) := by
  have hcalled : .called current ∈ state.trace := by
    refine h.called current ?_
    rw [hcontrol]
    rfl
  unfold Meets
  rw [hcontrol]
  cases answer with
  | result results warnings =>
    exact ⟨by simp [fallbackAnswer], by simp [fallbackAnswer], fun _ => False.elim,
      iff_of_true (fun _ event hevent => by rw [List.mem_singleton.1 hevent]; rfl) trivial⟩
  | thrown fault retryable =>
    unfold fallbackAnswer
    dsimp only
    split
    · next hthrows =>
        refine (starts_done _).continues hcalled ⟨fun _ _ _ hnamed => ?_, fun _ _ _ h => ?_⟩
        · -- With one provider only, none is left.
          rcases hthrows with hnamed' | ⟨hone, -⟩
          · rw [hnamed] at hnamed'
            cases hnamed'
          · rw [List.length_append, List.length_cons] at hone
            rw [List.length_eq_zero_iff.1 (show rest.length = 0 by omega)]
            exact fun _ h => absurd h List.not_mem_nil
        · exact absurd h List.not_mem_nil
    · next hgoes =>
        have hnamed : call.explicitProvider = false := by
          rw [not_or] at hgoes
          exact Bool.eq_false_iff.2 hgoes.1
        refine (router.fallbackFrom_starts surroundings _ _ _).continues hcalled ?_
        rw [fallbackFrom_spends]
        exact ⟨fun hquiet _ haborted _ => hquiet haborted,
          fun hmeets haborted => hmeets rfl haborted hnamed⟩

/-- An answer that a batch waits for. -/
theorem settle_continues {call : FederatedCall} {outcomes : List (SearchProviderId × Outcome)}
    (hcontrol : state.control = .federated call outcomes) (h : Honest state)
    (hwaits : (provider, Outcome.waiting) ∈ outcomes) (answer : ProviderAnswer) :
    Continues state True
      (.federated call (outcomes.map fun outcome =>
          if outcome.1 = provider then (provider, (settle call provider answer).1) else outcome),
        (settle call provider answer).2) := by
  have hcalled : ∀ other, (other, Outcome.waiting) ∈ outcomes → .called other ∈ state.trace := by
    intro other hother
    refine h.called other ?_
    rw [hcontrol]
    exact hother
  have hquiet : ∀ event ∈ (settle call provider answer).2,
      event = .succeeded provider ∨ event = .failed provider := by
    intro event hevent
    cases answer with
    | result results warnings => exact .inl (List.mem_singleton.1 hevent)
    | thrown fault retryable => exact .inr (List.mem_singleton.1 hevent)
  have hsettled : (settle call provider answer).1 ≠ .waiting := by
    cases answer <;> simp [settle]
  refine ⟨fun hmem => ?_, fun other hmem => ?_, fun other hother => ?_,
    iff_of_true (fun _ event hevent => ?_) trivial⟩
  · rcases hquiet _ hmem with heq | heq <;> cases heq
  · rcases hquiet _ hmem with heq | heq <;> cases heq
    exact hcalled provider hwaits
  · obtain ⟨_, houtcome, heq⟩ :=
      List.mem_map.1 (show (other, Outcome.waiting) ∈ _ from hother)
    split at heq
    · exact absurd (congrArg Prod.snd heq) hsettled
    · exact List.mem_append_left _ (hcalled other (heq ▸ houtcome))
  · rcases hquiet event hevent with rfl | rfl <;> rfl

/-- The answers of a batch, taken together before any abort. -/
theorem gathered_continues (call : FederatedCall) (outcomes : List (SearchProviderId × Outcome))
    (hsignal : state.signal = none) :
    Continues state True (router.gathered surroundings call outcomes) := by
  have hstarts : Starts (router.gathered surroundings call outcomes) := by
    unfold gathered
    dsimp only
    split
    · exact router.federatedFrom_starts surroundings _
    · exact starts_done _
  refine ⟨hstarts.aborted, fun provider hmem => absurd hmem (hstarts.failed provider),
    fun provider hwaits => List.mem_append_right _ (hstarts.called provider hwaits),
    iff_of_true (fun haborted => ?_) trivial⟩
  rw [hsignal] at haborted
  cases haborted

/-- A move is the abort or a turn of the search. -/
theorem step_cases (h : Honest state) (move : Move) : (∃ reason, router.step state move =
        { state with signal := some reason, trace := state.trace ++ [.aborted] } ∧
      router.Meets state move) ∨
    ∃ turn, router.step state move =
        { state with control := turn.1, trace := state.trace ++ turn.2 } ∧
      Continues state (router.Meets state move) turn := by
  have hsame : ∀ {P : Prop}, P → Continues state P (state.control, []) := by
    intro P hP
    rw [show P = True from eq_true hP]
    exact continues_same h
  have hstays : state = { state with control := state.control, trace := state.trace ++ [] } := by
    rw [List.append_nil]
  cases move with
  | abort reason =>
    have hmeets : router.Meets state (.abort reason) := by
      unfold Meets
      split
      · next heq => cases heq
      · trivial
    unfold step
    dsimp only
    split
    · exact .inr ⟨_, hstays, hsame hmeets⟩
    · exact .inl ⟨reason, rfl, hmeets⟩
  | answer provider answer surroundings =>
    right
    unfold step
    dsimp only
    split
    · next call tried current rest hcontrol =>
        split
        · next heq =>
            subst heq
            exact ⟨_, rfl, fallbackAnswer_continues hcontrol h answer⟩
        · next hother =>
            refine ⟨_, hstays, hsame ?_⟩
            unfold Meets
            rw [hcontrol]
            cases answer with
            | result results warnings => trivial
            | thrown fault retryable => exact fun heq => absurd heq hother
    · next call outcomes hcontrol =>
        have hmeets : router.Meets state (.answer provider answer surroundings) = True := by
          unfold Meets
          rw [hcontrol]
        rw [hmeets]
        split
        · next found hfound =>
            have hprovider := List.find?_some hfound
            rw [decide_eq_true_eq] at hprovider
            cases hprovider
            exact ⟨_, rfl, settle_continues hcontrol h (List.mem_of_find?_eq_some hfound) answer⟩
        · exact ⟨_, hstays, hsame trivial⟩
    · next result hcontrol =>
        refine ⟨_, hstays, hsame ?_⟩
        unfold Meets
        rw [hcontrol]
        trivial
  | gather surroundings =>
    right
    have hmeets : router.Meets state (.gather surroundings) = True := by
      unfold Meets
      split
      · next heq => cases heq
      · rfl
    rw [hmeets]
    unfold step
    dsimp only
    split
    · next call outcomes hcontrol =>
        split
        · exact ⟨_, hstays, hsame trivial⟩
        · split
          · next reason hsignal =>
              refine ⟨(.done (.error (cancelled reason)), []), ?_, ?_⟩
              · rw [List.append_nil]
              · exact ⟨List.not_mem_nil, fun _ h => absurd h List.not_mem_nil, fun _ => False.elim,
                  iff_of_true (fun _ _ h => absurd h List.not_mem_nil) trivial⟩
          · next hsignal => exact ⟨_, rfl, gathered_continues call outcomes hsignal⟩
    · exact ⟨_, hstays, hsame trivial⟩

variable (router)

theorem step_honest (state : SearchRun) (move : Move) (h : Honest state) :
    Honest (router.step state move) := by
  rcases step_cases h move with ⟨_, heq, -⟩ | ⟨_, heq, hturn⟩
  · rw [heq]
    refine ⟨iff_of_true (List.mem_append_right _ (List.mem_singleton_self _)) rfl, ?_,
      fun provider hwaits => List.mem_append_left _ (h.called provider hwaits)⟩
    refine failsCalled_append h.failed fun provider hmem => ?_
    cases List.mem_singleton.1 hmem
  · rw [heq]
    refine ⟨?_, failsCalled_append h.failed hturn.failed, hturn.called⟩
    rw [← h.aborted, List.mem_append]
    exact or_iff_left hturn.aborted

/-- A move keeps a trace quiet exactly when it meets the condition. -/
theorem step_quiet (state : SearchRun) (move : Move) (h : Honest state) :
    Quiet (router.step state move).trace ↔ Quiet state.trace ∧ router.Meets state move := by
  rcases step_cases h move with ⟨_, heq, hmeets⟩ | ⟨_, heq, hturn⟩
  · rw [heq, and_iff_left hmeets]
    exact ⟨fun hquiet => (List.pairwise_append.1 hquiet).1, quiet_aborted⟩
  · rw [heq, quiet_append hturn.aborted, ← hturn.spends, h.aborted]

/-! ## Searches -/

variable (surroundings) (request : SearchRequest) (signal : Option Fault)

/-- The first turn: the checks, and the first attempts. -/
def firstTurn : Control × List Event :=
  match router.check request with
  | .error fault => (.done (.error fault), [])
  | .ok () => router.begin surroundings request

/-- The providers that the first turn asks for, one after the other or all together. -/
def firstAsked : List SearchProviderId :=
  match router.check request with
  | .error _ => []
  | .ok () => router.selected surroundings request

theorem begin_starts : Starts (router.begin surroundings request) := by
  unfold begin
  dsimp only
  split
  · split <;> exact starts_done _
  · split
    · exact router.fallbackFrom_starts surroundings _ _ _
    · exact router.federatedFrom_starts surroundings _

/-- The first attempts spend nothing exactly when none of the selected providers is granted. -/
theorem begin_spends :
    (∀ event ∈ (router.begin surroundings request).2, event.spends = false) ↔
      ∀ provider ∈ router.selected surroundings request,
        router.grants surroundings provider = false := by
  unfold begin
  dsimp only
  split
  · next hempty =>
      rw [hempty]
      refine iff_of_true ?_ fun _ h => absurd h List.not_mem_nil
      split <;> exact fun _ h => absurd h List.not_mem_nil
  · split
    · next hfallback =>
        rw [fallbackFrom_spends]
        unfold selected
        rw [if_pos hfallback]
    · next hfederated =>
        rw [federatedFrom_spends]
        unfold selected
        rw [if_neg hfederated]

theorem firstTurn_starts : Starts (router.firstTurn surroundings request) := by
  unfold firstTurn
  split
  · exact starts_done _
  · exact router.begin_starts surroundings request

theorem firstTurn_spends :
    (∀ event ∈ (router.firstTurn surroundings request).2, event.spends = false) ↔
      ∀ provider ∈ router.firstAsked surroundings request,
        router.grants surroundings provider = false := by
  unfold firstTurn firstAsked
  split
  · exact iff_of_true (fun _ h => absurd h List.not_mem_nil) fun _ h => absurd h List.not_mem_nil
  · exact router.begin_spends surroundings request

/-- A search is its first turn, behind the abort if there was one. -/
theorem search_trace :
    (router.search request signal surroundings).trace =
      (if signal.isSome then [.aborted] else []) ++ (router.firstTurn surroundings request).2 := rfl

theorem search_honest : Honest (router.search request signal surroundings) := by
  have hstarts := router.firstTurn_starts surroundings request
  refine ⟨?_, ?_, fun provider hwaits => List.mem_append_right _ (hstarts.called provider hwaits)⟩
  · rw [search_trace, List.mem_append, or_iff_left hstarts.aborted]
    change _ ↔ signal.isSome = true
    cases signal <;> simp
  · rw [search_trace]
    refine failsCalled_append (fun before provider later heq => ?_)
      fun provider hmem => absurd hmem (hstarts.failed provider)
    have hmem : .failed provider ∈ before ++ .failed provider :: later :=
      List.mem_append_right _ List.mem_cons_self
    rw [← heq] at hmem
    split at hmem
    · cases List.mem_singleton.1 hmem
    · exact absurd hmem List.not_mem_nil

/-- The first turn is quiet exactly when there is no abort before it or nothing is granted. -/
theorem search_quiet :
    Quiet (router.search request signal surroundings).trace ↔
      (signal.isSome → ∀ provider ∈ router.firstAsked surroundings request,
        router.grants surroundings provider = false) := by
  rw [search_trace, quiet_append (router.firstTurn_starts surroundings request).aborted,
    firstTurn_spends]
  cases signal with
  | none => simp [Quiet]
  | some reason => simp [Quiet]

/-- A search stops spending when it is aborted exactly when the first turn is not one of an aborted
search that asks a granted provider, and no failure after the abort is followed by a granted
provider in the fallback loop. -/
theorem abort_stops_spending_iff (moves : List Move) :
    StopsSpending (run router.step (router.search request signal surroundings) moves).trace ↔
      (signal.isSome → ∀ provider ∈ router.firstAsked surroundings request,
        router.grants surroundings provider = false) ∧
      Each router.step router.Meets (router.search request signal surroundings) moves := by
  have hhonest := router.search_honest surroundings request signal
  have hend : Honest (run router.step (router.search request signal surroundings) moves) :=
    run_keeps Honest router.step_honest hhonest
  rw [stopsSpending_iff hend.failed, ← search_quiet]
  exact run_iff_each (fun state => Quiet state.trace) router.step_honest router.step_quiet hhonest

/-! ## A failing run -/

/-- Two providers in a fallback order, with budget left. -/
def sampleRouter : SearchRouter where
  registered provider := ["tavily", "exa"].contains provider
  supports _ _ := true
  order := ["tavily", "exa"]
  health := true
  budget := true
  validateDomainFilters _ _ _ := .ok ()
  parser := ⟨fun _ => none, fun _ => ""⟩
  localeCompare left right := if left < right then -1 else if left = right then 0 else 1

def sampleSurroundings : Surroundings where
  isHealthy _ := true
  penalty _ := 0
  remaining _ := some 5
  tryConsume _ := true

/-- `{ query: "q", maxResults: 5, strategy: "fallback" }`. -/
def sampleSearch : SearchRequest where
  query := [0x71]
  maxResults := .integer 5
  provider := none
  providers := none
  strategy := some .fallback
  domains := none
  excludeDomains := none
  timeRange := none

/-- The search is cancelled while it waits for the first provider, which fails for that reason. -/
def sampleMoves : List Move :=
  [.abort (searchError .cancelled "The request was cancelled"),
    .answer "tavily" (.thrown (searchError .cancelled "The request was cancelled") false)
      sampleSurroundings]

/-- After the cancellation the second provider is charged and called. -/
theorem cancelled_search_goes_on :
    ¬ StopsSpending (run sampleRouter.step (sampleRouter.search sampleSearch none
      sampleSurroundings) sampleMoves).trace := by
  intro h
  have htrace : (run sampleRouter.step (sampleRouter.search sampleSearch none
      sampleSurroundings) sampleMoves).trace =
        [.consumed "tavily", .called "tavily"] ++
          .aborted :: [.failed "tavily", .consumed "exa", .called "exa"] := by
    decide +kernel
  obtain ⟨hspends, -⟩ := h _ _ htrace (.called "exa") (by simp)
  cases hspends

end SearchRouter

end Groundlane.Search
