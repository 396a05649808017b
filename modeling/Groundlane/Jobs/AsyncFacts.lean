import Groundlane.Jobs.AsyncLifecycle
import Groundlane.Jobs.Reuse
import Groundlane.Sequential.Checks

/-!
# The facts of an asynchronous job

`Updates` is what an operation that goes through does to its job. It keeps terminal statuses,
acknowledgments and paid calls truthful. The result is truthful exactly as long as no call takes a
job out of `input_required` without a result of its own: the input requests are stored where the
result is, and stay there (`facts_truthful_iff`).
-/

namespace Groundlane.Jobs

open Sequential

/-! ## What an operation does -/

namespace AsyncOperation

variable (manager : AsyncJobManager)

/-- The status that an operation moves a job to. -/
def target : AsyncOperation → Option AsyncJobStatus
  | markRunning => some .running
  | markInputRequired _ => some .inputRequired
  | markCompleted _ _ => some .completed
  | markFailed _ => some .failed
  | cancelCallerWait => some .cancelledByCaller
  | cancelGroundlanePolling => some .cancelledByGroundlane
  | requestUpstreamCancel (.ok (some _)) =>
    if manager.hasProvider then some .cancelledByUpstream else none
  | cancelTask none => some .cancelledByCaller
  | cancelTask (some _) => some .cancelledByUpstream
  | _ => none

/-- The result that an operation stores, if it stores one. -/
def givenResult : AsyncOperation → Option (Option Json)
  | markInputRequired inputRequests => some inputRequests
  | markCompleted (some value) _ => some (some value)
  | _ => none

/-- The acknowledgment that an operation stores, if it stores one. -/
def acknowledgment : AsyncOperation → Option (Option ProviderCancelAcknowledgment)
  | requestUpstreamCancel (.ok (some evidence)) =>
    if manager.hasProvider then some (some evidence) else none
  | cancelTask evidence => some evidence
  | _ => none

end AsyncOperation

/-- How an operation changes the facts of its job. -/
structure Updates (manager : AsyncJobManager) (operation : AsyncOperation) (now : Int)
    (old new : InternalAsyncJobState) : Prop where
  jobId : new.record.jobId = old.record.jobId
  status : new.record.status = (operation.target manager).getD old.record.status
  unfinished : (operation.target manager).isSome → old.record.status.terminal = false
  result : new.record.result = operation.givenResult.getD old.record.result
  acknowledgment : new.upstreamAcknowledgment =
    (operation.acknowledgment manager).getD old.upstreamAcknowledgment
  paid : old.paidCallCompleted = true → new.paidCallCompleted = true
  dated : (operation.target manager).isSome → (toISOString now).isOk

variable {stored : Option InternalAsyncJobState} {operation : AsyncOperation}
  {input : CreateAsyncJobInput} {target : AsyncJobStatus} {around : Surroundings}

section

variable {manager : AsyncJobManager} {state next : InternalAsyncJobState} {now : Int}

theorem toISOString_ok {time text : Int} (h : toISOString time = .ok text) : text = time := by
  unfold toISOString at h
  split at h
  · cases h
  · exact (Except.ok.inj h).symm

/-- A job that moves was not terminal. -/
theorem transition_ok (h : state.transition target now = .ok next) :
    (state.record.status.terminal = false ∧ (toISOString now).isOk) ∧
      next = { state with record := { state.record with status := target }, updatedAt := now } := by
  unfold InternalAsyncJobState.transition at h
  split at h
  · cases h
  · next hvalid =>
      obtain ⟨_, htime, hnext⟩ := bind_eq_ok.1 h
      cases hnext
      refine ⟨⟨?_, by rw [htime]; rfl⟩, by rw [toISOString_ok htime]⟩
      unfold validateStatusTransition at hvalid
      split at hvalid
      · cases hvalid
      split at hvalid
      · cases hvalid
      · next horder =>
          revert horder
          cases state.record.status <;> decide

variable {result : Except Fault InternalAsyncJobState} {answer : AsyncAnswer}

theorem published_ok (h : published result = .ok (answer, stored)) :
    ∃ next, result = .ok next ∧ stored = some next := by
  cases result with
  | error fault => cases h
  | ok next =>
    cases h
    exact ⟨next, rfl, rfl⟩

theorem map_ok {answer : InternalAsyncJobState → AsyncAnswer} {answered : AsyncAnswer}
    (h : result.map (fun next => (answer next, some next)) = .ok (answered, stored)) :
    ∃ next, result = .ok next ∧ stored = some next := by
  cases result with
  | error fault => cases h
  | ok next =>
    cases h
    exact ⟨next, rfl, rfl⟩

theorem markCompleted_updates {result : Option Json} {billing : Option BillingUnits}
    (h : state.markCompleted result billing now = .ok next) :
    Updates manager (.markCompleted result billing) now state next := by
  obtain ⟨_, htransition, hrest⟩ := bind_eq_ok.1 h
  obtain ⟨⟨hopen, hdated⟩, rfl⟩ := transition_ok htransition
  obtain ⟨_, -, hnext⟩ := bind_eq_ok.1 hrest
  cases hnext
  cases result with
  | none => exact ⟨rfl, rfl, fun _ => hopen, rfl, rfl, id, fun _ => hdated⟩
  | some result => exact ⟨rfl, rfl, fun _ => hopen, rfl, rfl, id, fun _ => hdated⟩

theorem cancelUpstream_updates
    {acknowledgment : Option ProviderCancelAcknowledgment}
    {answer : Except Fault (Option ProviderCancelAcknowledgment)}
    (hanswer : (if manager.hasProvider then answer else .ok none) = .ok acknowledgment)
    (h : state.cancelUpstream acknowledgment now = .ok next) :
    Updates manager (.requestUpstreamCancel answer) now state next := by
  cases acknowledgment with
  | none =>
    -- Without an acknowledgment only the request is recorded.
    have hnone : (AsyncOperation.requestUpstreamCancel answer).target manager = none ∧
        (AsyncOperation.requestUpstreamCancel answer).acknowledgment manager = none := by
      unfold AsyncOperation.target AsyncOperation.acknowledgment
      split at hanswer
      · rw [hanswer]
        exact ⟨rfl, rfl⟩
      · next hprovider =>
          rw [Bool.not_eq_true] at hprovider
          rw [hprovider]
          rcases answer with fault | (_ | acknowledgment) <;> exact ⟨rfl, rfl⟩
    obtain ⟨_, -, hnext⟩ := bind_eq_ok.1 h
    cases hnext
    refine ⟨rfl, ?_, fun hsome => ?_, rfl, ?_, id, fun hsome => ?_⟩
    · rw [hnone.1]
      rfl
    · rw [hnone.1] at hsome
      cases hsome
    · rw [hnone.2]
      rfl
    · rw [hnone.1] at hsome
      cases hsome
  | some acknowledgment =>
    split at hanswer
    · next hprovider =>
        subst hanswer
        obtain ⟨_, htransition, hnext⟩ := bind_eq_ok.1 h
        obtain ⟨⟨hopen, hdated⟩, rfl⟩ := transition_ok htransition
        cases hnext
        refine ⟨rfl, ?_, fun _ => hopen, rfl, ?_, id, fun _ => hdated⟩
        · show _ = (if manager.hasProvider then _ else _ : Option AsyncJobStatus).getD _
          rw [if_pos hprovider]
          rfl
        · show _ = (if manager.hasProvider then _ else _ : Option (Option _)).getD _
          rw [if_pos hprovider]
          rfl
    · cases hanswer

/-- What an operation that goes through does to its job. -/
theorem perform_updates (h : manager.perform state now operation = .ok (answer, stored)) :
    Updates manager operation now state (stored.getD state) := by
  cases operation with
  | poll =>
    cases h
    exact ⟨rfl, rfl, nofun, rfl, rfl, id, nofun⟩
  | result =>
    cases h
    exact ⟨rfl, rfl, nofun, rfl, rfl, id, nofun⟩
  | markRunning =>
    obtain ⟨next, hnext, rfl⟩ := published_ok h
    obtain ⟨⟨hopen, hdated⟩, rfl⟩ := transition_ok hnext
    exact ⟨rfl, rfl, fun _ => hopen, rfl, rfl, id, fun _ => hdated⟩
  | markInputRequired inputRequests =>
    obtain ⟨next, hnext, rfl⟩ := published_ok h
    obtain ⟨transitioned, htransition, hnext⟩ := bind_eq_ok.1 hnext
    obtain ⟨⟨hopen, hdated⟩, rfl⟩ := transition_ok htransition
    cases hnext
    exact ⟨rfl, rfl, fun _ => hopen, rfl, rfl, id, fun _ => hdated⟩
  | markCompleted result billing =>
    obtain ⟨next, hnext, rfl⟩ := published_ok h
    exact markCompleted_updates hnext
  | markFailed upstreamError =>
    obtain ⟨next, hnext, rfl⟩ := published_ok h
    obtain ⟨transitioned, htransition, hnext⟩ := bind_eq_ok.1 hnext
    obtain ⟨⟨hopen, hdated⟩, rfl⟩ := transition_ok htransition
    cases hnext
    exact ⟨rfl, rfl, fun _ => hopen, rfl, rfl, id, fun _ => hdated⟩
  | recordPaidCall units =>
    unfold AsyncJobManager.perform at h
    dsimp only at h
    split at h
    · cases h
      exact ⟨rfl, rfl, nofun, rfl, rfl, id, nofun⟩
    · obtain ⟨next, hnext, rfl⟩ := map_ok h
      obtain ⟨time, -, hnext⟩ := bind_eq_ok.1 hnext
      cases hnext
      exact ⟨rfl, rfl, nofun, rfl, rfl, fun _ => rfl, nofun⟩
  | recordArtifactWrite result =>
    unfold AsyncJobManager.perform at h
    dsimp only at h
    split at h
    · cases h
      exact ⟨rfl, rfl, nofun, rfl, rfl, id, nofun⟩
    · obtain ⟨next, hnext, rfl⟩ := map_ok h
      obtain ⟨time, -, hnext⟩ := bind_eq_ok.1 hnext
      cases hnext
      exact ⟨rfl, rfl, nofun, rfl, rfl, id, nofun⟩
  | cancelCallerWait =>
    obtain ⟨next, hnext, rfl⟩ := published_ok h
    obtain ⟨transitioned, htransition, hnext⟩ := bind_eq_ok.1 hnext
    obtain ⟨⟨hopen, hdated⟩, rfl⟩ := transition_ok htransition
    cases hnext
    exact ⟨rfl, rfl, fun _ => hopen, rfl, rfl, id, fun _ => hdated⟩
  | cancelGroundlanePolling =>
    obtain ⟨next, hnext, rfl⟩ := published_ok h
    obtain ⟨transitioned, htransition, hnext⟩ := bind_eq_ok.1 hnext
    obtain ⟨⟨hopen, hdated⟩, rfl⟩ := transition_ok htransition
    cases hnext
    exact ⟨rfl, rfl, fun _ => hopen, rfl, rfl, id, fun _ => hdated⟩
  | requestUpstreamCancel provided =>
    unfold AsyncJobManager.perform at h
    dsimp only at h
    split at h
    · cases h
    · split at h
      · cases h
      · next hanswer =>
          obtain ⟨next, hnext, rfl⟩ := map_ok h
          exact cancelUpstream_updates hanswer hnext
  | attachProviderTask providerJobId =>
    obtain ⟨next, hnext, rfl⟩ := map_ok h
    obtain ⟨_, -, hnext⟩ := bind_eq_ok.1 hnext
    cases hnext
    exact ⟨rfl, rfl, nofun, rfl, rfl, id, nofun⟩
  | cancelTask acknowledgment =>
    obtain ⟨_, hnext, rfl⟩ := published_ok h
    obtain ⟨_, htransition, hnext⟩ := bind_eq_ok.1 hnext
    obtain ⟨⟨hopen, hdated⟩, rfl⟩ := transition_ok htransition
    cases hnext
    cases acknowledgment with
    | none => exact ⟨rfl, rfl, fun _ => hopen, rfl, rfl, id, fun _ => hdated⟩
    | some acknowledgment => exact ⟨rfl, rfl, fun _ => hopen, rfl, rfl, id, fun _ => hdated⟩

end

/-! ## What a call does -/

/-- A request of a manager: a new job, or a call for one. -/
inductive AsyncRequest where
  | create (input : CreateAsyncJobInput) (around : Surroundings)
  | call (call : AsyncCall)

namespace AsyncJobManager

variable (manager : AsyncJobManager)

/-- The store that a request leaves. -/
def request (store : InMemoryJobStore InternalAsyncJobState) :
    AsyncRequest → InMemoryJobStore InternalAsyncJobState
  | .create input around => (manager.create store input around).2
  | .call call => (manager.call store call).2

/-- The store that some requests of a new manager leave. -/
abbrev reached (requests : List AsyncRequest) : InMemoryJobStore InternalAsyncJobState :=
  Sequential.run manager.request InMemoryJobStore.empty requests

/-- The call takes a job that waits for input, with its requests stored, to another status without
a result of its own. -/
def carriesRequests (jobs : AsyncJobs) (call : AsyncCall) : Bool :=
  match resolveAsyncJob jobs.store call.jobId call.caller call.now with
  | .error _ => false
  | .ok state =>
    decide (state.record.status = .inputRequired) && state.record.result.isSome &&
      (call.operation.target manager).isSome && call.operation.givenResult.isNone &&
      (toISOString call.now).isOk

/-- The job to which a call adds its units. -/
def paidJobs (jobs : AsyncJobs) (call : AsyncCall) : List String :=
  match (manager.call jobs.store call).1 with
  | .ok (.paid ⟨false⟩) => [call.jobId]
  | _ => []

end AsyncJobManager

/-- Every job is stored under its id. -/
def Keyed (store : InMemoryJobStore InternalAsyncJobState) : Prop :=
  ∀ jobId state, store.get jobId = some state → state.record.jobId = jobId

/-- How a call changes a job, and the list of the calls that were answered. -/
inductive Evolves (manager : AsyncJobManager) (jobs : AsyncJobs) (call : AsyncCall)
    (jobId : String) (old : InternalAsyncJobState) :
    InternalAsyncJobState → List AsyncCall → Prop
  | refused : Evolves manager jobs call jobId old old jobs.answered
  | other (h : call.jobId ≠ jobId) : Evolves manager jobs call jobId old old (call :: jobs.answered)
  | updated {new : InternalAsyncJobState} (h : call.jobId = jobId)
    (hresolve : resolveAsyncJob jobs.store call.jobId call.caller call.now = .ok old)
    (hupdates : Updates manager call.operation call.now old new) :
    Evolves manager jobs call jobId old new (call :: jobs.answered)

section

variable {manager : AsyncJobManager} {store : InMemoryJobStore InternalAsyncJobState}
  {jobs : AsyncJobs} {call : AsyncCall} {jobId : String} {state old new : InternalAsyncJobState}
  {answered : List AsyncCall} {given : AsyncOperation → Option (Option Json)} {now : Int}

theorem resolveAsyncJob_get {caller : AsyncJobCaller}
    (h : resolveAsyncJob store jobId caller now = .ok state) : store.get jobId = some state := by
  unfold resolveAsyncJob at h
  split at h
  · cases h
  · next found hfound =>
      rw [hfound]
      repeat' split at h
      all_goals cases h
      rfl

variable (manager) in
/-- A call is refused, or performs its operation. -/
theorem call_cases (store : InMemoryJobStore InternalAsyncJobState) (call : AsyncCall) :
    (∃ fault, manager.call store call = (.error fault, store)) ∨
    ∃ state answer stored, resolveAsyncJob store call.jobId call.caller call.now = .ok state ∧
      manager.perform state call.now call.operation = .ok (answer, stored) ∧
      manager.call store call = (.ok answer, stored.elim store store.set) := by
  unfold AsyncJobManager.call
  cases hcheck : checkOperation call.operation with
  | error fault => exact .inl ⟨fault, rfl⟩
  | ok =>
    cases hresolve : resolveAsyncJob store call.jobId call.caller call.now with
    | error fault => exact .inl ⟨fault, rfl⟩
    | ok state =>
      dsimp only
      cases hperform : manager.perform state call.now call.operation with
      | error fault => exact .inl ⟨fault, rfl⟩
      | ok performed =>
        obtain ⟨answer, stored⟩ := performed
        cases stored with
        | none => exact .inr ⟨state, answer, none, rfl, hperform, rfl⟩
        | some next => exact .inr ⟨state, answer, some next, rfl, hperform, rfl⟩

theorem keyed_set (h : Keyed store) : Keyed (store.set state) := by
  intro jobId found hfound
  rw [get_set] at hfound
  split at hfound
  · next heq => exact Option.some.inj hfound ▸ heq
  · exact h jobId found hfound

theorem keyed_call (h : Keyed store) : Keyed (manager.call store call).2 := by
  rcases call_cases manager store call with ⟨_, heq⟩ | ⟨_, _, stored, _, _, heq⟩
  · rw [heq]
    exact h
  · rw [heq]
    cases stored with
    | none => exact h
    | some next => exact keyed_set h

theorem keyed_create (h : Keyed store) : Keyed (manager.create store input around).2 := by
  unfold AsyncJobManager.create
  repeat' split
  all_goals first
    | exact h
    | exact keyed_set h

theorem keyed_reached (requests : List AsyncRequest) : Keyed (manager.reached requests) := by
  have hempty : Keyed InMemoryJobStore.empty := by
    intro jobId state hget
    rw [show InMemoryJobStore.empty.get jobId = none from rfl] at hget
    cases hget
  refine run_keeps Keyed (fun store request h => ?_) hempty
  cases request with
  | create input around => exact keyed_create h
  | call call => exact keyed_call h

/-- What a call leaves of the store. -/
theorem step_store : (manager.step jobs call).store = (manager.call jobs.store call).2 := by
  unfold AsyncJobManager.step
  split <;> next heq => rw [heq]

variable (manager call) in
/-- A call changes at most its own job. -/
theorem step_evolves (hkeyed : Keyed jobs.store) (hget : jobs.store.get jobId = some old) :
    ∃ new, (manager.step jobs call).store.get jobId = some new ∧
      Evolves manager jobs call jobId old new (manager.step jobs call).answered := by
  unfold AsyncJobManager.step
  rcases call_cases manager jobs.store call with
    ⟨_, heq⟩ | ⟨state, _, stored, hresolve, hperform, heq⟩
  · rw [heq]
    exact ⟨old, hget, .refused⟩
  · rw [heq]
    have hstate := resolveAsyncJob_get hresolve
    have hupdates := perform_updates hperform
    by_cases hown : call.jobId = jobId
    · subst hown
      cases hstate.symm.trans hget
      refine ⟨stored.getD old, ?_, .updated rfl hresolve hupdates⟩
      cases stored with
      | none => exact hget
      | some next =>
        show (jobs.store.set next).get call.jobId = some next
        have hid : next.record.jobId = call.jobId :=
          hupdates.jobId.trans (hkeyed call.jobId _ hget)
        rw [get_set, if_pos (show JobState.jobId next = _ from hid)]
    · refine ⟨old, ?_, .other hown⟩
      cases stored with
      | none => exact hget
      | some next =>
        show (jobs.store.set next).get jobId = some old
        have hid : next.record.jobId ≠ jobId := by
          rw [show next.record.jobId = call.jobId from
            hupdates.jobId.trans (hkeyed call.jobId state hstate)]
          exact hown
        rw [get_set, if_neg (show ¬ JobState.jobId next = _ from hid)]
        exact hget

theorem keyed_step (h : Keyed jobs.store) : Keyed (manager.step jobs call).store := by
  rw [step_store]
  exact keyed_call h

/-! ## Statuses and acknowledgments -/

/-- A call in the list supplied an acknowledgment for the job. -/
def Acknowledged (manager : AsyncJobManager) (answered : List AsyncCall) (jobId : String) : Prop :=
  ∃ call ∈ answered, call.jobId = jobId ∧ (call.operation.acknowledgment manager).join.isSome

/-- The acknowledgment of a job is evidence of its status. -/
structure Evident (manager : AsyncJobManager) (jobId : String) (state : InternalAsyncJobState)
    (answered : List AsyncCall) : Prop where
  acknowledged : state.upstreamAcknowledgment.isSome = true ↔
    state.record.status = .cancelledByUpstream
  supplied : state.record.status = .cancelledByUpstream → Acknowledged manager answered jobId

variable (manager) in
/-- An operation moves a job to `cancelled_by_upstream` with an acknowledgment, and stores none
without doing so. -/
theorem target_upstream (operation : AsyncOperation) :
    (operation.target manager = some .cancelledByUpstream ↔
      (operation.acknowledgment manager).join.isSome) ∧
    (operation.target manager = none → operation.acknowledgment manager = none) := by
  cases operation with
  | requestUpstreamCancel answer =>
    rcases answer with fault | (_ | acknowledgment)
    · exact ⟨⟨nofun, nofun⟩, fun _ => rfl⟩
    · exact ⟨⟨nofun, nofun⟩, fun _ => rfl⟩
    · unfold AsyncOperation.target AsyncOperation.acknowledgment
      dsimp only
      split
      · exact ⟨⟨fun _ => rfl, fun _ => rfl⟩, nofun⟩
      · exact ⟨⟨nofun, nofun⟩, fun _ => rfl⟩
  | cancelTask acknowledgment =>
    cases acknowledgment with
    | none => exact ⟨⟨nofun, nofun⟩, nofun⟩
    | some acknowledgment => exact ⟨⟨fun _ => rfl, fun _ => rfl⟩, nofun⟩
  | poll => exact ⟨⟨nofun, nofun⟩, fun _ => rfl⟩
  | result => exact ⟨⟨nofun, nofun⟩, fun _ => rfl⟩
  | markRunning => exact ⟨⟨nofun, nofun⟩, fun _ => rfl⟩
  | markInputRequired inputRequests => exact ⟨⟨nofun, nofun⟩, fun _ => rfl⟩
  | markCompleted result billing => exact ⟨⟨nofun, nofun⟩, fun _ => rfl⟩
  | markFailed upstreamError => exact ⟨⟨nofun, nofun⟩, fun _ => rfl⟩
  | recordPaidCall units => exact ⟨⟨nofun, nofun⟩, fun _ => rfl⟩
  | recordArtifactWrite result => exact ⟨⟨nofun, nofun⟩, fun _ => rfl⟩
  | cancelCallerWait => exact ⟨⟨nofun, nofun⟩, fun _ => rfl⟩
  | cancelGroundlanePolling => exact ⟨⟨nofun, nofun⟩, fun _ => rfl⟩
  | attachProviderTask providerJobId => exact ⟨⟨nofun, nofun⟩, fun _ => rfl⟩

theorem Evident.updated (h : Evident manager jobId old jobs.answered) (hown : call.jobId = jobId)
    (hupdates : Updates manager call.operation call.now old new) :
    Evident manager jobId new (call :: jobs.answered) := by
  obtain ⟨htarget, hkept⟩ := target_upstream manager call.operation
  have hstatus := hupdates.status
  have hacknowledgment := hupdates.acknowledgment
  cases hmoves : call.operation.target manager with
  | none =>
    rw [hmoves, Option.getD_none] at hstatus
    rw [hkept hmoves, Option.getD_none] at hacknowledgment
    refine ⟨by rw [hacknowledgment, hstatus]; exact h.acknowledged, fun hupstream => ?_⟩
    obtain ⟨earlier, hmem, hearlier⟩ := h.supplied (hstatus ▸ hupstream)
    exact ⟨earlier, List.mem_cons_of_mem _ hmem, hearlier⟩
  | some target =>
    rw [hmoves, Option.getD_some] at hstatus
    -- The job was not terminal, so it had no acknowledgment before.
    have hbefore : old.upstreamAcknowledgment = none := by
      have hopen := hupdates.unfinished (by rw [hmoves]; rfl)
      refine Option.not_isSome_iff_eq_none.1 fun hsome => ?_
      rw [h.acknowledged.1 hsome] at hopen
      cases hopen
    have hjoin : new.upstreamAcknowledgment = (call.operation.acknowledgment manager).join := by
      rw [hacknowledgment, hbefore]
      cases call.operation.acknowledgment manager <;> rfl
    rw [hmoves, Option.some_inj] at htarget
    refine ⟨?_, fun hupstream => ?_⟩
    · rw [hjoin, hstatus]
      exact htarget.symm
    · exact ⟨call, List.mem_cons_self, hown, htarget.1 (hstatus.symm.trans hupstream)⟩

theorem Evident.evolves (h : Evident manager jobId old jobs.answered)
    (hevolves : Evolves manager jobs call jobId old new answered) :
    Evident manager jobId new answered := by
  cases hevolves with
  | refused => exact h
  | other hother =>
    refine ⟨h.acknowledged, fun hupstream => ?_⟩
    obtain ⟨earlier, hmem, hearlier⟩ := h.supplied hupstream
    exact ⟨earlier, List.mem_cons_of_mem _ hmem, hearlier⟩
  | updated hown hresolve hupdates => exact h.updated hown hupdates

/-- A terminal status stays. -/
theorem Evolves.final (h : Evolves manager jobs call jobId old new answered)
    (hterminal : old.record.status.terminal = true) : new.record.status = old.record.status := by
  cases h with
  | refused => rfl
  | other => rfl
  | updated hown hresolve hupdates =>
    rw [hupdates.status]
    cases hmoves : call.operation.target manager with
    | none => rfl
    | some target =>
      have hopen := hupdates.unfinished (by rw [hmoves]; rfl)
      exact absurd (hterminal.symm.trans hopen) nofun

/-! ## Results -/

/-- The input requests that an operation gives. -/
def AsyncOperation.inputRequests : AsyncOperation → Option (Option Json)
  | markInputRequired requests => some requests
  | _ => none

/-- The value that an operation completes a job with. -/
def AsyncOperation.completion : AsyncOperation → Option (Option Json)
  | markCompleted value _ => some value
  | _ => none

/-- What the latest answered call for the job gave. -/
def latest (given : AsyncOperation → Option (Option Json)) (answered : List AsyncCall)
    (jobId : String) : Option Json :=
  (answered.findSome? fun call =>
    if call.jobId = jobId then given call.operation else none).join

/-- The result that the public view of a job has to show. -/
def expectedResult (answered : List AsyncCall) (jobId : String) : AsyncJobStatus → Option Json
  | .inputRequired => latest AsyncOperation.inputRequests answered jobId
  | .completed => latest AsyncOperation.completion answered jobId
  | _ => none

theorem latest_cons : latest given (call :: answered) jobId =
      if call.jobId = jobId then
        (match given call.operation with
          | some value => value
          | none => latest given answered jobId)
      else latest given answered jobId := by
  unfold latest
  rw [List.findSome?_cons]
  by_cases h : call.jobId = jobId
  · rw [if_pos h, if_pos h]
    cases given call.operation <;> rfl
  · rw [if_neg h, if_neg h]

theorem latest_of_none (h : call.jobId = jobId → given call.operation = none) :
    latest given (call :: answered) jobId = latest given answered jobId := by
  rw [latest_cons]
  by_cases hown : call.jobId = jobId
  · rw [if_pos hown, h hown]
  · rw [if_neg hown]

/-- A call that gives the job no requests and no value changes nothing that is to be shown. -/
theorem expectedResult_of_none (h : call.jobId = jobId →
      call.operation.inputRequests = none ∧ call.operation.completion = none)
    (status : AsyncJobStatus) :
    expectedResult (call :: answered) jobId status = expectedResult answered jobId status := by
  cases status with
  | inputRequired => exact latest_of_none fun hown => (h hown).1
  | completed => exact latest_of_none fun hown => (h hown).2
  | _ => rfl

/-- An operation gives requests, completes the job, or gives nothing and moves it elsewhere. -/
theorem operation_cases (manager : AsyncJobManager) (operation : AsyncOperation) :
    (∃ requests, operation = .markInputRequired requests) ∨
    (∃ value billing, operation = .markCompleted value billing) ∨
    (operation.givenResult = none ∧ operation.inputRequests = none ∧
      operation.completion = none ∧ ∀ target, operation.target manager = some target →
        target ≠ .inputRequired ∧ target ≠ .completed) := by
  have hmoves : ∀ {moved target : AsyncJobStatus}, some moved = some target →
      moved ≠ .inputRequired ∧ moved ≠ .completed → target ≠ .inputRequired ∧ target ≠ .completed :=
    fun heq h => Option.some.inj heq ▸ h
  cases operation with
  | markInputRequired requests => exact .inl ⟨requests, rfl⟩
  | markCompleted value billing => exact .inr (.inl ⟨value, billing, rfl⟩)
  | requestUpstreamCancel answer =>
    refine .inr (.inr ⟨rfl, rfl, rfl, fun target htarget => ?_⟩)
    rcases answer with fault | (_ | acknowledgment)
    · cases htarget
    · cases htarget
    · unfold AsyncOperation.target at htarget
      dsimp only at htarget
      split at htarget
      · exact hmoves htarget ⟨nofun, nofun⟩
      · cases htarget
  | cancelTask acknowledgment =>
    refine .inr (.inr ⟨rfl, rfl, rfl, fun target htarget => ?_⟩)
    cases acknowledgment with
    | none => exact hmoves htarget ⟨nofun, nofun⟩
    | some acknowledgment => exact hmoves htarget ⟨nofun, nofun⟩
  | poll => exact .inr (.inr ⟨rfl, rfl, rfl, nofun⟩)
  | result => exact .inr (.inr ⟨rfl, rfl, rfl, nofun⟩)
  | recordPaidCall units => exact .inr (.inr ⟨rfl, rfl, rfl, nofun⟩)
  | recordArtifactWrite result => exact .inr (.inr ⟨rfl, rfl, rfl, nofun⟩)
  | attachProviderTask providerJobId => exact .inr (.inr ⟨rfl, rfl, rfl, nofun⟩)
  | markRunning => exact .inr (.inr ⟨rfl, rfl, rfl, fun _ h => hmoves h ⟨nofun, nofun⟩⟩)
  | markFailed upstreamError =>
    exact .inr (.inr ⟨rfl, rfl, rfl, fun _ h => hmoves h ⟨nofun, nofun⟩⟩)
  | cancelCallerWait => exact .inr (.inr ⟨rfl, rfl, rfl, fun _ h => hmoves h ⟨nofun, nofun⟩⟩)
  | cancelGroundlanePolling => exact .inr (.inr ⟨rfl, rfl, rfl, fun _ h => hmoves h ⟨nofun, nofun⟩⟩)

/-- The result that is to be shown after an operation: the one that it gives, or none if it moves
the job without giving one. -/
theorem expectedResult_updated (hown : call.jobId = jobId)
    (hupdates : Updates manager call.operation call.now old new) :
    expectedResult (call :: answered) jobId new.record.status =
      if (call.operation.target manager).isSome then call.operation.givenResult.join
      else expectedResult answered jobId old.record.status := by
  have hstatus := hupdates.status
  rcases operation_cases manager call.operation with
    ⟨_, hoperation⟩ | ⟨value, _, hoperation⟩ | ⟨hgiven, hrequests, hvalue, hmoves⟩
  · rw [hoperation] at hstatus
    rw [show new.record.status = .inputRequired from hstatus]
    show latest _ _ _ = _
    rw [latest_cons, if_pos hown, hoperation]
    rfl
  · rw [hoperation] at hstatus
    rw [show new.record.status = .completed from hstatus]
    show latest _ _ _ = _
    rw [latest_cons, if_pos hown, hoperation]
    cases value <;> rfl
  · rw [expectedResult_of_none (fun _ => ⟨hrequests, hvalue⟩), hstatus, hgiven]
    cases htarget : call.operation.target manager with
    | none => rfl
    | some target =>
      obtain ⟨hwaits, hcompleted⟩ := hmoves target htarget
      show expectedResult answered jobId target = none
      cases target with
      | inputRequired => exact absurd rfl hwaits
      | completed => exact absurd rfl hcompleted
      | _ => rfl

/-- The result of a job that is not terminal and shows the right one: none, unless the job waits
for input. -/
theorem result_waits (h : old.record.result = expectedResult answered jobId old.record.status)
    (hopen : old.record.status.terminal = false) (hsome : old.record.result.isSome) :
    old.record.status = .inputRequired := by
  cases hstatus : old.record.status with
  | inputRequired => rfl
  | pending =>
    rw [h, hstatus] at hsome
    cases hsome
  | running =>
    rw [h, hstatus] at hsome
    cases hsome
  | completed =>
    rw [hstatus] at hopen
    cases hopen
  | failed =>
    rw [hstatus] at hopen
    cases hopen
  | cancelledByCaller =>
    rw [hstatus] at hopen
    cases hopen
  | cancelledByGroundlane =>
    rw [hstatus] at hopen
    cases hopen
  | cancelledByUpstream =>
    rw [hstatus] at hopen
    cases hopen

theorem givenResult_of_target (h : operation.target manager = none) :
    operation.givenResult = none := by
  rcases operation_cases manager operation with ⟨_, rfl⟩ | ⟨_, _, rfl⟩ | ⟨hnone, -⟩
  · cases h
  · cases h
  · exact hnone

/-- A call that leaves no requests behind keeps the result truthful. -/
theorem Evolves.result (hevolves : Evolves manager jobs call jobId old new answered)
    (hcarries : call.jobId = jobId → manager.carriesRequests jobs call = false)
    (h : old.record.result = expectedResult jobs.answered jobId old.record.status) :
    new.record.result = expectedResult answered jobId new.record.status := by
  cases hevolves with
  | refused => exact h
  | other hother =>
    rw [h]
    exact (expectedResult_of_none (fun hown => absurd hown hother) _).symm
  | updated hown hresolve hupdates =>
    rw [expectedResult_updated hown hupdates, hupdates.result]
    cases htarget : call.operation.target manager with
    | none =>
      rw [givenResult_of_target htarget]
      exact h
    | some target =>
      rw [Option.isSome_some, if_pos rfl]
      cases hgiven : call.operation.givenResult with
      | some value => rfl
      | none =>
        show old.record.result = none
        have hmoves : (call.operation.target manager).isSome := by rw [htarget]; rfl
        have hopen := hupdates.unfinished hmoves
        refine Option.not_isSome_iff_eq_none.1 fun hsome => ?_
        have hfalse := hcarries hown
        unfold AsyncJobManager.carriesRequests at hfalse
        rw [hresolve] at hfalse
        dsimp only at hfalse
        rw [result_waits h hopen hsome, hsome, hmoves, hgiven, hupdates.dated hmoves] at hfalse
        cases hfalse

theorem isOk_iff {α : Type} {result : Except Fault α} :
    result.isOk = true ↔ ∃ value, result = .ok value := by
  cases result with
  | error fault => exact ⟨nofun, nofun⟩
  | ok value => exact ⟨fun _ => ⟨value, rfl⟩, fun _ => rfl⟩

/-- A job that waits for input can move on. -/
theorem transition_waiting {now time : Int} (hstatus : state.record.status = .inputRequired)
    (hne : target ≠ .inputRequired) (horder : 1 ≤ target.order) (htime : toISOString now = .ok time) :
    ∃ next, state.transition target now = .ok next := by
  unfold InternalAsyncJobState.transition validateStatusTransition
  rw [hstatus, if_neg (Ne.symm hne), if_neg (by decide),
    if_neg (Nat.not_lt.2 (show AsyncJobStatus.inputRequired.order ≤ target.order from horder)),
    htime]
  exact ⟨_, rfl⟩

/-- A call that takes a job away from its requests is answered. -/
theorem perform_waiting {now time : Int} (hstatus : state.record.status = .inputRequired)
    (htarget : (operation.target manager).isSome) (hgiven : operation.givenResult = none)
    (htime : toISOString now = .ok time) :
    checkOperation operation = .ok () ∧ (manager.perform state now operation).isOk := by
  have hmove : ∀ target, target ≠ .inputRequired → 1 ≤ target.order →
      ∃ next, state.transition target now = .ok next :=
    fun target hne horder => transition_waiting hstatus hne horder htime
  cases operation with
  | poll => cases htarget
  | result => cases htarget
  | recordPaidCall units => cases htarget
  | recordArtifactWrite result => cases htarget
  | attachProviderTask providerJobId => cases htarget
  | markInputRequired requests => cases hgiven
  | markRunning =>
    obtain ⟨next, hnext⟩ := hmove .running nofun (by decide)
    refine ⟨rfl, ?_⟩
    unfold AsyncJobManager.perform InternalAsyncJobState.markRunning
    dsimp only
    rw [hnext]
    rfl
  | markCompleted value billing =>
    cases value with
    | some value => cases hgiven
    | none =>
      obtain ⟨next, hnext⟩ := hmove .completed nofun (by decide)
      obtain ⟨provenance, hbilling⟩ : ∃ provenance,
          completedBilling next.record.billingProvenance billing now = .ok provenance := by
        unfold completedBilling
        cases billing with
        | none => exact ⟨_, rfl⟩
        | some units =>
          dsimp only
          rw [htime]
          exact ⟨_, rfl⟩
      refine ⟨rfl, ?_⟩
      unfold AsyncJobManager.perform InternalAsyncJobState.markCompleted
      dsimp only
      rw [hnext]
      show (published (completedBilling next.record.billingProvenance billing now >>= _)).isOk
      rw [hbilling]
      rfl
  | markFailed upstreamError =>
    obtain ⟨next, hnext⟩ := hmove .failed nofun (by decide)
    refine ⟨rfl, ?_⟩
    unfold AsyncJobManager.perform InternalAsyncJobState.markFailed
    dsimp only
    rw [hnext]
    rfl
  | cancelCallerWait =>
    obtain ⟨next, hnext⟩ := hmove .cancelledByCaller nofun (by decide)
    refine ⟨rfl, ?_⟩
    unfold AsyncJobManager.perform InternalAsyncJobState.cancelCallerWait
    dsimp only
    rw [hnext]
    rfl
  | cancelGroundlanePolling =>
    obtain ⟨next, hnext⟩ := hmove .cancelledByGroundlane nofun (by decide)
    refine ⟨rfl, ?_⟩
    unfold AsyncJobManager.perform InternalAsyncJobState.cancelGroundlanePolling
    dsimp only
    rw [hnext]
    rfl
  | requestUpstreamCancel answer =>
    rcases answer with fault | (_ | acknowledgment)
    · cases htarget
    · cases htarget
    · unfold AsyncOperation.target at htarget
      dsimp only at htarget
      split at htarget
      · next hprovider =>
          obtain ⟨next, hnext⟩ := hmove .cancelledByUpstream nofun (by decide)
          refine ⟨rfl, ?_⟩
          unfold AsyncJobManager.perform
          dsimp only
          rw [hstatus, if_neg (by decide), if_pos hprovider]
          show ((state.transition .cancelledByUpstream now >>= _).map _ :
            Except Fault Performed).isOk
          rw [hnext]
          rfl
      · cases htarget
  | cancelTask acknowledgment =>
    cases acknowledgment with
    | none =>
      obtain ⟨next, hnext⟩ := hmove .cancelledByCaller nofun (by decide)
      refine ⟨rfl, ?_⟩
      show (published (state.transition .cancelledByCaller now >>= _)).isOk
      rw [hnext]
      rfl
    | some acknowledgment =>
      obtain ⟨_, hnext⟩ := hmove .cancelledByUpstream nofun (by decide)
      refine ⟨rfl, ?_⟩
      show (published (state.transition .cancelledByUpstream now >>= _)).isOk
      rw [hnext]
      rfl

/-- A call that takes a job away from its requests leaves them as its result. -/
theorem result_of_carries (hkeyed : Keyed jobs.store)
    (hcarries : manager.carriesRequests jobs call = true) :
    ∃ new, (manager.step jobs call).store.get call.jobId = some new ∧
      new.record.result ≠
        expectedResult (manager.step jobs call).answered call.jobId new.record.status := by
  unfold AsyncJobManager.carriesRequests at hcarries
  split at hcarries
  · cases hcarries
  · next old hresolve =>
      simp only [Bool.and_eq_true, decide_eq_true_eq] at hcarries
      obtain ⟨⟨⟨⟨hstatus, hsome⟩, htarget⟩, hgiven⟩, hdated⟩ := hcarries
      rw [Option.isNone_iff_eq_none] at hgiven
      obtain ⟨_, htime⟩ := isOk_iff.1 hdated
      obtain ⟨hcheck, hok⟩ := perform_waiting hstatus htarget hgiven htime
      obtain ⟨⟨_, stored⟩, hperform⟩ := isOk_iff.1 hok
      have hanswered : (manager.step jobs call).answered = call :: jobs.answered := by
        unfold AsyncJobManager.step AsyncJobManager.call
        rw [hcheck, hresolve]
        dsimp only
        rw [hperform]
        cases stored <;> rfl
      obtain ⟨new, hnew, hevolves⟩ :=
        step_evolves manager call hkeyed (resolveAsyncJob_get hresolve)
      refine ⟨new, hnew, ?_⟩
      rw [hanswered] at hevolves ⊢
      generalize hlist : call :: jobs.answered = answered at hevolves
      cases hevolves with
      | refused => exact absurd hlist (List.cons_ne_self call jobs.answered)
      | other hother => exact absurd rfl hother
      | updated hown hresolve' hupdates =>
        rw [← hlist] at *
        rw [expectedResult_updated rfl hupdates, if_pos htarget, hupdates.result, hgiven]
        show old.record.result ≠ none
        exact Option.isSome_iff_ne_none.1 hsome

/-! ## Paid calls -/

/-- A call that adds units is the first one of its job that does. -/
theorem perform_paid (h : manager.perform state now operation = .ok (.paid ⟨false⟩, stored)) :
    ∃ units next, operation = .recordPaidCall units ∧ state.paidCallCompleted = false ∧
      state.addPaidCall units now = .ok next ∧ stored = some next := by
  have hpublished : ∀ {result : Except Fault InternalAsyncJobState},
      published result ≠ .ok (.paid ⟨false⟩, stored) := by
    intro result heq
    cases result with
    | error fault => cases heq
    | ok next => cases heq
  have hmap : ∀ {result : Except Fault InternalAsyncJobState}
      {answer : InternalAsyncJobState → AsyncAnswer}, (∀ next, answer next ≠ .paid ⟨false⟩) →
      result.map (fun next => (answer next, some next)) ≠ .ok (.paid ⟨false⟩, stored) := by
    intro result answer hanswer heq
    cases result with
    | error fault => cases heq
    | ok next => exact hanswer next (Prod.mk.inj (Except.ok.inj heq)).1
  cases operation with
  | poll => cases h
  | result => cases h
  | markRunning => exact absurd h hpublished
  | markInputRequired requests => exact absurd h hpublished
  | markCompleted value billing => exact absurd h hpublished
  | markFailed upstreamError => exact absurd h hpublished
  | cancelCallerWait => exact absurd h hpublished
  | cancelGroundlanePolling => exact absurd h hpublished
  | cancelTask acknowledgment => exact absurd h hpublished
  | attachProviderTask providerJobId => exact absurd h (hmap fun _ heq => by cases heq)
  | recordArtifactWrite result =>
    unfold AsyncJobManager.perform at h
    dsimp only at h
    split at h
    · cases h
    · exact absurd h (hmap fun _ heq => by cases heq)
  | requestUpstreamCancel answer =>
    unfold AsyncJobManager.perform at h
    dsimp only at h
    split at h
    · cases h
    · split at h
      · cases h
      · exact absurd h (hmap fun _ heq => by cases heq)
  | recordPaidCall units =>
    unfold AsyncJobManager.perform at h
    dsimp only at h
    split at h
    · cases h
    · next hunpaid =>
        obtain ⟨next, hnext, rfl⟩ := map_ok h
        exact ⟨units, next, rfl, Bool.not_eq_true _ ▸ hunpaid, hnext, rfl⟩

variable {units : BillingUnits}

/-- What a paid call adds. -/
theorem addPaidCall_ok {next : InternalAsyncJobState} (h : state.addPaidCall units now = .ok next) :
    next.record.jobId = state.record.jobId ∧ next.paidCallCompleted = true ∧
      next.record.billingProvenance.inputUnits =
        state.record.billingProvenance.inputUnits + units.inputUnits ∧
      next.record.billingProvenance.outputUnits =
        state.record.billingProvenance.outputUnits + units.outputUnits := by
  obtain ⟨_, -, hnext⟩ := bind_eq_ok.1 h
  cases hnext
  exact ⟨rfl, rfl, rfl, rfl⟩

/-- A paid call that adds no units leaves the store. -/
theorem step_unpaid (hoperation : call.operation = .recordPaidCall units)
    (h : manager.paidJobs jobs call = []) : (manager.step jobs call).store = jobs.store := by
  rw [step_store]
  unfold AsyncJobManager.paidJobs at h
  rcases call_cases manager jobs.store call with
    ⟨_, heq⟩ | ⟨_, _, _, _, hperform, heq⟩
  · rw [heq]
  · rw [heq] at h ⊢
    rw [hoperation] at hperform
    unfold AsyncJobManager.perform at hperform
    dsimp only at hperform
    split at hperform
    · cases hperform
      rfl
    · obtain ⟨_, hnext, rfl⟩ := map_ok hperform
      rw [hnext] at hperform
      cases hperform
      cases h

/-- The job of a call that adds units, before and after it. -/
theorem step_paid (hkeyed : Keyed jobs.store) {paid : String}
    (h : paid ∈ manager.paidJobs jobs call) :
    paid = call.jobId ∧ ∃ units old new, call.operation = .recordPaidCall units ∧
      jobs.store.get paid = some old ∧ (manager.step jobs call).store.get paid = some new ∧
      old.paidCallCompleted = false ∧ new.paidCallCompleted = true ∧
      new.record.billingProvenance.inputUnits =
        old.record.billingProvenance.inputUnits + units.inputUnits ∧
      new.record.billingProvenance.outputUnits =
        old.record.billingProvenance.outputUnits + units.outputUnits := by
  unfold AsyncJobManager.paidJobs at h
  rcases call_cases manager jobs.store call with
    ⟨_, heq⟩ | ⟨state, _, _, hresolve, hperform, heq⟩
  · rw [heq] at h
    exact absurd h List.not_mem_nil
  · rw [heq] at h
    split at h
    · next heq' =>
        cases heq'
        obtain ⟨units, next, hoperation, hunpaid, hnext, rfl⟩ := perform_paid hperform
        obtain ⟨hid, hpaid, hinput, houtput⟩ := addPaidCall_ok hnext
        obtain rfl := List.mem_singleton.1 h
        have hget := resolveAsyncJob_get hresolve
        refine ⟨rfl, units, state, next, hoperation, hget, ?_, hunpaid, hpaid, hinput, houtput⟩
        rw [step_store, heq]
        show (jobs.store.set next).get call.jobId = some next
        rw [get_set, if_pos (show JobState.jobId next = _ from
          hid.trans (hkeyed call.jobId state hget))]
    · exact absurd h List.not_mem_nil

theorem Evolves.paid (h : Evolves manager jobs call jobId old new answered)
    (hpaid : old.paidCallCompleted = true) : new.paidCallCompleted = true := by
  cases h with
  | refused => exact hpaid
  | other => exact hpaid
  | updated hown hresolve hupdates => exact hupdates.paid hpaid

/-- Units are added to a job at most once. -/
theorem paidJobs_nodup (hkeyed : Keyed jobs.store) (calls : List AsyncCall) :
    (collect manager.step manager.paidJobs jobs calls).Nodup := by
  refine (nodup_collect (P := fun _ _ => True) (fun jobs => Keyed jobs.store)
    (fun jobs id => ∃ state, jobs.store.get id = some state ∧ state.paidCallCompleted = true)
    (fun jobs call h _ => keyed_step h) ?_ ?_ ?_ ?_ hkeyed).1
  · intro jobs call id h _ hspent
    obtain ⟨state, hget, hpaid⟩ := hspent
    obtain ⟨new, hnew, hevolves⟩ := step_evolves manager call h hget
    exact ⟨new, hnew, hevolves.paid hpaid⟩
  · intro jobs call _ _
    unfold AsyncJobManager.paidJobs
    split
    · exact List.nodup_singleton _
    · exact List.nodup_nil
  · intro jobs call id h _ hmem
    obtain ⟨-, _, _, new, -, hold, hnew, hunpaid, hpaid, -⟩ := step_paid h hmem
    refine ⟨fun ⟨state, hget, hspent⟩ => ?_, new, hnew, hpaid⟩
    cases hold.symm.trans hget
    exact absurd (hunpaid.symm.trans hspent) nofun
  · exact Each.of_splits fun _ _ _ _ => trivial

end

/-! ## Every sequence of calls -/

/-- What the manager says of a job is true, in every state that the calls reach. -/
structure FactsTruthful (manager : AsyncJobManager) (jobs : AsyncJobs) (jobId : String)
    (calls : List AsyncCall) : Prop where
  /-- A terminal status never changes. -/
  final : ∀ before later, calls = before ++ later → ∀ old,
    (run manager.step jobs before).store.get jobId = some old →
    ∃ new, (run manager.step jobs calls).store.get jobId = some new ∧
      (old.record.status.terminal = true → new.record.status = old.record.status)
  /-- The upstream is said to be cancelled exactly when the status says so and an acknowledgment
  was supplied. -/
  upstream : ∀ before later, calls = before ++ later → ∀ state,
    (run manager.step jobs before).store.get jobId = some state →
    ((toPublicAsyncJob state).upstreamCancelled = true ↔
      state.record.status = .cancelledByUpstream ∧
        Acknowledged manager (run manager.step jobs before).answered jobId)
  /-- Units are added at most once. -/
  paidOnce : (collect manager.step manager.paidJobs jobs calls).Nodup
  /-- A paid call either adds its units or leaves the store. -/
  paidAdds : ∀ before call later units, calls = before ++ call :: later →
    call.operation = .recordPaidCall units →
    (manager.step (run manager.step jobs before) call).store =
        (run manager.step jobs before).store ∨
      call.jobId ∈ manager.paidJobs (run manager.step jobs before) call ∧ ∃ old new,
        (run manager.step jobs before).store.get call.jobId = some old ∧
        (manager.step (run manager.step jobs before) call).store.get call.jobId = some new ∧
        new.record.billingProvenance.inputUnits =
          old.record.billingProvenance.inputUnits + units.inputUnits ∧
        new.record.billingProvenance.outputUnits =
          old.record.billingProvenance.outputUnits + units.outputUnits
  /-- The public view shows the latest input requests, the value of the completion, or nothing. -/
  result : ∀ before later, calls = before ++ later → ∀ state,
    (run manager.step jobs before).store.get jobId = some state →
    (toPublicAsyncJob state).result =
      expectedResult (run manager.step jobs before).answered jobId state.record.status

section

variable {manager : AsyncJobManager} {jobs : AsyncJobs} {jobId : String}
  {state : InternalAsyncJobState} {calls : List AsyncCall}

variable (calls) in
/-- What holds of a job in every state that the calls reach. -/
theorem run_evident (hkeyed : Keyed jobs.store) (hget : jobs.store.get jobId = some state)
    (h : Evident manager jobId state jobs.answered) :
    Keyed (run manager.step jobs calls).store ∧
      ∃ new, (run manager.step jobs calls).store.get jobId = some new ∧
        Evident manager jobId new (run manager.step jobs calls).answered ∧
        (state.record.status.terminal = true → new.record.status = state.record.status) := by
  induction calls generalizing jobs state with
  | nil => exact ⟨hkeyed, state, hget, h, fun _ => rfl⟩
  | cons call calls ih =>
    obtain ⟨_, hmiddle, hevolves⟩ := step_evolves manager call hkeyed hget
    obtain ⟨hkeyed', new, hnew, hevident, hfinal⟩ :=
      ih (keyed_step hkeyed) hmiddle (h.evolves hevolves)
    refine ⟨hkeyed', new, hnew, hevident, fun hterminal => ?_⟩
    have hstatus := hevolves.final hterminal
    rw [hfinal (hstatus.symm ▸ hterminal), hstatus]

/-- The result stays truthful as long as no call leaves requests behind. -/
theorem run_result (hkeyed : Keyed jobs.store) (hget : jobs.store.get jobId = some state)
    (h : state.record.result = expectedResult jobs.answered jobId state.record.status)
    (hcalls : Each manager.step
      (fun jobs call => call.jobId = jobId → manager.carriesRequests jobs call = false)
      jobs calls) :
    ∃ new, (run manager.step jobs calls).store.get jobId = some new ∧
      new.record.result =
        expectedResult (run manager.step jobs calls).answered jobId new.record.status := by
  induction calls generalizing jobs state with
  | nil => exact ⟨state, hget, h⟩
  | cons call calls ih =>
    obtain ⟨_, hmiddle, hevolves⟩ := step_evolves manager call hkeyed hget
    exact ih (keyed_step hkeyed) hmiddle (hevolves.result hcalls.1 h) hcalls.2

/-- The state of a job that has just been created. -/
theorem create_state {store : InMemoryJobStore InternalAsyncJobState} {job : PublicAsyncJob}
    (h : (manager.create store input around).1 = .ok ⟨job, false⟩) :
    ∃ state, (manager.create store input around).2.get job.jobId = some state ∧
      state.record.status = .pending ∧ state.record.result = none ∧
      state.upstreamAcknowledgment = none := by
  unfold AsyncJobManager.create at h ⊢
  split at h
  · cases h
  · split at h
    · cases h
    · split at h
      · cases h
      · next hroom =>
          rw [if_neg hroom]
          split at h
          · cases h
          · next state hstate =>
              cases h
              have hnew : state.record.status = .pending ∧ state.record.result = none ∧
                  state.upstreamAcknowledgment = none := by
                simp only [AsyncJobManager.newState, bind, Except.bind, pure, Except.pure] at hstate
                repeat' split at hstate
                all_goals cases hstate <;> exact ⟨rfl, rfl, rfl⟩
              refine ⟨state, ?_, hnew⟩
              rw [get_set]
              exact if_pos rfl

end

/-- After every sequence of requests and the creation of a job, what the manager says of the job
is true in every sequence of calls exactly when no call takes it from `input_required` to another
status without a result of its own while input requests are stored. -/
theorem facts_truthful_iff (manager : AsyncJobManager) (requests : List AsyncRequest)
    (input : CreateAsyncJobInput) (around : Surroundings) (job : PublicAsyncJob)
    (hcreate : (manager.create (manager.reached requests) input around).1 = .ok ⟨job, false⟩)
    (calls : List AsyncCall) :
    FactsTruthful manager ⟨(manager.create (manager.reached requests) input around).2, []⟩
        job.jobId calls ↔
      Each manager.step
        (fun jobs call => call.jobId = job.jobId → manager.carriesRequests jobs call = false)
        ⟨(manager.create (manager.reached requests) input around).2, []⟩ calls := by
  obtain ⟨state, hget, hstatus, hresult, hacknowledgment⟩ := create_state hcreate
  generalize hstart : AsyncJobs.mk (manager.create (manager.reached requests) input around).2 [] =
    start
  have hkeyed : Keyed start.store := hstart ▸ keyed_create (keyed_reached requests)
  have hfound : start.store.get job.jobId = some state := hstart ▸ hget
  have hevident : Evident manager job.jobId state start.answered := by
    refine ⟨?_, fun h => ?_⟩
    · rw [hacknowledgment, hstatus]
      exact ⟨nofun, nofun⟩
    · rw [hstatus] at h
      cases h
  have htrue : state.record.result =
      expectedResult start.answered job.jobId state.record.status := by
    rw [hresult, hstatus]
    rfl
  constructor
  · intro htruthful
    refine Each.of_splits fun before call later heq hown => ?_
    by_contra hcarries
    rw [Bool.not_eq_false] at hcarries
    obtain ⟨hbefore, -⟩ := run_evident before hkeyed hfound hevident
    obtain ⟨new, hnew, hwrong⟩ := result_of_carries hbefore hcarries
    rw [hown] at hnew hwrong
    have hrun : run manager.step start (before ++ [call]) =
        manager.step (run manager.step start before) call := by
      rw [run_append]
      rfl
    have hsplit : calls = (before ++ [call]) ++ later := by
      rw [heq, List.append_assoc]
      rfl
    refine hwrong ?_
    have := htruthful.result (before ++ [call]) later hsplit new (hrun ▸ hnew)
    rw [hrun] at this
    exact this
  · intro hcalls
    refine ⟨?_, ?_, paidJobs_nodup hkeyed calls, ?_, ?_⟩
    · intro before later heq old hold
      obtain ⟨hbefore, new, hnew, hevident', -⟩ :=
        run_evident before hkeyed hfound hevident
      cases hnew.symm.trans hold
      obtain ⟨-, last, hlast, -, hfinal⟩ := run_evident later hbefore hnew hevident'
      refine ⟨last, ?_, hfinal⟩
      rw [heq, run_append]
      exact hlast
    · intro before later heq found hget'
      obtain ⟨-, new, hnew, hevident', -⟩ := run_evident before hkeyed hfound hevident
      cases hnew.symm.trans hget'
      show found.upstreamAcknowledgment.isSome = true ↔ _
      rw [hevident'.acknowledged]
      exact ⟨fun h => ⟨h, hevident'.supplied h⟩, And.left⟩
    · intro before call later units heq hoperation
      obtain ⟨hbefore, -⟩ := run_evident before hkeyed hfound hevident
      cases hpaid : manager.paidJobs (run manager.step start before) call with
      | nil => exact .inl (step_unpaid hoperation hpaid)
      | cons paid rest =>
          have hmem : paid ∈ manager.paidJobs (run manager.step start before) call :=
            hpaid ▸ List.mem_cons_self
          obtain ⟨rfl, units', old, new, hoperation', hold, hnew, -, -, hinput, houtput⟩ :=
            step_paid hbefore hmem
          cases hoperation.symm.trans hoperation'
          exact .inr ⟨hpaid ▸ hmem, old, new, hold, hnew, hinput, houtput⟩
    · intro before later heq found hget'
      rw [heq] at hcalls
      obtain ⟨new, hnew, hresult'⟩ := run_result hkeyed hfound htrue hcalls.append.1
      cases hnew.symm.trans hget'
      exact hresult'

/-! ## Samples -/

def sampleJobInput : CreateAsyncJobInput := ⟨"a", "x", "p", 60, none, none, none, none⟩

def sampleJobAround : Surroundings := ⟨1000, "1", .error .other⟩

/-- The manager of the samples after it has created a job. -/
def sampleJobs : AsyncJobs :=
  ⟨(sampleAsyncJobs.create (sampleAsyncJobs.reached []) sampleJobInput sampleJobAround).2, []⟩

def sampleJob : PublicAsyncJob :=
  ⟨"ajob-1", "a", 1000, 1000, .pending, 61000, ⟨"p", 0, 0, none⟩, false, false, false, false, none,
    none⟩

def sampleJobCall (operation : AsyncOperation) : AsyncCall :=
  ⟨"ajob-1", ⟨"a", "x"⟩, 2000, operation⟩

/-- A job that asks for input and is completed with a value. -/
def sampleCompletedCalls : List AsyncCall :=
  [sampleJobCall .markRunning, sampleJobCall (.markInputRequired (some (.str "which page?"))),
    sampleJobCall (.markCompleted (some (.str "done")) none)]

/-- A job that asks for input and is completed without a value. -/
def sampleUnansweredCalls : List AsyncCall :=
  [sampleJobCall (.markInputRequired (some (.str "which page?"))),
    sampleJobCall (.markCompleted none none)]

example : (sampleJobCall .markRunning).operation.target sampleAsyncJobs = some .running := by
  decide +kernel

theorem sampleJob_created :
    (sampleAsyncJobs.create (sampleAsyncJobs.reached []) sampleJobInput sampleJobAround).1 =
      .ok ⟨sampleJob, false⟩ := by
  decide +kernel

/-- A job that is completed with a value. -/
theorem facts_truthful_sample :
    FactsTruthful sampleAsyncJobs sampleJobs "ajob-1" sampleCompletedCalls :=
  (facts_truthful_iff sampleAsyncJobs [] sampleJobInput sampleJobAround sampleJob
    sampleJob_created sampleCompletedCalls).2 (by decide +kernel)

/-- The input requests show up as the result of a completed job. -/
theorem requests_shown : ¬ ∀ (manager : AsyncJobManager) (requests : List AsyncRequest)
    (input : CreateAsyncJobInput) (around : Surroundings) (job : PublicAsyncJob),
    (manager.create (manager.reached requests) input around).1 = .ok ⟨job, false⟩ →
    ∀ calls, FactsTruthful manager ⟨(manager.create (manager.reached requests) input around).2, []⟩
      job.jobId calls := by
  intro h
  have hresult := (h sampleAsyncJobs [] sampleJobInput sampleJobAround sampleJob sampleJob_created
    sampleUnansweredCalls).result sampleUnansweredCalls [] rfl
  have hshown : ((run sampleAsyncJobs.step sampleJobs sampleUnansweredCalls).store.get
        "ajob-1").map (fun state => (state.record.status, state.record.result)) =
          some (.completed, some (.str "which page?")) ∧
      expectedResult (run sampleAsyncJobs.step sampleJobs sampleUnansweredCalls).answered "ajob-1"
        .completed = none := by
    decide +kernel
  obtain ⟨state, hget, hstate⟩ := Option.map_eq_some_iff.1 hshown.1
  have hfalse := hresult state hget
  rw [show state.record.status = .completed from congrArg Prod.fst hstate] at hfalse
  have hnone := hfalse.trans hshown.2
  rw [show (toPublicAsyncJob state).result = some (.str "which page?") from
    congrArg Prod.snd hstate] at hnone
  cases hnone

end Groundlane.Jobs
