import Groundlane.Jobs.CrawlLifecycle

/-!
# The life of an asynchronous job

The methods of `AsyncJobManager` (`core/async-lifecycle.ts`) next to `create` that work on one job:
the polls, the marks, the records of paid calls and artifact writes, and the cancellations. All of
them resolve the job first (`withJob`) and either refuse the call or store a new state.
-/

namespace Groundlane.Jobs

open Sequential

/-! ## Calls -/

structure AsyncJobCaller where
  ownerId : String
  credentialBinding : String
deriving DecidableEq, Repr

structure BillingUnits where
  inputUnits : Int
  outputUnits : Int
deriving DecidableEq, Repr

structure UpstreamCancelOutcome where
  job : PublicAsyncJob
  cancelResult : CrawlCancelResult

structure PaidCallOutcome where
  reused : Bool
deriving DecidableEq, Repr

structure ArtifactWriteOutcome where
  reused : Bool
  result : Json

/-- What a call asks of a job, with what the provider answers in it. -/
inductive AsyncOperation where
  | poll
  | result
  | markRunning
  | markInputRequired (inputRequests : Option Json)
  | markCompleted (result : Option Json) (billing : Option BillingUnits)
  | markFailed (upstreamError : Fault)
  | recordPaidCall (units : BillingUnits)
  | recordArtifactWrite (result : Json)
  | cancelCallerWait
  | cancelGroundlanePolling
  | requestUpstreamCancel (answer : Except Fault (Option ProviderCancelAcknowledgment))
  | attachProviderTask (providerJobId : String)
  | cancelTask (upstreamAcknowledgment : Option ProviderCancelAcknowledgment)

/-- A call of a manager for a job. -/
structure AsyncCall where
  jobId : String
  caller : AsyncJobCaller
  now : Int
  operation : AsyncOperation

/-! ## Statuses -/

namespace AsyncJobStatus

/-- The value of a status in the source. -/
def text : AsyncJobStatus → String
  | pending => "pending"
  | running => "running"
  | inputRequired => "input_required"
  | completed => "completed"
  | failed => "failed"
  | cancelledByCaller => "cancelled_by_caller"
  | cancelledByGroundlane => "cancelled_by_groundlane"
  | cancelledByUpstream => "cancelled_by_upstream"

/-- `STATUS_ORDER`. -/
def order : AsyncJobStatus → Nat
  | pending => 0
  | running | inputRequired => 1
  | completed | failed | cancelledByCaller | cancelledByGroundlane | cancelledByUpstream => 2

/-- `isTerminalAsyncStatus`. -/
def terminal : AsyncJobStatus → Bool
  | pending | running | inputRequired => false
  | completed | failed | cancelledByCaller | cancelledByGroundlane | cancelledByUpstream => true

end AsyncJobStatus

def validateStatusTransition (source target : AsyncJobStatus) : Except Fault Unit :=
  if source = target then
    .error (.error ("Status is already \"" ++ source.text ++ "\"; no transition needed"))
  else if source.order ≥ 2 then
    .error (.error ("Cannot transition from terminal status \"" ++ source.text ++ "\" to \"" ++
      target.text ++ "\""))
  else if target.order < source.order then
    .error (.error ("Non-monotonic status transition: \"" ++ source.text ++ "\" (" ++
      toString source.order ++ ") -> \"" ++ target.text ++ "\" (" ++ toString target.order ++ ")"))
  else .ok ()

/-- `isJobExpired`. -/
def isJobExpired (record : AsyncJobRecord) (now : Int) : Bool := decide (record.expiresAt ≤ now)

/-- The billing of a job that is completed. -/
def completedBilling (provenance : BillingProvenance) (billing : Option BillingUnits) (now : Int) :
    Except Fault BillingProvenance :=
  match billing with
  | none => .ok provenance
  | some units => (toISOString now).map fun billedAt =>
    ⟨provenance.providerId, units.inputUnits, units.outputUnits, some billedAt⟩

/-! ## The operations on a job -/

namespace InternalAsyncJobState

variable (state : InternalAsyncJobState)

/-- `transition`. -/
def transition (target : AsyncJobStatus) (now : Int) : Except Fault InternalAsyncJobState :=
  match validateStatusTransition state.record.status target with
  | .error error => .error (invalidInput "async-lifecycle" error.message)
  | .ok () => do
    let updatedAt ← toISOString now
    pure { state with record := { state.record with status := target }, updatedAt := updatedAt }

/-- `markRunning`. -/
def markRunning (now : Int) : Except Fault InternalAsyncJobState :=
  state.transition .running now

/-- `markInputRequired`. -/
def markInputRequired (inputRequests : Option Json) (now : Int) :
    Except Fault InternalAsyncJobState := do
  let transitioned ← state.transition .inputRequired now
  pure { transitioned with record := { transitioned.record with result := inputRequests } }

/-- `markCompleted`. -/
def markCompleted (result : Option Json) (billing : Option BillingUnits) (now : Int) :
    Except Fault InternalAsyncJobState := do
  let transitioned ← state.transition .completed now
  let billing ← completedBilling transitioned.record.billingProvenance billing now
  let record := { transitioned.record with billingProvenance := billing }
  pure { transitioned with
    record := match result with
      | none => record
      | some value => { record with result := some value } }

/-- `markFailed`. -/
def markFailed (upstreamError : Fault) (now : Int) : Except Fault InternalAsyncJobState := do
  let transitioned ← state.transition .failed now
  pure { transitioned with
    record := { transitioned.record with
      sanitizedError := some (sanitizeUpstreamError upstreamError) } }

/-- `recordPaidCall` of a job whose paid call is not recorded. -/
def addPaidCall (units : BillingUnits) (now : Int) : Except Fault InternalAsyncJobState := do
  let previous := state.record.billingProvenance
  let time ← toISOString now
  pure { state with
    record := { state.record with
      billingProvenance :=
        { providerId := previous.providerId
          inputUnits := previous.inputUnits + units.inputUnits
          outputUnits := previous.outputUnits + units.outputUnits
          billedAt := some (previous.billedAt.getD time) } }
    paidCallCompleted := true
    updatedAt := time }

/-- `recordArtifactWrite` of a job whose artifact write is not recorded. -/
def addArtifactWrite (result : Json) (now : Int) : Except Fault InternalAsyncJobState := do
  let updatedAt ← toISOString now
  pure { state with
    artifactWriteCompleted := true
    artifactResult := result
    updatedAt := updatedAt }

/-- `cancelCallerWait`. -/
def cancelCallerWait (now : Int) : Except Fault InternalAsyncJobState := do
  let transitioned ← state.transition .cancelledByCaller now
  pure { transitioned with callerCancelled := true }

/-- `cancelGroundlanePolling`. -/
def cancelGroundlanePolling (now : Int) : Except Fault InternalAsyncJobState := do
  let transitioned ← state.transition .cancelledByGroundlane now
  pure { transitioned with groundlanePollingCancelled := true }

/-- `requestUpstreamCancel`, once the provider has answered. -/
def cancelUpstream (acknowledgment : Option ProviderCancelAcknowledgment) (now : Int) :
    Except Fault InternalAsyncJobState :=
  match acknowledgment with
  | none => do
    let updatedAt ← toISOString now
    pure { state with upstreamCancelRequested := true, updatedAt := updatedAt }
  | some acknowledgment => do
    let transitioned ← state.transition .cancelledByUpstream now
    pure { transitioned with
      upstreamCancelRequested := true
      upstreamAcknowledgment := some acknowledgment }

/-- `attachProviderTask`. -/
def attachProviderTask (providerJobId : String) (now : Int) :
    Except Fault InternalAsyncJobState := do
  let updatedAt ← toISOString now
  pure { state with
    record := { state.record with providerJobId := providerJobId }
    updatedAt := updatedAt }

/-- `cancelTask`. -/
def cancelTask (upstreamAcknowledgment : Option ProviderCancelAcknowledgment) (now : Int) :
    Except Fault InternalAsyncJobState := do
  let target : AsyncJobStatus :=
    if upstreamAcknowledgment.isNone then .cancelledByCaller else .cancelledByUpstream
  let transitioned ← state.transition target now
  pure { transitioned with
    callerCancelled := true
    groundlanePollingCancelled := true
    upstreamCancelRequested := true
    upstreamAcknowledgment := upstreamAcknowledgment }

end InternalAsyncJobState

/-! ## The manager -/

/-- `resolve`: the state of the job, if the caller may see it. -/
def resolveAsyncJob (store : InMemoryJobStore InternalAsyncJobState) (jobId : String)
    (caller : AsyncJobCaller) (now : Int) : Except Fault InternalAsyncJobState :=
  match store.get jobId with
  | none => .error (invalidInput "async-lifecycle" ("Unknown async job \"" ++ jobId ++ "\""))
  | some state =>
    if state.record.ownerId ≠ caller.ownerId then
      .error (invalidInput "async-lifecycle" "Owner mismatch: caller does not own this async job")
    else if state.record.credentialBinding ≠ caller.credentialBinding then
      .error (invalidInput "async-lifecycle"
        "Credential binding mismatch: caller credential does not match this async job")
    else if isJobExpired state.record now then
      .error (.groundlane .deadlineExceeded "async-lifecycle"
        ("Async job \"" ++ jobId ++ "\" has expired"))
    else .ok state

/-- The answers of the operations. -/
inductive AsyncAnswer where
  | job (job : PublicAsyncJob)
  | cancelled (outcome : UpstreamCancelOutcome)
  | paid (outcome : PaidCallOutcome)
  | written (outcome : ArtifactWriteOutcome)
  | attached

/-- What an operation answers and stores, if it stores anything. -/
abbrev Performed := AsyncAnswer × Option InternalAsyncJobState

/-- An operation that stores a state and answers its public view. -/
def published (next : Except Fault InternalAsyncJobState) : Except Fault Performed :=
  next.map fun next => (.job (toPublicAsyncJob next), some next)

/-- What `requestUpstreamCancel` answers, which passes its last check. -/
def upstreamOutcome (next : InternalAsyncJobState)
    (acknowledgment : Option ProviderCancelAcknowledgment) : AsyncAnswer :=
  .cancelled ⟨toPublicAsyncJob next, next.callerCancelled, next.groundlanePollingCancelled,
    acknowledgment.isSome, acknowledgment⟩

/-- The checks of an operation before it resolves the job. -/
def checkOperation : AsyncOperation → Except Fault Unit
  | .recordPaidCall units =>
    if units.inputUnits < 0 then
      .error (invalidInput "async-lifecycle" "inputUnits must be a non-negative integer")
    else if units.outputUnits < 0 then
      .error (invalidInput "async-lifecycle" "outputUnits must be a non-negative integer")
    else .ok ()
  | .attachProviderTask providerJobId =>
    if utf16Length providerJobId = 0 ∨ 512 < utf16Length providerJobId then
      .error (invalidInput "async-lifecycle" "provider job ID is invalid")
    else .ok ()
  | _ => .ok ()

namespace AsyncJobManager

variable (manager : AsyncJobManager)

/-- An operation on the state of its job. -/
def perform (state : InternalAsyncJobState) (now : Int) : AsyncOperation → Except Fault Performed
  | .poll | .result => .ok (.job (toPublicAsyncJob state), none)
  | .markRunning => published (state.markRunning now)
  | .markInputRequired inputRequests => published (state.markInputRequired inputRequests now)
  | .markCompleted result billing => published (state.markCompleted result billing now)
  | .markFailed upstreamError => published (state.markFailed upstreamError now)
  | .recordPaidCall units =>
    if state.paidCallCompleted then .ok (.paid ⟨true⟩, none)
    else (state.addPaidCall units now).map fun next => (.paid ⟨false⟩, some next)
  | .recordArtifactWrite result =>
    if state.artifactWriteCompleted then .ok (.written ⟨true, state.artifactResult⟩, none)
    else (state.addArtifactWrite result now).map fun next => (.written ⟨false, result⟩, some next)
  | .cancelCallerWait => published (state.cancelCallerWait now)
  | .cancelGroundlanePolling => published (state.cancelGroundlanePolling now)
  | .requestUpstreamCancel answer =>
    -- `assertNonTerminal` comes before the provider is asked.
    if state.record.status.terminal then
      .error (invalidInput "async-lifecycle"
        ("Cannot transition from terminal status \"" ++ state.record.status.text ++ "\""))
    else match if manager.hasProvider then answer else .ok none with
      | .error fault => .error fault
      | .ok acknowledgment =>
        (state.cancelUpstream acknowledgment now).map fun next =>
          (upstreamOutcome next acknowledgment, some next)
  | .attachProviderTask providerJobId =>
    (state.attachProviderTask providerJobId now).map fun next => (.attached, some next)
  | .cancelTask upstreamAcknowledgment => published (state.cancelTask upstreamAcknowledgment now)

/-- One call: what it answers, and the store that it leaves. -/
def call (store : InMemoryJobStore InternalAsyncJobState) (call : AsyncCall) :
    Except Fault AsyncAnswer × InMemoryJobStore InternalAsyncJobState :=
  match checkOperation call.operation with
  | .error fault => (.error fault, store)
  | .ok () =>
    match resolveAsyncJob store call.jobId call.caller call.now with
    | .error fault => (.error fault, store)
    | .ok state =>
      match manager.perform state call.now call.operation with
      | .error fault => (.error fault, store)
      | .ok (answer, none) => (.ok answer, store)
      | .ok (answer, some next) => (.ok answer, store.set next)

end AsyncJobManager

/-- The store of a manager, and the calls that it has answered, the last one first. -/
structure AsyncJobs where
  store : InMemoryJobStore InternalAsyncJobState
  answered : List AsyncCall

namespace AsyncJobManager

variable (manager : AsyncJobManager)

/-- What a call leaves. -/
def step (jobs : AsyncJobs) (call : AsyncCall) : AsyncJobs :=
  match manager.call jobs.store call with
  | (.error _, store) => ⟨store, jobs.answered⟩
  | (.ok _, store) => ⟨store, call :: jobs.answered⟩

end AsyncJobManager

end Groundlane.Jobs
