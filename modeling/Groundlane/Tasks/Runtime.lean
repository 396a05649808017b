import Groundlane.Tasks.State

/-!
# The durable MCP task runtime

`DurableMcpTaskRuntime` of `core/durable-mcp-tasks.ts`: its public methods as programs over the
record store. The provider, the random task ids and the abort signal are ports. A `try` block
whose handler reads variables that the block assigns is split at the assignment.
-/

namespace Groundlane.McpTasks

open Fenced Interleaving DurableEffectJournal

/-- What the runtime asks of the provider and of its surroundings. -/
inductive Request where
  | randomUUID
  | parseInput (value : Json)
  | create (input : Json)
  | poll (providerTaskId : String) (input : Json)
  | update (providerTaskId : String) (inputResponses : JsonObject)
  | cancel (providerTaskId : String)
  | aborted

/-- The answers; a cancellation answers whether it was acknowledged. -/
abbrev Answer : Request → Type
  | .randomUUID => String
  | .parseInput _ => Except Fault Json
  | .create _ => Except Fault String
  | .poll .. => Except Fault AsyncTaskPollOutcome
  | .update .. => Except Fault Unit
  | .cancel _ => Except Fault Bool
  | .aborted => Bool

/-- The constructor arguments of a runtime that its methods read, and the digest function. -/
structure Runtime where
  sha256 : Sha256 String
  providerId : String
  hasUpdate : Bool
  hasCancel : Bool
  pollIntervalMs : Int
  bounded : 5000 ≤ pollIntervalMs ∧ pollIntervalMs ≤ 60000

/-- The public methods with their arguments; times are those of the clock the caller reads. -/
inductive Call where
  | start (input : Json) (caller : AsyncJobCaller) (ttlMs : Option Int)
    (idempotencyKey : Option String) (nowMs : Int)
  | get (taskId : String) (caller : AsyncJobCaller) (nowMs : Int)
  | update (taskId : String) (inputResponses : JsonObject) (caller : AsyncJobCaller) (nowMs : Int)
  | cancel (taskId : String) (caller : AsyncJobCaller) (nowMs : Int)
  | stopWaiting (taskId : String) (caller : AsyncJobCaller) (nowMs : Int)
  | describe (taskId : String) (caller : AsyncJobCaller) (nowMs : Int)
deriving DecidableEq

/-- `McpTaskOperationalDetails`; without units the billing is not reported. -/
structure McpTaskOperationalDetails where
  task : DetailedMcpTask
  providerId : String
  units : Option BillingUnits
  callerStoppedWaiting : Bool
  groundlanePollingCancelled : Bool
  upstreamCancelRequested : Bool
  upstreamCancelled : Bool
deriving DecidableEq

/-- What the methods return. -/
inductive Reply where
  | task (task : DetailedMcpTask)
  | nothing
  | details (details : McpTaskOperationalDetails)
deriving DecidableEq

/-- A program of the runtime. -/
abbrev TaskIo : Type → Type := Io Answer TaskValue String

/-! ## Shared steps -/

/-- The effect of creating the provider task of `taskId`. -/
def createIdentity (taskId : String) : EffectIdentity := ⟨taskId, .providerTaskCreate, "initial"⟩

/-- The effect of delivering the answers to the current window of a task. -/
def updateIdentity (sha256 : String → String) (taskId : String) (state : DurableTaskState) :
    EffectIdentity :=
  ⟨taskId, .providerTaskUpdate, operationKey sha256 state⟩

/-- The effect of cancelling the provider task of `taskId`. -/
def cancelIdentity (taskId : String) : EffectIdentity := ⟨taskId, .providerTaskCancel, "cancel"⟩

def read (taskId : String) (caller : AsyncJobCaller) (nowMs : Int) : TaskIo VersionedTask := do
  assertIdentity taskId "taskId"
  validateTime nowMs
  let record ← get (taskKey taskId)
  match record with
  | none => Program.raise (taskError "Unknown or unavailable task")
  | some record => do
    let current ← decode record
    assertCaller current.state caller
    if current.state.expiresAt ≤ nowMs then
      Program.raise (taskError "Unknown or unavailable task")
    else pure current

/-- Swap the record of `taskId` for `next` at the revision that was read. -/
def save (taskId : String) (revision : Nat) (next : DurableTaskState) (nowMs : Int) :
    TaskIo (CasResult String TaskValue) := do
  let value ← encode next
  compareAndSwap (taskKey taskId) revision value nowMs (some next.expiresAt)

def failUncertain (current : VersionedTask) (caller : AsyncJobCaller) (nowMs : Int)
    (hasCause : Bool) : TaskIo DetailedMcpTask := do
  let saved ← save current.state.taskId current.revision (current.state.failedUncertain nowMs) nowMs
  match saved with
  | .updated record => do
    let failed ← decode record
    pure (toDetailed failed.state)
  | .missing =>
    if hasCause then
      Program.raise (taskError "Provider task creation outcome is uncertain")
    else do
      let latest ← read current.state.taskId caller nowMs
      pure (toDetailed latest.state)
  | .conflict _ => do
    let latest ← read current.state.taskId caller nowMs
    pure (toDetailed latest.state)

def persistPollOutcome (current : VersionedTask) (outcome : AsyncTaskPollOutcome)
    (caller : AsyncJobCaller) (nowMs : Int) : TaskIo DetailedMcpTask := do
  let result ← save current.state.taskId current.revision (current.state.polled nowMs outcome) nowMs
  match result with
  | .updated record => do
    let persisted ← decode record
    pure (toDetailed persisted.state)
  | _ => do
    let latest ← read current.state.taskId caller nowMs
    pure (toDetailed latest.state)

/-! ## `start` -/

section Start

def checkStart (caller : AsyncJobCaller) (ttlMs : Int) (idempotencyKey : Option String)
    (nowMs : Int) : Except Fault Unit := do
  assertIdentity caller.ownerId "ownerId"
  assertIdentity caller.credentialBinding "credentialBinding"
  if ttlMs < 60000 ∨ 86400000 < ttlMs then
    throw (taskError "ttlMs must be 60000..86400000")
  if let some key := idempotencyKey then assertIdentity key "idempotencyKey"
  validateTime nowMs

/-- The task id of a start: the one that its idempotency key is bound to, if it has a key. -/
def reserveTaskId (sha256 : String → String) (input : Json) (caller : AsyncJobCaller)
    (idempotencyKey : Option String) (freshTaskId : String) (nowMs ttlMs : Int) :
    TaskIo String :=
  match idempotencyKey with
  | none => pure freshTaskId
  | some key => do
    let fingerprint := inputFingerprint sha256 input
    let index ← createIfAbsent
      (idempotencyRecordKey sha256 caller.ownerId caller.credentialBinding key)
      (TaskValue.index freshTaskId fingerprint) nowMs (some (nowMs + ttlMs))
    let indexed ← decodeIndex index.record
    if indexed.2 ≠ fingerprint then
      Program.raise (taskError "Idempotency key is already bound to a different task request")
    else pure indexed.1

/-- The record that `start` creates. -/
def initialState (runtime : Runtime) (taskId : String) (input : Json) (caller : AsyncJobCaller)
    (idempotencyKey : Option String) (nowMs ttlMs : Int) : DurableTaskState where
  taskId := taskId
  ownerId := caller.ownerId
  credentialBinding := caller.credentialBinding
  providerId := runtime.providerId
  providerTaskId := none
  operationInput := input
  idempotencyKey := idempotencyKey
  status := .creating
  result := none
  inputRequests := .empty
  usedInputKeys := []
  sanitizedError := none
  createdAt := nowMs
  updatedAt := nowMs
  expiresAt := nowMs + ttlMs
  ttlMs := ttlMs
  pollIntervalMs := runtime.pollIntervalMs
  nextPollAt := nowMs
  billing := none
  callerCancelled := false
  groundlanePollingCancelled := false
  upstreamCancelRequested := false
  upstreamCancelled := false

def markEffectUncertain (taskId : String) (revision : Nat) (nowMs : Int) :
    TaskIo (Except Fault (DurableEffect × Nat)) :=
  (transition (createIdentity taskId) revision .uncertain nowMs none).attempt

/-- The handler of `start` for everything that goes wrong once the effect is in flight. -/
def recoverStart (taskId : String) (current : VersionedTask) (inflightRevision : Nat)
    (caller : AsyncJobCaller) (nowMs : Int) : TaskIo DetailedMcpTask := do
  let _ ← markEffectUncertain taskId inflightRevision nowMs
  failUncertain current caller nowMs true

/-- The first part of the `try` block of `start`: create the provider task and save its id. -/
def persistProviderTask (taskId : String) (input : Json) (current : VersionedTask)
    (nowMs : Int) : TaskIo VersionedTask := do
  let answer ← ask (Request.create input)
  let providerTaskId ← answer
  let saved ← save taskId current.revision
    (current.state.withProviderTask nowMs providerTaskId) nowMs
  match saved with
  | .updated record => decode record
  | _ => Program.raise (taskError "Provider task creation outcome is uncertain")

/-- `start` behind the creation of the task record. -/
def createProviderTask (taskId : String) (input : Json) (current : VersionedTask)
    (caller : AsyncJobCaller) (nowMs : Int) : TaskIo DetailedMcpTask := do
  let claimed ← claim (createIdentity taskId) nowMs
  match claimed with
  | .existing _ _ => failUncertain current caller nowMs false
  | .claimed _ revision => do
    let inflight ← transition (createIdentity taskId) revision .inflight nowMs none
    let persisted ← (persistProviderTask taskId input current nowMs).attempt
    match persisted with
    | .error _ => recoverStart taskId current inflight.2 caller nowMs
    | .ok working => do
      let recorded ← (transition (createIdentity taskId) inflight.2 .succeeded nowMs
        (some "provider-handle-persisted")).attempt
      match recorded with
      | .error _ => recoverStart taskId working inflight.2 caller nowMs
      | .ok _ => pure (toDetailed working.state)

def start (runtime : Runtime) (input : Json) (caller : AsyncJobCaller) (ttlMs : Option Int)
    (idempotencyKey : Option String) (nowMs : Int) : TaskIo DetailedMcpTask := do
  let ttlMs := ttlMs.getD 3600000
  checkStart caller ttlMs idempotencyKey nowMs
  let uuid ← ask Request.randomUUID
  let taskId ← reserveTaskId runtime.sha256.text input caller idempotencyKey ("ajob-" ++ uuid)
    nowMs ttlMs
  let initial := initialState runtime taskId input caller idempotencyKey nowMs ttlMs
  let value ← encode initial
  let created ← createIfAbsent (taskKey taskId) value nowMs (some initial.expiresAt)
  let current ← decode created.record
  assertCaller current.state caller
  if current.state.idempotencyKey ≠ initial.idempotencyKey ∨
      current.state.operationInput.stringify ≠ input.stringify then
    Program.raise (taskError "Idempotency key is already bound to a different task request")
  else
    match created with
    | .existing _ =>
      if current.state.status = .creating then failUncertain current caller nowMs false
      else pure (toDetailed current.state)
    | .created _ => createProviderTask taskId input current caller nowMs

end Start

/-! ## `get` -/

/-- The network part of `get`, under the lease. -/
def pollProvider (lease : VersionedTask) (caller : AsyncJobCaller) (nowMs : Int) :
    TaskIo DetailedMcpTask := do
  let polled ← (do
    let parsed ← ask (Request.parseInput lease.state.operationInput)
    let input ← parsed
    let answer ← ask (Request.poll (lease.state.providerTaskId.getD "") input)
    Program.ofExcept answer : TaskIo AsyncTaskPollOutcome).attempt
  match polled with
  | .ok outcome => persistPollOutcome lease outcome caller nowMs
  | .error error => do
    let aborted ← ask Request.aborted
    let failure : AsyncTaskPollOutcome :=
      ⟨.failed, none, none, some (sanitizeUpstreamError error), none⟩
    if aborted then Program.raise error
    else persistPollOutcome lease failure caller nowMs

def getTask (taskId : String) (caller : AsyncJobCaller) (nowMs : Int) :
    TaskIo DetailedMcpTask := do
  let current ← read taskId caller nowMs
  if current.state.status.terminal ∨ current.state.status = .inputRequired ∨
      nowMs < current.state.nextPollAt then
    pure (toDetailed current.state)
  else if current.state.status = .creating ∨ current.state.providerTaskId = none then
    failUncertain current caller nowMs false
  else do
    -- The lease precedes the network: a concurrent reader does not poll again.
    let lease ← save taskId current.revision (current.state.leased nowMs) nowMs
    match lease with
    | .updated record => do
      let versionedLease ← decode record
      pollProvider versionedLease caller nowMs
    | _ => do
      let latest ← read taskId caller nowMs
      pure (toDetailed latest.state)

/-! ## `update` -/

/-- Deliver the accepted responses to the provider, at most once for a window. -/
def deliver (identity : EffectIdentity) (receipt providerTaskId : String)
    (accepted : JsonObject) (nowMs : Int) : TaskIo Unit := do
  let claimed ← claim identity nowMs
  match claimed with
  | .existing effect _ =>
    if effect.status ≠ .succeeded ∨ effect.receipt ≠ some receipt then
      Program.raise uncertainUpdateError
    else pure ()
  | .claimed _ revision => do
    let inflight ← transition identity revision .inflight nowMs none
    let answer ← ask (Request.update providerTaskId accepted)
    match answer with
    | .error _ => do
      let _ ← (transition identity inflight.2 .uncertain nowMs none).attempt
      Program.raise uncertainUpdateError
    | .ok _ => do
      let recorded ← (transition identity inflight.2 .succeeded nowMs (some receipt)).attempt
      match recorded with
      | .error _ => Program.raise uncertainUpdateError
      | .ok _ => pure ()

/-- The compare-and-swap loop of `update`. -/
def saveAnswers (sha256 : String → String) (taskId : String) (caller : AsyncJobCaller)
    (acceptedKeys : List String) (window : String) (nowMs : Int) :
    Nat → VersionedTask → TaskIo Unit
  | 0, _ => Program.raise (taskError "Task update conflicted; retry with fresh state")
  | attempts + 1, current => do
    let saved ← save taskId current.revision (current.state.answered nowMs acceptedKeys) nowMs
    match saved with
    | .updated _ => pure ()
    | .missing => Program.raise (taskError "Unknown or unavailable task")
    | .conflict record => do
      let current ← decode record
      assertCaller current.state caller
      if acceptedKeys.all current.state.usedInputKeys.contains then pure ()
      else if current.state.status ≠ .inputRequired ∨
          operationKey sha256 current.state ≠ window then
        Program.raise (taskError "Task update conflicted; retry with fresh state")
      else saveAnswers sha256 taskId caller acceptedKeys window nowMs attempts current

def update (runtime : Runtime) (taskId : String) (inputResponses : JsonObject)
    (caller : AsyncJobCaller) (nowMs : Int) : TaskIo Unit := do
  let sha256 := runtime.sha256.text
  let current ← read taskId caller nowMs
  if current.state.status ≠ .inputRequired then
    Program.raise (taskError "Task is not waiting for input")
  else
    let accepted := current.state.accepted inputResponses
    if accepted.keys.isEmpty then pure ()
    else
      match runtime.hasUpdate, current.state.providerTaskId with
      | true, some providerTaskId => do
        deliver (updateIdentity sha256 taskId current.state) (responseReceipt sha256 accepted)
          providerTaskId accepted nowMs
        saveAnswers sha256 taskId caller accepted.keys (operationKey sha256 current.state) nowMs 4
          current
      | _, _ => Program.raise (taskError "Provider task does not accept updates")

/-! ## `cancel` -/

def markUpstreamCancelled (taskId : String) (caller : AsyncJobCaller) (nowMs : Int) :
    Nat → TaskIo Unit
  | 0 => Program.raise (taskErrorOf .upstreamError "Task cancellation acknowledgment conflicted")
  | attempts + 1 => do
    let current ← read taskId caller nowMs
    if current.state.upstreamCancelled then pure ()
    else do
      let saved ← save taskId current.revision (current.state.acknowledged nowMs) nowMs
      match saved with
      | .updated _ => pure ()
      | .missing => Program.raise (taskError "Unknown or unavailable task")
      | .conflict _ => markUpstreamCancelled taskId caller nowMs attempts

/-- The part of `cancel` that asks the provider, once the cancel effect is claimed. -/
def sendCancel (taskId providerTaskId : String) (caller : AsyncJobCaller) (nowMs : Int)
    (claimedRevision : Nat) : TaskIo Unit := do
  let inflight ← (transition (cancelIdentity taskId) claimedRevision .inflight nowMs none).attempt
  match inflight with
  | .error _ => pure ()
  | .ok inflight => do
    let acknowledged ← ask (Request.cancel providerTaskId)
    match acknowledged with
    | .ok true => do
      let recorded ← (transition (cancelIdentity taskId) inflight.2 .succeeded nowMs
        (some "provider-cancel-acknowledged")).attempt
      match recorded with
      | .error _ => pure ()
      | .ok _ => markUpstreamCancelled taskId caller nowMs 4
    | _ => do
      let _ ← (transition (cancelIdentity taskId) inflight.2 .uncertain nowMs none).attempt
      pure ()

/-- The part of `cancel` behind the public cancellation. -/
def cancelUpstream (runtime : Runtime) (taskId : String) (current : VersionedTask)
    (caller : AsyncJobCaller) (nowMs : Int) : TaskIo Unit :=
  if current.state.upstreamCancelled ∨ runtime.hasCancel = false then pure ()
  else
    match current.state.providerTaskId with
    | none => pure ()
    | some providerTaskId => do
      let claimed ← claim (cancelIdentity taskId) nowMs
      match claimed with
      | .claimed _ revision => sendCancel taskId providerTaskId caller nowMs revision
      | .existing effect revision =>
        match effect.status with
        | .succeeded => markUpstreamCancelled taskId caller nowMs 4
        | .uncertain => do
          let retried ← retry (cancelIdentity taskId) revision nowMs
          match retried with
          | .blocked _ _ => pure ()
          | .claimed _ revision => sendCancel taskId providerTaskId caller nowMs revision
        | .claimed | .inflight => pure ()

/-- The one compare-and-swap of `cancel`; `none` if the stored record is not cancelled after
it. -/
def cancelRecord (taskId : String) (current : VersionedTask) (caller : AsyncJobCaller)
    (nowMs : Int) : TaskIo (Option VersionedTask) := do
  let saved ← save taskId current.revision (current.state.cancelled nowMs) nowMs
  match saved with
  | .missing => Program.raise (taskError "Unknown or unavailable task")
  | .updated record | .conflict record => do
    let latest ← decode record
    assertCaller latest.state caller
    pure (if latest.state.status ≠ .cancelled then none else some latest)

def cancel (runtime : Runtime) (taskId : String) (caller : AsyncJobCaller) (nowMs : Int) :
    TaskIo Unit := do
  let current ← read taskId caller nowMs
  if current.state.status = .cancelled then
    cancelUpstream runtime taskId current caller nowMs
  else if current.state.status.terminal then
    Program.raise (taskError "Task is already terminal")
  else do
    let cancelled ← cancelRecord taskId current caller nowMs
    match cancelled with
    | none => pure ()
    | some current => cancelUpstream runtime taskId current caller nowMs

/-! ## The other methods -/

def stopWaiting (taskId : String) (caller : AsyncJobCaller) (nowMs : Int) : TaskIo Unit := do
  let current ← read taskId caller nowMs
  if current.state.callerCancelled then pure ()
  else do
    let _ ← save taskId current.revision (current.state.stoppedWaiting nowMs) nowMs
    pure ()

def describe (taskId : String) (caller : AsyncJobCaller) (nowMs : Int) :
    TaskIo McpTaskOperationalDetails := do
  let task ← getTask taskId caller nowMs
  let latest ← read taskId caller nowMs
  let state := latest.state
  pure ⟨task, state.providerId, state.billing, state.callerCancelled,
    state.groundlanePollingCancelled, state.upstreamCancelRequested, state.upstreamCancelled⟩

/-- The program of each call. -/
def Runtime.main (runtime : Runtime) : Call → TaskIo Reply
  | .start input caller ttlMs idempotencyKey nowMs =>
    (start runtime input caller ttlMs idempotencyKey nowMs).bind fun task => pure (.task task)
  | .get taskId caller nowMs => (getTask taskId caller nowMs).bind fun task => pure (.task task)
  | .update taskId inputResponses caller nowMs =>
    (update runtime taskId inputResponses caller nowMs).bind fun _ => pure .nothing
  | .cancel taskId caller nowMs => (cancel runtime taskId caller nowMs).bind fun _ => pure .nothing
  | .stopWaiting taskId caller nowMs =>
    (stopWaiting taskId caller nowMs).bind fun _ => pure .nothing
  | .describe taskId caller nowMs =>
    (describe taskId caller nowMs).bind fun details => pure (.details details)

/-- All calls of one runtime over one record store. -/
def Runtime.system (runtime : Runtime) :
    System Call (Op TaskValue String Request) (Op.Res Answer) Fault Reply
      (Disk TaskValue String) (Oracle Answer) :=
  Groundlane.system runtime.sha256 runtime.main

end Groundlane.McpTasks
