import Groundlane.Durable.Effects
import Groundlane.Text.Sanitize

/-!
# Durable MCP task records

The record of a task, its keys and its codec in `core/durable-mcp-tasks.ts`, and what a poll
outcome and the answers to input requests make of a record. The store holds three kinds of
values under three families of keys: task records, the idempotency index and effect records.
-/

namespace Groundlane.McpTasks

open Fenced Interleaving

inductive DurableTaskStatus where
  | creating
  | working
  | inputRequired
  | completed
  | failed
  | cancelled
deriving DecidableEq, Repr

/-- The statuses in `TERMINAL`. -/
def DurableTaskStatus.terminal : DurableTaskStatus → Bool
  | completed | failed | cancelled => true
  | creating | working | inputRequired => false

def DurableTaskStatus.text : DurableTaskStatus → String
  | creating => "creating"
  | working => "working"
  | inputRequired => "input_required"
  | completed => "completed"
  | failed => "failed"
  | cancelled => "cancelled"

structure BillingUnits where
  inputUnits : Numeral
  outputUnits : Numeral
deriving DecidableEq

structure AsyncJobCaller where
  ownerId : String
  credentialBinding : String
deriving DecidableEq, Repr

structure DurableTaskState where
  taskId : String
  ownerId : String
  credentialBinding : String
  providerId : String
  providerTaskId : Option String
  operationInput : Json
  idempotencyKey : Option String
  status : DurableTaskStatus
  result : Option JsonObject
  inputRequests : JsonObject
  usedInputKeys : List String
  sanitizedError : Option String
  createdAt : Int
  updatedAt : Int
  expiresAt : Int
  ttlMs : Int
  pollIntervalMs : Int
  nextPollAt : Int
  billing : Option BillingUnits
  callerCancelled : Bool
  groundlanePollingCancelled : Bool
  upstreamCancelRequested : Bool
  upstreamCancelled : Bool
deriving DecidableEq

/-- The values of the record store that belong to the task runtime. -/
inductive TaskValue where
  | task (state : DurableTaskState)
  | index (taskId fingerprint : String)
  | effect (effect : DurableEffect)
deriving DecidableEq

structure VersionedTask where
  state : DurableTaskState
  revision : Nat

/-- `AsyncTaskPollOutcome`: what the provider says about a task. -/
inductive PollStatus where
  | working
  | inputRequired
  | completed
  | failed
deriving DecidableEq, Repr

structure AsyncTaskPollOutcome where
  status : PollStatus
  result : Option JsonObject
  inputRequests : Option JsonObject
  error : Option String
  billing : Option BillingUnits
deriving DecidableEq

/-- The status of a detailed task together with what it shows. -/
inductive DetailedStatus where
  | working
  | inputRequired (inputRequests : JsonObject)
  | completed (result : JsonObject)
  | failed (code : Int) (message : String)
  | cancelled
deriving DecidableEq

/-- `DetailedMcpTask`, with its times in milliseconds. -/
structure DetailedMcpTask where
  taskId : String
  createdAt : Int
  lastUpdatedAt : Int
  ttlMs : Int
  pollIntervalMs : Int
  detail : DetailedStatus
deriving DecidableEq

/-! ## Text -/

def BillingUnits.toJson (billing : BillingUnits) : Json :=
  .obj [("inputUnits", .num billing.inputUnits), ("outputUnits", .num billing.outputUnits)]

def DurableTaskState.toJson (state : DurableTaskState) : Json :=
  .obj [("schemaVersion", .str "1"), ("taskId", .str state.taskId),
    ("ownerId", .str state.ownerId), ("credentialBinding", .str state.credentialBinding),
    ("providerId", .str state.providerId),
    ("providerTaskId", Json.ofOption .str state.providerTaskId),
    ("operationInput", state.operationInput),
    ("idempotencyKey", Json.ofOption .str state.idempotencyKey),
    ("status", .str state.status.text),
    ("result", Json.ofOption JsonObject.toJson state.result),
    ("inputRequests", state.inputRequests.toJson),
    ("usedInputKeys", .arr (state.usedInputKeys.map .str)),
    ("sanitizedError", Json.ofOption .str state.sanitizedError),
    ("createdAt", Json.ofInt state.createdAt), ("updatedAt", Json.ofInt state.updatedAt),
    ("expiresAt", Json.ofInt state.expiresAt), ("ttlMs", Json.ofInt state.ttlMs),
    ("pollIntervalMs", Json.ofInt state.pollIntervalMs),
    ("nextPollAt", Json.ofInt state.nextPollAt),
    ("billing", Json.ofOption BillingUnits.toJson state.billing),
    ("callerCancelled", .bool state.callerCancelled),
    ("groundlanePollingCancelled", .bool state.groundlanePollingCancelled),
    ("upstreamCancelRequested", .bool state.upstreamCancelRequested),
    ("upstreamCancelled", .bool state.upstreamCancelled)]

instance : Stored TaskValue where
  text
    | .task state => state.toJson.render
    | .index taskId fingerprint =>
      (Json.obj [("taskId", .str taskId), ("fingerprint", .str fingerprint)]).render
    | .effect effect => effect.toJson.render

instance : Journaled TaskValue where
  ofEffect := .effect
  toEffect?
    | .effect effect => some effect
    | .task _ | .index .. => none
  toEffect?_ofEffect _ := rfl

/-! ## Keys -/

def taskKey (taskId : String) : String := "mcp-task:" ++ taskId

def idempotencyRecordKey (sha256 : String → String)
    (ownerId credentialBinding idempotencyKey : String) : String :=
  "mcp-task-idempotency:" ++ sha256 (ownerId ++ nul ++ credentialBinding ++ nul ++ idempotencyKey)

def inputFingerprint (sha256 : String → String) (input : Json) : String :=
  sha256 input.stringify

/-- The window of a record: what has been asked and what has been answered. -/
def DurableTaskState.windowJson (state : DurableTaskState) : Json :=
  .obj [("inputRequests", state.inputRequests.toJson),
    ("usedInputKeys", .arr (state.usedInputKeys.map .str))]

/-- The key under which the answers to the window of a record are delivered. -/
def operationKey (sha256 : String → String) (state : DurableTaskState) : String :=
  "input-" ++ inputFingerprint sha256 state.windowJson

/-- The receipt of a delivery. -/
def responseReceipt (sha256 : String → String) (accepted : JsonObject) : String :=
  "response-" ++ inputFingerprint sha256 accepted.toJson

/-! ## Checks and codec -/

def taskErrorOf (code : ErrorCode) (message : String) : Fault :=
  .groundlane code "mcp-tasks" message

def taskError (message : String) : Fault := taskErrorOf .invalidInput message

def uncertainUpdateError : Fault :=
  taskErrorOf .upstreamError "Provider task update outcome is uncertain"

def assertIdentity (value field : String) : Except Fault Unit :=
  if utf16Length value = 0 ∨ 256 < utf16Length value then
    .error (taskError (field ++ " must be non-empty within 256 characters"))
  else .ok ()

def validateTime (nowMs : Int) : Except Fault Unit :=
  if ¬ isSafeInteger nowMs ∨ nowMs < 0 then .error (taskError "Task timestamp is invalid")
  else .ok ()

def encode (state : DurableTaskState) : Except Fault TaskValue :=
  if 48 * 1024 < utf8Length state.toJson.render then
    .error (taskError "Durable task metadata exceeds 48 KiB; store large output as an ArtifactRef")
  else .ok (.task state)

def decode (record : Record String TaskValue) : Except Fault VersionedTask :=
  match record.value with
  | .task state => do
    if state.billing.any fun billing =>
        ¬ (billing.inputUnits.isInteger ∧ billing.outputUnits.isInteger) then
      throw (taskError "Durable task record is malformed")
    assertIdentity state.taskId "taskId"
    assertIdentity state.ownerId "ownerId"
    assertIdentity state.credentialBinding "credentialBinding"
    pure ⟨state, record.revision⟩
  | .index .. | .effect _ => throw (taskError "Durable task record is malformed")

def decodeIndex (record : Record String TaskValue) : Except Fault (String × String) :=
  match record.value with
  | .index taskId fingerprint => .ok (taskId, fingerprint)
  | .task _ | .effect _ => .error (taskError "Durable task idempotency record is malformed")

def assertCaller (state : DurableTaskState) (caller : AsyncJobCaller) : Except Fault Unit :=
  if state.ownerId ≠ caller.ownerId ∨ state.credentialBinding ≠ caller.credentialBinding then
    .error (taskError "Unknown or unavailable task")
  else .ok ()

def toDetailed (state : DurableTaskState) : DetailedMcpTask where
  taskId := state.taskId
  createdAt := state.createdAt
  lastUpdatedAt := state.updatedAt
  ttlMs := state.ttlMs
  pollIntervalMs := state.pollIntervalMs
  detail :=
    match state.status with
    | .completed => .completed (state.result.getD .empty)
    | .failed => .failed (-32603) (state.sanitizedError.getD "Task execution failed")
    | .cancelled => .cancelled
    | .inputRequired => .inputRequired state.inputRequests
    | .creating | .working => .working

/-! ## The next state of each writer -/

namespace DurableTaskState

variable (state : DurableTaskState) (nowMs : Int)

/-- `start`, once the provider has created its task. -/
def withProviderTask (providerTaskId : String) : DurableTaskState :=
  { state with
    providerTaskId := some providerTaskId, status := .working, updatedAt := nowMs,
    nextPollAt := nowMs }

/-- `failUncertain`. -/
def failedUncertain : DurableTaskState :=
  { state with
    status := .failed, sanitizedError := some "Provider task creation outcome is uncertain",
    updatedAt := nowMs }

/-- `get`, before it polls. -/
def leased : DurableTaskState :=
  { state with updatedAt := nowMs, nextPollAt := nowMs + state.pollIntervalMs }

/-- `persistPollOutcome`. -/
def polled (outcome : AsyncTaskPollOutcome) : DurableTaskState :=
  match outcome.status with
  | .completed =>
    { state with
      status := .completed, result := some (outcome.result.getD .empty),
      billing := outcome.billing, updatedAt := nowMs }
  | .failed =>
    { state with
      status := .failed,
      sanitizedError := some (sanitizeUpstreamError
        (.text (outcome.error.getD "The provider task failed"))),
      updatedAt := nowMs }
  | .inputRequired =>
    { state with
      status := .inputRequired,
      inputRequests := (outcome.inputRequests.getD .empty).filterKeys
        fun key => !state.usedInputKeys.contains key,
      updatedAt := nowMs }
  | .working => { state with status := .working, updatedAt := nowMs }

/-- The responses that `update` accepts. -/
def accepted (inputResponses : JsonObject) : JsonObject :=
  inputResponses.filterKeys fun key =>
    state.inputRequests.hasOwn key && !state.usedInputKeys.contains key

/-- `update`, once the responses have been delivered. -/
def answered (acceptedKeys : List String) : DurableTaskState :=
  let remaining := state.inputRequests.filterKeys fun key => !acceptedKeys.contains key
  { state with
    status := if remaining.keys.isEmpty then .working else .inputRequired,
    inputRequests := remaining, usedInputKeys := state.usedInputKeys ++ acceptedKeys,
    updatedAt := nowMs, nextPollAt := nowMs }

/-- `cancel`. -/
def cancelled : DurableTaskState :=
  { state with
    status := .cancelled, groundlanePollingCancelled := true, upstreamCancelRequested := true,
    updatedAt := nowMs }

/-- `markUpstreamCancelled`. -/
def acknowledged : DurableTaskState :=
  { state with upstreamCancelled := true, updatedAt := nowMs }

/-- `stopWaiting`. -/
def stoppedWaiting : DurableTaskState :=
  { state with callerCancelled := true, updatedAt := nowMs }

end DurableTaskState

end Groundlane.McpTasks
