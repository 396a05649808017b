import Groundlane.Durable.Rules
import Groundlane.Interleaving.Crew
import Mathlib.Algebra.Group.Int.Defs

/-!
# The dispatcher of document jobs

`DocumentAsyncDispatcher` of `core/document-async-dispatcher.ts`: a durable schedule of jobs. An
entry is scheduled, leased by a drain that works on the job, or idle; its expiry is the time at
which a drain may take it next. The runtime that does the work, the clock and the abort signals
are ports. Each worker of a drain takes the next record of the page when it has finished one.
-/

namespace Groundlane.Dispatch

open Fenced Interleaving

inductive Phase where
  | scheduled
  | leased
  | idle
deriving DecidableEq, Repr

def Phase.text : Phase → String
  | scheduled => "scheduled"
  | leased => "leased"
  | idle => "idle"

structure DurableDocumentJobCaller where
  ownerId : String
  credentialBinding : String
deriving DecidableEq, Repr

structure Entry where
  jobId : String
  caller : DurableDocumentJobCaller
  phase : Phase
  token : String
  failures : Nat
deriving DecidableEq, Repr

/-- The values of the record store: entries, and where the last drain has stopped. -/
inductive DispatchValue where
  | entry (entry : Entry)
  | cursor (next : Option String)
deriving DecidableEq, Repr

def Entry.toJson (entry : Entry) : Json :=
  .obj [("schemaVersion", .str "1"), ("jobId", .str entry.jobId),
    ("caller", .obj [("ownerId", .str entry.caller.ownerId),
      ("credentialBinding", .str entry.caller.credentialBinding)]),
    ("phase", .str entry.phase.text), ("token", .str entry.token),
    ("failures", Json.ofInt entry.failures)]

instance : Stored DispatchValue where
  text
    | .entry entry => entry.toJson.render
    | .cursor next => (Json.ofOption .str next).render

/-- What `status` tells of a job. -/
structure DispatchStatus where
  status : String
  expiresAt : Int
  resultCleanupPending : Bool
  upstreamRequested : Option Bool
  upstreamAcknowledged : Option Bool
deriving DecidableEq, Repr

/-- What the dispatcher asks of its surroundings; `aborted` asks for the reason of an aborted
signal. -/
inductive Request where
  | clock
  | randomUUID
  | aborted
  | advance (jobId : String) (caller : DurableDocumentJobCaller)
  | status (jobId : String) (caller : DurableDocumentJobCaller)
deriving DecidableEq, Repr

abbrev Answer : Request → Type
  | .clock => Int
  | .randomUUID => String
  | .aborted => Option Fault
  | .advance .. => Except Fault Unit
  | .status .. => Except Fault DispatchStatus

structure EnqueueOptions where
  nextAttemptAt : Option Int
  hasSignal : Bool
deriving DecidableEq, Repr

structure DrainOptions where
  nowMs : Option Int
  limit : Option Int
  concurrency : Option Int
  hasSignal : Bool
deriving DecidableEq, Repr

structure DocumentDispatchDrainResult where
  scanned : Nat
  claimed : Nat
  advanced : Nat
  rescheduled : Nat
  idle : Nat
  failed : Nat
  leaseLost : Nat
  malformed : Nat
  nextCursor : Option String
deriving DecidableEq, Repr

def DocumentDispatchDrainResult.none : DocumentDispatchDrainResult :=
  ⟨0, 0, 0, 0, 0, 0, 0, 0, .none⟩

/-- The methods with their arguments. -/
inductive Call where
  | enqueue (jobId : String) (caller : DurableDocumentJobCaller) (options : EnqueueOptions)
  | drain (options : DrainOptions)
deriving DecidableEq, Repr

/-- What the methods return. -/
inductive Reply where
  | nothing
  | drained (result : DocumentDispatchDrainResult)
deriving DecidableEq, Repr

/-- A program of the dispatcher, which stores no blobs. -/
abbrev DispatchIo : Type → Type := Io Answer DispatchValue String

/-! ## Checks and codec -/

def maxSafeInteger : Int := 9007199254740991

def invalid (message : String) : Fault := .groundlane .invalidInput "document-dispatch" message

def integer (value min max : Int) : Except Fault Int :=
  if ¬ isSafeInteger value ∨ value < min ∨ max < value then
    .error (invalid "Invalid document dispatcher bound")
  else .ok value

/-- The schema `id`. -/
def isId (value : String) : Bool :=
  utf16Length value != 0 && decide (utf16Length value ≤ 256)

/-- `entrySchema`; what it throws is not a `GroundlaneError`. -/
def Entry.parse (entry : Entry) : Except Fault Entry :=
  if isId entry.jobId && isId entry.caller.ownerId && isId entry.caller.credentialBinding &&
      decide (entry.failures ≤ 30) then .ok entry
  else .error .other

def decode (record : Record String DispatchValue) : Except Fault Entry :=
  match record.value with
  | .entry entry => entry.parse
  | .cursor _ => .error .other

def cursorKey : String := "dispatch-cursor"

/-- The cursor of a record; a malformed one counts as none. -/
def readCursor (record : Option (Record String DispatchValue)) : Option String :=
  match record with
  | some ⟨_, .cursor (some next), _, _, _, _⟩ =>
    if 0 < utf16Length next ∧ utf16Length next ≤ 240 ∧ next.toList.all isDurableKeyChar then
      some next
    else none
  | _ => none

/-- `terminal`. -/
def isTerminal (status : String) : Bool :=
  ["completed", "failed", "cancelled", "expired", "deleted"].contains status

/-- The constructor arguments of a dispatcher, with its checked options, and the digest
function. -/
structure DocumentAsyncDispatcher where
  sha256 : Sha256 String
  attemptTimeoutMs : Int
  leaseMs : Int
  pollIntervalMs : Int
  maxBackoffMs : Int
  attemptTimeoutMs_bound : 1 ≤ attemptTimeoutMs ∧ attemptTimeoutMs ≤ 120000
  leaseMs_bound : attemptTimeoutMs + 1 ≤ leaseMs ∧ leaseMs ≤ 300000
  pollIntervalMs_bound : 1 ≤ pollIntervalMs ∧ pollIntervalMs ≤ 3600000
  maxBackoffMs_bound : pollIntervalMs ≤ maxBackoffMs ∧ maxBackoffMs ≤ 3600000

variable (dispatcher : DocumentAsyncDispatcher)

/-- `entryKey` of a text that passes the schema. -/
def entryKey (jobId : String) : String := "dispatch:" ++ dispatcher.sha256.text jobId

/-- The reason of a signal that may be missing, if it is aborted. -/
def abortReason (hasSignal : Bool) : DispatchIo (Option Fault) :=
  if hasSignal then ask Request.aborted else pure none

/-- `throwIfAborted` of a signal that may be missing. -/
def throwIfAborted (hasSignal : Bool) : DispatchIo Unit := do
  let reason ← abortReason hasSignal
  match reason with
  | some reason => Program.raise reason
  | none => pure ()

/-! ## `enqueue` -/

/-- The entry that an enqueue writes. -/
def scheduledEntry (jobId : String) (caller : DurableDocumentJobCaller) : Entry where
  jobId := jobId
  caller := caller
  phase := .scheduled
  token := ""
  failures := 0

/-- Whether an enqueue leaves the entry of the record as it is. -/
def leavesAlone (existing : Entry) (expiresAt : Option Int) (nextAttemptAt : Int) : Bool :=
  existing.phase == .leased ||
    (existing.phase == .scheduled && expiresAt.any fun expiresAt => expiresAt ≤ nextAttemptAt)

/-- The loop of `enqueue`. -/
def reschedule (entry : Entry) (hasSignal : Bool) (now nextAttemptAt : Int) :
    Nat → Record String DispatchValue → DispatchIo Unit
  | 0, _ => Program.raise (.groundlane .upstreamError "document-dispatch"
    "Document dispatch scheduling conflict")
  | attempts + 1, record => do
    throwIfAborted hasSignal
    let existing ← decode record
    if existing.jobId ≠ entry.jobId ∨ existing.caller ≠ entry.caller then
      Program.raise (invalid "Document dispatch owner or credential mismatch")
    else if leavesAlone existing record.expiresAt nextAttemptAt then pure ()
    else do
      let changed ← compareAndSwap record.key record.revision (DispatchValue.entry entry) now
        (some nextAttemptAt)
      match changed with
      | .updated _ => pure ()
      | .missing => Program.raise (invalid "Document dispatch record disappeared")
      | .conflict record => reschedule entry hasSignal now nextAttemptAt attempts record

def enqueue (jobId : String) (caller : DurableDocumentJobCaller) (options : EnqueueOptions) :
    DispatchIo Unit := do
  let clock ← ask .clock
  let now ← integer clock 0 (maxSafeInteger - dispatcher.leaseMs)
  let nextAttemptAt ← integer (options.nextAttemptAt.getD (now + 1)) (now + 1) maxSafeInteger
  let entry ← (scheduledEntry jobId caller).parse
  throwIfAborted options.hasSignal
  let created ← createIfAbsent (entryKey dispatcher jobId) (DispatchValue.entry entry) now
    (some nextAttemptAt)
  match created with
  | .created _ => pure ()
  | .existing record => reschedule entry options.hasSignal now nextAttemptAt 8 record

/-! ## `drain` -/

/-- The attempt under a lease, within its deadline: an error of `advance` or `status` may be
that of the deadline or of the signal. -/
def attempt (entry : Entry) (hasSignal : Bool) : DispatchIo DispatchStatus := do
  let reason ← abortReason hasSignal
  if reason.isSome then
    Program.raise (.groundlane .cancelled "document-dispatch-attempt" "The request was cancelled")
  else do
    let advanced ← ask (.advance entry.jobId entry.caller)
    let _ ← advanced
    let status ← ask (.status entry.jobId entry.caller)
    Program.ofExcept status

/-- When a job with this status is to be looked at next. -/
def nextAttempt (disposition : DispatchStatus) (finishedAt : Int) : Option Int :=
  if isTerminal disposition.status = false ∨ disposition.resultCleanupPending ∨
      (disposition.upstreamRequested = some true ∧
        disposition.upstreamAcknowledged ≠ some true) then
    some (finishedAt + dispatcher.pollIntervalMs)
  else if disposition.status = "completed" ∧ finishedAt < disposition.expiresAt then
    some disposition.expiresAt
  else none

/-- When a job is to be looked at after so many failures. -/
def backoff (failures : Nat) (now : Int) : Int :=
  now + min dispatcher.maxBackoffMs (dispatcher.pollIntervalMs * 2 ^ (failures - 1))

/-- What the attempt leads to: the time of the next one, if any, and the number of failures. -/
def attemptOutcome (entry : Entry) (hasSignal : Bool) (now : Int) :
    DispatchIo (Bool × Option Int × Nat) := do
  let disposition ← (attempt entry hasSignal).attempt
  let clock ← ask .clock
  match disposition with
  | .ok disposition => pure (true, nextAttempt dispatcher disposition (max now clock), 0)
  | .error _ =>
    let failures := min 30 (entry.failures + 1)
    pure (false, some (backoff dispatcher failures (max now clock)), failures)

/-- The work under a lease: the attempt, and then the entry gives the lease back. -/
def workLeased (key : String) (revision : Nat) (entry : Entry) (hasSignal : Bool) (now : Int) :
    DispatchIo DocumentDispatchDrainResult := do
  let outcome ← attemptOutcome dispatcher entry hasSignal now
  let clock ← ask .clock
  let finishedAt := max now clock
  let changed ← compareAndSwap key revision (DispatchValue.entry
      { entry with
        phase := if outcome.2.1.isNone then .idle else .scheduled
        token := ""
        failures := outcome.2.2 })
    finishedAt (outcome.2.1.map fun next => max next (finishedAt + 1))
  let result : DocumentDispatchDrainResult :=
    { DocumentDispatchDrainResult.none with
      claimed := 1
      advanced := if outcome.1 then 1 else 0
      failed := if outcome.1 then 0 else 1 }
  match changed with
  | .updated _ =>
    if outcome.2.1.isNone then pure { result with idle := 1 }
    else pure { result with rescheduled := 1 }
  | _ => pure { result with leaseLost := 1 }

/-- The entry of a record of the page, unless it is malformed. -/
def pageEntry (record : Record String DispatchValue) : Except Fault Entry := do
  let entry ← decode record
  if record.key ≠ entryKey dispatcher entry.jobId ∨ entry.phase = .idle then
    throw (invalid "Malformed document dispatch entry")
  pure entry

/-- What a worker does with one record of the page. -/
def consumeRecord (hasSignal : Bool) (now : Int) (record : Record String DispatchValue) :
    DispatchIo DocumentDispatchDrainResult :=
  match pageEntry dispatcher record with
  | .error _ => pure { DocumentDispatchDrainResult.none with malformed := 1 }
  | .ok entry => do
    let token ← ask .randomUUID
    let leased ← compareAndSwap record.key record.revision
      (DispatchValue.entry { entry with phase := .leased, token := token }) now
      (some (now + dispatcher.leaseMs))
    match leased with
    | .updated leased => workLeased dispatcher record.key leased.revision entry hasSignal now
    | _ => pure .none

/-- One round of a worker, up to where it looks for the next record. -/
def consume (hasSignal : Bool) (now : Int) (record : Record String DispatchValue) :
    DispatchIo DocumentDispatchDrainResult := do
  let result ← consumeRecord dispatcher hasSignal now record
  throwIfAborted hasSignal
  pure result

/-- The counts of two rounds together. -/
def DocumentDispatchDrainResult.add (left right : DocumentDispatchDrainResult) :
    DocumentDispatchDrainResult where
  scanned := left.scanned + right.scanned
  claimed := left.claimed + right.claimed
  advanced := left.advanced + right.advanced
  rescheduled := left.rescheduled + right.rescheduled
  idle := left.idle + right.idle
  failed := left.failed + right.failed
  leaseLost := left.leaseLost + right.leaseLost
  malformed := left.malformed + right.malformed
  nextCursor := left.nextCursor

/-- `Promise.all` of the workers: the first error, or all counts. -/
def collect (start : DocumentDispatchDrainResult) :
    List (Except Fault DocumentDispatchDrainResult) → Except Fault DocumentDispatchDrainResult
  | [] => .ok start
  | .error fault :: _ => .error fault
  | .ok result :: rest => collect (start.add result) rest

/-- The end of a drain: where the next one is to go on. -/
def saveCursor (cursorRecord : Option (Record String DispatchValue)) (next : Option String)
    (nowMs : Int) : DispatchIo Unit :=
  match cursorRecord with
  | none => do
    let _ ← createIfAbsent cursorKey (DispatchValue.cursor next) nowMs none
    pure ()
  | some record => do
    let _ ← compareAndSwap record.key record.revision (DispatchValue.cursor next) nowMs none
    pure ()

/-- `drain` behind the checks of its options. -/
def drainPage (hasSignal : Bool) (now : Int) (limit concurrency : Nat) :
    DispatchIo DocumentDispatchDrainResult := do
  throwIfAborted hasSignal
  let cursorRecord ← get cursorKey
  let page ← scanExpired now (readCursor cursorRecord) limit
  -- Every worker looks at the signal before its first record.
  throwIfAborted hasSignal
  let outcomes ← Program.serve .order id (consume dispatcher hasSignal now)
    (min concurrency limit) page.1
  let result ← collect
    { DocumentDispatchDrainResult.none with scanned := page.1.length, nextCursor := page.2 }
    outcomes
  let clock ← ask .clock
  saveCursor cursorRecord page.2 (max now clock)
  pure result

/-- The time that a drain is given, or that of the clock. -/
def startTime (options : DrainOptions) : DispatchIo Int :=
  match options.nowMs with
  | some nowMs => pure nowMs
  | none => ask Request.clock

def drain (options : DrainOptions) : DispatchIo DocumentDispatchDrainResult := do
  let nowMs ← startTime options
  let now ← integer nowMs 0 (maxSafeInteger - dispatcher.leaseMs)
  let limit ← integer (options.limit.getD 20) 1 100
  let concurrency ← integer (options.concurrency.getD 2) 1 8
  drainPage dispatcher options.hasSignal now limit.toNat concurrency.toNat

/-! ## All calls -/

/-- The program of each call. -/
def main : Call → DispatchIo Reply
  | .enqueue jobId caller options =>
    (enqueue dispatcher jobId caller options).bind fun _ => pure .nothing
  | .drain options => (drain dispatcher options).bind fun result => pure (.drained result)

/-- All calls of dispatchers with the same options over one record store. -/
def dispatch : System Call (Op DispatchValue String Request) (Op.Res Answer) Fault Reply
    (Disk DispatchValue String) (Oracle Answer) :=
  system dispatcher.sha256 (main dispatcher)

end Groundlane.Dispatch
