import Groundlane.DocumentJobs.Repository
import Groundlane.Durable.Claims

/-!
# The executor of document jobs

The methods of `core/durable-document-jobs.ts` that claim and move on the effects of a job, and
`execute` of `core/durable-document-executor.ts`, which asks three ports one after another, each
behind an effect record: a provider task is created, the paid call is made, and the result is
written. The clock, the abort signal and the ports are asked as parties outside; a port is asked
on behalf of a job.
-/

namespace Groundlane.DocumentJobs

open Fenced Interleaving

/-! ## Records and requests -/

/-- The values of the record store that the executor uses. -/
inductive Value where
  | job (job : DurableDocumentJob)
  | effect (effect : DurableEffect)
deriving DecidableEq

instance : HoldsJobs Value where
  ofJob := .job
  toJob?
    | .job job => some job
    | .effect _ => none
  toJob?_eq_some value job := by
    cases value with
    | job found => simp
    | effect effect => simp

instance : Journaled Value where
  ofEffect := .effect
  toEffect?
    | .effect effect => some effect
    | .job _ => none
  toEffect?_ofEffect _ := rfl

instance : Stored Value where
  text
    | .job job => job.toJson.render
    | .effect effect => effect.toJson.render

/-- The ports of `DurableDocumentExecutionPorts`. -/
inductive ExecutionPort where
  | createProviderTask
  | performPaidCall
  | writeResultArtifact
deriving DecidableEq, Repr

/-- What is asked outside the stores. -/
inductive Request where
  | clock
  | aborted
  | perform (jobId : String) (port : ExecutionPort)
deriving DecidableEq, Repr

/-- What the parties answer; a port that fails throws what nobody reads. -/
abbrev Answer : Request → Type
  | .clock => Int
  | .aborted => Bool
  | .perform .. => Except Fault String

/-- A program over the stores and the parties outside. -/
abbrev JobIo : Type → Type := Io Answer Value String

inductive BeginDurableDocumentEffectResult where
  | execute (effect : DurableEffect) (revision : Nat)
  | replay (effect : DurableEffect) (revision : Nat) (receipt : String)
  | blocked (effect : DurableEffect) (revision : Nat)

/-! ## The effects of a job -/

namespace DurableDocumentJobRepository

def beginEffect (rounds : Nat) (identity : EffectIdentity) (caller : DurableDocumentJobCaller)
    (nowMs : Int) : JobIo BeginDurableDocumentEffectResult := do
  let current ← get rounds identity.jobId caller nowMs
  if current.job.status.terminal then
    Program.raise (jobError ("Cannot begin an effect for terminal document job status \"" ++
      current.job.status.text ++ "\""))
  else do
    let result ← DurableEffectJournal.claim identity nowMs
    match result with
    | .claimed effect revision => pure (.execute effect revision)
    | .existing effect revision =>
      if effect.status = .succeeded then
        match effect.receipt with
        | none => Program.raise (jobError "Succeeded durable effect is missing its replay receipt")
        | some receipt => pure (.replay effect revision receipt)
      else pure (.blocked effect revision)

def transitionEffect (rounds : Nat) (identity : EffectIdentity) (caller : DurableDocumentJobCaller)
    (expectedRevision : Nat) (status : DurableEffectStatus) (nowMs : Int)
    (receipt : Option String) : JobIo (DurableEffect × Nat) := do
  let current ← get rounds identity.jobId caller nowMs
  if current.job.status.terminal then
    Program.raise (jobError ("Cannot update an effect for terminal document job status \"" ++
      current.job.status.text ++ "\""))
  else DurableEffectJournal.transition identity expectedRevision status nowMs receipt

def markEffectInflight (rounds : Nat) (identity : EffectIdentity)
    (caller : DurableDocumentJobCaller) (expectedRevision : Nat) (nowMs : Int) :
    JobIo (DurableEffect × Nat) :=
  transitionEffect rounds identity caller expectedRevision .inflight nowMs none

def markEffectSucceeded (rounds : Nat) (identity : EffectIdentity)
    (caller : DurableDocumentJobCaller) (expectedRevision : Nat) (nowMs : Int)
    (receipt : String) : JobIo (DurableEffect × Nat) := do
  assertBounded receipt "effect receipt" maxDocumentJobFingerprintChars
  transitionEffect rounds identity caller expectedRevision .succeeded nowMs (some receipt)

def markEffectUncertain (rounds : Nat) (identity : EffectIdentity)
    (caller : DurableDocumentJobCaller) (expectedRevision : Nat) (nowMs : Int) :
    JobIo (DurableEffect × Nat) :=
  transitionEffect rounds identity caller expectedRevision .uncertain nowMs none

end DurableDocumentJobRepository

/-! ## The executor -/

structure DurableDocumentExecutionInput where
  jobId : String
  operationKey : String
  nowMs : Int
deriving DecidableEq, Repr

/-- The effect record behind which a port is asked for a job. -/
def ExecutionPort.identity (jobId : String) : ExecutionPort → EffectIdentity
  | createProviderTask => ⟨jobId, .providerTaskCreate, "document-execution-v1:provider"⟩
  | performPaidCall => ⟨jobId, .paidUpstreamCall, "document-execution-v1:paid"⟩
  | writeResultArtifact => ⟨jobId, .artifactWrite, "document-execution-v1:artifact"⟩

def executionError (message : String) : Fault :=
  .groundlane .upstreamError "document-execution" message

namespace DurableDocumentExecutor

open DurableDocumentJobRepository

def assertDispatchActive : JobIo Unit := do
  let aborted ← ask Request.aborted
  if aborted then
    Program.raise (.groundlane .cancelled "document-execution" "Document dispatch was cancelled")
  else pure ()

/-- The clock of an execution, which does not run backwards. -/
def now (lastNowMs : Int) : JobIo Int := do
  let clock ← ask Request.clock
  pure (max lastNowMs clock)

/-- The end of an effect that failed: it is recorded as uncertain, if that is possible. -/
def giveUp (rounds : Nat) (identity : EffectIdentity) (caller : DurableDocumentJobCaller)
    (inflightRevision : Nat) (lastNowMs : Int) : JobIo (String × Int) := do
  let uncertainAt ← now lastNowMs
  let _ ← (markEffectUncertain rounds identity caller inflightRevision uncertainAt).attempt
  Program.raise (executionError ("Durable " ++ identity.effectKind.text ++ " outcome is uncertain"))

/-- One effect of an execution: its receipt, and what the clock showed last. -/
def runEffect (rounds : Nat) (jobId : String) (caller : DurableDocumentJobCaller)
    (lastNowMs : Int) (port : ExecutionPort) : JobIo (String × Int) := do
  let identity := port.identity jobId
  assertDispatchActive
  let begunAt ← now lastNowMs
  let begun ← beginEffect rounds identity caller begunAt
  match begun with
  | .replay _ _ receipt => pure (receipt, begunAt)
  | .blocked effect _ =>
    Program.raise (executionError ("Durable " ++ identity.effectKind.text ++ " outcome is " ++
      effect.status.text))
  | .execute _ revision => do
    assertDispatchActive
    let inflightAt ← now begunAt
    let inflight ← markEffectInflight rounds identity caller revision inflightAt
    let performed ← Program.attempt (do
      assertDispatchActive
      let answer ← ask (Request.perform jobId port)
      (Program.ofExcept answer : JobIo String))
    match performed with
    | .error _ => giveUp rounds identity caller inflight.2 inflightAt
    | .ok receipt => do
      let succeededAt ← now inflightAt
      let marked ← (markEffectSucceeded rounds identity caller inflight.2 succeededAt
        receipt).attempt
      match marked with
      | .error _ => giveUp rounds identity caller inflight.2 succeededAt
      | .ok _ => pure (receipt, succeededAt)

/-- The job is running when its effects begin. -/
def startRunning (rounds : Nat) (jobId : String) (caller : DurableDocumentJobCaller)
    (lastNowMs : Int) (current : VersionedDurableDocumentJob) : JobIo Int := do
  if current.job.status = .running then pure lastNowMs
  else do
    let runningAt ← now lastNowMs
    let running ← transition rounds jobId caller current.revision .running runningAt ⟨none, none⟩
    match running with
    | .conflict _ => Program.raise (executionError "Durable document job transition conflicted")
    | .updated _ => pure runningAt

/-- The job is completed when its effects have come to their end. -/
def complete (rounds : Nat) (jobId : String) (caller : DurableDocumentJobCaller)
    (lastNowMs : Int) (artifactRef : String) : JobIo String := do
  assertDispatchActive
  let latestAt ← now lastNowMs
  let latest ← DurableDocumentJobRepository.get rounds jobId caller latestAt
  if latest.job.status = .completed ∧ latest.job.resultArtifactRef = some artifactRef then
    pure artifactRef
  else do
    let completedAt ← now latestAt
    let completed ← transition rounds jobId caller latest.revision .completed completedAt
      ⟨some (some artifactRef), none⟩
    match completed with
    | .conflict _ => Program.raise (executionError "Durable document completion conflicted")
    | .updated _ => pure artifactRef

/-- The effects of a job one after another, and its completion. -/
def runEffects (rounds : Nat) (jobId : String) (caller : DurableDocumentJobCaller)
    (lastNowMs : Int) : JobIo String := do
  let provider ← runEffect rounds jobId caller lastNowMs .createProviderTask
  let paid ← runEffect rounds jobId caller provider.2 .performPaidCall
  let artifact ← runEffect rounds jobId caller paid.2 .writeResultArtifact
  complete rounds jobId caller artifact.2 artifact.1

def execute (rounds : Nat) (input : DurableDocumentExecutionInput)
    (caller : DurableDocumentJobCaller) : JobIo String := do
  assertDispatchActive
  let readAt ← now input.nowMs
  let current ← DurableDocumentJobRepository.get rounds input.jobId caller readAt
  match current.job.status, current.job.resultArtifactRef with
  | .completed, some ref => pure ref
  | .failed, _ | .cancelled, _ | .expired, _ =>
    Program.raise (executionError "Durable document job is terminal")
  | _, _ => do
    let startedAt ← startRunning rounds input.jobId caller readAt current
    runEffects rounds input.jobId caller startedAt

end DurableDocumentExecutor

/-! ## The system -/

/-- Who creates, reads, cancels and executes jobs. -/
inductive Call where
  | createIfAbsent (input : CreateDurableDocumentJobInput)
  | get (jobId : String) (caller : DurableDocumentJobCaller) (nowMs : Int)
  | revokeSource (jobId : String) (caller : DurableDocumentJobCaller) (nowMs : Int)
  | execute (input : DurableDocumentExecutionInput) (caller : DurableDocumentJobCaller)
deriving DecidableEq, Repr

/-- What the calls return. -/
inductive Reply where
  | created (result : CreateDurableDocumentJobResult)
  | job (value : VersionedDurableDocumentJob)
  | executed (artifactRef : String)
deriving DecidableEq, Repr

/-- The program of each call. -/
def main (sha256 : Sha256 String) (rounds : Nat) : Call → JobIo Reply
  | .createIfAbsent input => do
    let result ← DurableDocumentJobRepository.createIfAbsent sha256 input
    pure (.created result)
  | .get jobId caller nowMs => do
    let value ← DurableDocumentJobRepository.get rounds jobId caller nowMs
    pure (.job value)
  | .revokeSource jobId caller nowMs => do
    let value ← DurableDocumentJobRepository.revokeSource jobId caller nowMs
    pure (.job value)
  | .execute input caller => do
    let artifactRef ← DurableDocumentExecutor.execute rounds input caller
    pure (.executed artifactRef)

/-- All calls over one record store. -/
def executor (sha256 : Sha256 String) (rounds : Nat) :
    System Call (Op Value String Request) (Op.Res Answer) Fault Reply (Disk Value String)
      (Oracle Answer) :=
  system sha256 (main sha256 rounds)

/-- A world of such calls. -/
abbrev JobWorld : Type := DiskWorld Answer Call Value String Reply

/-- An event of such a call. -/
abbrev JobEvent : Type := DiskEvent Answer Call Value String Reply

/-- Everything that happened, newest first. -/
abbrev JobHistory : Type := List (Nat × JobEvent)

/-- No calls yet, and nothing stored. -/
def initial : Config Call (Op Value String Request) (Op.Res Answer) Fault Reply
    (Disk Value String) :=
  Config.initial Disk.empty

end Groundlane.DocumentJobs
