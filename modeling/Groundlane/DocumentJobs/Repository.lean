import Groundlane.Durable.Effects
import Groundlane.Durable.Versions
import Groundlane.Sequential.Checks

/-!
# Durable document jobs

The records of `core/durable-document-jobs.ts` and the methods of its repository that create a
job, read it, cancel it for its source and move it on. A read of a job that is past its expiry
writes: it expires the job first, and starts again when another writer comes before it. The
source lets it start again without end; here it gives up after a number of rounds that no
statement bounds.

The repository is generic in the values of the record store, which hold jobs among others
(`HoldsJobs`). `get_safe`, `revokeSource_safe`, `transition_safe` and `createIfAbsent_safe` say
which operations each method consists of and what the caller knows of the job afterwards.
-/

namespace Groundlane.DocumentJobs

open Fenced Interleaving

/-! ## Records -/

def maxDocumentJobIdentityChars : Nat := 256

def maxDocumentJobFingerprintChars : Nat := 512

def maxDocumentJobErrorChars : Nat := 500

inductive DurableDocumentJobStatus where
  | created
  | pending
  | running
  | completed
  | failed
  | cancelled
  | expired
deriving DecidableEq, Repr

def DurableDocumentJobStatus.text : DurableDocumentJobStatus → String
  | created => "created"
  | pending => "pending"
  | running => "running"
  | completed => "completed"
  | failed => "failed"
  | cancelled => "cancelled"
  | expired => "expired"

/-- `TERMINAL_STATUSES`. -/
def DurableDocumentJobStatus.terminal : DurableDocumentJobStatus → Bool
  | created | pending | running => false
  | completed | failed | cancelled | expired => true

/-- `STATUS_ORDER`. -/
def DurableDocumentJobStatus.order : DurableDocumentJobStatus → Nat
  | created => 0
  | pending => 1
  | running => 2
  | completed | failed | cancelled | expired => 3

/-- What a job is for and whose it is; it is fixed when the job is created. -/
structure JobIdentity where
  jobId : String
  ownerId : String
  credentialBinding : String
  idempotencyKey : String
  requestFingerprint : String
  createdAt : Int
  expiresAt : Int
deriving DecidableEq, Repr

structure DurableDocumentJob extends JobIdentity where
  status : DurableDocumentJobStatus
  updatedAt : Int
  resultArtifactRef : Option String
  sanitizedError : Option String
deriving DecidableEq, Repr

structure VersionedDurableDocumentJob where
  job : DurableDocumentJob
  revision : Nat
deriving DecidableEq, Repr

structure DurableDocumentJobCaller where
  ownerId : String
  credentialBinding : String
deriving DecidableEq, Repr

structure CreateDurableDocumentJobInput extends DurableDocumentJobCaller where
  idempotencyKey : String
  requestFingerprint : String
  nowMs : Int
  expiresAt : Int
deriving DecidableEq, Repr

inductive CreateDurableDocumentJobResult where
  | created (value : VersionedDurableDocumentJob)
  | reused (value : VersionedDurableDocumentJob)
deriving DecidableEq, Repr

/-- What a transition changes beside the status; `some none` removes a value. -/
structure DurableDocumentJobTransitionPatch where
  resultArtifactRef : Option (Option String)
  sanitizedError : Option (Option String)
deriving DecidableEq, Repr

inductive DurableDocumentJobTransitionResult where
  | updated (value : VersionedDurableDocumentJob)
  | conflict (value : VersionedDurableDocumentJob)
deriving DecidableEq, Repr

def DurableDocumentJob.toJson (job : DurableDocumentJob) : Json :=
  .obj [("schemaVersion", .str "1"), ("jobId", .str job.jobId), ("ownerId", .str job.ownerId),
    ("credentialBinding", .str job.credentialBinding),
    ("idempotencyKey", .str job.idempotencyKey),
    ("requestFingerprint", .str job.requestFingerprint), ("status", .str job.status.text),
    ("createdAt", Json.ofInt job.createdAt), ("updatedAt", Json.ofInt job.updatedAt),
    ("expiresAt", Json.ofInt job.expiresAt),
    ("resultArtifactRef", Json.ofOption .str job.resultArtifactRef),
    ("sanitizedError", Json.ofOption .str job.sanitizedError)]

/-- Record values among which jobs can be told apart. -/
class HoldsJobs (V : Type) where
  ofJob : DurableDocumentJob → V
  toJob? : V → Option DurableDocumentJob
  toJob?_eq_some : ∀ value job, toJob? value = some job ↔ value = ofJob job

/-! ## Checks -/

def jobError (message : String) : Fault :=
  .groundlane .invalidInput "durable-document-job" message

def assertBounded (value field : String) (max : Nat) : Except Fault Unit :=
  if utf16Length value = 0 ∨ max < utf16Length value then
    .error (jobError (field ++ " must be non-empty within " ++ toString max ++ " characters"))
  else .ok ()

def assertTimestamp (value : Int) (field : String) : Except Fault Unit :=
  if ¬ isSafeInteger value ∨ value < 0 then
    .error (jobError (field ++ " must be a non-negative safe integer timestamp"))
  else .ok ()

def jobIdFor {B : Type} (sha256 : Sha256 B) (ownerId idempotencyKey : String) : String :=
  "djob-" ++ String.ofList ((sha256.text (ownerId ++ nul ++ idempotencyKey)).toList.take 32)

def recordKey (jobId : String) : String :=
  "document-job:" ++ jobId

section Decode

variable {V : Type} [HoldsJobs V]

def decode (record : Record String V) : Except Fault VersionedDurableDocumentJob :=
  match HoldsJobs.toJob? record.value with
  | none => .error (jobError "Durable document job record is malformed")
  | some job => do
    assertBounded job.jobId "jobId" maxDocumentJobIdentityChars
    assertBounded job.ownerId "ownerId" maxDocumentJobIdentityChars
    assertBounded job.credentialBinding "credentialBinding" maxDocumentJobIdentityChars
    assertBounded job.idempotencyKey "idempotencyKey" maxDocumentJobIdentityChars
    assertBounded job.requestFingerprint "requestFingerprint" maxDocumentJobFingerprintChars
    assertTimestamp job.createdAt "createdAt"
    assertTimestamp job.updatedAt "updatedAt"
    assertTimestamp job.expiresAt "expiresAt"
    pure ⟨job, record.revision⟩

end Decode

def assertCaller (job : DurableDocumentJob) (caller : DurableDocumentJobCaller) :
    Except Fault Unit :=
  if job.ownerId ≠ caller.ownerId then
    .error (jobError "Owner mismatch: caller does not own this document job")
  else if job.credentialBinding ≠ caller.credentialBinding then
    .error (jobError "Credential binding mismatch for this document job")
  else .ok ()

def assertTransition (source target : DurableDocumentJobStatus) : Except Fault Unit :=
  if source = target then
    .error (jobError ("Document job is already \"" ++ source.text ++ "\""))
  else if source.terminal then
    .error (jobError ("Cannot transition from terminal document job status \"" ++ source.text ++
      "\""))
  else if target.order < source.order then
    .error (jobError ("Non-monotonic document job transition \"" ++ source.text ++ "\" -> \"" ++
      target.text ++ "\""))
  else .ok ()

/-- The checks of `createIfAbsent`. -/
def checkCreate (input : CreateDurableDocumentJobInput) : Except Fault Unit := do
  assertBounded input.ownerId "ownerId" maxDocumentJobIdentityChars
  assertBounded input.credentialBinding "credentialBinding" maxDocumentJobIdentityChars
  assertBounded input.idempotencyKey "idempotencyKey" maxDocumentJobIdentityChars
  assertBounded input.requestFingerprint "requestFingerprint" maxDocumentJobFingerprintChars
  assertTimestamp input.nowMs "nowMs"
  assertTimestamp input.expiresAt "expiresAt"
  if input.expiresAt ≤ input.nowMs then throw (jobError "expiresAt must be later than nowMs")

/-- The checks of a transition's patch. -/
def checkPatch (resultArtifactRef sanitizedError : Option String) : Except Fault Unit := do
  if let some ref := resultArtifactRef then
    assertBounded ref "resultArtifactRef" maxDocumentJobFingerprintChars
  if sanitizedError.any fun text =>
      utf16Length text = 0 ∨ maxDocumentJobErrorChars < utf16Length text then
    throw (jobError ("sanitizedError must be within " ++ toString maxDocumentJobErrorChars ++
      " characters"))

/-! ## The repository -/

/-- The job that `createIfAbsent` writes. -/
def createdJob {B : Type} (sha256 : Sha256 B) (input : CreateDurableDocumentJobInput) :
    DurableDocumentJob where
  jobId := jobIdFor sha256 input.ownerId input.idempotencyKey
  ownerId := input.ownerId
  credentialBinding := input.credentialBinding
  idempotencyKey := input.idempotencyKey
  requestFingerprint := input.requestFingerprint
  createdAt := input.nowMs
  expiresAt := input.expiresAt
  status := .created
  updatedAt := input.nowMs
  resultArtifactRef := none
  sanitizedError := none

/-- The job that an expired read writes. -/
def DurableDocumentJob.expire (job : DurableDocumentJob) (nowMs : Int) : DurableDocumentJob :=
  { job with status := .expired, updatedAt := nowMs }

/-- The job that a revocation of its source writes. -/
def DurableDocumentJob.cancel (job : DurableDocumentJob) (nowMs : Int) : DurableDocumentJob :=
  { job with status := .cancelled, updatedAt := nowMs }

/-- The job that a transition writes. -/
def DurableDocumentJob.moveTo (job : DurableDocumentJob) (status : DurableDocumentJobStatus)
    (nowMs : Int) (patch : DurableDocumentJobTransitionPatch) : DurableDocumentJob :=
  { job with
    status
    updatedAt := nowMs
    resultArtifactRef := patch.resultArtifactRef.getD job.resultArtifactRef
    sanitizedError := patch.sanitizedError.getD job.sanitizedError }

/-- Whether a read at the time returns the job as it is. -/
def DurableDocumentJob.current (job : DurableDocumentJob) (nowMs : Int) : Prop :=
  nowMs < job.expiresAt ∨ job.status = .expired ∨ job.status = .cancelled

instance (job : DurableDocumentJob) (nowMs : Int) : Decidable (job.current nowMs) :=
  inferInstanceAs (Decidable (_ ∨ _ ∨ _))

namespace DurableDocumentJobRepository

variable {V B P : Type} {PR : P → Type} [Stored V] [HoldsJobs V]

def createIfAbsent (sha256 : Sha256 B) (input : CreateDurableDocumentJobInput) :
    Io PR V B CreateDurableDocumentJobResult := do
  checkCreate input
  let job := createdJob sha256 input
  let result ← Groundlane.createIfAbsent (recordKey job.jobId) (HoldsJobs.ofJob job) input.nowMs
    (some input.expiresAt)
  let value ← decode result.record
  match result with
  | .created _ => pure (.created value)
  | .existing _ => do
    assertCaller value.job input.toDurableDocumentJobCaller
    if value.job.idempotencyKey ≠ input.idempotencyKey ∨
        value.job.requestFingerprint ≠ input.requestFingerprint then
      Program.raise (jobError "Idempotency key is already bound to a different document request")
    else pure (.reused value)

/-- Read the job; unless it is settled, replace it by its change and start again when another
writer has come before, until the rounds are used up. -/
def settle (jobId : String) (caller : DurableDocumentJobCaller) (nowMs : Int)
    (settled : DurableDocumentJob → Prop) [DecidablePred settled]
    (change : DurableDocumentJob → DurableDocumentJob) (exhausted : Fault) :
    Nat → Io PR V B VersionedDurableDocumentJob
  | 0 => Program.raise exhausted
  | rounds + 1 => do
    let record ← Groundlane.get (recordKey jobId)
    match record with
    | none => Program.raise (jobError "Unknown durable document job")
    | some record => do
      let current ← decode record
      assertCaller current.job caller
      if settled current.job then pure current
      else do
        let result ← compareAndSwap record.key current.revision
          (HoldsJobs.ofJob (change current.job)) nowMs none
        match result with
        | .updated record => decode record
        | .missing => Program.raise (jobError "Unknown durable document job")
        | .conflict _ => settle jobId caller nowMs settled change exhausted rounds

def get (rounds : Nat) (jobId : String) (caller : DurableDocumentJobCaller) (nowMs : Int) :
    Io PR V B VersionedDurableDocumentJob := do
  assertBounded jobId "jobId" maxDocumentJobIdentityChars
  assertTimestamp nowMs "nowMs"
  -- The source has no last round.
  settle jobId caller nowMs (fun job => job.current nowMs) (fun job => job.expire nowMs) .other
    rounds

def resume (rounds : Nat) (jobId : String) (caller : DurableDocumentJobCaller) (nowMs : Int) :
    Io PR V B VersionedDurableDocumentJob :=
  get rounds jobId caller nowMs

def revokeSource (jobId : String) (caller : DurableDocumentJobCaller) (nowMs : Int) :
    Io PR V B VersionedDurableDocumentJob := do
  assertBounded jobId "jobId" maxDocumentJobIdentityChars
  assertTimestamp nowMs "nowMs"
  settle jobId caller nowMs (fun job => job.status.terminal) (fun job => job.cancel nowMs)
    (jobError "Document source revocation conflicted") 16

def transition (rounds : Nat) (jobId : String) (caller : DurableDocumentJobCaller)
    (expectedRevision : Nat) (status : DurableDocumentJobStatus) (nowMs : Int)
    (patch : DurableDocumentJobTransitionPatch) : Io PR V B DurableDocumentJobTransitionResult := do
  if ¬ isSafeInteger expectedRevision ∨ expectedRevision < 1 then
    Program.raise (jobError "expectedRevision must be a positive safe integer")
  else do
    let current ← get rounds jobId caller nowMs
    if current.revision ≠ expectedRevision then pure (.conflict current)
    else do
      assertTransition current.job.status status
      let next := current.job.moveTo status nowMs patch
      checkPatch next.resultArtifactRef next.sanitizedError
      let result ← compareAndSwap (recordKey jobId) expectedRevision (HoldsJobs.ofJob next) nowMs
        (some current.job.expiresAt)
      match result with
      | .updated record => do
        let value ← decode record
        pure (.updated value)
      | .missing => Program.raise (jobError "Unknown durable document job")
      | .conflict record => do
        let conflicted ← decode record
        assertCaller conflicted.job caller
        pure (.conflict conflicted)

end DurableDocumentJobRepository

/-! ## What the checks find -/

theorem assertCaller_ok {job : DurableDocumentJob} {caller : DurableDocumentJobCaller}
    (h : assertCaller job caller = .ok ()) :
    job.ownerId = caller.ownerId ∧ job.credentialBinding = caller.credentialBinding := by
  unfold assertCaller at h
  split at h
  · cases h
  · rename_i howner
    split at h
    · cases h
    · rename_i hbinding
      exact ⟨not_not.1 howner, not_not.1 hbinding⟩

/-- A transition leaves a status that is not terminal for a later one. -/
theorem assertTransition_ok {source target : DurableDocumentJobStatus}
    (h : assertTransition source target = .ok ()) :
    source.terminal = false ∧ source.order < target.order := by
  unfold assertTransition at h
  split at h
  · cases h
  · rename_i hne
    split at h
    · cases h
    · rename_i hterminal
      split at h
      · cases h
      · rename_i horder
        refine ⟨Bool.eq_false_iff.2 hterminal, ?_⟩
        -- Among the statuses that are not terminal the order is strict.
        cases source <;> cases target <;>
          simp_all [DurableDocumentJobStatus.order, DurableDocumentJobStatus.terminal]

variable {value : VersionedDurableDocumentJob}

theorem decode_ok {V : Type} [HoldsJobs V] {record : Record String V}
    (h : decode record = .ok value) :
    record.value = HoldsJobs.ofJob value.job ∧ record.revision = value.revision := by
  unfold decode at h
  split at h
  · cases h
  · rename_i job hjob
    simp only [Sequential.check_bind_eq_ok] at h
    obtain ⟨-, -, -, -, -, -, -, -, heq⟩ := h
    obtain rfl := Except.ok.inj heq
    exact ⟨(HoldsJobs.toJob?_eq_some _ _).1 hjob, rfl⟩

/-- A record that holds the job is decoded to it. -/
theorem decode_written {V : Type} [HoldsJobs V] {record : Record String V}
    {job : DurableDocumentJob} (hvalue : record.value = HoldsJobs.ofJob job)
    (h : decode record = .ok value) : value.job = job := by
  have hjob := (HoldsJobs.toJob?_eq_some record.value _).2 hvalue
  rw [(HoldsJobs.toJob?_eq_some record.value _).2 (decode_ok h).1] at hjob
  exact Option.some.inj hjob

/-! ## What the methods do -/

section Rules

variable {Call V B P α : Type} {PR : P → Type} [ByteString B] [Stored V] [HoldsJobs V]
  {sha256 : Sha256 B} {main : Call → Io PR V B α}
  {G : Guarantee Call (Op V B P) (Op.Res PR) Fault α (Disk V B)}
  {R : DiskWorld PR Call V B α → DiskWorld PR Call V B α → Prop} {i : Nat}
  {world : DiskWorld PR Call V B α} {jobId : String} {caller : DurableDocumentJobCaller}
  {nowMs : Int}

/-- Call `i` was told of the version of the job under this id. -/
def ToldOf (i : Nat) (jobId : String) (value : VersionedDurableDocumentJob)
    (history : List (Nat × DiskEvent PR Call V B α)) : Prop :=
  Told i (recordKey jobId) (HoldsJobs.ofJob value.job) value.revision history

omit [ByteString B] [Stored V] in
theorem ToldOf.mono {history later : List (Nat × DiskEvent PR Call V B α)} (hsub : history ⊆ later)
    (h : ToldOf i jobId value history) : ToldOf i jobId value later :=
  Told.mono hsub h

omit [ByteString B] [Stored V] in
theorem toldOf_decode {record : Record String V} {history : List (Nat × DiskEvent PR Call V B α)}
    (hreported : Reported i record history) (hkey : record.key = recordKey jobId)
    (hdecode : decode record = .ok value) : ToldOf i jobId value history := by
  obtain ⟨hvalue, hrevision⟩ := decode_ok hdecode
  exact ⟨record, hreported, hkey, hvalue, hrevision⟩

/-- The job belongs to the caller. -/
def DurableDocumentJob.OwnedBy (job : DurableDocumentJob) (caller : DurableDocumentJobCaller) :
    Prop :=
  job.ownerId = caller.ownerId ∧ job.credentialBinding = caller.credentialBinding

/-- The loop returns a settled version of the caller's job: it has found it or has written it
itself. -/
theorem settle_safe (settled : DurableDocumentJob → Prop) [DecidablePred settled]
    (change : DurableDocumentJob → DurableDocumentJob) {exhausted : Fault} {rounds : Nat}
    (hsettled : ∀ job, settled (change job))
    (howner : ∀ job, job.OwnedBy caller → (change job).OwnedBy caller)
    (hR : ∀ world now, R world now → Evolves (system sha256 main) G world now)
    (hread : ∀ now answer, Evolves (system sha256 main) G world now →
      G i (.effect (.get (recordKey jobId)) answer) now)
    (hchange : ∀ now value answer, Evolves (system sha256 main) G world now →
      ToldOf i jobId value now.history → ¬ settled value.job →
      G i (.effect (.compareAndSwap (recordKey jobId) value.revision
        (HoldsJobs.ofJob (change value.job)) nowMs none) answer) now) :
    Safe (system sha256 main) G R i
      (Returning fun value now => ToldOf i jobId value now.history ∧ value.job.OwnedBy caller ∧
        settled value.job)
      (DurableDocumentJobRepository.settle jobId caller nowMs settled change exhausted rounds)
      world := by
  induction rounds generalizing world with
  | zero => exact Safe.raise
  | succ rounds ih =>
    refine Safe.andThen hR (Safe.read fun now answer hnow => hread now answer (hR _ _ hnow)) ?_
    intro answer now hnow htold
    cases answer with
    | none => exact Safe.raise
    | some record =>
      obtain ⟨hreported, hkey⟩ := htold record rfl
      refine Safe.check fun current hcurrent => Safe.check fun _ hcaller => ?_
      have hcurrentTold := toldOf_decode hreported hkey hcurrent
      have howned := assertCaller_ok hcaller
      split
      · rename_i hdone
        exact Safe.done ⟨hcurrentTold, howned, hdone⟩
      · rename_i hopen
        rw [hkey]
        refine Safe.andThen hR (Safe.swap fun later answer hlater =>
          hchange later current answer (hnow.trans (hR _ _ hlater))
            (hcurrentTold.mono (hR _ _ hlater).suffix.subset) hopen) ?_
        intro answer later hlater hswapped
        have hevolves := hnow.trans hlater
        cases answer with
        | updated stored =>
          obtain ⟨hstored, hstoredKey, hvalue⟩ := (hswapped stored).1 rfl
          refine Safe.ofExcept fun value hdecode => ?_
          have heq := decode_written hvalue hdecode
          exact ⟨toldOf_decode hstored hstoredKey hdecode, heq ▸ howner _ howned, heq ▸ hsettled _⟩
        | missing => exact Safe.raise
        | conflict stored =>
          exact ih (fun next answer hnext => hread next answer (hevolves.trans hnext))
            fun next value answer hnext =>
              hchange next value answer (hevolves.trans hnext)

/-- A read returns a version of the caller's job that is current: it has found it or has expired
the job itself. -/
theorem get_safe {rounds : Nat}
    (hR : ∀ world now, R world now → Evolves (system sha256 main) G world now)
    (hread : ∀ now answer, Evolves (system sha256 main) G world now →
      G i (.effect (.get (recordKey jobId)) answer) now)
    (hexpire : ∀ now value answer, Evolves (system sha256 main) G world now →
      ToldOf i jobId value now.history → ¬ value.job.current nowMs →
      G i (.effect (.compareAndSwap (recordKey jobId) value.revision
        (HoldsJobs.ofJob (value.job.expire nowMs)) nowMs none) answer) now) :
    Safe (system sha256 main) G R i
      (Returning fun value now => ToldOf i jobId value now.history ∧ value.job.OwnedBy caller ∧
        value.job.current nowMs)
      (DurableDocumentJobRepository.get rounds jobId caller nowMs) world := by
  refine Safe.check fun _ _ => Safe.check fun _ _ => ?_
  refine settle_safe (fun job => job.current nowMs) (fun job => job.expire nowMs) ?_ ?_ hR hread
    hexpire
  · exact fun job => .inr (.inl rfl)
  · exact fun job h => h

/-- A revocation returns a terminal version of the caller's job: it has found it or has cancelled
the job itself. -/
theorem revokeSource_safe
    (hR : ∀ world now, R world now → Evolves (system sha256 main) G world now)
    (hread : ∀ now answer, Evolves (system sha256 main) G world now →
      G i (.effect (.get (recordKey jobId)) answer) now)
    (hcancel : ∀ now value answer, Evolves (system sha256 main) G world now →
      ToldOf i jobId value now.history → ¬ value.job.status.terminal →
      G i (.effect (.compareAndSwap (recordKey jobId) value.revision
        (HoldsJobs.ofJob (value.job.cancel nowMs)) nowMs none) answer) now) :
    Safe (system sha256 main) G R i
      (Returning fun value now => ToldOf i jobId value now.history ∧ value.job.OwnedBy caller ∧
        value.job.status.terminal)
      (DurableDocumentJobRepository.revokeSource jobId caller nowMs) world := by
  refine Safe.check fun _ _ => Safe.check fun _ _ => ?_
  refine settle_safe (fun job => job.status.terminal) (fun job => job.cancel nowMs) ?_ ?_ hR hread
    hcancel
  · exact fun job => rfl
  · exact fun job h => h

/-- A transition reads the job and swaps it at the revision the caller names, which is the one
that it has read. -/
theorem transition_safe {rounds expectedRevision : Nat} {status : DurableDocumentJobStatus}
    {patch : DurableDocumentJobTransitionPatch}
    (hR : ∀ world now, R world now → Evolves (system sha256 main) G world now)
    (hread : ∀ now answer, Evolves (system sha256 main) G world now →
      G i (.effect (.get (recordKey jobId)) answer) now)
    (hexpire : ∀ now value answer, Evolves (system sha256 main) G world now →
      ToldOf i jobId value now.history → ¬ value.job.current nowMs →
      G i (.effect (.compareAndSwap (recordKey jobId) value.revision
        (HoldsJobs.ofJob (value.job.expire nowMs)) nowMs none) answer) now)
    (hmove : ∀ now value answer, Evolves (system sha256 main) G world now →
      ToldOf i jobId value now.history → value.job.status.terminal = false →
      value.job.status.order < status.order →
      G i (.effect (.compareAndSwap (recordKey jobId) value.revision
        (HoldsJobs.ofJob (value.job.moveTo status nowMs patch)) nowMs
        (some value.job.expiresAt)) answer) now) :
    Safe (system sha256 main) G R i
      (Returning fun result now => ∃ value, ToldOf i jobId value now.history ∧
        value.job.OwnedBy caller ∧
        (result = .conflict value ∨ result = .updated value ∧
          ∃ previous, ToldOf i jobId previous now.history ∧
            previous.job.status.terminal = false ∧
            value.job = previous.job.moveTo status nowMs patch))
      (DurableDocumentJobRepository.transition rounds jobId caller expectedRevision status nowMs
        patch) world := by
  unfold DurableDocumentJobRepository.transition
  split
  · exact Safe.raise
  · refine Safe.andThen hR (get_safe hR hread hexpire) ?_
    rintro current now hnow ⟨htold, howned, -⟩
    split
    · exact Safe.done ⟨current, htold, howned, .inl rfl⟩
    · rename_i hrevision
      obtain rfl := not_not.1 hrevision
      refine Safe.check fun _ hallowed => ?_
      obtain ⟨hopen, horder⟩ := assertTransition_ok hallowed
      refine Safe.check fun _ _ => ?_
      refine Safe.andThen hR (Safe.swap fun later answer hlater =>
        hmove later current answer (hnow.trans (hR _ _ hlater))
          (htold.mono (hR _ _ hlater).suffix.subset) hopen horder) ?_
      intro answer later hlater hswapped
      cases answer with
      | updated stored =>
        obtain ⟨hstored, hkey, hvalue⟩ := (hswapped stored).1 rfl
        refine Safe.check fun value hdecode => ?_
        have heq := decode_written hvalue hdecode
        refine Safe.done ⟨value, toldOf_decode hstored hkey hdecode, ?_, .inr ⟨rfl, current,
          htold.mono hlater.suffix.subset, hopen, heq⟩⟩
        rw [heq]
        exact howned
      | missing => exact Safe.raise
      | conflict stored =>
        obtain ⟨hstored, hkey⟩ := (hswapped stored).2 rfl
        refine Safe.check fun value hdecode => Safe.check fun _ hcaller => ?_
        exact Safe.done ⟨value, toldOf_decode hstored hkey hdecode, assertCaller_ok hcaller,
          .inl rfl⟩

/-- A creation tells of the job that its key stands for. -/
theorem createIfAbsent_safe {input : CreateDurableDocumentJobInput}
    (hR : ∀ world now, R world now → Evolves (system sha256 main) G world now)
    (hcreate : ∀ now answer, Evolves (system sha256 main) G world now →
      G i (.effect (.createIfAbsent (recordKey (createdJob sha256 input).jobId)
        (HoldsJobs.ofJob (createdJob sha256 input)) input.nowMs (some input.expiresAt)) answer)
        now) :
    Safe (system sha256 main) G R i
      (Returning fun result now => ∃ value, (result = .created value ∨ result = .reused value) ∧
        ToldOf i (createdJob sha256 input).jobId value now.history)
      (DurableDocumentJobRepository.createIfAbsent sha256 input) world := by
  refine Safe.check fun _ _ => ?_
  refine Safe.andThen hR (Safe.create fun now answer hnow => hcreate now answer (hR _ _ hnow)) ?_
  intro result now hnow htold
  obtain ⟨hreported, hkey⟩ := htold
  refine Safe.check fun value hdecode => ?_
  have hvalue := toldOf_decode hreported hkey hdecode
  cases result with
  | created record => exact Safe.done ⟨value, .inl rfl, hvalue⟩
  | existing record =>
    refine Safe.check fun _ _ => ?_
    split
    · exact Safe.raise
    · exact Safe.done ⟨value, .inr rfl, hvalue⟩

end Rules

end Groundlane.DocumentJobs
