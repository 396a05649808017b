import Groundlane.Durable.Store
import Mathlib.Data.List.AList

/-!
# Creating asynchronous jobs and crawl jobs

`create` of `AsyncJobManager` (`core/async-lifecycle.ts`) and of `CrawlJobManager`
(`core/crawl-jobs.ts`) over their in-memory stores, which keep the same two maps. Both look a
request with an idempotency key up in an index before they start a job. A manager answers one
call after the other; what the clock, the id factory and the provider answer in a call is its
`Surroundings`.
-/

namespace Groundlane.Jobs

/-! ## The stores -/

/-- What a store and its index need of the state of a job. -/
class JobState (S : Type) where
  jobId : S → String
  idempotencyKey : S → Option String
  ownerId : S → String
  credentialBinding : S → String

/-- `InMemoryAsyncJobStore` and `InMemoryCrawlJobStore`: the jobs by id, and the ids of jobs by
idempotency key. -/
structure InMemoryJobStore (S : Type) where
  jobs : AList fun _ : String => S
  byIdempotency : AList fun _ : String => String

namespace InMemoryJobStore

variable {S : Type} [JobState S]

/-- A new store. -/
def empty : InMemoryJobStore S := ⟨∅, ∅⟩

def get (store : InMemoryJobStore S) (jobId : String) : Option S :=
  store.jobs.lookup jobId

def set (store : InMemoryJobStore S) (state : S) : InMemoryJobStore S where
  jobs := store.jobs.insert (JobState.jobId state) state
  byIdempotency := match JobState.idempotencyKey state with
    | none => store.byIdempotency
    | some key => store.byIdempotency.insert key (JobState.jobId state)

def getByIdempotencyKey (store : InMemoryJobStore S) (key : String) : Option S :=
  (store.byIdempotency.lookup key).bind store.get

def size (store : InMemoryJobStore S) : Nat :=
  store.jobs.keys.length

end InMemoryJobStore

/-! ## Shared parts -/

/-- What a request is told of: the public view of the job, and whether it was there before. -/
structure JobCreateResult (P : Type) where
  job : P
  reused : Bool
deriving DecidableEq, Repr

structure BillingProvenance where
  providerId : String
  inputUnits : Int
  outputUnits : Int
  billedAt : Option Int
deriving DecidableEq, Repr

structure ProviderCancelAcknowledgment where
  providerResponseCode : Int
  acknowledgedAt : Int
deriving DecidableEq, Repr

/-- The parts of a parsed URL that are looked at. -/
structure Url where
  protocol : String
  username : String
  password : String
  hostname : String
  href : String
deriving DecidableEq, Repr

/-- What a call does not determine itself: the clock, the id that the factory makes, and the
answer of the provider. -/
structure Surroundings where
  clock : Int
  uuid : String
  task : Except Fault String

def maxUrlChars : Nat := 2000

def invalidInput (stage message : String) : Fault := .groundlane .invalidInput stage message

/-- `assertPublicHttpUrl`, which returns the text of the parsed URL; `parse` is the URL parser of
the platform. -/
def assertPublicHttpUrl (parse : String → Option Url) (value field : String) :
    Except Fault String :=
  if utf16Length value = 0 ∨ maxUrlChars < utf16Length value then
    .error (invalidInput "async-lifecycle"
      (field ++ " must be a non-empty URL within 2000 characters"))
  else match parse value with
    | none => .error (invalidInput "async-lifecycle" (field ++ " must be a valid absolute URL"))
    | some parsed =>
      if parsed.protocol ≠ "http:" ∧ parsed.protocol ≠ "https:" then
        .error (invalidInput "async-lifecycle"
          (field ++ " must use HTTP(S); got \"" ++ parsed.protocol ++ "\""))
      else if parsed.username ≠ "" ∨ parsed.password ≠ "" then
        .error (invalidInput "async-lifecycle" (field ++ " must not contain credentials"))
      else if parsed.hostname = "" then
        .error (invalidInput "async-lifecycle" (field ++ " must contain a hostname"))
      else .ok parsed.href

/-- `toISOString` of a time, which refuses what is no date. -/
def toISOString (time : Int) : Except Fault Int :=
  if 8640000000000000 < time.natAbs then .error .other else .ok time

/-- The index key of an owner and an idempotency key. -/
def buildIdempotencyKey (stage ownerId idempotencyKey : String) : Except Fault String :=
  if ownerId = "" then .error (invalidInput stage "ownerId is required")
  else if idempotencyKey = "" then
    .error (invalidInput stage "idempotencyKey must be non-empty")
  else .ok (ownerId ++ ":" ++ idempotencyKey)

def buildAsyncIdempotencyKey : String → String → Except Fault String :=
  buildIdempotencyKey "async-lifecycle"

def buildCrawlIdempotencyKey : String → String → Except Fault String :=
  buildIdempotencyKey "crawl-jobs"

/-- The index key of a request, if it has an idempotency key. -/
def indexKey (build : String → Except Fault String) (idempotencyKey : Option String) :
    Except Fault (Option String) :=
  match idempotencyKey with
  | none => .ok none
  | some key => (build key).map some

/-! ## `AsyncJobManager` -/

inductive AsyncJobStatus where
  | pending
  | running
  | inputRequired
  | completed
  | failed
  | cancelledByCaller
  | cancelledByGroundlane
  | cancelledByUpstream
deriving DecidableEq, Repr

structure AsyncJobRecord where
  jobId : String
  ownerId : String
  providerJobId : String
  credentialBinding : String
  ttlSeconds : Int
  expiresAt : Int
  status : AsyncJobStatus
  billingProvenance : BillingProvenance
  sanitizedError : Option String
  result : Option Json
deriving DecidableEq

structure InternalAsyncJobState where
  record : AsyncJobRecord
  createdAt : Int
  updatedAt : Int
  idempotencyKey : Option String
  callerCancelled : Bool
  groundlanePollingCancelled : Bool
  upstreamCancelRequested : Bool
  upstreamAcknowledgment : Option ProviderCancelAcknowledgment
  paidCallCompleted : Bool
  artifactWriteCompleted : Bool
  artifactResult : Json
  operationInput : Option Json
deriving DecidableEq

instance : JobState InternalAsyncJobState where
  jobId state := state.record.jobId
  idempotencyKey state := state.idempotencyKey
  ownerId state := state.record.ownerId
  credentialBinding state := state.record.credentialBinding

structure CreateAsyncJobInput where
  ownerId : String
  credentialBinding : String
  providerId : String
  ttlSeconds : Int
  idempotencyKey : Option String
  sourceUrl : Option String
  operationInput : Option Json
  now : Option Int
deriving DecidableEq

/-- The public view of a job. -/
structure PublicAsyncJob where
  jobId : String
  ownerId : String
  createdAt : Int
  updatedAt : Int
  status : AsyncJobStatus
  expiresAt : Int
  billingProvenance : BillingProvenance
  callerCancelled : Bool
  groundlanePollingCancelled : Bool
  upstreamCancelRequested : Bool
  upstreamCancelled : Bool
  sanitizedError : Option String
  result : Option Json
deriving DecidableEq

def toPublicAsyncJob (state : InternalAsyncJobState) : PublicAsyncJob where
  jobId := state.record.jobId
  ownerId := state.record.ownerId
  createdAt := state.createdAt
  updatedAt := state.updatedAt
  status := state.record.status
  expiresAt := state.record.expiresAt
  billingProvenance := state.record.billingProvenance
  callerCancelled := state.callerCancelled
  groundlanePollingCancelled := state.groundlanePollingCancelled
  upstreamCancelRequested := state.upstreamCancelRequested
  upstreamCancelled := state.upstreamAcknowledgment.isSome
  sanitizedError := state.record.sanitizedError
  result := state.record.result

def validateAsyncJobRecord (record : AsyncJobRecord) : Except Fault Unit :=
  if record.jobId = "" then .error (.error "jobId is required")
  else if record.ownerId = "" then .error (.error "ownerId is required")
  else if record.credentialBinding = "" then
    .error (.error "credentialBinding is required for async job records")
  else if record.ttlSeconds ≤ 0 then .error (.error "ttlSeconds must be a positive number")
  else if record.billingProvenance.providerId = "" then
    .error (.error "billingProvenance.providerId is required")
  else .ok ()

/-- The options of a manager, and the URL parser of the platform. -/
structure AsyncJobManager where
  parseUrl : String → Option Url
  hasProvider : Bool
  maxJobs : Int
  jobIdPrefix : String

namespace AsyncJobManager

variable (manager : AsyncJobManager)

/-- The checks of `create`, down to the index key of the request. -/
def checkInput (input : CreateAsyncJobInput) : Except Fault (Option String) := do
  if input.ownerId = "" then throw (invalidInput "async-lifecycle" "ownerId is required")
  if input.credentialBinding = "" then
    throw (invalidInput "async-lifecycle" "credentialBinding is required for async job records")
  if input.providerId = "" then
    throw (invalidInput "async-lifecycle" "billingProvenance.providerId is required")
  if input.ttlSeconds ≤ 0 then
    throw (invalidInput "async-lifecycle" "ttlSeconds must be a positive number")
  match input.sourceUrl with
  | some sourceUrl => let _ ← assertPublicHttpUrl manager.parseUrl sourceUrl "sourceUrl"
  | none => pure ()
  indexKey (buildAsyncIdempotencyKey input.ownerId) input.idempotencyKey

/-- The state of a new job, once the provider has started its task. -/
def newState (input : CreateAsyncJobInput) (key : Option String) (around : Surroundings) :
    Except Fault InternalAsyncJobState := do
  let now := input.now.getD around.clock
  let jobId := manager.jobIdPrefix ++ around.uuid
  let providerJobId ← if manager.hasProvider then around.task else .ok ("deferred:" ++ jobId)
  let expiresAt ← toISOString (now + input.ttlSeconds * 1000)
  let record : AsyncJobRecord :=
    { jobId := jobId
      ownerId := input.ownerId
      providerJobId := providerJobId
      credentialBinding := input.credentialBinding
      ttlSeconds := input.ttlSeconds
      expiresAt := expiresAt
      status := .pending
      billingProvenance := ⟨input.providerId, 0, 0, none⟩
      sanitizedError := none
      result := none }
  validateAsyncJobRecord record
  let createdAt ← toISOString now
  pure
    { record := record
      createdAt := createdAt
      updatedAt := createdAt
      idempotencyKey := key
      callerCancelled := false
      groundlanePollingCancelled := false
      upstreamCancelRequested := false
      upstreamAcknowledgment := none
      paidCallCompleted := false
      artifactWriteCompleted := false
      artifactResult := .null
      operationInput := input.operationInput }

/-- One call: what it returns, and the store that it leaves. -/
def create (store : InMemoryJobStore InternalAsyncJobState) (input : CreateAsyncJobInput)
    (around : Surroundings) :
    Except Fault (JobCreateResult PublicAsyncJob) × InMemoryJobStore InternalAsyncJobState :=
  match manager.checkInput input with
  | .error fault => (.error fault, store)
  | .ok key =>
    match key.bind store.getByIdempotencyKey with
    | some existing => (.ok ⟨toPublicAsyncJob existing, true⟩, store)
    | none =>
      if manager.maxJobs ≤ store.size then
        (.error (.groundlane .concurrencyLimit "async-lifecycle"
          "The async job store is full"), store)
      else match manager.newState input key around with
        | .error fault => (.error fault, store)
        | .ok state => (.ok ⟨toPublicAsyncJob state, false⟩, store.set state)

end AsyncJobManager

/-! ## `CrawlJobManager` -/

inductive CrawlJobStatus where
  | created
  | crawling
  | completed
  | failed
  | cancelledByCaller
  | cancelledByGroundlane
  | cancelledByUpstream
deriving DecidableEq, Repr

structure CrawlBudgets where
  maxPages : Int
  maxBytes : Int
  maxOutputChars : Int
deriving DecidableEq, Repr

structure CrawlPartialResult where
  url : String
  contentChars : Nat
  fetchedAt : String
deriving DecidableEq, Repr

structure InternalCrawlJobState where
  groundlaneJobId : String
  ownerId : String
  credentialBinding : String
  providerId : String
  providerJobId : String
  status : CrawlJobStatus
  budgets : CrawlBudgets
  createdAt : Int
  expiresAt : Int
  partials : List CrawlPartialResult
  providerCursor : Option String
  callerCancelled : Bool
  groundlanePollingCancelled : Bool
  upstreamCancelRequested : Bool
  upstreamAcknowledgment : Option ProviderCancelAcknowledgment
  droppedUpstreamUrls : Nat
  billedAt : Option Int
  sanitizedError : Option String
  idempotencyKey : Option String
deriving DecidableEq, Repr

instance : JobState InternalCrawlJobState where
  jobId state := state.groundlaneJobId
  idempotencyKey state := state.idempotencyKey
  ownerId state := state.ownerId
  credentialBinding state := state.credentialBinding

structure CreateCrawlJobInput where
  ownerId : String
  credentialBinding : String
  seedUrl : String
  budgets : CrawlBudgets
  ttlSeconds : Int
  providerId : Option String
  idempotencyKey : Option String
  now : Option Int
deriving DecidableEq, Repr

/-- The public view of a crawl job. -/
structure PublicCrawlJob where
  groundlaneJobId : String
  ownerId : String
  status : CrawlJobStatus
  expiresAt : Int
  budgets : CrawlBudgets
  createdAt : Int
  paginationCursor : Option String
  partialResults : List CrawlPartialResult
  totalPages : Nat
  totalBytes : Nat
  totalOutputChars : Nat
  droppedUpstreamUrls : Nat
  callerCancelled : Bool
  groundlanePollingCancelled : Bool
  upstreamCancelRequested : Bool
  upstreamCancelled : Bool
  billingProvenance : BillingProvenance
  sanitizedError : Option String
deriving DecidableEq, Repr

/-- The cursor behind the pages that a job has. -/
def paginationCursor (partials : List CrawlPartialResult) : Option String :=
  if partials.isEmpty then none else some ("groundlane:pages:" ++ toString partials.length)

/-- The characters of all pages, which stand for the bytes as well. -/
def totalChars (partials : List CrawlPartialResult) : Nat :=
  (partials.map CrawlPartialResult.contentChars).sum

def toPublicCrawlJob (state : InternalCrawlJobState) : PublicCrawlJob where
  groundlaneJobId := state.groundlaneJobId
  ownerId := state.ownerId
  status := state.status
  expiresAt := state.expiresAt
  budgets := state.budgets
  createdAt := state.createdAt
  paginationCursor := paginationCursor state.partials
  partialResults := state.partials
  totalPages := state.partials.length
  totalBytes := totalChars state.partials
  totalOutputChars := totalChars state.partials
  droppedUpstreamUrls := state.droppedUpstreamUrls
  callerCancelled := state.callerCancelled
  groundlanePollingCancelled := state.groundlanePollingCancelled
  upstreamCancelRequested := state.upstreamCancelRequested
  upstreamCancelled := state.upstreamAcknowledgment.isSome
  billingProvenance :=
    ⟨state.providerId, state.partials.length, totalChars state.partials, state.billedAt⟩
  sanitizedError := state.sanitizedError

def validateCrawlJobOwnership (ownerId callerId : String) : Except Fault Unit :=
  if ownerId ≠ callerId then
    .error (.error "Owner mismatch: caller does not own this crawl job")
  else .ok ()

def validateCrawlJobNotExpired (expiresAt now : Int) : Except Fault Unit :=
  if expiresAt ≤ now then .error (.error "Crawl job has expired") else .ok ()

def validateBudgets (budgets : CrawlBudgets) : Except Fault Unit :=
  if budgets.maxPages < 1 then
    .error (invalidInput "crawl-jobs" "budgets.maxPages must be a positive integer")
  else if budgets.maxBytes < 1 then
    .error (invalidInput "crawl-jobs" "budgets.maxBytes must be a positive integer")
  else if budgets.maxOutputChars < 1 then
    .error (invalidInput "crawl-jobs" "budgets.maxOutputChars must be a positive integer")
  else .ok ()

/-- `padStart` with zeros. -/
def padStart (width : Nat) (text : String) : String :=
  String.ofList (.replicate (width - text.toList.length) '0' ++ text.toList)

/-- The options of a manager, and the URL parser of the platform. -/
structure CrawlJobManager where
  parseUrl : String → Option Url
  hasProvider : Bool
  maxJobs : Int
  jobIdPrefix : String

/-- What a manager changes: its store and its counter. -/
structure CrawlJobs where
  store : InMemoryJobStore InternalCrawlJobState
  nextId : Nat

namespace CrawlJobManager

variable (manager : CrawlJobManager)

/-- The checks of `create`: the URL to start from and the index key of the request. -/
def checkInput (input : CreateCrawlJobInput) : Except Fault (String × Option String) := do
  if input.ownerId = "" then throw (invalidInput "crawl-jobs" "ownerId is required")
  if input.credentialBinding = "" then
    throw (invalidInput "crawl-jobs" "credentialBinding is required for crawl jobs")
  let seedUrl ← assertPublicHttpUrl manager.parseUrl input.seedUrl "seedUrl"
  validateBudgets input.budgets
  if input.ttlSeconds ≤ 0 then
    throw (invalidInput "crawl-jobs" "ttlSeconds must be a positive number")
  let key ← indexKey (buildCrawlIdempotencyKey input.ownerId) input.idempotencyKey
  pure (seedUrl, key)

/-- The id of the job with this number. -/
def jobIdOf (number : Nat) : String :=
  manager.jobIdPrefix ++ padStart 6 (toString number)

/-- The state of a new job, once the provider has started the crawl. -/
def newState (number : Nat) (input : CreateCrawlJobInput) (key : Option String)
    (around : Surroundings) : Except Fault InternalCrawlJobState := do
  let now := input.now.getD around.clock
  let groundlaneJobId := manager.jobIdOf number
  let providerJobId ←
    if manager.hasProvider then around.task else .ok ("deferred:" ++ groundlaneJobId)
  let createdAt ← toISOString now
  let expiresAt ← toISOString (now + input.ttlSeconds * 1000)
  validateCrawlJobOwnership input.ownerId input.ownerId
  validateCrawlJobNotExpired expiresAt now
  pure
    { groundlaneJobId := groundlaneJobId
      ownerId := input.ownerId
      credentialBinding := input.credentialBinding
      providerId := input.providerId.getD "crawl"
      providerJobId := providerJobId
      status := .created
      budgets := input.budgets
      createdAt := createdAt
      expiresAt := expiresAt
      partials := []
      providerCursor := none
      callerCancelled := false
      groundlanePollingCancelled := false
      upstreamCancelRequested := false
      upstreamAcknowledgment := none
      droppedUpstreamUrls := 0
      billedAt := none
      sanitizedError := none
      idempotencyKey := key }

/-- One call: what it returns, and what it leaves. -/
def create (jobs : CrawlJobs) (input : CreateCrawlJobInput) (around : Surroundings) :
    Except Fault (JobCreateResult PublicCrawlJob) × CrawlJobs :=
  match manager.checkInput input with
  | .error fault => (.error fault, jobs)
  | .ok (_, key) =>
    match key.bind jobs.store.getByIdempotencyKey with
    | some existing => (.ok ⟨toPublicCrawlJob existing, true⟩, jobs)
    | none =>
      if manager.maxJobs ≤ jobs.store.size then
        (.error (.groundlane .concurrencyLimit "crawl-jobs" "The crawl job store is full"), jobs)
      else match manager.newState jobs.nextId input key around with
        | .error fault => (.error fault, ⟨jobs.store, jobs.nextId + 1⟩)
        | .ok state =>
          (.ok ⟨toPublicCrawlJob state, false⟩, ⟨jobs.store.set state, jobs.nextId + 1⟩)

end CrawlJobManager

end Groundlane.Jobs
