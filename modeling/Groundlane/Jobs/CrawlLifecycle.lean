import Groundlane.Jobs.Creation
import Groundlane.Sequential.Runs
import Groundlane.Text.Sanitize

/-!
# The life of a crawl job

The methods of `CrawlJobManager` (`core/crawl-jobs.ts`) next to `create`: `status`, `result`,
`ingestUpstream` and the three cancellations. Each returns what it answers and what it leaves; the
answers of the provider are arguments of the calls that ask for them.
-/

namespace Groundlane.Jobs

open Sequential

/-! ## Calls -/

/-- A number that the manager checks with `Number.isInteger`: an integer, or none. -/
abbrev Number := Option Int

structure CrawlJobCaller where
  ownerId : String
  credentialBinding : String
deriving DecidableEq, Repr

structure CrawlResultPageOptions where
  cursor : Option String
  pageSize : Option Number
deriving DecidableEq, Repr

structure CrawlResultPage where
  job : PublicCrawlJob
  items : List CrawlPartialResult
  nextCursor : Option String
deriving DecidableEq, Repr

structure UpstreamCrawlPage where
  url : String
  contentChars : Number
  fetchedAt : String
deriving DecidableEq, Repr

structure UpstreamCrawlPageBatch where
  pages : List UpstreamCrawlPage
  nextCursor : Option String
deriving DecidableEq, Repr

/-- A call of a manager, with what the provider answers in it. -/
inductive CrawlCall where
  | create (input : CreateCrawlJobInput) (around : Surroundings)
  | status (jobId : String) (caller : CrawlJobCaller) (now : Int)
  | result (jobId : String) (caller : CrawlJobCaller) (options : CrawlResultPageOptions)
    (now : Int)
  | ingestUpstream (jobId : String) (caller : CrawlJobCaller) (now : Int)
    (upstream : Except Fault UpstreamCrawlPageBatch)
  | cancelCallerWait (jobId : String) (caller : CrawlJobCaller) (now : Int)
  | cancelGroundlanePolling (jobId : String) (caller : CrawlJobCaller) (now : Int)
  | requestUpstreamCancel (jobId : String) (caller : CrawlJobCaller) (now : Int)
    (answer : Except Fault (Option ProviderCancelAcknowledgment))

/-- A call that pulls a batch into the job. -/
def CrawlCall.ingests (jobId : String) : CrawlCall → Prop
  | ingestUpstream other _ _ _ => other = jobId
  | _ => False

/-! ## Statuses and cursors -/

namespace CrawlJobStatus

/-- The value of a status in the source. -/
def text : CrawlJobStatus → String
  | created => "created"
  | crawling => "crawling"
  | completed => "completed"
  | failed => "failed"
  | cancelledByCaller => "cancelled_by_caller"
  | cancelledByGroundlane => "cancelled_by_groundlane"
  | cancelledByUpstream => "cancelled_by_upstream"

/-- `CRAWL_TERMINAL_STATUSES.has`. -/
def terminal : CrawlJobStatus → Bool
  | created | crawling => false
  | completed | failed | cancelledByCaller | cancelledByGroundlane | cancelledByUpstream => true

/-- `CRAWL_STATUS_ORDER`. -/
def order : CrawlJobStatus → Nat
  | created => 0
  | crawling => 1
  | completed | failed | cancelledByCaller | cancelledByGroundlane | cancelledByUpstream => 2

end CrawlJobStatus

def validateCrawlStatusTransition (source target : CrawlJobStatus) : Except Fault Unit :=
  if source = target then
    .error (invalidInput "crawl-jobs"
      ("Status is already \"" ++ source.text ++ "\"; no transition needed"))
  else if source.terminal then
    .error (invalidInput "crawl-jobs" ("Cannot transition from terminal status \"" ++
      source.text ++ "\" to \"" ++ target.text ++ "\""))
  else if target.order < source.order then
    .error (invalidInput "crawl-jobs" ("Non-monotonic crawl status transition: \"" ++
      source.text ++ "\" -> \"" ++ target.text ++ "\""))
  else .ok ()

def validateCrawlBudgets (budgets : CrawlBudgets) (currentPages currentBytes
    currentOutputChars : Nat) : Except Fault Unit :=
  if budgets.maxPages < currentPages then
    .error (.error ("Page budget exceeded: " ++ toString currentPages ++ " > " ++
      toString budgets.maxPages))
  else if budgets.maxBytes < currentBytes then
    .error (.error ("Byte budget exceeded: " ++ toString currentBytes ++ " > " ++
      toString budgets.maxBytes))
  else if budgets.maxOutputChars < currentOutputChars then
    .error (.error ("Output char budget exceeded: " ++ toString currentOutputChars ++ " > " ++
      toString budgets.maxOutputChars))
  else .ok ()

def maxCrawlPartials : Nat := 1000

def maxCrawlPageSize : Int := 100

def defaultCrawlPageSize : Int := 20

/-- The digits of a cursor `page:<offset>`. -/
def cursorDigits (cursor : String) : Option (List Char) :=
  let digits := cursor.toList.drop 5
  if cursor.toList.take 5 = "page:".toList ∧ digits ≠ [] ∧ digits.all Char.isDigit = true then
    some digits
  else none

/-- `parseResultCursor`. Digits from `2 ^ 1024 - 2 ^ 970` on are read as infinity, which is no
integer; the rounding of smaller ones is behind every page. -/
def parseResultCursor : Option String → Except Fault Nat
  | none => .ok 0
  | some cursor =>
    let invalid := invalidInput "crawl-jobs"
      ("Invalid result cursor \"" ++ cursor ++ "\"; expected \"page:<offset>\"")
    match cursorDigits cursor with
    | none => .error invalid
    | some digits =>
      let offset := Nat.ofDigitChars 10 digits 0
      if 2 ^ 1024 - 2 ^ 970 ≤ offset then .error invalid else .ok offset

/-! ## The methods -/

/-- Store the state of a job. -/
def CrawlJobs.put (jobs : CrawlJobs) (state : InternalCrawlJobState) : CrawlJobs :=
  ⟨jobs.store.set state, jobs.nextId⟩

/-- `resolve`: the state of the job, if the caller may see it. -/
def CrawlJobs.resolve (jobs : CrawlJobs) (jobId : String) (caller : CrawlJobCaller) (now : Int) :
    Except Fault InternalCrawlJobState :=
  match jobs.store.get jobId with
  | none => .error (invalidInput "crawl-jobs" ("Unknown crawl job \"" ++ jobId ++ "\""))
  | some state =>
    match validateCrawlJobOwnership state.ownerId caller.ownerId with
    | .error error => .error (invalidInput "crawl-jobs" error.message)
    | .ok () =>
      if state.credentialBinding ≠ caller.credentialBinding then
        .error (invalidInput "crawl-jobs"
          "Credential binding mismatch: caller credential does not match this crawl job")
      else match validateCrawlJobNotExpired state.expiresAt now with
        | .error error => .error (.groundlane .deadlineExceeded "crawl-jobs" error.message)
        | .ok () => .ok state

/-- `status`. -/
def CrawlJobs.status (jobs : CrawlJobs) (jobId : String) (caller : CrawlJobCaller) (now : Int) :
    Except Fault PublicCrawlJob :=
  (jobs.resolve jobId caller now).map toPublicCrawlJob

/-- `result`. -/
def CrawlJobs.result (jobs : CrawlJobs) (jobId : String) (caller : CrawlJobCaller)
    (options : CrawlResultPageOptions) (now : Int) : Except Fault CrawlResultPage :=
  match jobs.resolve jobId caller now with
  | .error fault => .error fault
  | .ok state =>
    match options.pageSize.getD (some defaultCrawlPageSize) with
    | none => .error (invalidInput "crawl-jobs" "pageSize must be an integer between 1 and 100")
    | some pageSize =>
      if pageSize < 1 ∨ maxCrawlPageSize < pageSize then
        .error (invalidInput "crawl-jobs" "pageSize must be an integer between 1 and 100")
      else match parseResultCursor options.cursor with
        | .error fault => .error fault
        | .ok offset =>
          let stop := offset + pageSize.toNat
          .ok
            { job := toPublicCrawlJob state
              items := (state.partials.drop offset).take pageSize.toNat
              nextCursor := if stop < state.partials.length then
                some ("page:" ++ toString stop) else none }

/-- The message of a job that fails. -/
def failureMessage (code : ErrorCode) (error : Fault) : String :=
  if code = .upstreamError then "Upstream crawl fetch failed: " ++ sanitizeUpstreamError error
  else sanitizeUpstreamError error

/-- `fail`: the job fails, and so does the call. -/
def CrawlJobs.fail (jobs : CrawlJobs) (state : InternalCrawlJobState) (error : Fault) (now : Int)
    (code : ErrorCode) : Except Fault PublicCrawlJob × CrawlJobs :=
  match state.billedAt.elim (toISOString now) .ok with
  | .error fault => (.error fault, jobs)
  | .ok billedAt =>
    (.error (.groundlane code "crawl-jobs" (failureMessage code error)),
      jobs.put { state with
        status := .failed
        sanitizedError := some (failureMessage code error)
        billedAt := some billedAt })

namespace CrawlJobManager

variable (manager : CrawlJobManager)

/-- The pages of a batch that are kept. -/
def keptPage (page : UpstreamCrawlPage) : Option CrawlPartialResult :=
  match assertPublicHttpUrl manager.parseUrl page.url "upstream page url", page.contentChars with
  | .ok safeUrl, some contentChars =>
    if contentChars < 0 then none else some ⟨safeUrl, contentChars.toNat, page.fetchedAt⟩
  | _, _ => none

/-- `ingestUpstream`. -/
def ingestUpstream (jobs : CrawlJobs) (jobId : String) (caller : CrawlJobCaller) (now : Int)
    (upstream : Except Fault UpstreamCrawlPageBatch) :
    Except Fault PublicCrawlJob × CrawlJobs :=
  match jobs.resolve jobId caller now with
  | .error fault => (.error fault, jobs)
  | .ok state =>
    if state.status.terminal then
      (.error (invalidInput "crawl-jobs"
        ("Cannot transition from terminal status \"" ++ state.status.text ++ "\"")), jobs)
    else match if manager.hasProvider then upstream else .ok ⟨[], none⟩ with
      | .error error => jobs.fail state error now .upstreamError
      | .ok batch =>
        let kept := batch.pages.filterMap manager.keptPage
        let merged := state.partials ++ kept
        let dropped := state.droppedUpstreamUrls + (batch.pages.length - kept.length)
        let counted := { state with droppedUpstreamUrls := dropped }
        if maxCrawlPartials < merged.length then
          jobs.fail counted (.error ("Partial result cap exceeded: " ++
            toString merged.length ++ " > 1000")) now .outputLimit
        else match validateCrawlBudgets state.budgets merged.length (totalChars merged)
            (totalChars merged) with
          | .error error => jobs.fail counted error now .outputLimit
          | .ok () =>
            let drained := batch.pages.isEmpty && batch.nextCursor.isNone
            let status : CrawlJobStatus := if drained then .completed else .crawling
            match if state.status = status then .ok ()
                else validateCrawlStatusTransition state.status status with
            | .error fault => (.error fault, jobs)
            | .ok () =>
              match if drained then (toISOString now).map some else .ok state.billedAt with
              | .error fault => (.error fault, jobs)
              | .ok billedAt =>
                let next := { state with
                  status := status
                  partials := merged
                  providerCursor := batch.nextCursor
                  droppedUpstreamUrls := dropped
                  billedAt := billedAt }
                (.ok (toPublicCrawlJob next), jobs.put next)

end CrawlJobManager

/-- `cancelCallerWait` and `cancelGroundlanePolling`: a transition that sets a flag. -/
def CrawlJobs.cancel (jobs : CrawlJobs) (jobId : String) (caller : CrawlJobCaller) (now : Int)
    (target : CrawlJobStatus) (flag : InternalCrawlJobState → InternalCrawlJobState) :
    Except Fault PublicCrawlJob × CrawlJobs :=
  match jobs.resolve jobId caller now with
  | .error fault => (.error fault, jobs)
  | .ok state =>
    match validateCrawlStatusTransition state.status target with
    | .error fault => (.error fault, jobs)
    | .ok () =>
      let next := { flag state with status := target }
      (.ok (toPublicCrawlJob next), jobs.put next)

def CrawlJobs.cancelCallerWait (jobs : CrawlJobs) (jobId : String) (caller : CrawlJobCaller)
    (now : Int) : Except Fault PublicCrawlJob × CrawlJobs :=
  jobs.cancel jobId caller now .cancelledByCaller
    fun state => { state with callerCancelled := true }

def CrawlJobs.cancelGroundlanePolling (jobs : CrawlJobs) (jobId : String)
    (caller : CrawlJobCaller) (now : Int) : Except Fault PublicCrawlJob × CrawlJobs :=
  jobs.cancel jobId caller now .cancelledByGroundlane
    fun state => { state with groundlanePollingCancelled := true }

structure CrawlCancelResult where
  callerCancelled : Bool
  groundlanePollingCancelled : Bool
  upstreamCancelled : Bool
  providerAcknowledgment : Option ProviderCancelAcknowledgment
deriving DecidableEq, Repr

structure CrawlUpstreamCancelOutcome where
  job : PublicCrawlJob
  cancelResult : CrawlCancelResult
deriving DecidableEq, Repr

def validateCrawlCancelResult (result : CrawlCancelResult) : Except Fault Unit :=
  if result.upstreamCancelled ∧ result.providerAcknowledgment = none then
    .error (.error "upstreamCancelled cannot be true without providerAcknowledgment evidence")
  else .ok ()

/-- What `requestUpstreamCancel` answers once the state is stored. -/
def cancelOutcome (next : InternalCrawlJobState) (acknowledgment :
    Option ProviderCancelAcknowledgment) : Except Fault CrawlUpstreamCancelOutcome :=
  let cancelResult : CrawlCancelResult :=
    ⟨next.callerCancelled, next.groundlanePollingCancelled, acknowledgment.isSome, acknowledgment⟩
  (validateCrawlCancelResult cancelResult).map fun () => ⟨toPublicCrawlJob next, cancelResult⟩

namespace CrawlJobManager

variable (manager : CrawlJobManager)

/-- `requestUpstreamCancel`. -/
def requestUpstreamCancel (jobs : CrawlJobs) (jobId : String) (caller : CrawlJobCaller) (now : Int)
    (answer : Except Fault (Option ProviderCancelAcknowledgment)) :
    Except Fault CrawlUpstreamCancelOutcome × CrawlJobs :=
  match jobs.resolve jobId caller now with
  | .error fault => (.error fault, jobs)
  | .ok state =>
    if state.status.terminal then
      (.error (invalidInput "crawl-jobs"
        ("Cannot transition from terminal status \"" ++ state.status.text ++ "\"")), jobs)
    else match if manager.hasProvider then answer else .ok none with
      | .error fault => (.error fault, jobs)
      | .ok none =>
        let next := { state with upstreamCancelRequested := true }
        (cancelOutcome next none, jobs.put next)
      | .ok (some acknowledgment) =>
        match validateCrawlStatusTransition state.status .cancelledByUpstream with
        | .error fault => (.error fault, jobs)
        | .ok () =>
          let next := { state with
            status := .cancelledByUpstream
            upstreamCancelRequested := true
            upstreamAcknowledgment := some acknowledgment }
          (cancelOutcome next (some acknowledgment), jobs.put next)

/-- What a call leaves. -/
def step (jobs : CrawlJobs) : CrawlCall → CrawlJobs
  | .create input around => (manager.create jobs input around).2
  | .status _ _ _ => jobs
  | .result _ _ _ _ => jobs
  | .ingestUpstream jobId caller now upstream =>
    (manager.ingestUpstream jobs jobId caller now upstream).2
  | .cancelCallerWait jobId caller now => (jobs.cancelCallerWait jobId caller now).2
  | .cancelGroundlanePolling jobId caller now => (jobs.cancelGroundlanePolling jobId caller now).2
  | .requestUpstreamCancel jobId caller now answer =>
    (manager.requestUpstreamCancel jobs jobId caller now answer).2

/-- A new manager. -/
def initialJobs : CrawlJobs := ⟨.empty, 1⟩

/-- What some calls of a new manager leave. -/
abbrev after (calls : List CrawlCall) : CrawlJobs :=
  Sequential.run manager.step initialJobs calls

end CrawlJobManager

end Groundlane.Jobs
