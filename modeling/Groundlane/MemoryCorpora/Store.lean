import Groundlane.Corpora.Runtime
import Groundlane.Ordered.Map
import Groundlane.Sequential.Runs
import Groundlane.Text.Sanitize

/-!
# The corpus store in memory

`CorpusStore` of `core/corpus-runtime.ts`, which keeps corpora and their enrolled sources in maps
and their documents in a backend. A call returns what it returned or threw together with the store
afterwards: a call that throws may have taken a number of the sequence, revoked cache bindings or
stored an enrollment before. What the backend and the clock answer is given with each call.
-/

namespace Groundlane.MemoryCorpora

open Calendar Corpora Sequential

/-- A time of the clock. -/
abbrev Time : Type := { time : Int // IsTimeValue time }

/-! ## Data -/

inductive SourceLifecycle where
  | enrolled
  | removed
  | deleted
deriving DecidableEq, Repr

structure CorpusSourceRecord where
  sourceId : String
  corpusId : String
  contentHash : String
  enrolledAt : Time
  lifecycle : SourceLifecycle
  cacheBindings : List String
deriving DecidableEq

structure CorpusRetentionCaps where
  operatorCapExpiresAt : Option String
  projectCapExpiresAt : Option String
  corpusCapExpiresAt : Option String
  sourceCapExpiresAt : Option String
  minimumBoundMs : Int
deriving DecidableEq, Repr

structure StoredEnrollment where
  sourceId : String
  corpusId : String
  enrolledAt : Time
  expiresAt : Option Time
  retentionPolicy : CorpusRetentionCaps
  sourceRecord : CorpusSourceRecord
  acl : List String
  deletionPolicy : String
  lifecycleProvenance : String
  citationProvenance : String
deriving DecidableEq

/-- The source is enrolled. -/
def StoredEnrollment.enrolled (enrollment : StoredEnrollment) : Bool :=
  enrollment.sourceRecord.lifecycle = .enrolled

structure CorpusRecord where
  corpusId : String
  displayName : String
  ownerId : String
  tenantId : String
  state : CorpusState
  enrollments : OrderedMap String StoredEnrollment
  backendIndexKey : String
  createdAt : Time
  updatedAt : Time
  expiresAt : Option Time
  deletion : DeletionStatus

structure CallerPrincipal where
  principalId : String
  roles : List String
deriving DecidableEq, Repr

structure CreateCorpusInput where
  displayName : String
  ownerId : String
  tenantId : String
  callerExpiresAt : Option String
  caps : Option CorpusRetentionCaps
deriving DecidableEq, Repr

structure EnrollSourceInput where
  sourceId : String
  contentHash : String
  acl : List String
  deletionPolicy : String
  lifecycleProvenance : String
  citationProvenance : String
  callerExpiresAt : Option String
  cacheBindings : Option (List String)
deriving DecidableEq, Repr

/-- The bindings that an enrollment registers. -/
def EnrollSourceInput.bindings (input : EnrollSourceInput) : List String :=
  input.cacheBindings.getD []

structure UpdateSourceInput where
  contentHash : Option String
  acl : Option (List String)
  deletionPolicy : Option String
  citationProvenance : Option String
deriving DecidableEq, Repr

/-- What the backend and the clock answer during a call: the clock is read for the checks and
again for the record. -/
structure Surroundings where
  createIndex : Except Fault String
  enrollDocument : Except Fault Unit
  removeDocument : Except Fault Unit
  deleteIndex : Except Fault Unit
  backendHealthy : Except Fault Bool
  indexHealthy : Except Fault Bool
  checkedAt : Time
  writtenAt : Time

/-- `createHash("sha256")`, whose digests have 64 characters, and `Date.parse`. -/
structure Platform where
  sha256 : String → { digest : String // digest.toList.length = 64 }
  dates : DateParser

/-! ## Checks -/

def invalidInput (message : String) : Fault := .groundlane .invalidInput "corpus-runtime" message

/-- `!value.trim()`. -/
def isBlank (value : String) : Bool := (trimSpace value.toList).isEmpty

def assertBoundedText (value field : String) (maxChars : Nat) : Except Fault Unit := do
  throwIf (isBlank value = true) (invalidInput (field ++ " must be a non-empty string"))
  throwIf (maxChars < utf16Length value)
    (invalidInput (field ++ " exceeds maximum length of " ++ toString maxChars ++ " characters"))

def maxDisplayNameChars : Nat := 120

def maxSourceIdChars : Nat := 160

def maxAclEntries : Nat := 32

def maxAclEntryChars : Nat := 64

def maxContentHashChars : Nat := 128

/-- The loop over the entries of an access list. -/
def assertAclEntries : List String → Except Fault Unit
  | [] => pure ()
  | entry :: rest => do
    assertBoundedText entry "ACL entry" maxAclEntryChars
    assertAclEntries rest

def assertValidAcl (acl : List String) : Except Fault Unit := do
  throwIf (acl = []) (invalidInput "Source ACL must contain at least one entry")
  throwIf (maxAclEntries < acl.length)
    (invalidInput ("Source ACL exceeds maximum of " ++ toString maxAclEntries ++ " entries"))
  assertAclEntries acl

def defaultCaps : CorpusRetentionCaps := ⟨none, none, none, none, 3600000⟩

/-- The time that a text names, or the error of `toISOString` for a time that is none. -/
def readTime (dates : DateParser) (text : String) : Except Fault Time :=
  match h : dates.parse text with
  | none => .error .other
  | some time => .ok ⟨time, dates.isTimeValue text time h⟩

def earlier (first second : Time) : Time :=
  if second.val < first.val then second else first

/-- The earliest of the times that are there. -/
def resolveEnrollmentExpiry (dates : DateParser) (callerExpiresAt : Option String)
    (caps : CorpusRetentionCaps) : Except Fault (Option Time) := do
  let candidates ← ([callerExpiresAt, caps.operatorCapExpiresAt, caps.projectCapExpiresAt,
    caps.corpusCapExpiresAt, caps.sourceCapExpiresAt].filterMap id).mapM (readTime dates)
  pure (match candidates with
    | [] => none
    | first :: rest => some (rest.foldl earlier first))

def validateEnrollmentExpiry (expiresAt : Option Time) (minimumBoundMs : Int) (now : Time) :
    Except Fault Unit :=
  match expiresAt with
  | none => pure ()
  | some expiresAt =>
    throwIf (expiresAt.val < now.val + minimumBoundMs)
      (.error ("Enrollment expiry is below minimum bound: expiry at " ++
        toISOString expiresAt.val ++ " is less than minimum " ++
        toISOString (now.val + minimumBoundMs)))

def validateReEnroll (existing : StoredEnrollment) (newExpiresAt : Option Time) :
    Except Fault Unit :=
  match existing.expiresAt, newExpiresAt with
  | none, _ => pure ()
  | some _, none => .error (.error
    "Re-enrollment cannot extend expiry from finite to persistent; use explicit extend operation")
  | some existingAt, some newAt =>
    throwIf (existingAt.val < newAt.val)
      (.error "Re-enrollment cannot extend expiry; use explicit extend operation")

def sanitizedBackendError : Fault → Fault
  | .groundlane code _ _ => .groundlane code "corpus-runtime" "Corpus backend operation failed"
  | _ => .groundlane .upstreamError "corpus-runtime" "Corpus backend operation failed"

/-- A call of the backend whose errors are sanitized. -/
def sanitized {α : Type} : Except Fault α → Except Fault α
  | .ok value => .ok value
  | .error fault => .error (sanitizedBackendError fault)

/-- A check of a value that may be left out. -/
def checkIfGiven {α : Type} (check : α → Except Fault Unit) : Option α → Except Fault Unit
  | none => pure ()
  | some value => check value

def mapBackendFailureToState (backendHealthy indexHealthy : Bool) : CorpusState :=
  if backendHealthy && indexHealthy then .active else .degraded

/-! ## The store -/

structure CorpusStore where
  seq : Nat
  records : OrderedMap String CorpusRecord
  revokedCacheBindings : List String

namespace CorpusStore

variable (platform : Platform) (store : CorpusStore)

def empty : CorpusStore := ⟨0, .empty, []⟩

def isCacheBindingHittable (binding : String) : Bool :=
  !store.revokedCacheBindings.contains binding

/-- The record of a corpus is changed in place. -/
def setRecord (corpusId : String) (record : CorpusRecord) : CorpusStore :=
  { store with records := store.records.set corpusId record }

def revoke (bindings : List String) : CorpusStore :=
  { store with revokedCacheBindings := store.revokedCacheBindings ++ bindings }

def canWrite (record : CorpusRecord) (caller : CallerPrincipal) : Bool :=
  caller.principalId = record.ownerId || caller.roles.contains "role:writer"

def requireWritableRecord (corpusId : String) (caller : CallerPrincipal) (allowDeleting : Bool) :
    Except Fault CorpusRecord :=
  match store.records.get? corpusId with
  | none => .error (invalidInput "Unknown corpus")
  | some record => do
    throwIf (canWrite record caller = false) (invalidInput "Corpus access denied for this caller")
    throwIf (record.state = .deleted)
      (invalidInput "Corpus access was revoked; the corpus is deleted")
    throwIf (record.state = .deleting ∧ allowDeleting = false)
      (invalidInput "Corpus access was revoked; deletion is in progress")
    pure record

def toView (record : CorpusRecord) : CorpusView where
  corpusId := record.corpusId
  displayName := record.displayName
  state := record.state
  sourceCount := record.enrollments.size
  updatedAt := toISOString record.updatedAt.val
  expiresAt := record.expiresAt.map fun time => toISOString time.val

/-! ### Creating -/

/-- `seq.toString(16).padStart(4, "0")`. -/
def hexNumber (n : Nat) : List Char :=
  (Nat.toDigits 16 n).leftpad 4 '0'

/-- The ID of the corpus with the number. -/
def corpusIdOf (input : CreateCorpusInput) (seq : Nat) : String :=
  String.ofList ("gl-corpus-".toList ++ hexNumber seq ++
    (platform.sha256 (input.tenantId ++ ":" ++ input.ownerId ++ ":" ++ input.displayName ++ ":" ++
      toString seq)).val.toList.take 12)

/-- The checks of a creation, with the expiry that they give. -/
def checkCreate (input : CreateCorpusInput) (around : Surroundings) :
    Except Fault (Option Time) := do
  assertBoundedText input.displayName "Display name" maxDisplayNameChars
  assertBoundedText input.ownerId "Owner ID" maxAclEntryChars
  assertBoundedText input.tenantId "Tenant ID" maxAclEntryChars
  let caps := input.caps.getD defaultCaps
  let expiresAt ← resolveEnrollmentExpiry platform.dates input.callerExpiresAt caps
  validateEnrollmentExpiry expiresAt caps.minimumBoundMs around.checkedAt
  pure expiresAt

/-- The record of a new corpus. -/
def createdRecord (corpusId : String) (input : CreateCorpusInput) (backendIndexKey : String)
    (expiresAt : Option Time) (around : Surroundings) : CorpusRecord where
  corpusId := corpusId
  displayName := input.displayName
  ownerId := input.ownerId
  tenantId := input.tenantId
  state := .active
  enrollments := .empty
  backendIndexKey := backendIndexKey
  createdAt := around.writtenAt
  updatedAt := around.writtenAt
  expiresAt := expiresAt
  deletion := ⟨false, false, false⟩

def createCorpus (input : CreateCorpusInput) (around : Surroundings) :
    Except Fault CorpusView × CorpusStore :=
  match checkCreate platform input around with
  | .error fault => (.error fault, store)
  | .ok expiresAt =>
    let store := { store with seq := store.seq + 1 }
    let corpusId := corpusIdOf platform input store.seq
    match validateCorpusIdentity corpusId >>= fun _ => sanitized around.createIndex with
    | .error fault => (.error fault, store)
    | .ok backendIndexKey =>
      let record := createdRecord corpusId input backendIndexKey expiresAt around
      (.ok (toView record), store.setRecord corpusId record)

/-! ### Enrolling -/

/-- What an enrollment has found when the backend has taken the document. -/
structure Enrolling where
  record : CorpusRecord
  existing : Option StoredEnrollment
  caps : CorpusRetentionCaps
  expiresAt : Option Time

/-- An enrollment up to the answer of the backend. -/
def beginEnroll (corpusId : String) (input : EnrollSourceInput) (caller : CallerPrincipal)
    (caps : Option CorpusRetentionCaps) (around : Surroundings) : Except Fault Enrolling := do
  let record ← store.requireWritableRecord corpusId caller false
  assertBoundedText input.sourceId "Source ID" maxSourceIdChars
  assertBoundedText input.contentHash "Content hash" maxContentHashChars
  assertValidAcl input.acl
  let caps := caps.getD defaultCaps
  let expiresAt ← resolveEnrollmentExpiry platform.dates input.callerExpiresAt caps
  validateEnrollmentExpiry expiresAt caps.minimumBoundMs around.checkedAt
  let existing := record.enrollments.get? input.sourceId
  checkIfGiven (fun enrolled => validateReEnroll enrolled expiresAt)
    (existing.filter StoredEnrollment.enrolled)
  sanitized around.enrollDocument
  pure ⟨record, existing, caps, expiresAt⟩

def earliestExpiry : Option Time → Option Time → Option Time
  | none, resolved => resolved
  | some existing, none => some existing
  | some existing, some resolved =>
    some (if resolved.val < existing.val then resolved else existing)

/-- The enrollment that is stored. -/
def enrollmentOf (corpusId : String) (input : EnrollSourceInput) (enrolling : Enrolling)
    (around : Surroundings) : StoredEnrollment :=
  let enrolledAt := (enrolling.existing.map StoredEnrollment.enrolledAt).getD around.writtenAt
  { sourceId := input.sourceId
    corpusId := corpusId
    enrolledAt := enrolledAt
    expiresAt := earliestExpiry (enrolling.existing.bind StoredEnrollment.expiresAt)
      enrolling.expiresAt
    retentionPolicy := enrolling.caps
    sourceRecord :=
      { sourceId := input.sourceId
        corpusId := corpusId
        contentHash := input.contentHash
        enrolledAt := enrolledAt
        lifecycle := .enrolled
        cacheBindings := input.bindings }
    acl := input.acl
    deletionPolicy := input.deletionPolicy
    lifecycleProvenance := input.lifecycleProvenance
    citationProvenance := input.citationProvenance }

/-- The state of a corpus behind an enrollment. -/
def settledState (state : CorpusState) (around : Surroundings) : Except Fault CorpusState :=
  if state = .active ∨ state = .degraded then do
    let backendHealthy ← around.backendHealthy
    let indexHealthy ← around.indexHealthy
    pure (mapBackendFailureToState backendHealthy indexHealthy)
  else pure state

def enrollSource (corpusId : String) (input : EnrollSourceInput) (caller : CallerPrincipal)
    (caps : Option CorpusRetentionCaps) (around : Surroundings) :
    Except Fault StoredEnrollment × CorpusStore :=
  match store.beginEnroll platform corpusId input caller caps around with
  | .error fault => (.error fault, store)
  | .ok enrolling =>
    let enrollment := enrollmentOf corpusId input enrolling around
    let record := { enrolling.record with
      enrollments := enrolling.record.enrollments.set input.sourceId enrollment
      updatedAt := around.writtenAt }
    -- The enrollment is stored before the backend is asked for its health.
    match settledState record.state around with
    | .error fault => (.error fault, store.setRecord corpusId record)
    | .ok state => (.ok enrollment, store.setRecord corpusId { record with state })

/-! ### Updating -/

/-- The enrolled source that an operation is about. -/
def requireEnrolled (corpusId sourceId : String) (caller : CallerPrincipal) :
    Except Fault (CorpusRecord × StoredEnrollment) := do
  let record ← store.requireWritableRecord corpusId caller false
  match (record.enrollments.get? sourceId).filter StoredEnrollment.enrolled with
  | none => .error (invalidInput ("Source \"" ++ sourceId ++ "\" is not enrolled"))
  | some existing => pure (record, existing)

/-- An update up to the answer of the backend. -/
def beginUpdate (corpusId sourceId : String) (update : UpdateSourceInput)
    (caller : CallerPrincipal) (around : Surroundings) :
    Except Fault (CorpusRecord × StoredEnrollment) := do
  let found ← store.requireEnrolled corpusId sourceId caller
  checkIfGiven (fun contentHash => assertBoundedText contentHash "Content hash"
    maxContentHashChars) update.contentHash
  checkIfGiven assertValidAcl update.acl
  sanitized around.enrollDocument
  pure found

/-- The enrollment behind an update. -/
def updatedEnrollment (existing : StoredEnrollment) (update : UpdateSourceInput) :
    StoredEnrollment :=
  { existing with
    sourceRecord :=
      { existing.sourceRecord with
        contentHash := update.contentHash.getD existing.sourceRecord.contentHash }
    acl := update.acl.getD existing.acl
    deletionPolicy := update.deletionPolicy.getD existing.deletionPolicy
    citationProvenance := update.citationProvenance.getD existing.citationProvenance }

def updateSource (corpusId sourceId : String) (update : UpdateSourceInput)
    (caller : CallerPrincipal) (around : Surroundings) :
    Except Fault StoredEnrollment × CorpusStore :=
  match store.beginUpdate corpusId sourceId update caller around with
  | .error fault => (.error fault, store)
  | .ok (record, existing) =>
    let updated := updatedEnrollment existing update
    (.ok updated, store.setRecord corpusId { record with
      enrollments := record.enrollments.set sourceId updated
      updatedAt := around.writtenAt })

/-! ### Removing -/

/-- An enrollment with another lifecycle and without bindings. -/
def withdrawn (lifecycle : SourceLifecycle) (enrollment : StoredEnrollment) : StoredEnrollment :=
  { enrollment with
    sourceRecord := { enrollment.sourceRecord with lifecycle, cacheBindings := [] } }

def removeSource (corpusId sourceId : String) (caller : CallerPrincipal) (around : Surroundings) :
    Except Fault String × CorpusStore :=
  match store.requireEnrolled corpusId sourceId caller with
  | .error fault => (.error fault, store)
  | .ok (record, existing) =>
    let store := store.revoke existing.sourceRecord.cacheBindings
    match sanitized around.removeDocument with
    | .error fault => (.error fault, store)
    | .ok () => (.ok sourceId, store.setRecord corpusId { record with
      enrollments := record.enrollments.set sourceId (withdrawn .removed existing)
      updatedAt := around.writtenAt })

/-- `revokeEnrollment`, for a source that is enrolled. -/
def revokeEnrolled (_ : String) (enrollment : StoredEnrollment) : StoredEnrollment :=
  if enrollment.enrolled then withdrawn .deleted enrollment else enrollment

/-- The bindings of the enrolled sources. -/
def enrolledBindings (record : CorpusRecord) : List String :=
  record.enrollments.entries.flatMap fun entry =>
    if entry.2.enrolled then entry.2.sourceRecord.cacheBindings else []

/-- The revocation at the beginning of a deletion, with the bindings that it revokes. -/
def revokeAccess (record : CorpusRecord) : CorpusRecord × List String :=
  if record.state = .deleting then (record, [])
  else ({ record with
    enrollments := record.enrollments.mapValues revokeEnrolled
    state := .deleting }, enrolledBindings record)

def deleteCorpus (corpusId : String) (caller : CallerPrincipal) (around : Surroundings) :
    Except Fault DeletionStatus × CorpusStore :=
  match store.requireWritableRecord corpusId caller true with
  | .error fault => (.error fault, store)
  | .ok record =>
    if record.deletion.isComplete = true ∧ record.state = .deleted then
      (.ok record.deletion, store)
    else
      let (record, bindings) := revokeAccess record
      let store := store.revoke bindings
      match around.deleteIndex with
      | .error _ =>
        let deletion : DeletionStatus := ⟨false, false, false⟩
        (validateDeletionStatus deletion >>= fun _ => pure deletion,
          store.setRecord corpusId { record with deletion, updatedAt := around.writtenAt })
      | .ok () =>
        let deletion : DeletionStatus := ⟨true, true, true⟩
        (validateDeletionStatus deletion >>= fun _ => pure deletion,
          store.setRecord corpusId
            { record with deletion, state := .deleted, updatedAt := around.writtenAt })

end CorpusStore

/-! ## Runs -/

/-- The calls. -/
inductive Call where
  | createCorpus (input : CreateCorpusInput)
  | enrollSource (corpusId : String) (input : EnrollSourceInput) (caller : CallerPrincipal)
    (caps : Option CorpusRetentionCaps)
  | updateSource (corpusId sourceId : String) (update : UpdateSourceInput)
    (caller : CallerPrincipal)
  | removeSource (corpusId sourceId : String) (caller : CallerPrincipal)
  | deleteCorpus (corpusId : String) (caller : CallerPrincipal)
deriving DecidableEq, Repr

/-- The store behind a call. -/
def CorpusStore.step (platform : Platform) (store : CorpusStore) (call : Call × Surroundings) :
    CorpusStore :=
  match call.1 with
  | .createCorpus input => (store.createCorpus platform input call.2).2
  | .enrollSource corpusId input caller caps =>
    (store.enrollSource platform corpusId input caller caps call.2).2
  | .updateSource corpusId sourceId update caller =>
    (store.updateSource corpusId sourceId update caller call.2).2
  | .removeSource corpusId sourceId caller => (store.removeSource corpusId sourceId caller call.2).2
  | .deleteCorpus corpusId caller => (store.deleteCorpus corpusId caller call.2).2

end Groundlane.MemoryCorpora
