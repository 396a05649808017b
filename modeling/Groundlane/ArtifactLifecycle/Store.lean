import Groundlane.Ordered.Map
import Groundlane.Sequential.Runs
import Groundlane.UploadFlow.Contract

/-!
# The artifact lifecycle store

`ArtifactLifecycleStore` of `core/artifact-lifecycle.ts` over `InMemoryArtifactStorage`. An
operation returns what it returned or threw together with the store afterwards, since an operation
that throws may have changed the store (`readArtifact` marks an artifact that it finds expired).
A status that allows no access comes with a set flag (`ArtifactLifecycleRecord`), so a record that
is revoked and active cannot be built.
-/

namespace Groundlane.ArtifactLifecycle

inductive ArtifactLifecycleStatus where
  | active
  | cancelled
  | failed
  | logicallyExpired
  | logicallyDeleted
  | physicalCleanupPending
  | cleaned
deriving DecidableEq, Repr

inductive StagingLifecycleStatus where
  | active
  | logicallyExpired
  | logicallyDeleted
  | physicalCleanupPending
  | cleaned
deriving DecidableEq, Repr

/-- An artifact is revoked exactly when it is not active any more: every operation that leaves
the status sets the flag, and none clears it. -/
structure ArtifactLifecycleRecord where
  ref : ArtifactRef
  status : ArtifactLifecycleStatus
  accessRevoked : Bool
  createdAt : Int
  updatedAt : Int
  revoked_iff : accessRevoked = true ↔ status ≠ .active

structure StagingLifecycleEntry where
  intentId : String
  status : StagingLifecycleStatus
  accessRevoked : Bool
  createdAt : Int
  updatedAt : Int
deriving DecidableEq, Repr

structure ProcessReceipt where
  refId : String
  byteSize : Nat
  contentHash : String
  expiresAt : Int
deriving DecidableEq, Repr

def lifecycleError (message : String) : Fault :=
  .groundlane .invalidInput "artifact-lifecycle" message

def assertOwnershipScope (scope : String) : Except Fault Unit :=
  if scope = "" ∨ trimSpace scope.toList = [] then
    .error (lifecycleError "Artifact must carry a non-empty ownershipScope")
  else .ok ()

def assertRefId (refId : String) : Except Fault Unit :=
  if refId = "" then .error (lifecycleError "Artifact must carry a non-empty refId")
  else match validateArtifactRefId refId with
    | .ok () => .ok ()
    | .error fault => .error (lifecycleError fault.message)

/-! ## Storage -/

structure Blob where
  bytes : Bytes
  ownershipScope : String
deriving DecidableEq

/-- `InMemoryArtifactStorage`. -/
abbrev InMemoryArtifactStorage := OrderedMap String Blob

namespace InMemoryArtifactStorage

def put (storage : InMemoryArtifactStorage) (refId ownershipScope : String) (bytes : Bytes) :
    Except Fault InMemoryArtifactStorage := do
  assertRefId refId
  assertOwnershipScope ownershipScope
  return storage.set refId ⟨bytes, ownershipScope⟩

def get (storage : InMemoryArtifactStorage) (refId : String) : Option Bytes :=
  (storage.get? refId).map Blob.bytes

end InMemoryArtifactStorage

structure ArtifactLifecycleStore where
  records : OrderedMap String ArtifactLifecycleRecord
  staging : OrderedMap String StagingLifecycleEntry
  storage : InMemoryArtifactStorage

/-- What an operation returned or threw, and the store afterwards. -/
abbrev Outcome (α : Type) := Except Fault α × ArtifactLifecycleStore

namespace ArtifactLifecycleRecord

variable (record : ArtifactLifecycleRecord)

/-- A status without access is written together with the flag. -/
def revoke (status : ArtifactLifecycleStatus) (nowMs : Int) (h : status ≠ .active) :
    ArtifactLifecycleRecord :=
  { record with
    status
    accessRevoked := true
    updatedAt := nowMs
    revoked_iff := ⟨fun _ => h, fun _ => rfl⟩ }

/-- The status alone is written, on a record that is not active. -/
def moveToPending (nowMs : Int) (h : record.status ≠ .active) : ArtifactLifecycleRecord :=
  { record with
    status := .physicalCleanupPending
    updatedAt := nowMs
    revoked_iff := ⟨fun _ => nofun, fun _ => record.revoked_iff.2 h⟩ }

/-- What `expireSweep` does to a record. -/
def expireIfDue (nowMs : Int) : ArtifactLifecycleRecord :=
  if record.status = .active ∧ nowMs ≥ record.ref.expiresAt then
    record.revoke .logicallyExpired nowMs nofun
  else record

/-- Whether `sweepArtifacts` cleans up the artifact. -/
def isSwept (nowMs windowMs : Int) : Bool :=
  record.status = .physicalCleanupPending ∧ ¬ nowMs - record.updatedAt < windowMs

/-- What `sweepArtifacts` does to a record. -/
def sweep (nowMs windowMs : Int) : ArtifactLifecycleRecord :=
  if nowMs - record.updatedAt < windowMs then record
  else
    if h : record.status = .logicallyExpired ∨ record.status = .logicallyDeleted then
      record.moveToPending nowMs (by rcases h with h | h <;> rw [h] <;> nofun)
    else if record.status = .physicalCleanupPending then record.revoke .cleaned nowMs nofun
    else record

end ArtifactLifecycleRecord

namespace StagingLifecycleEntry

variable (entry : StagingLifecycleEntry)

/-- Whether `sweepStaging` cleans up the entry. -/
def isSwept (nowMs windowMs : Int) : Bool :=
  entry.status = .physicalCleanupPending ∧ ¬ nowMs - entry.updatedAt < windowMs

/-- What `sweepStaging` does to an entry. -/
def sweep (nowMs windowMs : Int) : StagingLifecycleEntry :=
  if nowMs - entry.updatedAt < windowMs then entry
  else if entry.status = .logicallyExpired ∨ entry.status = .logicallyDeleted then
    { entry with status := .physicalCleanupPending, updatedAt := nowMs }
  else if entry.status = .physicalCleanupPending then
    { entry with status := .cleaned, updatedAt := nowMs }
  else entry

end StagingLifecycleEntry

namespace ArtifactLifecycleStore

variable (store : ArtifactLifecycleStore)

/-- `new ArtifactLifecycleStore(storage)`. -/
def create (storage : InMemoryArtifactStorage) : ArtifactLifecycleStore where
  records := .empty
  staging := .empty
  storage := storage

def unknownArtifact : Fault := lifecycleError "Unknown artifact"

def unknownStaging : Fault := lifecycleError "Unknown staging intent"

def accessDenied (refId : String) : Fault :=
  lifecycleError ("Cross-ownership access denied for artifact \"" ++ refId ++ "\"")

/-! ## Artifacts -/

def registerVerifiedArtifact (ref : ArtifactRef) (bytes : Bytes) (nowMs : Int) : Outcome Unit :=
  if ¬ ref.verified then
    (.error (lifecycleError "Cannot register unverified upload as an artifact"), store)
  else match assertRefId ref.refId, assertOwnershipScope ref.ownershipScope with
    | .error fault, _ => (.error fault, store)
    | .ok (), .error fault => (.error fault, store)
    | .ok (), .ok () =>
      if store.records.has ref.refId then
        (.error (lifecycleError "Artifact already registered"), store)
      else match store.storage.put ref.refId ref.ownershipScope bytes with
        | .error fault => (.error fault, store)
        | .ok storage =>
          (.ok (), { store with
            storage
            records := store.records.set ref.refId
              { ref
                status := .active
                accessRevoked := false
                createdAt := nowMs
                updatedAt := nowMs
                revoked_iff := ⟨nofun, fun h => absurd rfl h⟩ } })

def getRecord (refId : String) : Option ArtifactLifecycleRecord :=
  store.records.get? refId

def readArtifact (refId callerScope : String) (nowMs : Int) : Outcome Bytes :=
  match store.records.get? refId with
  | none => (.error unknownArtifact, store)
  | some record =>
    if record.ref.ownershipScope ≠ callerScope then (.error (accessDenied refId), store)
    else if record.accessRevoked ∨ record.status = .logicallyDeleted then
      (.error (lifecycleError "Artifact access was revoked; the artifact was deleted"), store)
    else if record.status = .cancelled ∨ record.status = .failed then
      (.error (lifecycleError "Artifact access was revoked; processing did not complete"), store)
    else if record.status = .cleaned then
      (.error (lifecycleError "Artifact access was revoked; the artifact was cleaned up"), store)
    else if nowMs ≥ record.ref.expiresAt ∨ record.status = .logicallyExpired then
      (.error (lifecycleError "Artifact access was revoked; the artifact has expired"),
        if record.status = .active then
          { store with
            records := store.records.set refId (record.revoke .logicallyExpired nowMs nofun) }
        else store)
    else match store.storage.get refId with
      | none => (.error (lifecycleError "Artifact not found or access denied"), store)
      | some bytes => (.ok bytes, store)

def processArtifact (refId callerScope : String) (nowMs : Int) : Outcome ProcessReceipt :=
  match store.readArtifact refId callerScope nowMs with
  | (.error fault, after) => (.error fault, after)
  | (.ok _, after) => match after.records.get? refId with
    | none => (.error unknownArtifact, after)
    | some record =>
      (.ok { refId := record.ref.refId
             byteSize := record.ref.byteSize
             contentHash := record.ref.contentHash
             expiresAt := record.ref.expiresAt }, after)

/-- Processing that did not complete: the status is written whatever it was before. -/
def stopProcessing (status : ArtifactLifecycleStatus) (h : status ≠ .active) (refId : String)
    (nowMs : Int) : Outcome Unit :=
  match store.records.get? refId with
  | none => (.error unknownArtifact, store)
  | some record =>
    (.ok (), { store with records := store.records.set refId (record.revoke status nowMs h) })

def cancelProcessing (refId _reason : String) (nowMs : Int) : Outcome Unit :=
  store.stopProcessing .cancelled nofun refId nowMs

def failProcessing (refId _reason : String) (nowMs : Int) : Outcome Unit :=
  store.stopProcessing .failed nofun refId nowMs

def expireSweep (nowMs : Int) : Outcome (List String) :=
  (.ok (store.records.keysWhere fun record =>
      record.status = .active ∧ nowMs ≥ record.ref.expiresAt),
    { store with records := store.records.mapValues fun _ record => record.expireIfDue nowMs })

def deleteExplicit (refId callerScope : String) (nowMs : Int) : Outcome Unit :=
  match store.records.get? refId with
  | none => (.error unknownArtifact, store)
  | some record =>
    if record.ref.ownershipScope ≠ callerScope then (.error (accessDenied refId), store)
    else (.ok (), { store with
      records := store.records.set refId (record.revoke .logicallyDeleted nowMs nofun) })

def markArtifactCleanupPending (refId : String) (nowMs : Int) : Outcome ArtifactLifecycleRecord :=
  match store.records.get? refId with
  | none => (.error unknownArtifact, store)
  | some record =>
    if h : record.status = .logicallyExpired ∨ record.status = .logicallyDeleted then
      let pending := record.moveToPending nowMs (by rcases h with h | h <;> rw [h] <;> nofun)
      (.ok pending, { store with records := store.records.set refId pending })
    else (.error (lifecycleError
      "Only logically expired or deleted artifacts can move to cleanup pending"), store)

/-- The window of a sweep: the longest one when none is given. -/
def windowOf (windowMs : Option Int) : Int :=
  windowMs.getD stagingCleanupWindowMs

def sweepArtifacts (nowMs : Int) (windowMs : Option Int) : Outcome (List String) :=
  match validateCleanupWindow (windowOf windowMs) with
  | .error fault => (.error fault, store)
  | .ok () =>
    let cleaned := store.records.keysWhere fun record => record.isSwept nowMs (windowOf windowMs)
    (.ok cleaned, { store with
      records := store.records.mapValues fun _ record => record.sweep nowMs (windowOf windowMs)
      storage := store.storage.eraseAll cleaned })

def cleanupOrphans (_nowMs : Int) : Outcome (List String) :=
  let removed := store.storage.keys.filter fun id =>
    !store.records.has id && !store.staging.has id
  (.ok removed, { store with storage := store.storage.eraseAll removed })

/-! ## Staging entries -/

def trackStaging (intentId : String) (nowMs : Int) : Outcome StagingLifecycleEntry :=
  if intentId = "" then
    (.error (lifecycleError "Staging intent must have a non-empty ID"), store)
  else if store.staging.has intentId then
    (.error (lifecycleError "Staging intent already tracked"), store)
  else
    let entry : StagingLifecycleEntry :=
      { intentId, status := .active, accessRevoked := false, createdAt := nowMs, updatedAt := nowMs }
    (.ok entry, { store with staging := store.staging.set intentId entry })

def expireStaging (intentId : String) (nowMs : Int) : Outcome StagingLifecycleEntry :=
  match store.staging.get? intentId with
  | none => (.error unknownStaging, store)
  | some entry =>
    let expired := { entry with status := .logicallyExpired, updatedAt := nowMs }
    (.ok expired, { store with staging := store.staging.set intentId expired })

def markStagingCleanupPending (intentId : String) (nowMs : Int) : Outcome StagingLifecycleEntry :=
  match store.staging.get? intentId with
  | none => (.error unknownStaging, store)
  | some entry =>
    if entry.status ≠ .logicallyExpired ∧ entry.status ≠ .logicallyDeleted ∧
        entry.status ≠ .active then
      (.error (lifecycleError
        "Staging entry cannot move to cleanup pending from its current state"), store)
    else
      let pending := { entry with status := .physicalCleanupPending, updatedAt := nowMs }
      (.ok pending, { store with staging := store.staging.set intentId pending })

def deleteStagingExplicit (intentId : String) (nowMs : Int) : Outcome StagingLifecycleEntry :=
  match store.staging.get? intentId with
  | none => (.error unknownStaging, store)
  | some entry =>
    let deleted :=
      { entry with status := .logicallyDeleted, accessRevoked := true, updatedAt := nowMs }
    (.ok deleted, { store with staging := store.staging.set intentId deleted })

def sweepStaging (nowMs : Int) (windowMs : Option Int) : Outcome (List String) :=
  match validateCleanupWindow (windowOf windowMs) with
  | .error fault => (.error fault, store)
  | .ok () =>
    let cleaned := store.staging.keysWhere fun entry => entry.isSwept nowMs (windowOf windowMs)
    let swept := store.staging.mapValues fun _ entry => entry.sweep nowMs (windowOf windowMs)
    -- Cleaned entries are removed, so that scans for orphans stay accurate.
    (.ok cleaned, { store with
      staging := swept.eraseAll cleaned
      storage := store.storage.eraseAll cleaned })

def getStaging (intentId : String) : Option StagingLifecycleEntry :=
  store.staging.get? intentId

end ArtifactLifecycleStore

/-! ## Calls -/

/-- An operation with its arguments other than the time. -/
inductive Operation where
  | registerVerifiedArtifact (ref : ArtifactRef) (bytes : Bytes)
  | getRecord (refId : String)
  | readArtifact (refId callerScope : String)
  | processArtifact (refId callerScope : String)
  | cancelProcessing (refId reason : String)
  | failProcessing (refId reason : String)
  | expireSweep
  | deleteExplicit (refId callerScope : String)
  | markArtifactCleanupPending (refId : String)
  | sweepArtifacts (windowMs : Option Int)
  | cleanupOrphans
  | trackStaging (intentId : String)
  | expireStaging (intentId : String)
  | markStagingCleanupPending (intentId : String)
  | deleteStagingExplicit (intentId : String)
  | sweepStaging (windowMs : Option Int)
  | getStaging (intentId : String)

/-- A call of an operation at a time. -/
structure Call where
  operation : Operation
  nowMs : Int

namespace ArtifactLifecycleStore

/-- The store after a call. -/
def perform (store : ArtifactLifecycleStore) (call : Call) : ArtifactLifecycleStore :=
  match call.operation with
  | .registerVerifiedArtifact ref bytes => (store.registerVerifiedArtifact ref bytes call.nowMs).2
  | .getRecord _ => store
  | .readArtifact refId callerScope => (store.readArtifact refId callerScope call.nowMs).2
  | .processArtifact refId callerScope => (store.processArtifact refId callerScope call.nowMs).2
  | .cancelProcessing refId reason => (store.cancelProcessing refId reason call.nowMs).2
  | .failProcessing refId reason => (store.failProcessing refId reason call.nowMs).2
  | .expireSweep => (store.expireSweep call.nowMs).2
  | .deleteExplicit refId callerScope => (store.deleteExplicit refId callerScope call.nowMs).2
  | .markArtifactCleanupPending refId => (store.markArtifactCleanupPending refId call.nowMs).2
  | .sweepArtifacts windowMs => (store.sweepArtifacts call.nowMs windowMs).2
  | .cleanupOrphans => (store.cleanupOrphans call.nowMs).2
  | .trackStaging intentId => (store.trackStaging intentId call.nowMs).2
  | .expireStaging intentId => (store.expireStaging intentId call.nowMs).2
  | .markStagingCleanupPending intentId => (store.markStagingCleanupPending intentId call.nowMs).2
  | .deleteStagingExplicit intentId => (store.deleteStagingExplicit intentId call.nowMs).2
  | .sweepStaging windowMs => (store.sweepStaging call.nowMs windowMs).2
  | .getStaging _ => store

/-- The artifacts that a call reports as cleaned up. -/
def swept (store : ArtifactLifecycleStore) (call : Call) : List String :=
  match call.operation with
  | .sweepArtifacts windowMs => (store.sweepArtifacts call.nowMs windowMs).1.toOption.getD []
  | _ => []

end ArtifactLifecycleStore

end Groundlane.ArtifactLifecycle
