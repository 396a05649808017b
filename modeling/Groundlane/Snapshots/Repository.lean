import Groundlane.D1.Admission
import Groundlane.Uploads.Guarantee

/-!
# Snapshots of document sources

`DocumentSourceSnapshotRepository` of `core/document-source-snapshot.ts`. A snapshot is a copy of
the bytes of an uploaded artifact for one job. Its intent is recorded before the bytes are copied,
and one atomic admission publishes its record together with the records of the job. Calls run over
two record stores and the blobs, each operation of which can fail, among the writers of the
uploaded artifacts (`repository`).
-/

namespace Groundlane.Snapshots

open Fenced Interleaving Uploads DocumentAdmission

/-- The record of a snapshot and of its intent. -/
structure Snapshot where
  jobId : String
  snapshotRefId : String
  source : ArtifactState
  snapshotBlobKey : String
  expiresAt : Int
  revoked : Bool
deriving DecidableEq, Repr

def Snapshot.toJson (snapshot : Snapshot) : Json :=
  .obj [("schemaVersion", .str "1"), ("jobId", .str snapshot.jobId),
    ("snapshotRefId", .str snapshot.snapshotRefId), ("source", snapshot.source.toJson),
    ("snapshotBlobKey", .str snapshot.snapshotBlobKey),
    ("expiresAt", Json.ofInt snapshot.expiresAt), ("revoked", .bool snapshot.revoked)]

instance : Stored Snapshot := ⟨fun snapshot => snapshot.toJson.render⟩

/-- The source as `prepare` has read it. -/
structure PreparedSource where
  key : String
  revision : Nat
  value : ArtifactState
deriving DecidableEq, Repr

/-- The record that `prepare` leaves to be published. -/
structure PreparedRecord where
  key : String
  value : Snapshot
  nowMs : Int
  expiresAt : Int
deriving DecidableEq, Repr

/-- `PreparedDocumentSourceSnapshot`. -/
structure PreparedDocumentSourceSnapshot where
  source : PreparedSource
  record : PreparedRecord
  snapshotRefId : String
  expiresAt : Int
deriving DecidableEq, Repr

/-! ## Stores -/

/-- The uploaded artifacts, the snapshots and their intents, and the blobs. -/
structure Vault (B : Type) where
  sources : Store String ArtifactState
  records : Store String Snapshot
  blobs : String → Option (Blob B)

/-- What `DocumentAdmissionPort.commit` is given: the source, the record of the snapshot, and the
records of the job. -/
structure Publication where
  source : PreparedSource
  record : PreparedRecord
  writes : List Write
  nowMs : Int
deriving DecidableEq, Repr

/-- An operation of the repository, or of a writer of the uploaded artifacts. -/
inductive Query (B : Type) where
  | source (key : String)
  | get (key : String)
  | createIfAbsent (key : String) (value : Snapshot) (nowMs : Int) (expiresAt : Option Int)
  | compareAndSwap (key : String) (expectedRevision : Nat) (value : Snapshot) (nowMs : Int)
    (expiresAt : Option Int)
  | deleteIfRevision (key : String) (expectedRevision : Nat)
  | scanExpired (nowMs : Int) (cursor : Option String) (limit : Nat)
  | getBlob (blobKey ownerId digest : String) (maxBytes : Int)
  | putIfAbsent (blobKey ownerId digest : String) (bytes : B)
  | deleteIfOwner (blobKey ownerId : String)
  | commitAdmission (publication : Publication)
  | clock
  | aborted
  | publishSource (state : ArtifactState) (nowMs : Int)
  | reviseSource (refId : String) (next : ArtifactState) (nowMs : Int)
  | storeSource (ownerId rest digest : String) (bytes : B)
  | dropSource (ownerId rest : String)

/-- The answer to each operation; an operation on a store can fail. -/
abbrev Query.Res {B : Type} : Query B → Type
  | source _ => Except Fault (Option (Record String ArtifactState))
  | get _ => Except Fault (Option (Record String Snapshot))
  | createIfAbsent .. => Except Fault (CreateResult String Snapshot)
  | compareAndSwap .. => Except Fault (CasResult String Snapshot)
  | deleteIfRevision .. => Except Fault DeleteResult
  | scanExpired .. => Except Fault (List (Record String Snapshot) × Option String)
  | getBlob .. => Except Fault (Option B)
  | putIfAbsent .. => Except Fault BlobPutResult
  | deleteIfOwner .. => Except Fault BlobDeleteResult
  | commitAdmission _ => Except Fault AdmissionResult
  | clock => Int
  | aborted => Bool
  | publishSource .. => Unit
  | reviseSource .. => Unit
  | storeSource .. => Unit
  | dropSource .. => Unit

/-- What the stores do not determine: whether an operation fails, the time, whether the caller has
aborted, whether the other destinations of a publication are free, and as what a publication that
is refused is classified. -/
structure Outside where
  fails : Bool
  now : Int
  aborted : Bool
  free : Bool
  classified : AdmissionResult

/-- The artifact keeps its identity and is not active, as every later version of a record of the
upload service. -/
def isRevision (state next : ArtifactState) : Bool :=
  decide (next.refId = state.refId ∧ next.ownerId = state.ownerId ∧
    next.credentialBinding = state.credentialBinding ∧ next.contentHash = state.contentHash ∧
    next.byteSize = state.byteSize ∧ next.blobKey = state.blobKey ∧
    next.expiresAt = state.expiresAt ∧ next.status ≠ .active)

/-- The key of the bytes of an uploaded artifact: a digest of its owner and the rest of its
identity. -/
def sourceBlobKey {B : Type} (sha256 : Sha256 B) (ownerId rest : String) : String :=
  "blobs/" ++ sha256.text (ownerId ++ nul ++ rest)

section Execution

variable {B : Type} [ByteString B]

/-- Whether the source of a publication is still as it was read, active and not expired. -/
def Publication.admissible (publication : Publication) (vault : Vault B) : Bool :=
  (vault.sources.get publication.source.key).any fun record =>
    decide (record.revision = publication.source.revision) &&
      decide (record.value = publication.source.value) &&
      decide (record.value.status = .active) &&
      decide (publication.nowMs < record.value.expiresAt)

/-- What each operation does to the stores, and its answer. -/
def exec (sha256 : Sha256 B) (outside : Outside) (query : Query B) (vault : Vault B) :
    Vault B × query.Res :=
  match query with
  | .source key => (vault, if outside.fails then .error .other else .ok (vault.sources.get key))
  | .get key => (vault, if outside.fails then .error .other else .ok (vault.records.get key))
  | .createIfAbsent key value nowMs expiresAt =>
    if outside.fails then (vault, .error .other) else
    let result := vault.records.createIfAbsent key value nowMs expiresAt
    ({ vault with records := result.1 }, .ok result.2)
  | .compareAndSwap key expectedRevision value nowMs expiresAt =>
    if outside.fails then (vault, .error .other) else
    let result := vault.records.compareAndSwap key expectedRevision value nowMs expiresAt
    ({ vault with records := result.1 }, .ok result.2)
  | .deleteIfRevision key expectedRevision =>
    if outside.fails then (vault, .error .other) else
    let result := vault.records.deleteIfRevision key expectedRevision
    ({ vault with records := result.1 }, .ok result.2)
  | .scanExpired nowMs cursor limit =>
    (vault, if outside.fails then .error .other else
      .ok (vault.records.scanExpired (fun left right => decide (left < right)) nowMs cursor limit))
  | .getBlob blobKey ownerId digest maxBytes =>
    (vault, if outside.fails then .error .other else match vault.blobs blobKey with
      | none => .ok none
      | some blob => blob.read sha256 ownerId digest maxBytes)
  | .putIfAbsent blobKey ownerId digest bytes =>
    if outside.fails then (vault, .error .other) else
    let result := putBlob vault.blobs blobKey ⟨ownerId, digest, bytes⟩
    ({ vault with blobs := result.1 }, .ok result.2)
  | .deleteIfOwner blobKey ownerId =>
    if outside.fails then (vault, .error .other) else
    let result := deleteBlob vault.blobs blobKey ownerId
    ({ vault with blobs := result.1 }, .ok result.2)
  | .commitAdmission publication =>
    if outside.fails then (vault, .error .other)
    else if publication.admissible vault && outside.free then
      match vault.records.createIfAbsent publication.record.key publication.record.value
          publication.record.nowMs (some publication.record.expiresAt) with
      | (records, .created _) => ({ vault with records }, .ok .committed)
      | (_, .existing _) => (vault, .ok .conflict)
    else (vault, .ok (if outside.classified = .committed then .conflict
      else outside.classified))
  | .clock => (vault, outside.now)
  | .aborted => (vault, outside.aborted)
  | .publishSource state nowMs =>
    ({ vault with sources := (vault.sources.createIfAbsent (artifactKey state.refId) state nowMs
        none).1 }, ())
  | .reviseSource refId next nowMs =>
    match vault.sources.get (artifactKey refId) with
    | none => (vault, ())
    | some record =>
      if isRevision record.value next then
        ({ vault with sources := (vault.sources.compareAndSwap (artifactKey refId)
            record.revision next nowMs none).1 }, ())
      else (vault, ())
  | .storeSource ownerId rest digest bytes =>
    ({ vault with blobs := (putBlob vault.blobs (sourceBlobKey sha256 ownerId rest)
        ⟨ownerId, digest, bytes⟩).1 }, ())
  | .dropSource ownerId rest =>
    ({ vault with blobs := (deleteBlob vault.blobs (sourceBlobKey sha256 ownerId rest)
        ownerId).1 }, ())

end Execution

/-! ## Ports -/

/-- A program of the repository. -/
abbrev SnapshotIo (B : Type) : Type → Type := Program (Query B) Query.Res Fault

section Ports

variable {B : Type}

/-- Perform an operation that can fail. -/
def call {α : Type} (request : SnapshotIo B (Except Fault α)) : SnapshotIo B α :=
  request.bind Program.ofExcept

def sourceRecord (key : String) : SnapshotIo B (Option (Record String ArtifactState)) := do
  validateDurableKey key
  call (Program.request (Query.source key))

def getRecord (key : String) : SnapshotIo B (Option (Record String Snapshot)) := do
  validateDurableKey key
  call (Program.request (Query.get key))

def createRecord (key : String) (value : Snapshot) (nowMs : Int) (expiresAt : Option Int) :
    SnapshotIo B (CreateResult String Snapshot) := do
  validateDurableKey key
  validateDurableWrite value nowMs expiresAt
  call (Program.request (Query.createIfAbsent key value nowMs expiresAt))

def swapRecord (key : String) (expectedRevision : Nat) (value : Snapshot) (nowMs : Int)
    (expiresAt : Option Int) : SnapshotIo B (CasResult String Snapshot) := do
  validateDurableKey key
  validateDurableWrite value nowMs expiresAt
  validateExpectedRevision expectedRevision
  call (Program.request (Query.compareAndSwap key expectedRevision value nowMs expiresAt))

def deleteRecord (key : String) (expectedRevision : Nat) : SnapshotIo B DeleteResult := do
  validateDurableKey key
  validateExpectedRevision expectedRevision
  call (Program.request (Query.deleteIfRevision key expectedRevision))

def scanRecords (nowMs : Int) (cursor : Option String) (limit : Nat) :
    SnapshotIo B (List (Record String Snapshot) × Option String) := do
  validateScan nowMs cursor limit
  call (Program.request (Query.scanExpired nowMs cursor limit))

def getBlob (sha256 : Sha256 B) (blobKey ownerId digest : String) (maxBytes : Int) :
    SnapshotIo B (Option B) := do
  validateInternalBlobKey sha256 blobKey
  validateBlobIdentity sha256 ownerId digest
  validateSize maxBytes
  call (Program.request (Query.getBlob blobKey ownerId digest maxBytes))

def putBlobIfAbsent [ByteString B] (sha256 : Sha256 B) (blobKey ownerId digest : String)
    (bytes : B) : SnapshotIo B BlobPutResult := do
  validateInternalBlobKey sha256 blobKey
  validateBlobIdentity sha256 ownerId digest
  validateSize (ByteString.byteLength bytes)
  if "sha256-" ++ sha256.bytes bytes ≠ digest then
    Program.raise (.error "immutable blob digest mismatch")
  else call (Program.request (Query.putIfAbsent blobKey ownerId digest bytes))

def deleteBlobIfOwner (sha256 : Sha256 B) (blobKey ownerId : String) :
    SnapshotIo B BlobDeleteResult := do
  validateInternalBlobKey sha256 blobKey
  call (Program.request (Query.deleteIfOwner blobKey ownerId))

/-- `this.clock()`. -/
def clock : SnapshotIo B Int := Program.request Query.clock

/-- `signal.throwIfAborted()`. -/
def throwIfAborted : SnapshotIo B Unit := do
  let aborted ← Program.request Query.aborted
  if aborted then Program.raise .other else pure ()

end Ports

/-! ## Checks and keys -/

def failure : Fault :=
  .groundlane .invalidInput "document-snapshot" "Document source snapshot is unavailable or changed"

/-- The schema of an identity. -/
def isIdentity (value : String) : Bool :=
  decide (1 ≤ utf16Length value) && decide (utf16Length value ≤ 256)

/-- What zod throws. -/
def parsed (test : Bool) : Except Fault Unit :=
  if test then .ok () else .error .other

section Schemas

variable {B : Type} (sha256 : Sha256 B)

def sourceSchema (source : ArtifactState) : Bool :=
  isIdentity source.refId && isIdentity source.ownerId && isIdentity source.credentialBinding &&
    sha256.isTagged "sha256-" source.contentHash && decide (0 < source.byteSize) &&
    decide (source.byteSize ≤ maxImmutableBlobBytes) &&
    sha256.isTagged "blobs/" source.blobKey && decide (utf16Length source.mimeType ≤ 128) &&
    decide (utf16Length source.filename ≤ 512) && decide (0 ≤ source.createdAt) &&
    decide (0 < source.expiresAt)

def snapshotSchema (snapshot : Snapshot) : Bool :=
  isIdentity snapshot.jobId && isIdentity snapshot.snapshotRefId &&
    sourceSchema sha256 snapshot.source && sha256.isTagged "blobs/" snapshot.snapshotBlobKey &&
    decide (0 < snapshot.expiresAt)

def snapshotKey (jobId : String) : Except Fault String := do
  parsed (isIdentity jobId)
  return "snapshot:" ++ sha256.text jobId

/-- The key of the intent of a snapshot. -/
def intentKey (key : String) : String := "intent:" ++ key

def isIntentKey (key : String) : Bool := "intent:".toList.isPrefixOf key.toList

/-- What tells one snapshot of a job from another. -/
def snapshotDigest (jobId : String) (source : ArtifactState) (caller : DurableUploadCaller)
    (effectiveExpiresAt : Int) : String :=
  sha256.text (Json.arr [.str jobId, .str source.refId, .str source.contentHash,
    .str caller.ownerId, .str caller.credentialBinding,
    Json.ofInt effectiveExpiresAt]).stringify

/-- The key of the copied bytes. -/
def snapshotBlobKey (digest : String) : String :=
  "blobs/" ++ sha256.text ("document-job-snapshot:" ++ digest)

/-- The snapshot that `prepare` records. -/
def newSnapshot (jobId : String) (source : ArtifactState) (caller : DurableUploadCaller)
    (effectiveExpiresAt : Int) : Snapshot where
  jobId := jobId
  snapshotRefId := "snap_" ++ snapshotDigest sha256 jobId source caller effectiveExpiresAt
  source := source
  snapshotBlobKey :=
    snapshotBlobKey sha256 (snapshotDigest sha256 jobId source caller effectiveExpiresAt)
  expiresAt := effectiveExpiresAt
  revoked := false

end Schemas

def callerMatches (source : ArtifactState) (caller : DurableUploadCaller) : Bool :=
  decide (source.ownerId = caller.ownerId) &&
    decide (source.credentialBinding = caller.credentialBinding)

/-- The snapshot after its revocation. -/
def Snapshot.revocation (snapshot : Snapshot) : Snapshot :=
  { snapshot with revoked := true }

/-- The caller for whom a snapshot was taken. -/
def ownerOf (source : ArtifactState) : DurableUploadCaller :=
  ⟨source.ownerId, source.credentialBinding⟩

/-! ## Methods -/

section Methods

variable {B : Type} [ByteString B] (sha256 : Sha256 B)

/-- The checks of `prepare` on the source, with the two readings of the clock among them. -/
def checkSource (source : ArtifactState) (sourceRefId : String) (caller : DurableUploadCaller)
    (effectiveExpiresAt maxBytes : Int) : SnapshotIo B Unit := do
  if source.refId ≠ sourceRefId ∨ ¬ callerMatches source caller ∨ source.status ≠ .active then
    Program.raise failure
  else do
    let now ← clock
    if source.expiresAt ≤ now ∨ ¬ isSafeInteger effectiveExpiresAt then Program.raise failure
    else do
      let later ← clock
      if effectiveExpiresAt ≤ later ∨ source.expiresAt < effectiveExpiresAt ∨
          ¬ isSafeInteger maxBytes ∨ maxBytes < 1 ∨ (maxImmutableBlobBytes : Int) < maxBytes ∨
          maxBytes < source.byteSize then
        Program.raise failure
      else pure ()

/-- Copy the bytes of the source under the key of the snapshot. -/
def copyBytes (snapshot : Snapshot) (maxBytes : Int) : SnapshotIo B Unit := do
  throwIfAborted
  let bytes ← getBlob sha256 snapshot.source.blobKey snapshot.source.ownerId
    snapshot.source.contentHash maxBytes
  match bytes with
  | none => Program.raise failure
  | some bytes =>
    if ByteString.byteLength bytes ≠ snapshot.source.byteSize then Program.raise failure
    else do
      throwIfAborted
      let copied ← putBlobIfAbsent sha256 snapshot.snapshotBlobKey snapshot.source.ownerId
        snapshot.source.contentHash bytes
      match copied with
      | .conflict _ => Program.raise failure
      | .created stat | .exists stat =>
        if stat.byteSize ≠ snapshot.source.byteSize then Program.raise failure else pure ()

/-- The early second look at the source. -/
def checkUnchanged (sourceRecordRead : Record String ArtifactState) (effectiveExpiresAt : Int) :
    SnapshotIo B Unit := do
  let latest ← sourceRecord sourceRecordRead.key
  throwIfAborted
  match latest with
  | none => Program.raise failure
  | some latest =>
    if latest.revision ≠ sourceRecordRead.revision ∨ latest.value ≠ sourceRecordRead.value then
      Program.raise failure
    else do
      let now ← clock
      if effectiveExpiresAt ≤ now then Program.raise failure else pure ()

def prepare (jobId sourceRefId : String) (caller : DurableUploadCaller)
    (effectiveExpiresAt maxBytes : Int) : SnapshotIo B PreparedDocumentSourceSnapshot := do
  parsed (isIdentity jobId)
  parsed (isIdentity sourceRefId)
  throwIfAborted
  let found ← sourceRecord (artifactKey sourceRefId)
  match found with
  | none => Program.raise failure
  | some found => do
    parsed (sourceSchema sha256 found.value)
    checkSource found.value sourceRefId caller effectiveExpiresAt maxBytes
    let key ← snapshotKey sha256 jobId
    let snapshot := newSnapshot sha256 jobId found.value caller effectiveExpiresAt
    let now ← clock
    let intent ← createRecord (intentKey key) snapshot now (some (now + 3600000))
    if intent.record.value ≠ snapshot then Program.raise failure
    else do
      copyBytes sha256 snapshot maxBytes
      checkUnchanged found effectiveExpiresAt
      pure { source := ⟨found.key, found.revision, found.value⟩
             record := ⟨key, snapshot, now, effectiveExpiresAt⟩
             snapshotRefId := snapshot.snapshotRefId
             expiresAt := effectiveExpiresAt }

/-- A write at another time. -/
def writeAt (nowMs : Int) (write : Write) : Write :=
  { write with record := { write.record with nowMs } }

def commit (prepared : PreparedDocumentSourceSnapshot) (writes : List Write) :
    SnapshotIo B AdmissionResult := do
  throwIfAborted
  let now ← clock
  if prepared.expiresAt ≤ now then pure .sourceUnavailable
  else call (Program.request (Query.commitAdmission
    { source := prepared.source
      record := { prepared.record with nowMs := now }
      writes := writes.map (writeAt now)
      nowMs := now }))

def load (jobId : String) (caller : DurableUploadCaller) : SnapshotIo B Snapshot := do
  let key ← snapshotKey sha256 jobId
  let record ← getRecord key
  match record with
  | none => Program.raise failure
  | some record => do
    parsed (snapshotSchema sha256 record.value)
    if record.value.jobId ≠ jobId ∨ ¬ callerMatches record.value.source caller then
      Program.raise failure
    else pure record.value

/-- Why a source is not available any more. -/
inductive SourceStatus where
  | deleted
  | expired
deriving DecidableEq, Repr

def sourceStatus (jobId : String) (caller : DurableUploadCaller) :
    SnapshotIo B (Option SourceStatus) := do
  let snapshot ← load sha256 jobId caller
  let found ← sourceRecord (artifactKey snapshot.source.refId)
  match found with
  | none => pure (some .deleted)
  | some found => do
    parsed (sourceSchema sha256 found.value)
    if ¬ callerMatches found.value caller then Program.raise failure
    else do
      let now ← clock
      if found.value.expiresAt ≤ now ∨ found.value.status = .expired then pure (some .expired)
      else if found.value.status ≠ .active ∨
          found.value.contentHash ≠ snapshot.source.contentHash ∨
          found.value.byteSize ≠ snapshot.source.byteSize then pure (some .deleted)
      else pure none

/-- What `revoke` does once the revocation is recorded. -/
def removeBytes (snapshot : Snapshot) (caller : DurableUploadCaller)
    (changed : Record String Snapshot) : SnapshotIo B Bool := do
  let removed ← deleteBlobIfOwner sha256 snapshot.snapshotBlobKey caller.ownerId
  if removed = .ownerMismatch then pure true
  else do
    let now ← clock
    let _ ← swapRecord changed.key changed.revision changed.value now none
    pure false

/-- Revoke the snapshot; the result is `cleanupPending`. -/
def revoke (jobId : String) (caller : DurableUploadCaller) : SnapshotIo B Bool := do
  let snapshot ← load sha256 jobId caller
  let key ← snapshotKey sha256 jobId
  let record ← getRecord key
  match record with
  | none => Program.raise failure
  | some record => do
    let now ← clock
    let later ← clock
    let changed ← swapRecord key record.revision snapshot.revocation now (some (later + 1))
    match changed with
    | .updated changed => (removeBytes sha256 snapshot caller changed).tryCatch fun _ => pure true
    | _ => pure true

/-- The test that `read` makes before and after it has fetched the bytes. -/
def unavailable (snapshot : Snapshot) (jobId : String) (caller : DurableUploadCaller) :
    SnapshotIo B Bool := do
  let now ← clock
  if snapshot.expiresAt ≤ now then pure true
  else do
    let status ← sourceStatus sha256 jobId caller
    pure status.isSome

/-- What `read` returns. -/
def snapshotRead (snapshot : Snapshot) (sourceRefId : String) (caller : DurableUploadCaller)
    (bytes : B) : DurableArtifactRead B where
  ref :=
    { refId := sourceRefId
      ownershipScope := caller.ownerId
      contentHash := snapshot.source.contentHash
      byteSize := snapshot.source.byteSize
      createdAt := snapshot.source.createdAt
      expiresAt := snapshot.source.expiresAt }
  bytes := bytes
  mimeType := snapshot.source.mimeType
  filename := snapshot.source.filename

def read (jobId sourceRefId : String) (caller : DurableUploadCaller) (maxBytes : Int) :
    SnapshotIo B (DurableArtifactRead B) := do
  let snapshot ← load sha256 jobId caller
  if sourceRefId ≠ snapshot.source.refId ∨ snapshot.revoked then Program.raise failure
  else do
    let gone ← unavailable sha256 snapshot jobId caller
    if gone then Program.raise failure
    else do
      throwIfAborted
      let bytes ← getBlob sha256 snapshot.snapshotBlobKey caller.ownerId
        snapshot.source.contentHash maxBytes
      throwIfAborted
      match bytes with
      | none => Program.raise failure
      | some bytes => do
        let gone ← unavailable sha256 snapshot jobId caller
        if gone then Program.raise failure
        else pure (snapshotRead snapshot sourceRefId caller bytes)

/-- Whether `cleanup` keeps the bytes of an intent. -/
def keepsBytes (nowMs : Int) (record : Record String Snapshot)
    (committed : Option (Record String Snapshot)) : SnapshotIo B Bool :=
  if isIntentKey record.key ∧ committed.isSome ∧ nowMs < record.value.expiresAt then do
    let status ← sourceStatus sha256 record.value.jobId (ownerOf record.value.source)
    pure status.isNone
  else pure false

/-- What `cleanup` tries with one record; the result is whether it has cleaned it. -/
def sweep (nowMs : Int) (record : Record String Snapshot) : SnapshotIo B Bool := do
  parsed (snapshotSchema sha256 record.value)
  let key ← snapshotKey sha256 record.value.jobId
  let committed ← getRecord key
  let kept ← keepsBytes sha256 nowMs record committed
  if kept then do
    let _ ← swapRecord record.key record.revision record.value nowMs (some record.value.expiresAt)
    pure false
  else do
    let removed ← deleteBlobIfOwner sha256 record.value.snapshotBlobKey record.value.source.ownerId
    if removed = .ownerMismatch then Program.raise failure
    else if isIntentKey record.key then do
      let _ ← deleteRecord record.key record.revision
      pure true
    else do
      let _ ← swapRecord record.key record.revision record.value.revocation nowMs none
      pure true

/-- The loop over a page, with the records cleaned and pending so far. -/
def sweepAll (nowMs : Int) : List (Record String Snapshot) → Nat → Nat → SnapshotIo B (Nat × Nat)
  | [], cleaned, pending => pure (cleaned, pending)
  | record :: records, cleaned, pending => do
    let outcome ← (sweep sha256 nowMs record).attempt
    match outcome with
    | .ok true => sweepAll nowMs records (cleaned + 1) pending
    | .ok false => sweepAll nowMs records cleaned pending
    | .error _ => sweepAll nowMs records cleaned (pending + 1)

/-- The result of a cleanup. -/
structure CleanupPage where
  cleaned : Nat
  pending : Nat
  nextCursor : Option String
deriving DecidableEq, Repr

def cleanup (nowMs : Int) (cursor : Option String) (limit : Nat) : SnapshotIo B CleanupPage := do
  let page ← scanRecords nowMs cursor (min 100 limit)
  let counts ← sweepAll sha256 nowMs page.1 0 0
  pure ⟨counts.1, counts.2, page.2⟩

end Methods

/-! ## All calls -/

/-- The methods with their arguments, and the writers of the uploaded artifacts. -/
inductive Call (B : Type) where
  | prepare (jobId sourceRefId : String) (caller : DurableUploadCaller)
    (effectiveExpiresAt maxBytes : Int)
  | commit (prepared : PreparedDocumentSourceSnapshot) (writes : List Write)
  | sourceStatus (jobId : String) (caller : DurableUploadCaller)
  | revoke (jobId : String) (caller : DurableUploadCaller)
  | read (jobId sourceRefId : String) (caller : DurableUploadCaller) (maxBytes : Int)
  | cleanup (nowMs : Int) (cursor : Option String) (limit : Nat)
  | publishSource (state : ArtifactState) (nowMs : Int)
  | reviseSource (refId : String) (next : ArtifactState) (nowMs : Int)
  | storeSource (ownerId rest digest : String) (bytes : B)
  | dropSource (ownerId rest : String)
deriving DecidableEq, Repr

/-- What the methods return. -/
inductive Reply (B : Type) where
  | prepared (prepared : PreparedDocumentSourceSnapshot)
  | admission (result : AdmissionResult)
  | status (status : Option SourceStatus)
  | revoked (cleanupPending : Bool)
  | read (read : DurableArtifactRead B)
  | cleaned (page : CleanupPage)
  | written
deriving DecidableEq, Repr

section Main

variable {B : Type} [ByteString B]

/-- The program of each call. -/
def main (sha256 : Sha256 B) : Call B → SnapshotIo B (Reply B)
  | .prepare jobId sourceRefId caller effectiveExpiresAt maxBytes =>
    (prepare sha256 jobId sourceRefId caller effectiveExpiresAt maxBytes).bind fun prepared =>
      pure (.prepared prepared)
  | .commit prepared writes => (commit prepared writes).bind fun result => pure (.admission result)
  | .sourceStatus jobId caller =>
    (sourceStatus sha256 jobId caller).bind fun status => pure (.status status)
  | .revoke jobId caller => (revoke sha256 jobId caller).bind fun pending => pure (.revoked pending)
  | .read jobId sourceRefId caller maxBytes =>
    (read sha256 jobId sourceRefId caller maxBytes).bind fun read => pure (.read read)
  | .cleanup nowMs cursor limit =>
    (cleanup sha256 nowMs cursor limit).bind fun page => pure (.cleaned page)
  | .publishSource state nowMs =>
    (Program.request (Query.publishSource state nowMs)).bind fun _ => pure .written
  | .reviseSource refId next nowMs =>
    (Program.request (Query.reviseSource refId next nowMs)).bind fun _ => pure .written
  | .storeSource ownerId rest digest bytes =>
    (Program.request (Query.storeSource ownerId rest digest bytes)).bind fun _ => pure .written
  | .dropSource ownerId rest =>
    (Program.request (Query.dropSource ownerId rest)).bind fun _ => pure .written

/-- All calls of the repository and all writers of the uploaded artifacts. -/
def repository (sha256 : Sha256 B) :
    System (Call B) (Query B) Query.Res Fault (Reply B) (Vault B) Outside where
  main := main sha256
  exec := exec sha256

end Main

end Groundlane.Snapshots
