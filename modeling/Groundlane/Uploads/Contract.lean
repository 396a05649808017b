import Groundlane.Durable.Rules
import Groundlane.Text.Sanitize

/-!
# Upload intents and uploaded artifacts

The records, checks, keys and codec of `core/durable-upload-flow.ts`. An upload intent is a
promise to take bytes of a declared size and type; finalizing it binds it to one content and
creates the artifact. The store holds values of these two kinds under two families of keys.
-/

namespace Groundlane.Uploads

open Fenced Interleaving

inductive DurableUploadIntentStatus where
  | pending
  | finalizing
  | finalized
  | expired
deriving DecidableEq, Repr

def DurableUploadIntentStatus.text : DurableUploadIntentStatus → String
  | pending => "pending"
  | finalizing => "finalizing"
  | finalized => "finalized"
  | expired => "expired"

structure FinalizationState where
  refId : String
  contentHash : String
  byteSize : Nat
  blobKey : String
  createdAt : Int
  expiresAt : Int
deriving DecidableEq, Repr

structure UploadIntentState where
  intentId : String
  ownerId : String
  credentialBinding : String
  idempotencyKey : String
  requestFingerprint : String
  declaredMime : String
  declaredSize : Int
  filename : String
  expectedDigest : Option String
  expiresAt : Int
  artifactTtlMs : Int
  status : DurableUploadIntentStatus
  finalization : Option FinalizationState
  createdAt : Int
  updatedAt : Int
deriving DecidableEq, Repr

inductive ArtifactStatus where
  | active
  | expired
  | deleted
  | physicalCleanupPending
deriving DecidableEq, Repr

def ArtifactStatus.text : ArtifactStatus → String
  | active => "active"
  | expired => "expired"
  | deleted => "deleted"
  | physicalCleanupPending => "physical_cleanup_pending"

/-- Why an artifact was revoked. -/
inductive RevocationReason where
  | deleted
  | expired
deriving DecidableEq, Repr

/-- The status of an artifact whose cleanup for this reason has come to its end. -/
def RevocationReason.status : RevocationReason → ArtifactStatus
  | deleted => .deleted
  | expired => .expired

structure ArtifactState where
  refId : String
  ownerId : String
  credentialBinding : String
  contentHash : String
  byteSize : Nat
  mimeType : String
  filename : String
  blobKey : String
  createdAt : Int
  updatedAt : Int
  expiresAt : Int
  status : ArtifactStatus
  cleanupReason : Option RevocationReason
deriving DecidableEq, Repr

structure DurableUploadCaller where
  ownerId : String
  credentialBinding : String
deriving DecidableEq, Repr

structure CreateDurableUploadIntentInput where
  idempotencyKey : String
  declaredMime : String
  declaredSize : Int
  filename : String
  expectedDigest : Option String
  uploadTtlMs : Option Int
  artifactTtlMs : Option Int
  nowMs : Int
deriving DecidableEq, Repr

structure FinalizeDurableUploadInput (B : Type) where
  intentId : String
  bytes : B
  observedMime : String
  nowMs : Int
deriving DecidableEq, Repr

structure DurableSourceArtifactRef where
  refId : String
  ownershipScope : String
  contentHash : String
  byteSize : Nat
  createdAt : Int
  expiresAt : Int
deriving DecidableEq, Repr

structure DurableUploadIntentView where
  intentId : String
  status : DurableUploadIntentStatus
  declaredMime : String
  declaredSize : Int
  filename : String
  expectedDigest : Option String
  expiresAt : Int
  artifactTtlMs : Int
  artifactRef : Option DurableSourceArtifactRef
deriving DecidableEq, Repr

structure DurableArtifactRead (B : Type) where
  ref : DurableSourceArtifactRef
  bytes : B
  mimeType : String
  filename : String
deriving DecidableEq, Repr

structure DurableArtifactRevocation where
  refId : String
  ownerId : String
  credentialBinding : String
  contentHash : String
  filename : String
  reason : RevocationReason
  nowMs : Int
deriving DecidableEq, Repr

structure DurableUploadCleanupPage where
  scanned : Nat
  logicallyRevoked : Nat
  physicallyDeleted : Nat
  retryPending : Nat
  failures : List String
  nextCursor : Option String
deriving DecidableEq, Repr

/-- `ArtifactRetentionSection`. -/
structure ArtifactRetentionSection where
  defaultTtlSeconds : Int
  minTtlSeconds : Int
  maxTtlSeconds : Int

structure ArtifactRetentionPolicy where
  upload : ArtifactRetentionSection
  artifact : ArtifactRetentionSection

/-- The values of the record store that belong to the upload flow. -/
inductive UploadValue where
  | intent (state : UploadIntentState)
  | artifact (state : ArtifactState)
deriving DecidableEq

/-- `Versioned`. -/
structure Versioned (T : Type) where
  state : T
  revision : Nat

/-! ## Text -/

def FinalizationState.toJson (finalization : FinalizationState) : Json :=
  .obj [("refId", .str finalization.refId), ("contentHash", .str finalization.contentHash),
    ("byteSize", Json.ofInt finalization.byteSize), ("blobKey", .str finalization.blobKey),
    ("createdAt", Json.ofInt finalization.createdAt),
    ("expiresAt", Json.ofInt finalization.expiresAt)]

def UploadIntentState.toJson (state : UploadIntentState) : Json :=
  .obj [("schemaVersion", .str "1"), ("intentId", .str state.intentId),
    ("ownerId", .str state.ownerId), ("credentialBinding", .str state.credentialBinding),
    ("idempotencyKey", .str state.idempotencyKey),
    ("requestFingerprint", .str state.requestFingerprint),
    ("declaredMime", .str state.declaredMime), ("declaredSize", Json.ofInt state.declaredSize),
    ("filename", .str state.filename),
    ("expectedDigest", Json.ofOption .str state.expectedDigest),
    ("expiresAt", Json.ofInt state.expiresAt), ("artifactTtlMs", Json.ofInt state.artifactTtlMs),
    ("status", .str state.status.text),
    ("finalization", Json.ofOption FinalizationState.toJson state.finalization),
    ("createdAt", Json.ofInt state.createdAt), ("updatedAt", Json.ofInt state.updatedAt)]

def ArtifactState.toJson (state : ArtifactState) : Json :=
  .obj [("schemaVersion", .str "1"), ("refId", .str state.refId), ("ownerId", .str state.ownerId),
    ("credentialBinding", .str state.credentialBinding), ("contentHash", .str state.contentHash),
    ("byteSize", Json.ofInt state.byteSize), ("mimeType", .str state.mimeType),
    ("filename", .str state.filename), ("blobKey", .str state.blobKey),
    ("createdAt", Json.ofInt state.createdAt), ("updatedAt", Json.ofInt state.updatedAt),
    ("expiresAt", Json.ofInt state.expiresAt), ("status", .str state.status.text),
    ("cleanupReason", Json.ofOption (fun reason => .str reason.status.text) state.cleanupReason)]

instance : Stored UploadValue where
  text
    | .intent state => state.toJson.render
    | .artifact state => state.toJson.render

/-! ## Errors -/

def uploadErrorOf (code : ErrorCode) (message : String) : Fault :=
  .groundlane code "durable-upload" message

/-- `uploadError` with its default code. -/
def uploadError (message : String) : Fault := uploadErrorOf .invalidInput message

def storageError : Fault := uploadErrorOf .upstreamError "Artifact storage operation failed"

/-! ## Checks -/

/-- A text that is not empty, not too long, and starts and ends without a blank. -/
def isBounded (value : String) (limit : Nat) : Bool :=
  utf16Length value != 0 && decide (utf16Length value ≤ limit) &&
    trimSpace value.toList == value.toList

def assertBoundedIdentity (value field : String) : Except Fault Unit :=
  if isBounded value 256 then .ok ()
  else .error (uploadError (field ++ " must be non-empty within 256 characters"))

def assertCaller (caller : DurableUploadCaller) : Except Fault Unit := do
  assertBoundedIdentity caller.ownerId "ownerId"
  assertBoundedIdentity caller.credentialBinding "credentialBinding"

def assertTime (nowMs : Int) : Except Fault Unit :=
  if ¬ isSafeInteger nowMs ∨ nowMs < 0 then .error (uploadError "Upload timestamp is invalid")
  else .ok ()

def assertTtl (value min max : Int) (field : String) : Except Fault Unit :=
  if ¬ isSafeInteger value ∨ value < min ∨ max < value then
    .error (uploadError (field ++ " TTL must be " ++ toString min ++ ".." ++ toString max ++
      " milliseconds"))
  else .ok ()

def assertMime (value field : String) : Except Fault Unit :=
  if isBounded value 128 && value.toList.contains '/' then .ok ()
  else .error (uploadError (field ++ " must be a bounded MIME type"))

def assertFilename (value : String) : Except Fault Unit :=
  if isBounded value 512 && value.toList.all fun c => c.toNat ≠ 0 && c.toNat ≠ 13 && c.toNat ≠ 10
  then .ok ()
  else .error (uploadError "filename must be non-empty and bounded")

section Codec

variable {B : Type} (sha256 : Sha256 B)

def assertDigest (value : Option String) : Except Fault Unit :=
  if value.any fun digest => !sha256.isTagged "sha256-" digest then
    .error (uploadError "expectedDigest must be a sha256 digest")
  else .ok ()

/-! ## Keys -/

def contentDigest (bytes : B) : String := "sha256-" ++ sha256.bytes bytes

/-- `slice(0, 40)` of the digest of a text. -/
def shortDigest (value : String) : String :=
  String.ofList ((sha256.text value).toList.take 40)

def intentKey (intentId : String) : String := "upload-intent:" ++ intentId

def artifactKey (refId : String) : String := "upload-artifact:" ++ refId

def intentId (caller : DurableUploadCaller) (idempotencyKey : String) : String :=
  "upl_" ++ shortDigest sha256
    (caller.ownerId ++ nul ++ caller.credentialBinding ++ nul ++ idempotencyKey)

def requestFingerprint (input : CreateDurableUploadIntentInput)
    (uploadTtlMs artifactTtlMs : Int) : String :=
  sha256.text (Json.obj [("declaredMime", .str input.declaredMime),
    ("declaredSize", Json.ofInt input.declaredSize), ("filename", .str input.filename),
    ("expectedDigest", Json.ofOption .str input.expectedDigest),
    ("uploadTtlMs", Json.ofInt uploadTtlMs),
    ("artifactTtlMs", Json.ofInt artifactTtlMs)]).stringify

def refFor (intent : UploadIntentState) (contentHash : String) : String :=
  "art_" ++ shortDigest sha256 (intent.intentId ++ nul ++ contentHash)

def blobKey (intent : UploadIntentState) (refId contentHash : String) : String :=
  "blobs/" ++ sha256.text (intent.ownerId ++ nul ++ intent.credentialBinding ++ nul ++ refId ++
    nul ++ contentHash)

end Codec

/-! ## Codec -/

def decodeIntent (record : Record String UploadValue) : Except Fault (Versioned UploadIntentState) :=
  match record.value with
  | .artifact _ => .error storageError
  | .intent state =>
    if record.key ≠ intentKey state.intentId ∨
        (state.status = .pending ∧ state.finalization ≠ none) ∨
        ((state.status = .finalizing ∨ state.status = .finalized) ∧ state.finalization = none) then
      .error storageError
    else .ok ⟨state, record.revision⟩

def decodeArtifact (record : Record String UploadValue) : Except Fault (Versioned ArtifactState) :=
  match record.value with
  | .intent _ => .error storageError
  | .artifact state =>
    if record.key ≠ artifactKey state.refId ∨
        (state.status = .physicalCleanupPending ∧ state.cleanupReason = none) ∨
        (state.status ≠ .physicalCleanupPending ∧ state.cleanupReason ≠ none) then
      .error storageError
    else .ok ⟨state, record.revision⟩

def assertIntentCaller (state : UploadIntentState) (caller : DurableUploadCaller) :
    Except Fault Unit :=
  if state.ownerId ≠ caller.ownerId ∨ state.credentialBinding ≠ caller.credentialBinding then
    .error (uploadError "Unknown or unavailable upload intent")
  else .ok ()

def assertArtifactCaller (state : ArtifactState) (caller : DurableUploadCaller) :
    Except Fault Unit :=
  if state.ownerId ≠ caller.ownerId ∨ state.credentialBinding ≠ caller.credentialBinding then
    .error (uploadError "Unknown or unavailable artifact")
  else .ok ()

/-- `artifactRef` of a finalization. -/
def FinalizationState.artifactRef (finalization : FinalizationState) (ownerId : String) :
    DurableSourceArtifactRef where
  refId := finalization.refId
  ownershipScope := ownerId
  contentHash := finalization.contentHash
  byteSize := finalization.byteSize
  createdAt := finalization.createdAt
  expiresAt := finalization.expiresAt

/-- `artifactRef` of an artifact. -/
def ArtifactState.artifactRef (state : ArtifactState) : DurableSourceArtifactRef where
  refId := state.refId
  ownershipScope := state.ownerId
  contentHash := state.contentHash
  byteSize := state.byteSize
  createdAt := state.createdAt
  expiresAt := state.expiresAt

def intentView (state : UploadIntentState) : DurableUploadIntentView where
  intentId := state.intentId
  status := state.status
  declaredMime := state.declaredMime
  declaredSize := state.declaredSize
  filename := state.filename
  expectedDigest := state.expectedDigest
  expiresAt := state.expiresAt
  artifactTtlMs := state.artifactTtlMs
  artifactRef :=
    if state.status = .finalized then
      state.finalization.map fun finalization => finalization.artifactRef state.ownerId
    else none

def sameArtifact (left right : ArtifactState) : Bool :=
  left.refId == right.refId && left.ownerId == right.ownerId &&
    left.credentialBinding == right.credentialBinding && left.contentHash == right.contentHash &&
    left.byteSize == right.byteSize && left.mimeType == right.mimeType &&
    left.filename == right.filename && left.blobKey == right.blobKey &&
    left.createdAt == right.createdAt && left.expiresAt == right.expiresAt &&
    left.status == right.status && left.cleanupReason == right.cleanupReason

/-! ## The next state of each writer -/

namespace UploadIntentState

variable (state : UploadIntentState)

/-- `getIntent`, `finalize` and `cleanupIntentRecord`. -/
def expired (nowMs : Int) : UploadIntentState :=
  { state with status := .expired, updatedAt := nowMs }

/-- `finalize`, binding the intent to one content. -/
def finalizing (finalization : FinalizationState) (nowMs : Int) : UploadIntentState :=
  { state with status := .finalizing, finalization := some finalization, updatedAt := nowMs }

/-- `finalize`, at its end. -/
def finalized (nowMs : Int) : UploadIntentState :=
  { state with status := .finalized, updatedAt := nowMs }

/-- `cleanupIntentRecord`, at its end. -/
def touched (nowMs : Int) : UploadIntentState := { state with updatedAt := nowMs }

end UploadIntentState

namespace ArtifactState

variable (state : ArtifactState)

/-- `readArtifact` and `cleanupArtifactRecord`. -/
def expired (nowMs : Int) : ArtifactState :=
  { state with status := .expired, cleanupReason := none, updatedAt := nowMs }

/-- `deleteArtifact`. -/
def deleted (nowMs : Int) : ArtifactState :=
  { state with status := .deleted, cleanupReason := none, updatedAt := nowMs }

/-- `cleanupArtifactRecord`, before it deletes the blob. -/
def pending (reason : RevocationReason) (nowMs : Int) : ArtifactState :=
  { state with
    status := .physicalCleanupPending, cleanupReason := some reason, updatedAt := nowMs }

/-- `cleanupArtifactRecord`, at its end. -/
def settled (reason : RevocationReason) (nowMs : Int) : ArtifactState :=
  { state with status := reason.status, cleanupReason := none, updatedAt := nowMs }

/-- `deleteArtifact` at its end, and `cleanupArtifactRecord` when it resumes a cleanup. -/
def touched (nowMs : Int) : ArtifactState := { state with updatedAt := nowMs }

end ArtifactState

end Groundlane.Uploads
