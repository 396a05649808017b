import Groundlane.Uploads.Contract

/-!
# The durable upload service

`DurableUploadArtifactService` of `core/durable-upload-flow.ts`: its methods as programs over
the record store and the blob store. The revocation of derived content is a port.
-/

namespace Groundlane.Uploads

open Fenced Interleaving

/-- What the service asks of its surroundings. -/
inductive Request where
  | revoke (input : DurableArtifactRevocation)
deriving DecidableEq, Repr

abbrev Answer : Request → Type
  | .revoke _ => Except Fault Unit

/-- The constructor arguments of a service, and the digest function. -/
structure DurableUploadArtifactService (B : Type) where
  sha256 : Sha256 B
  retention : ArtifactRetentionPolicy
  hasRevocations : Bool

/-- The methods with their arguments. -/
inductive Call (B : Type) where
  | createIntent (input : CreateDurableUploadIntentInput) (caller : DurableUploadCaller)
  | getIntent (intentId : String) (caller : DurableUploadCaller) (nowMs : Int)
  | finalize (input : FinalizeDurableUploadInput B) (caller : DurableUploadCaller)
  | readArtifact (refId : String) (caller : DurableUploadCaller) (nowMs maxBytes : Int)
  | deleteArtifact (refId : String) (caller : DurableUploadCaller) (nowMs : Int)
  | cleanupExpiredPage (nowMs : Int) (cursor : Option String) (limit : Int)
deriving DecidableEq

/-- What the methods return. -/
inductive Reply (B : Type) where
  | view (view : DurableUploadIntentView)
  | ref (ref : DurableSourceArtifactRef)
  | read (read : DurableArtifactRead B)
  | nothing
  | page (page : DurableUploadCleanupPage)
deriving DecidableEq

/-- A program of the service. -/
abbrev UploadIo (B : Type) : Type → Type := Io Answer UploadValue B

variable {B : Type} (service : DurableUploadArtifactService B)

/-- Errors other than a `GroundlaneError` become a storage error. -/
def sanitizedStorageCall {α : Type} (operation : UploadIo B α) : UploadIo B α :=
  operation.tryCatch fun
    | .groundlane code stage message => Program.raise (.groundlane code stage message)
    | _ => Program.raise storageError

def revokeArtifactSource (state : ArtifactState) (reason : RevocationReason) (nowMs : Int) :
    UploadIo B Unit :=
  if service.hasRevocations = false then pure ()
  else sanitizedStorageCall do
    let outcome ← ask (.revoke
      { refId := state.refId
        ownerId := state.ownerId
        credentialBinding := state.credentialBinding
        contentHash := state.contentHash
        filename := state.filename
        reason := reason
        nowMs := nowMs })
    Program.ofExcept outcome

def readIntent (id : String) (caller : DurableUploadCaller) :
    UploadIo B (Versioned UploadIntentState) := do
  let record ← sanitizedStorageCall (get (intentKey id))
  match record with
  | none => Program.raise (uploadError "Unknown or unavailable upload intent")
  | some record => do
    let current ← decodeIntent record
    assertIntentCaller current.state caller
    pure current

def readArtifactState (refId : String) (caller : DurableUploadCaller) :
    UploadIo B (Versioned ArtifactState) := do
  let record ← sanitizedStorageCall (get (artifactKey refId))
  match record with
  | none => Program.raise (uploadError "Unknown or unavailable artifact")
  | some record => do
    let current ← decodeArtifact record
    assertArtifactCaller current.state caller
    pure current

/-! ## `createIntent` and `getIntent` -/

/-- The intent that a request wants to create. -/
def initialIntent (input : CreateDurableUploadIntentInput) (caller : DurableUploadCaller)
    (uploadTtlMs artifactTtlMs : Int) : UploadIntentState where
  intentId := intentId service.sha256 caller input.idempotencyKey
  ownerId := caller.ownerId
  credentialBinding := caller.credentialBinding
  idempotencyKey := input.idempotencyKey
  requestFingerprint := requestFingerprint service.sha256 input uploadTtlMs artifactTtlMs
  declaredMime := input.declaredMime
  declaredSize := input.declaredSize
  filename := input.filename
  expectedDigest := input.expectedDigest
  expiresAt := input.nowMs + uploadTtlMs
  artifactTtlMs := artifactTtlMs
  status := .pending
  finalization := none
  createdAt := input.nowMs
  updatedAt := input.nowMs

/-- The checks of `createIntent` in front of those of the lifetimes. -/
def checkCreate (input : CreateDurableUploadIntentInput) (caller : DurableUploadCaller) :
    Except Fault Unit := do
  assertCaller caller
  assertBoundedIdentity input.idempotencyKey "idempotencyKey"
  assertMime input.declaredMime "declaredMime"
  assertFilename input.filename
  assertTime input.nowMs
  if ¬ isSafeInteger input.declaredSize ∨ input.declaredSize < 1 ∨
      maxImmutableBlobBytes < input.declaredSize then
    throw (uploadError ("declaredSize must be 1.." ++ toString maxImmutableBlobBytes ++ " bytes"))
  assertDigest service.sha256 input.expectedDigest

/-- The lifetime asked for or the default, in milliseconds. -/
def resolveTtl (section_ : ArtifactRetentionSection) (ttlMs : Option Int) (field : String) :
    Except Fault Int := do
  let value := ttlMs.getD (section_.defaultTtlSeconds * 1000)
  assertTtl value (section_.minTtlSeconds * 1000) (section_.maxTtlSeconds * 1000) field
  pure value

def createIntent (input : CreateDurableUploadIntentInput) (caller : DurableUploadCaller) :
    UploadIo B DurableUploadIntentView := do
  checkCreate service input caller
  let uploadTtlMs ← resolveTtl service.retention.upload input.uploadTtlMs "upload"
  let artifactTtlMs ← resolveTtl service.retention.artifact input.artifactTtlMs "artifact"
  let initial := initialIntent service input caller uploadTtlMs artifactTtlMs
  let created ← sanitizedStorageCall
    (createIfAbsent (intentKey initial.intentId) (UploadValue.intent initial) input.nowMs
      (some initial.expiresAt))
  let current ← decodeIntent created.record
  assertIntentCaller current.state caller
  if current.state.requestFingerprint ≠ initial.requestFingerprint then
    Program.raise (uploadError "Idempotency key is already bound to a different upload request")
  else pure (intentView current.state)

def getIntent (id : String) (caller : DurableUploadCaller) (nowMs : Int) :
    UploadIo B DurableUploadIntentView := do
  assertCaller caller
  assertBoundedIdentity id "intentId"
  assertTime nowMs
  let current ← readIntent id caller
  if current.state.status = .pending ∧ current.state.expiresAt ≤ nowMs then do
    let saved ← sanitizedStorageCall (compareAndSwap (intentKey id) current.revision
      (UploadValue.intent (current.state.expired nowMs)) nowMs none)
    match saved with
    | .updated record => do
      let expired ← decodeIntent record
      pure (intentView expired.state)
    | _ => pure (intentView (current.state.expired nowMs))
  else pure (intentView current.state)

/-! ## `finalize` -/

section Finalize

variable [ByteString B]

def validateFinalBytes (state : UploadIntentState) (input : FinalizeDurableUploadInput B)
    (digest : String) : Except Fault Unit := do
  if (ByteString.byteLength input.bytes : Int) ≠ state.declaredSize then
    throw (uploadError "Uploaded byte size does not match the declared size")
  if input.observedMime ≠ state.declaredMime then
    throw (uploadError "Observed MIME type does not match the declared MIME type")
  if state.expectedDigest.any fun expected => expected ≠ digest then
    throw (uploadError "Uploaded content hash does not match expectedDigest")
  if state.status = .finalized ∧ state.finalization.map (·.contentHash) ≠ some digest then
    throw (uploadError "Finalized upload cannot be replayed with different content")

/-- What a finalization at `nowMs` binds the intent to. -/
def newFinalization (state : UploadIntentState) (input : FinalizeDurableUploadInput B) :
    FinalizationState where
  refId := refFor service.sha256 state (contentDigest service.sha256 input.bytes)
  contentHash := contentDigest service.sha256 input.bytes
  byteSize := ByteString.byteLength input.bytes
  blobKey := blobKey service.sha256 state
    (refFor service.sha256 state (contentDigest service.sha256 input.bytes))
    (contentDigest service.sha256 input.bytes)
  createdAt := input.nowMs
  expiresAt := input.nowMs + state.artifactTtlMs

/-- The artifact that a finalization creates. -/
def newArtifact (state : UploadIntentState) (finalization : FinalizationState)
    (input : FinalizeDurableUploadInput B) : ArtifactState where
  refId := finalization.refId
  ownerId := state.ownerId
  credentialBinding := state.credentialBinding
  contentHash := contentDigest service.sha256 input.bytes
  byteSize := ByteString.byteLength input.bytes
  mimeType := state.declaredMime
  filename := state.filename
  blobKey := finalization.blobKey
  createdAt := finalization.createdAt
  updatedAt := input.nowMs
  expiresAt := finalization.expiresAt
  status := .active
  cleanupReason := none

/-- Claim a pending intent for one content. -/
def claimIntent (input : FinalizeDurableUploadInput B) (current : Versioned UploadIntentState) :
    UploadIo B (Versioned UploadIntentState) := do
  let finalization := newFinalization service current.state input
  let claimed ← sanitizedStorageCall (compareAndSwap (intentKey input.intentId) current.revision
    (UploadValue.intent (current.state.finalizing finalization input.nowMs)) input.nowMs
    (some finalization.expiresAt))
  match claimed with
  | .updated record => do
    let claimed ← decodeIntent record
    pure claimed
  | _ => Program.raise (uploadErrorOf .upstreamError "Upload finalization conflicted; retry")

/-- `finalize` behind the put of the blob: create the artifact, and mark the intent as
finalized. -/
def createArtifact (input : FinalizeDurableUploadInput B) (current : Versioned UploadIntentState)
    (finalization : FinalizationState) : UploadIo B DurableSourceArtifactRef := do
  let artifact := newArtifact service current.state finalization input
  let artifactCreated ← sanitizedStorageCall (createIfAbsent (artifactKey artifact.refId)
    (UploadValue.artifact artifact) artifact.createdAt (some artifact.expiresAt))
  let durableArtifact ← decodeArtifact artifactCreated.record
  if sameArtifact durableArtifact.state artifact = false then
    Program.raise (uploadErrorOf .upstreamError "Immutable artifact metadata conflict")
  else do
    let saved ← sanitizedStorageCall (compareAndSwap (intentKey input.intentId) current.revision
      (UploadValue.intent (current.state.finalized input.nowMs)) input.nowMs
      (some finalization.expiresAt))
    match saved with
    | .updated _ => pure (finalization.artifactRef current.state.ownerId)
    | .conflict record => do
      let raced ← decodeIntent record
      if raced.state.status = .finalized ∧ raced.state.finalization.map (·.contentHash) =
          some (contentDigest service.sha256 input.bytes) then
        pure (finalization.artifactRef current.state.ownerId)
      else Program.raise (uploadErrorOf .upstreamError "Upload finalization conflicted; retry")
    | .missing =>
      Program.raise (uploadErrorOf .upstreamError "Upload finalization conflicted; retry")

/-- `finalize` of an intent that is claimed for these bytes: store them, then create the
artifact. -/
def completeFinalization (input : FinalizeDurableUploadInput B)
    (current : Versioned UploadIntentState) (finalization : FinalizationState) :
    UploadIo B DurableSourceArtifactRef := do
  let put ← sanitizedStorageCall (putIfAbsent service.sha256 finalization.blobKey
    current.state.ownerId (contentDigest service.sha256 input.bytes) input.bytes)
  match put with
  | .conflict _ => Program.raise (uploadErrorOf .upstreamError "Immutable artifact identity conflict")
  | .created stat | .exists stat =>
    if stat.ownerId ≠ current.state.ownerId ∨
        stat.digest ≠ contentDigest service.sha256 input.bytes ∨
        stat.byteSize ≠ ByteString.byteLength input.bytes then
      Program.raise (uploadErrorOf .upstreamError "Immutable artifact identity conflict")
    else createArtifact service input current finalization

/-- `finalize` behind the claim of the intent. -/
def finalizeClaimed (input : FinalizeDurableUploadInput B)
    (current : Versioned UploadIntentState) : UploadIo B DurableSourceArtifactRef :=
  match current.state.finalization with
  | none => Program.raise (uploadError "Upload finalization is already bound to different content")
  | some finalization =>
    if finalization.contentHash ≠ contentDigest service.sha256 input.bytes ∨
        finalization.byteSize ≠ ByteString.byteLength input.bytes then
      Program.raise (uploadError "Upload finalization is already bound to different content")
    else completeFinalization service input current finalization

def finalize (input : FinalizeDurableUploadInput B) (caller : DurableUploadCaller) :
    UploadIo B DurableSourceArtifactRef := do
  assertCaller caller
  assertBoundedIdentity input.intentId "intentId"
  assertTime input.nowMs
  assertMime input.observedMime "observedMime"
  let current ← readIntent input.intentId caller
  if current.state.status = .expired then
    Program.raise (uploadError "Upload intent has expired")
  else if current.state.status = .pending ∧ current.state.expiresAt ≤ input.nowMs then do
    let _ ← sanitizedStorageCall (compareAndSwap (intentKey input.intentId) current.revision
      (UploadValue.intent (current.state.expired input.nowMs)) input.nowMs none)
    Program.raise (uploadError "Upload intent has expired")
  else do
    validateFinalBytes current.state input (contentDigest service.sha256 input.bytes)
    match current.state.status with
    | .finalized =>
      match current.state.finalization with
      | none =>
        Program.raise (uploadError "Finalized upload cannot be replayed with different content")
      | some finalization =>
        if finalization.contentHash ≠ contentDigest service.sha256 input.bytes then
          Program.raise (uploadError "Finalized upload cannot be replayed with different content")
        else pure (finalization.artifactRef current.state.ownerId)
    | .pending => do
      let claimed ← claimIntent service input current
      finalizeClaimed service input claimed
    | _ => finalizeClaimed service input current

end Finalize

/-! ## `readArtifact` -/

/-- `readArtifact` of an artifact that was found active: read its bytes and look again. -/
def readActive (refId : String) (caller : DurableUploadCaller) (maxBytes : Int)
    (current : Versioned ArtifactState) : UploadIo B (DurableArtifactRead B) := do
  let bytes ← sanitizedStorageCall (getBlob service.sha256 current.state.blobKey
    current.state.ownerId current.state.contentHash maxBytes)
  match bytes with
  | none => Program.raise storageError
  | some bytes => do
    let latest ← readArtifactState refId caller
    if latest.revision ≠ current.revision ∨ latest.state.status ≠ .active then
      Program.raise (uploadError "Unknown or unavailable artifact")
    else
      pure ⟨current.state.artifactRef, bytes, current.state.mimeType, current.state.filename⟩

def readArtifact (refId : String) (caller : DurableUploadCaller) (nowMs maxBytes : Int) :
    UploadIo B (DurableArtifactRead B) := do
  assertCaller caller
  assertBoundedIdentity refId "refId"
  assertTime nowMs
  if ¬ isSafeInteger maxBytes ∨ maxBytes < 1 ∨ maxImmutableBlobBytes < maxBytes then
    Program.raise (uploadError ("maxBytes must be 1.." ++ toString maxImmutableBlobBytes))
  else do
    let current ← readArtifactState refId caller
    if current.state.status = .deleted ∨ current.state.status = .physicalCleanupPending then
      Program.raise (uploadError "Unknown or unavailable artifact")
    else if current.state.status = .expired then
      Program.raise (uploadError "Artifact has expired")
    else if current.state.expiresAt ≤ nowMs then do
      let _ ← sanitizedStorageCall (compareAndSwap (artifactKey refId) current.revision
        (UploadValue.artifact (current.state.expired nowMs)) nowMs (some (nowMs + 60000)))
      Program.raise (uploadError "Artifact has expired")
    else if maxBytes < current.state.byteSize then
      Program.raise (uploadErrorOf .outputLimit "Artifact exceeds the requested read limit")
    else readActive service refId caller maxBytes current

/-! ## `deleteArtifact` -/

/-- Make the record of the artifact a deleted one. -/
def markDeleted (refId : String) (nowMs : Int) (current : Versioned ArtifactState) :
    UploadIo B (Versioned ArtifactState) :=
  if current.state.status = .deleted then pure current
  else do
    let saved ← sanitizedStorageCall (compareAndSwap (artifactKey refId) current.revision
      (UploadValue.artifact (current.state.deleted nowMs)) nowMs (some (nowMs + 60000)))
    match saved with
    | .missing => Program.raise (uploadErrorOf .upstreamError "Artifact deletion conflicted; retry")
    | .updated record | .conflict record => do
      let current ← decodeArtifact record
      if current.state.status ≠ .deleted then
        Program.raise (uploadErrorOf .upstreamError "Artifact deletion conflicted; retry")
      else pure current

def deleteArtifact (refId : String) (caller : DurableUploadCaller) (nowMs : Int) :
    UploadIo B Unit := do
  assertCaller caller
  assertBoundedIdentity refId "refId"
  assertTime nowMs
  let current ← readArtifactState refId caller
  let current ← markDeleted refId nowMs current
  revokeArtifactSource service current.state .deleted nowMs
  let removed ← sanitizedStorageCall
    (deleteIfOwner service.sha256 current.state.blobKey current.state.ownerId)
  if removed = .ownerMismatch then Program.raise storageError
  else do
    let _ ← sanitizedStorageCall (compareAndSwap (artifactKey refId) current.revision
      (UploadValue.artifact (current.state.touched nowMs)) nowMs none)
    pure ()

/-! ## `cleanupExpiredPage` -/

/-- What the cleanup of one record has done. -/
structure CleanupCounts where
  logicallyRevoked : Nat
  physicallyDeleted : Nat
  retryPending : Nat
deriving DecidableEq

/-- Delete the blob of an artifact whose cleanup is pending, and settle its record. -/
def removeAndSettle (key : String) (nowMs : Int) (logicallyRevoked : Nat)
    (current : Versioned ArtifactState) : UploadIo B CleanupCounts := do
  let removed ← (deleteIfOwner service.sha256 current.state.blobKey current.state.ownerId).attempt
  match removed with
  | .error _ => pure ⟨logicallyRevoked, 0, 1⟩
  | .ok removed =>
    if removed = .ownerMismatch then pure ⟨logicallyRevoked, 0, 1⟩
    else
      match current.state.cleanupReason with
      | none => pure ⟨logicallyRevoked, 0, 1⟩
      | some reason => do
        let saved ← compareAndSwap key current.revision
          (UploadValue.artifact (current.state.settled reason nowMs)) nowMs none
        let physicallyDeleted := if removed = .deleted then 1 else 0
        match saved with
        | .updated _ => pure ⟨logicallyRevoked, physicallyDeleted, 0⟩
        | _ => pure ⟨logicallyRevoked, physicallyDeleted, 1⟩

/-- Swap the record of an artifact so that its cleanup is pending, then clean it up. -/
def leaseCleanup (key : String) (nowMs : Int) (logicallyRevoked revision : Nat)
    (next : ArtifactState) : UploadIo B CleanupCounts := do
  let saved ← compareAndSwap key revision (UploadValue.artifact next) nowMs (some (nowMs + 60000))
  match saved with
  | .updated record => do
    let current ← decodeArtifact record
    removeAndSettle service key nowMs logicallyRevoked current
  | _ => pure ⟨logicallyRevoked, 0, 1⟩

/-- `cleanupArtifactRecord` of an artifact that is not active. -/
def cleanupRevoked (key : String) (nowMs : Int) (logicallyRevoked : Nat)
    (current : Versioned ArtifactState) : UploadIo B CleanupCounts :=
  match current.state.status with
  | .active => pure ⟨logicallyRevoked, 0, 0⟩
  | .expired => do
    revokeArtifactSource service current.state .expired nowMs
    leaseCleanup service key nowMs logicallyRevoked current.revision
      (current.state.pending .expired nowMs)
  | .deleted => do
    revokeArtifactSource service current.state .deleted nowMs
    leaseCleanup service key nowMs logicallyRevoked current.revision
      (current.state.pending .deleted nowMs)
  | .physicalCleanupPending => do
    match current.state.cleanupReason with
    | some reason => revokeArtifactSource service current.state reason nowMs
    | none => pure ()
    leaseCleanup service key nowMs logicallyRevoked current.revision (current.state.touched nowMs)

def cleanupArtifactRecord (record : Record String UploadValue) (nowMs : Int) :
    UploadIo B CleanupCounts := do
  let current ← decodeArtifact record
  if current.state.status = .active then do
    let revoked ← compareAndSwap record.key current.revision
      (UploadValue.artifact (current.state.expired nowMs)) nowMs (some (nowMs + 60000))
    match revoked with
    | .updated revoked => do
      let current ← decodeArtifact revoked
      cleanupRevoked service record.key nowMs 1 current
    | _ => pure ⟨0, 0, 1⟩
  else cleanupRevoked service record.key nowMs 0 current

/-- Delete the blob of an expired intent that was being finalized; `expiresAt` is that of the
record that the scan has found. -/
def cleanupFinalization (key : String) (expiresAt : Option Int) (nowMs : Int)
    (current : Versioned UploadIntentState) : UploadIo B CleanupCounts :=
  match current.state.finalization, expiresAt with
  | some finalization, some _ => do
    let removed ← (deleteIfOwner service.sha256 finalization.blobKey current.state.ownerId).attempt
    match removed with
    | .error _ => pure ⟨0, 0, 1⟩
    | .ok removed =>
      if removed = .ownerMismatch then pure ⟨0, 0, 1⟩
      else do
        let saved ← compareAndSwap key current.revision
          (UploadValue.intent (current.state.touched nowMs)) nowMs none
        let physicallyDeleted := if removed = .deleted then 1 else 0
        match saved with
        | .updated _ => pure ⟨0, physicallyDeleted, 0⟩
        | _ => pure ⟨0, physicallyDeleted, 1⟩
  | _, _ => pure ⟨0, 0, 0⟩

def cleanupIntentRecord (record : Record String UploadValue) (nowMs : Int) :
    UploadIo B CleanupCounts := do
  let current ← decodeIntent record
  if current.state.status ≠ .expired then do
    let needsBlobCleanup := current.state.status = .finalizing ∧ current.state.finalization ≠ none
    let revoked ← compareAndSwap record.key current.revision
      (UploadValue.intent (current.state.expired nowMs)) nowMs
      (if needsBlobCleanup then some (nowMs + 60000) else none)
    match revoked with
    | .updated revoked => do
      let current ← decodeIntent revoked
      if needsBlobCleanup then
        cleanupFinalization service record.key record.expiresAt nowMs current
      else pure ⟨1, 0, 0⟩
    | _ => pure ⟨0, 0, 1⟩
  else cleanupFinalization service record.key record.expiresAt nowMs current

/-- Whether the text starts with the prefix. -/
def startsWith (start text : String) : Bool :=
  start.toList.isPrefixOf text.toList

/-- The cleanup of one record of a page; `none` if it is neither an artifact nor an intent. -/
def cleanupRecord (record : Record String UploadValue) (nowMs : Int) :
    UploadIo B (Option CleanupCounts) :=
  if startsWith "upload-artifact:" record.key then do
    let counts ← cleanupArtifactRecord service record nowMs
    pure (some counts)
  else if startsWith "upload-intent:" record.key then do
    let counts ← cleanupIntentRecord service record nowMs
    pure (some counts)
  else pure none

/-- The page with the outcome of the cleanup of one more record added. -/
def DurableUploadCleanupPage.count (page : DurableUploadCleanupPage) (key : String) :
    Except Fault (Option CleanupCounts) → DurableUploadCleanupPage
  | .ok (some counts) =>
    { page with
      logicallyRevoked := page.logicallyRevoked + counts.logicallyRevoked
      physicallyDeleted := page.physicallyDeleted + counts.physicallyDeleted
      retryPending := page.retryPending + counts.retryPending }
  | .ok none => { page with failures := page.failures ++ [key] }
  | .error _ =>
    { page with failures := page.failures ++ [key], retryPending := page.retryPending + 1 }

/-- The loop of `cleanupExpiredPage`. -/
def cleanupRecords (nowMs : Int) :
    List (Record String UploadValue) → DurableUploadCleanupPage →
      UploadIo B DurableUploadCleanupPage
  | [], page => pure page
  | record :: rest, page => do
    let outcome ← (cleanupRecord service record nowMs).attempt
    cleanupRecords nowMs rest (page.count record.key outcome)

def cleanupExpiredPage (nowMs : Int) (cursor : Option String) (limit : Int) :
    UploadIo B DurableUploadCleanupPage := do
  assertTime nowMs
  if cursor.any fun cursor => utf16Length cursor = 0 ∨ 240 < utf16Length cursor then
    Program.raise (uploadError "Cleanup cursor is invalid")
  else if ¬ isSafeInteger limit ∨ limit < 1 ∨ 100 < limit then
    Program.raise (uploadError "Cleanup page limit must be 1..100")
  else do
    let page ← sanitizedStorageCall (scanExpired nowMs cursor limit.toNat)
    cleanupRecords service nowMs page.1 ⟨page.1.length, 0, 0, 0, [], page.2⟩

/-! ## All calls -/

section Main

variable [ByteString B]

/-- The program of each call. -/
def main : Call B → UploadIo B (Reply B)
  | .createIntent input caller =>
    (createIntent service input caller).bind fun view => pure (.view view)
  | .getIntent id caller nowMs => (getIntent id caller nowMs).bind fun view => pure (.view view)
  | .finalize input caller => (finalize service input caller).bind fun ref => pure (.ref ref)
  | .readArtifact refId caller nowMs maxBytes =>
    (readArtifact service refId caller nowMs maxBytes).bind fun read => pure (.read read)
  | .deleteArtifact refId caller nowMs =>
    (deleteArtifact service refId caller nowMs).bind fun _ => pure .nothing
  | .cleanupExpiredPage nowMs cursor limit =>
    (cleanupExpiredPage service nowMs cursor limit).bind fun page => pure (.page page)

/-- All calls of one service over one record store and one blob store. -/
def uploads : System (Call B) (Op UploadValue B Request) (Op.Res Answer) Fault (Reply B)
    (Disk UploadValue B) (Oracle Answer) :=
  system service.sha256 (main service)

end Main

end Groundlane.Uploads
