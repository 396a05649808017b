import Groundlane.Artifacts.Metadata

/-!
# The durable artifact repository

`DurableArtifactRepository` of `core/durable-artifacts.ts`: its methods as programs over the
record store and the blob store. Random ids are a port. A `try` block is the program of its body
with its errors caught.
-/

namespace Groundlane.Artifacts

open Fenced Interleaving

/-- What the repository asks of its surroundings. -/
inductive Request where
  | randomUUID
deriving DecidableEq, Repr

abbrev Answer : Request → Type
  | .randomUUID => String

/-- `PutDurableArtifactResult`. -/
inductive PutDurableArtifactResult where
  | created (record : DurableArtifactRecord)
  | exists (record : DurableArtifactRecord)
deriving DecidableEq, Repr

inductive DurableArtifactTransitionResult where
  | updated (record : DurableArtifactRecord)
  | conflict (record : DurableArtifactRecord)
  | missing
deriving DecidableEq, Repr

structure DurableArtifactExpiryPage where
  expired : List DurableArtifactRecord
  conflicts : List String
  nextCursor : Option String
deriving DecidableEq, Repr

inductive DurableArtifactCleanupResult where
  | deleted
  | missing
  | conflict
  | ownerMismatch
deriving DecidableEq, Repr

/-- The methods with their arguments. -/
inductive Call (B : Type) where
  | isExternalSourceRevoked (refId : String) (caller : DurableArtifactCaller)
  | registerExternalOutput (refId outputRefId : String) (caller : DurableArtifactCaller)
    (nowMs : Int)
  | nextRevokedExternalOutput (refId : String) (caller : DurableArtifactCaller) (nowMs : Int)
  | acknowledgeRevokedExternalOutput (refId : String) (caller : DurableArtifactCaller)
    (edgeKey : String) (nowMs : Int)
  | get (refId : String)
  | getForCaller (refId : String) (caller : DurableArtifactCaller)
  | put (input : PutDurableArtifactInput B)
  | markVerified (refId : String) (caller : DurableArtifactCaller) (expectedRevision : Nat)
    (nowMs : Int)
  | readVerified (refId : String) (caller : DurableArtifactCaller) (nowMs maxBytes : Int)
  | deleteExplicit (refId : String) (caller : DurableArtifactCaller) (expectedRevision : Nat)
    (nowMs : Int)
  | expireDue (nowMs : Int) (cursor : Option String) (limit : Nat)
  | markCleanupPending (refId : String) (caller : DurableArtifactCaller) (expectedRevision : Nat)
    (nowMs : Int)
  | cleanupPending (refId : String) (caller : DurableArtifactCaller) (expectedRevision : Nat)
  | deleteOwnerArtifacts (caller : DurableArtifactCaller) (refIds : List String) (nowMs : Int)
  | sweepExpired (nowMs : Int) (cursor : Option String) (limit : Nat)
deriving DecidableEq

/-- What the methods return. -/
inductive Reply (B : Type) where
  | nothing
  | revoked (revoked : Bool)
  | edge (edge : Option (String × String))
  | record (record : Option DurableArtifactRecord)
  | put (result : PutDurableArtifactResult)
  | transition (result : DurableArtifactTransitionResult)
  | bytes (bytes : B)
  | page (page : DurableArtifactExpiryPage)
  | cleanup (result : DurableArtifactCleanupResult)
  | owned (revoked skipped : List String)
  | swept (deleted : Nat) (nextCursor : Option String)
deriving DecidableEq

/-- A program of the repository. -/
abbrev ArtifactIo (B : Type) : Type → Type := Io Answer ArtifactValue B

variable {B : Type} (sha256 : Sha256 B)

/-! ## External sources -/

def isExternalSourceRevoked (refId : String) (caller : DurableArtifactCaller) :
    ArtifactIo B Bool := do
  let key ← externalSourceKey sha256 refId caller
  let current ← get key
  match current with
  | none => pure false
  | some current => do
    let state ← decodeOutputSourceHead current.value
    pure state.1

/-- The compare-and-swap loop of `registerExternalOutput`. -/
def registerEdge (key outputRefId : String) (nowMs : Int) : Nat → ArtifactIo B Unit
  | 0 => Program.raise (.error "External source registration conflicted")
  | attempts + 1 => do
    let current ← get key
    match current with
    | none => Program.raise (.error "External source index missing")
    | some current => do
      let state ← decodeOutputSourceHead current.value
      if state.1 then Program.raise (.error "External source revoked")
      else do
        let uuid ← ask Request.randomUUID
        let edgeKey := "output-edge:" ++ uuid
        let _ ← createIfAbsent edgeKey (ArtifactValue.sourceEdge outputRefId state.2) nowMs none
        let result ← compareAndSwap key current.revision
          (ArtifactValue.sourceHead false (some edgeKey)) nowMs none
        match result with
        | .updated _ => pure ()
        | _ => do
          let _ ← deleteIfRevision edgeKey 1
          registerEdge key outputRefId nowMs attempts

def registerExternalOutput (refId outputRefId : String) (caller : DurableArtifactCaller)
    (nowMs : Int) : ArtifactIo B Unit := do
  assertRefId outputRefId
  let key ← externalSourceKey sha256 refId caller
  let _ ← createIfAbsent key (ArtifactValue.sourceHead false none) nowMs none
  registerEdge key outputRefId nowMs 16

/-- The compare-and-swap loop of `nextRevokedExternalOutput`. -/
def revokeSource (key : String) (nowMs : Int) : Nat → ArtifactIo B (Option (String × String))
  | 0 => Program.raise (.error "External source revocation conflicted")
  | attempts + 1 => do
    let current ← get key
    match current with
    | none => Program.raise (.error "External source index missing")
    | some current => do
      let state ← decodeOutputSourceHead current.value
      let next : ArtifactIo B (Option (String × String)) :=
        match state.2 with
        | none => pure none
        | some head => do
          let edge ← get head
          match edge with
          | none => Program.raise (.error "External source edge missing")
          | some edge => do
            let decoded ← decodeOutputSourceEdge edge.value
            pure (some (head, decoded.1))
      if state.1 then next
      else do
        let result ← compareAndSwap key current.revision
          (ArtifactValue.sourceHead true state.2) nowMs none
        match result with
        | .updated _ => next
        | _ => revokeSource key nowMs attempts

/-- The edge key and the output of the next output derived from a revoked source. -/
def nextRevokedExternalOutput (refId : String) (caller : DurableArtifactCaller) (nowMs : Int) :
    ArtifactIo B (Option (String × String)) := do
  let key ← externalSourceKey sha256 refId caller
  let _ ← createIfAbsent key (ArtifactValue.sourceHead true none) nowMs none
  revokeSource key nowMs 16

def acknowledgeRevokedExternalOutput (refId : String) (caller : DurableArtifactCaller)
    (edgeKey : String) (nowMs : Int) : ArtifactIo B Unit := do
  let key ← externalSourceKey sha256 refId caller
  let current ← get key
  match current with
  | none => Program.raise (.error "External source index missing")
  | some current => do
    let state ← decodeOutputSourceHead current.value
    if state.1 = false ∨ state.2 ≠ some edgeKey then pure ()
    else do
      let edge ← get edgeKey
      match edge with
      | none => Program.raise (.error "External source edge missing")
      | some edge => do
        let decoded ← decodeOutputSourceEdge edge.value
        let result ← compareAndSwap key current.revision
          (ArtifactValue.sourceHead true decoded.2) nowMs none
        match result with
        | .updated _ => do
          let _ ← deleteIfRevision edgeKey edge.revision
          pure ()
        | _ => pure ()

/-! ## Shared steps -/

def getStored (refId : String) : ArtifactIo B (Option StoredDurableArtifactRecord) := do
  let key ← metadataKey refId
  let record ← get key
  match record with
  | none => pure none
  | some record => do
    let stored ← decode sha256 record
    pure (some stored)

def assertOwner (metadata : StoredDurableArtifactMetadata) (caller : DurableArtifactCaller) :
    Except Fault Unit := do
  assertCaller caller
  if metadata.ownerId ≠ caller.ownerId ∨ metadata.tenantId ≠ caller.tenantId ∨
      metadata.credentialBindingHash ≠ credentialBindingHash sha256 caller.credentialBinding then
    throw (.error "durable artifact is unavailable")

def cas (current : StoredDurableArtifactRecord) (expectedRevision : Nat)
    (metadata : StoredDurableArtifactMetadata) (expiresAt : Option Int) :
    ArtifactIo B DurableArtifactTransitionResult :=
  if current.revision ≠ expectedRevision then pure (.conflict (publicRecord current))
  else do
    let key ← metadataKey metadata.refId
    let value ← encode sha256 metadata
    -- Revoked records stay discoverable for bounded, retryable physical cleanup.
    let result ← compareAndSwap key expectedRevision value metadata.updatedAt
      (if metadata.status = .active then expiresAt else some (metadata.updatedAt + 1))
    match result with
    | .missing => pure .missing
    | .conflict record => do
      let stored ← decode sha256 record
      pure (.conflict (publicRecord stored))
    | .updated record => do
      let stored ← decode sha256 record
      pure (.updated (publicRecord stored))

/-! ## The next metadata of each writer -/

namespace StoredDurableArtifactMetadata

variable (metadata : StoredDurableArtifactMetadata) (nowMs : Int)

/-- `markVerified`. -/
def markedVerified : StoredDurableArtifactMetadata :=
  { metadata with verification := .verified, updatedAt := nowMs }

/-- `readVerified` and `expireDue`. -/
def expired : StoredDurableArtifactMetadata :=
  { metadata with
    status := .logicallyExpired, cleanupReason := some .expired, updatedAt := nowMs }

/-- `deleteExplicit`, and `sweepExpired` for the source of a deleted canonical artifact. -/
def deleted : StoredDurableArtifactMetadata :=
  { metadata with
    status := .logicallyDeleted, cleanupReason := some .explicitDelete, updatedAt := nowMs }

/-- `markCleanupPending`. -/
def cleanupPending : StoredDurableArtifactMetadata :=
  { metadata with status := .physicalCleanupPending, updatedAt := nowMs }

/-- `sweepExpired`. -/
def swept : StoredDurableArtifactMetadata :=
  { metadata with
    status := .physicalCleanupPending, cleanupReason := metadata.cleanupReason.or (some .expired),
    updatedAt := nowMs }

end StoredDurableArtifactMetadata

/-! ## `get` and `put` -/

def getArtifact (refId : String) : ArtifactIo B (Option DurableArtifactRecord) := do
  let record ← getStored sha256 refId
  pure (record.map publicRecord)

def getForCaller (refId : String) (caller : DurableArtifactCaller) :
    ArtifactIo B (Option DurableArtifactRecord) := do
  let record ← getStored sha256 refId
  match record with
  | none => pure none
  | some record => do
    assertOwner sha256 record.metadata caller
    pure (some (publicRecord record))

section Put

variable [ByteString B] (input : PutDurableArtifactInput B)

/-- The checks of `put` on its input. -/
def checkPut : Except Fault Unit := do
  assertRefId input.refId
  assertCaller input.caller
  validateDetails input.details
  if ¬ sha256.isTagged "sha256-" input.contentHash ∨ digest sha256 input.bytes ≠ input.contentHash
  then
    throw (.error "durable artifact content hash does not match bytes")
  if ByteString.byteLength input.bytes < 1 then
    throw (.error "durable artifact bytes are empty")
  if ¬ isSafeInteger input.nowMs ∨ input.nowMs < 0 ∨ ¬ isSafeInteger input.expiresAt ∨
      input.expiresAt ≤ input.nowMs then
    throw (.error "durable artifact expiry is invalid")

/-- The metadata that a put wants to store. -/
def putMetadata : StoredDurableArtifactMetadata where
  refId := input.refId
  ownerId := input.ownerId
  tenantId := input.tenantId
  credentialBindingHash := credentialBindingHash sha256 input.credentialBinding
  retentionPolicy := input.retentionPolicy
  deletionPolicy := input.deletionPolicy
  contentHash := input.contentHash
  byteSize := ByteString.byteLength input.bytes
  expiresAt := input.expiresAt
  blobKey := blobKey sha256 input.caller input.refId input.contentHash
  verification := input.verification
  status := .active
  cleanupReason := none
  createdAt := input.nowMs
  updatedAt := input.nowMs
  details := input.details

/-- The `try` block of `put`. -/
def createMetadata : ArtifactIo B (CreateResult String ArtifactValue) := do
  let key ← metadataKey input.refId
  let value ← encode sha256 (putMetadata sha256 input)
  createIfAbsent key value input.nowMs (some input.expiresAt)

/-- Delete the blob that a put has created. -/
def discardBlob : ArtifactIo B BlobDeleteResult :=
  deleteIfOwner sha256 (putMetadata sha256 input).blobKey
    (blobOwnerId sha256 (putMetadata sha256 input))

/-- The handler of the `try` block: delete the blob after a read proves that the durable record
does not refer to it; whatever goes wrong here, the bytes are retained. -/
def reconcilePut : ArtifactIo B Unit := do
  let _ ← (do
    let committed ← getStored sha256 input.refId
    match committed with
    | none => discardBlob sha256 input
    | some committed =>
      if committed.metadata.blobKey ≠ (putMetadata sha256 input).blobKey then
        discardBlob sha256 input
      else pure .missing : ArtifactIo B BlobDeleteResult).attempt
  pure ()

/-- `put` behind the creation of the blob; `owned` if the put created it. -/
def commitPut (owned : Bool) : ArtifactIo B PutDurableArtifactResult := do
  let created ← (createMetadata sha256 input).attempt
  match created with
  | .error error =>
    if owned then do
      reconcilePut sha256 input
      Program.raise error
    else Program.raise error
  | .ok created => do
    let result ← decode sha256 created.record
    if sameArtifact result.metadata (putMetadata sha256 input) then
      pure (match created with
        | .created _ => .created (publicRecord result)
        | .existing _ => .exists (publicRecord result))
    else if owned then do
      let _ ← discardBlob sha256 input
      Program.raise (.error "durable artifact refId already has different metadata")
    else Program.raise (.error "durable artifact refId already has different metadata")

def put : ArtifactIo B PutDurableArtifactResult := do
  checkPut sha256 input
  let blobResult ← putIfAbsent sha256 (putMetadata sha256 input).blobKey
    (blobOwnerId sha256 (putMetadata sha256 input)) input.contentHash input.bytes
  match blobResult with
  | .conflict _ => Program.raise (.error "durable artifact blob identity conflict")
  | .created _ => commitPut sha256 input true
  | .exists _ => commitPut sha256 input false

end Put

/-! ## Transitions -/

def markVerified (refId : String) (caller : DurableArtifactCaller) (expectedRevision : Nat)
    (nowMs : Int) : ArtifactIo B DurableArtifactTransitionResult := do
  let current ← getStored sha256 refId
  match current with
  | none => pure .missing
  | some current => do
    assertOwner sha256 current.metadata caller
    if current.metadata.status ≠ .active then
      Program.raise (.error "revoked durable artifact cannot be verified")
    else do
      let found ← stat sha256 current.metadata.blobKey
      if found.all fun found =>
          found.ownerId ≠ blobOwnerId sha256 current.metadata ∨
            found.digest ≠ current.metadata.contentHash ∨
            found.byteSize ≠ current.metadata.byteSize then
        Program.raise (.error "durable artifact blob verification failed")
      else
        cas sha256 current expectedRevision (current.metadata.markedVerified nowMs)
          (some current.metadata.expiresAt)

section Read

variable [ByteString B]

/-- The re-check of `readVerified` after the blob has been read. -/
def recheck (refId : String) (caller : DurableArtifactCaller) (maxBytes : Int)
    (current : StoredDurableArtifactRecord) (bytes : B) : ArtifactIo B B := do
  let latest ← getStored sha256 refId
  match latest with
  | none => Program.raise (.error "durable artifact is unavailable")
  | some latest => do
    assertOwner sha256 latest.metadata caller
    if latest.revision ≠ current.revision ∨ latest.metadata.status ≠ .active ∨
        latest.metadata.verification ≠ .verified then
      Program.raise (.error "durable artifact access is revoked or changed")
    else if ByteString.byteLength bytes ≠ latest.metadata.byteSize ∨
        maxBytes < ByteString.byteLength bytes ∨
        digest sha256 bytes ≠ latest.metadata.contentHash then
      Program.raise (.error "durable artifact blob integrity check failed")
    else pure bytes

def readVerified (refId : String) (caller : DurableArtifactCaller) (nowMs maxBytes : Int) :
    ArtifactIo B B := do
  let current ← getStored sha256 refId
  match current with
  | none => Program.raise (.error "durable artifact is unavailable")
  | some current => do
    assertOwner sha256 current.metadata caller
    if current.metadata.expiresAt ≤ nowMs then
      if current.metadata.status = .active then do
        let _ ← cas sha256 current current.revision (current.metadata.expired nowMs) none
        Program.raise (.error "durable artifact has expired")
      else Program.raise (.error "durable artifact has expired")
    else if current.metadata.status ≠ .active then
      Program.raise (.error "durable artifact access is revoked")
    else if current.metadata.verification ≠ .verified then
      Program.raise (.error "durable artifact is not verified")
    else do
      let bytes ← getBlob sha256 current.metadata.blobKey (blobOwnerId sha256 current.metadata)
        current.metadata.contentHash maxBytes
      match bytes with
      | none => Program.raise (.error "durable artifact blob is unavailable")
      | some bytes => recheck sha256 refId caller maxBytes current bytes

end Read

def deleteExplicit (refId : String) (caller : DurableArtifactCaller) (expectedRevision : Nat)
    (nowMs : Int) : ArtifactIo B DurableArtifactTransitionResult := do
  let current ← getStored sha256 refId
  match current with
  | none => pure .missing
  | some current => do
    assertOwner sha256 current.metadata caller
    if current.metadata.status ≠ .active then
      Program.raise (.error "durable artifact is already revoked")
    else cas sha256 current expectedRevision (current.metadata.deleted nowMs) none

/-- The loop of `expireDue` over the records of a page. -/
def expireRecords (nowMs : Int) :
    List (Record String ArtifactValue) → List DurableArtifactRecord → List String →
      ArtifactIo B (List DurableArtifactRecord × List String)
  | [], expired, conflicts => pure (expired, conflicts)
  | raw :: rest, expired, conflicts => do
    let current ← decode sha256 raw
    if current.metadata.status ≠ .active then expireRecords nowMs rest expired conflicts
    else do
      let result ← cas sha256 current current.revision (current.metadata.expired nowMs) none
      match result with
      | .updated record => expireRecords nowMs rest (expired ++ [record]) conflicts
      | .conflict _ => expireRecords nowMs rest expired (conflicts ++ [current.metadata.refId])
      | .missing => expireRecords nowMs rest expired conflicts

def expireDue (nowMs : Int) (cursor : Option String) (limit : Nat) :
    ArtifactIo B DurableArtifactExpiryPage := do
  let page ← scanExpired nowMs cursor limit
  let results ← expireRecords sha256 nowMs page.1 [] []
  pure ⟨results.1, results.2, page.2⟩

def markCleanupPending (refId : String) (caller : DurableArtifactCaller) (expectedRevision : Nat)
    (nowMs : Int) : ArtifactIo B DurableArtifactTransitionResult := do
  let current ← getStored sha256 refId
  match current with
  | none => pure .missing
  | some current => do
    assertOwner sha256 current.metadata caller
    if current.metadata.status ≠ .logicallyExpired ∧ current.metadata.status ≠ .logicallyDeleted
    then
      Program.raise (.error "durable artifact is not logically revoked")
    else cas sha256 current expectedRevision (current.metadata.cleanupPending nowMs) none

def cleanupPending (refId : String) (caller : DurableArtifactCaller) (expectedRevision : Nat) :
    ArtifactIo B DurableArtifactCleanupResult := do
  let current ← getStored sha256 refId
  match current with
  | none => pure .missing
  | some current => do
    assertOwner sha256 current.metadata caller
    if current.metadata.status ≠ .physicalCleanupPending then
      Program.raise (.error "durable artifact cleanup is not pending")
    else if current.revision ≠ expectedRevision then pure .conflict
    else do
      let blobDeleted ← deleteIfOwner sha256 current.metadata.blobKey
        (blobOwnerId sha256 current.metadata)
      match blobDeleted with
      | .ownerMismatch => pure .ownerMismatch
      | _ => do
        let key ← metadataKey refId
        let outcome ← deleteIfRevision key expectedRevision
        pure (match outcome with
          | .deleted => .deleted
          | .missing => .missing
          | .conflict => .conflict)

/-- The loop of `deleteOwnerArtifacts`. -/
def deleteOwned (caller : DurableArtifactCaller) (nowMs : Int) :
    List String → List String → List String → ArtifactIo B (List String × List String)
  | [], revoked, skipped => pure (revoked, skipped)
  | refId :: rest, revoked, skipped => do
    let current ← getStored sha256 refId
    match current with
    | none => deleteOwned caller nowMs rest revoked (skipped ++ [refId])
    | some current =>
      if current.metadata.ownerId ≠ caller.ownerId ∨
          current.metadata.tenantId ≠ caller.tenantId ∨
          current.metadata.credentialBindingHash ≠
            credentialBindingHash sha256 caller.credentialBinding ∨
          current.metadata.status ≠ .active then
        deleteOwned caller nowMs rest revoked (skipped ++ [refId])
      else do
        let result ← deleteExplicit sha256 refId caller current.revision nowMs
        match result with
        | .updated _ => deleteOwned caller nowMs rest (revoked ++ [refId]) skipped
        | _ => deleteOwned caller nowMs rest revoked (skipped ++ [refId])

def deleteOwnerArtifacts (caller : DurableArtifactCaller) (refIds : List String) (nowMs : Int) :
    ArtifactIo B (List String × List String) := do
  assertCaller caller
  deleteOwned sha256 caller nowMs refIds.eraseDups [] []

/-! ## Sweeping -/

/-- Delete the bytes and then the record of an artifact whose cleanup is pending; whether the
record was deleted. -/
def removePending (key : String) (current : StoredDurableArtifactRecord) : ArtifactIo B Bool := do
  let status ← deleteIfOwner sha256 current.metadata.blobKey (blobOwnerId sha256 current.metadata)
  match status with
  | .ownerMismatch => pure false
  | _ => do
    let outcome ← deleteIfRevision key current.revision
    pure (outcome = .deleted)

/-- The part of the sweep of one record behind its parent link. -/
def sweepUnlinked (nowMs : Int) (key : String) (current : StoredDurableArtifactRecord) :
    ArtifactIo B Bool :=
  if current.metadata.status ≠ .physicalCleanupPending then do
    let result ← cas sha256 current current.revision (current.metadata.swept nowMs) (some nowMs)
    match result with
    | .updated record => do
      let refreshed ← getStored sha256 current.metadata.refId
      match refreshed with
      | none => pure false
      | some refreshed =>
        if refreshed.revision ≠ record.revision then pure false
        else removePending sha256 key refreshed
    | _ => pure false
  else removePending sha256 key current

/-- The parent link of a canonical artifact whose source is still there: pass the deletion on. -/
def sweepLinked (nowMs : Int) (current source : StoredDurableArtifactRecord) :
    ArtifactIo B Bool :=
  if source.metadata.tenantId ≠ current.metadata.tenantId ∨
      source.metadata.ownerId ≠ current.metadata.ownerId ∨
      source.metadata.credentialBindingHash ≠ current.metadata.credentialBindingHash then
    pure false
  else if source.metadata.status = .active ∧
      current.metadata.cleanupReason = some .explicitDelete then do
    let _ ← cas sha256 source source.revision (source.metadata.deleted nowMs) none
    pure false
  else pure false

/-- The body of the loop of `sweepExpired`: whether the record was deleted. -/
def sweepRecord (nowMs : Int) (raw : Record String ArtifactValue) : ArtifactIo B Bool := do
  let current ← decode sha256 raw
  if current.metadata.status = .active ∧ nowMs < current.metadata.expiresAt then pure false
  else
    match current.metadata.details with
    | .canonical sourceRefId _ _ => do
      let source ← getStored sha256 sourceRefId
      match source with
      | some source => sweepLinked sha256 nowMs current source
      | none => sweepUnlinked sha256 nowMs raw.key current
    | _ => sweepUnlinked sha256 nowMs raw.key current

/-- The loop of `sweepExpired`; a record whose sweep fails is retained. -/
def sweepRecords (nowMs : Int) : List (Record String ArtifactValue) → Nat → ArtifactIo B Nat
  | [], deleted => pure deleted
  | raw :: rest, deleted => do
    let swept ← (sweepRecord sha256 nowMs raw).attempt
    match swept with
    | .ok true => sweepRecords nowMs rest (deleted + 1)
    | _ => sweepRecords nowMs rest deleted

def sweepExpired (nowMs : Int) (cursor : Option String) (limit : Nat) :
    ArtifactIo B (Nat × Option String) :=
  if limit < 1 ∨ 1000 < limit then Program.raise (.error "invalid cleanup limit")
  else do
    let page ← scanExpired nowMs cursor limit
    let deleted ← sweepRecords sha256 nowMs page.1 0
    pure (deleted, page.2)

/-! ## All calls -/

section Main

variable [ByteString B]

/-- The program of each call. -/
def main : Call B → ArtifactIo B (Reply B)
  | .isExternalSourceRevoked refId caller =>
    (isExternalSourceRevoked sha256 refId caller).bind fun revoked => pure (.revoked revoked)
  | .registerExternalOutput refId outputRefId caller nowMs =>
    (registerExternalOutput sha256 refId outputRefId caller nowMs).bind fun _ => pure .nothing
  | .nextRevokedExternalOutput refId caller nowMs =>
    (nextRevokedExternalOutput sha256 refId caller nowMs).bind fun edge => pure (.edge edge)
  | .acknowledgeRevokedExternalOutput refId caller edgeKey nowMs =>
    (acknowledgeRevokedExternalOutput sha256 refId caller edgeKey nowMs).bind fun _ =>
      pure .nothing
  | .get refId => (getArtifact sha256 refId).bind fun record => pure (.record record)
  | .getForCaller refId caller =>
    (getForCaller sha256 refId caller).bind fun record => pure (.record record)
  | .put input => (put sha256 input).bind fun result => pure (.put result)
  | .markVerified refId caller expectedRevision nowMs =>
    (markVerified sha256 refId caller expectedRevision nowMs).bind fun result =>
      pure (.transition result)
  | .readVerified refId caller nowMs maxBytes =>
    (readVerified sha256 refId caller nowMs maxBytes).bind fun bytes => pure (.bytes bytes)
  | .deleteExplicit refId caller expectedRevision nowMs =>
    (deleteExplicit sha256 refId caller expectedRevision nowMs).bind fun result =>
      pure (.transition result)
  | .expireDue nowMs cursor limit =>
    (expireDue sha256 nowMs cursor limit).bind fun page => pure (.page page)
  | .markCleanupPending refId caller expectedRevision nowMs =>
    (markCleanupPending sha256 refId caller expectedRevision nowMs).bind fun result =>
      pure (.transition result)
  | .cleanupPending refId caller expectedRevision =>
    (cleanupPending sha256 refId caller expectedRevision).bind fun result =>
      pure (.cleanup result)
  | .deleteOwnerArtifacts caller refIds nowMs =>
    (deleteOwnerArtifacts sha256 caller refIds nowMs).bind fun results =>
      pure (.owned results.1 results.2)
  | .sweepExpired nowMs cursor limit =>
    (sweepExpired sha256 nowMs cursor limit).bind fun results =>
      pure (.swept results.1 results.2)

/-- All calls of one repository over one record store and one blob store. -/
def repository : System (Call B) (Op ArtifactValue B Request) (Op.Res Answer) Fault (Reply B)
    (Disk ArtifactValue B) (Oracle Answer) :=
  Groundlane.system sha256 (main sha256)

end Main

end Groundlane.Artifacts
