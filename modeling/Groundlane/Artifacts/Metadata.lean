import Groundlane.Durable.Rules
import Groundlane.Text.Sanitize

/-!
# Durable artifact records

The metadata of an artifact, its keys, checks and codec in `core/durable-artifacts.ts`, with the
index that leads from an external source to the outputs derived from it. The store holds three
kinds of values under three families of keys: artifact metadata, the head of the index of an
external source, and its edges.
-/

namespace Groundlane.Artifacts

open Fenced Interleaving

inductive DurableArtifactStatus where
  | active
  | logicallyExpired
  | logicallyDeleted
  | physicalCleanupPending
deriving DecidableEq, Repr

def DurableArtifactStatus.text : DurableArtifactStatus → String
  | active => "active"
  | logicallyExpired => "logically_expired"
  | logicallyDeleted => "logically_deleted"
  | physicalCleanupPending => "physical_cleanup_pending"

inductive DurableArtifactVerification where
  | pending
  | verified
deriving DecidableEq, Repr

def DurableArtifactVerification.text : DurableArtifactVerification → String
  | pending => "pending"
  | verified => "verified"

inductive DurableArtifactDeletionPolicy where
  | onExpiry
  | onOwnerDelete
  | manual
deriving DecidableEq, Repr

def DurableArtifactDeletionPolicy.text : DurableArtifactDeletionPolicy → String
  | onExpiry => "on_expiry"
  | onOwnerDelete => "on_owner_delete"
  | manual => "manual"

inductive CleanupReason where
  | expired
  | explicitDelete
deriving DecidableEq, Repr

def CleanupReason.text : CleanupReason → String
  | expired => "expired"
  | explicitDelete => "explicit_delete"

inductive ProjectionFormat where
  | markdown
  | structured
  | text
deriving DecidableEq, Repr

def ProjectionFormat.name : ProjectionFormat → String
  | markdown => "markdown"
  | structured => "structured"
  | text => "text"

structure DurableArtifactCaller where
  tenantId : String
  ownerId : String
  credentialBinding : String
deriving DecidableEq, Repr

inductive DurableArtifactDetails where
  | source (mediaType filename : String)
  | canonical (sourceRefId documentSchemaVersion : String) (externalSourceRef : Option String)
  | projection (canonicalRefId : String) (format : ProjectionFormat)
deriving DecidableEq, Repr

structure DurableArtifactMetadata where
  refId : String
  tenantId : String
  ownerId : String
  contentHash : String
  byteSize : Nat
  retentionPolicy : String
  deletionPolicy : DurableArtifactDeletionPolicy
  expiresAt : Int
  verification : DurableArtifactVerification
  status : DurableArtifactStatus
  cleanupReason : Option CleanupReason
  createdAt : Int
  updatedAt : Int
  details : DurableArtifactDetails
deriving DecidableEq, Repr

structure StoredDurableArtifactMetadata extends DurableArtifactMetadata where
  credentialBindingHash : String
  blobKey : String
deriving DecidableEq, Repr

/-- `DurableArtifactRecord`. -/
structure DurableArtifactRecord where
  metadata : DurableArtifactMetadata
  revision : Nat
deriving DecidableEq, Repr

structure StoredDurableArtifactRecord where
  metadata : StoredDurableArtifactMetadata
  revision : Nat
deriving DecidableEq, Repr

structure PutDurableArtifactInput (B : Type) where
  refId : String
  tenantId : String
  ownerId : String
  credentialBinding : String
  contentHash : String
  expiresAt : Int
  retentionPolicy : String
  deletionPolicy : DurableArtifactDeletionPolicy
  bytes : B
  verification : DurableArtifactVerification
  details : DurableArtifactDetails
  nowMs : Int
deriving DecidableEq, Repr

/-- The caller of a put. -/
def PutDurableArtifactInput.caller {B : Type} (input : PutDurableArtifactInput B) :
    DurableArtifactCaller :=
  ⟨input.tenantId, input.ownerId, input.credentialBinding⟩

/-- The values of the record store that belong to the artifact repository. -/
inductive ArtifactValue where
  | metadata (metadata : StoredDurableArtifactMetadata)
  | sourceHead (revoked : Bool) (head : Option String)
  | sourceEdge (outputRefId : String) (next : Option String)
deriving DecidableEq

/-! ## Text -/

def DurableArtifactDetails.toJson : DurableArtifactDetails → Json
  | source mediaType filename =>
    .obj [("kind", .str "source"), ("mediaType", .str mediaType), ("filename", .str filename)]
  | canonical sourceRefId documentSchemaVersion externalSourceRef =>
    .obj ([("kind", .str "canonical"), ("sourceRefId", .str sourceRefId),
      ("documentSchemaVersion", .str documentSchemaVersion)] ++
      externalSourceRef.toList.map fun ref => ("externalSourceRef", .str ref))
  | projection canonicalRefId format =>
    .obj [("kind", .str "projection"), ("canonicalRefId", .str canonicalRefId),
      ("format", .str format.name)]

def StoredDurableArtifactMetadata.toJson (metadata : StoredDurableArtifactMetadata) : Json :=
  .obj [("schemaVersion", .str "1"), ("refId", .str metadata.refId),
    ("ownerId", .str metadata.ownerId), ("tenantId", .str metadata.tenantId),
    ("credentialBindingHash", .str metadata.credentialBindingHash),
    ("retentionPolicy", .str metadata.retentionPolicy),
    ("deletionPolicy", .str metadata.deletionPolicy.text),
    ("contentHash", .str metadata.contentHash), ("byteSize", Json.ofInt metadata.byteSize),
    ("expiresAt", Json.ofInt metadata.expiresAt), ("blobKey", .str metadata.blobKey),
    ("verification", .str metadata.verification.text), ("status", .str metadata.status.text),
    ("cleanupReason", Json.ofOption (fun reason => .str reason.text) metadata.cleanupReason),
    ("createdAt", Json.ofInt metadata.createdAt), ("updatedAt", Json.ofInt metadata.updatedAt),
    ("details", metadata.details.toJson)]

instance : Stored ArtifactValue where
  text
    | .metadata metadata => metadata.toJson.render
    | .sourceHead revoked head =>
      (Json.obj [("revoked", .bool revoked), ("head", Json.ofOption .str head)]).render
    | .sourceEdge outputRefId next =>
      (Json.obj [("outputRefId", .str outputRefId), ("next", Json.ofOption .str next)]).render

/-! ## Checks -/

/-- `REF_ID_RE`. -/
def isRefIdChar (c : Char) : Bool :=
  c.isAlphanum || c == '.' || c == '_' || c == '-'

def assertRefId (value : String) : Except Fault Unit :=
  if utf16Length value = 0 ∨ 180 < utf16Length value ∨ value.toList.all isRefIdChar = false then
    .error (.error "durable artifact refId is invalid")
  else .ok ()

/-- A text that is not empty, not too long, and starts and ends without a blank. -/
def assertText (value : String) (limit : Nat) (message : String) : Except Fault Unit :=
  if utf16Length value = 0 ∨ limit < utf16Length value ∨
      trimSpace value.toList ≠ value.toList then
    .error (.error message)
  else .ok ()

def assertOwnerId (value : String) : Except Fault Unit :=
  assertText value 160 "durable artifact owner is invalid"

def assertTenantId (value : String) : Except Fault Unit :=
  assertText value 160 "durable artifact tenant is invalid"

def assertCredentialBinding (value : String) : Except Fault Unit :=
  assertText value 512 "durable artifact credential binding is invalid"

def assertDescriptor (value label : String) : Except Fault Unit :=
  assertText value 512 ("durable artifact " ++ label ++ " is invalid")

def assertCaller (caller : DurableArtifactCaller) : Except Fault Unit := do
  assertTenantId caller.tenantId
  assertOwnerId caller.ownerId
  assertCredentialBinding caller.credentialBinding

def validateDetails : DurableArtifactDetails → Except Fault Unit
  | .source mediaType filename => do
    assertDescriptor mediaType "media type"
    assertDescriptor filename "filename"
  | .canonical sourceRefId documentSchemaVersion externalSourceRef => do
    assertRefId sourceRefId
    if let some ref := externalSourceRef then assertRefId ref
    assertDescriptor documentSchemaVersion "document schema version"
  | .projection canonicalRefId _ => assertRefId canonicalRefId

section Codec

variable {B : Type} (sha256 : Sha256 B)

def validateMetadata (metadata : StoredDurableArtifactMetadata) : Except Fault Unit := do
  assertRefId metadata.refId
  assertTenantId metadata.tenantId
  assertOwnerId metadata.ownerId
  if ¬ sha256.isHex metadata.credentialBindingHash then
    throw (.error "durable artifact credential binding is invalid")
  if ¬ sha256.isTagged "sha256-" metadata.contentHash then
    throw (.error "durable artifact content hash is invalid")
  if ¬ isSafeInteger metadata.byteSize ∨ metadata.byteSize < 1 then
    throw (.error "durable artifact size is invalid")
  if ¬ isSafeInteger metadata.expiresAt ∨ metadata.expiresAt ≤ metadata.createdAt then
    throw (.error "durable artifact expiry is invalid")
  if ¬ isSafeInteger metadata.createdAt ∨ metadata.createdAt < 0 ∨
      ¬ isSafeInteger metadata.updatedAt ∨ metadata.updatedAt < metadata.createdAt then
    throw (.error "durable artifact timestamp is invalid")
  if ¬ sha256.isTagged "blobs/" metadata.blobKey then
    throw (.error "durable artifact blob key is invalid")
  assertDescriptor metadata.retentionPolicy "retention policy"
  if metadata.status = .active ∧ metadata.cleanupReason ≠ none then
    throw (.error "active durable artifact cannot have a cleanup reason")
  validateDetails metadata.details

/-! ## Keys -/

/-- The key of an artifact that has passed `assertRefId`. -/
def artifactKey (refId : String) : String := "artifact:" ++ refId

def metadataKey (refId : String) : Except Fault String := do
  assertRefId refId
  pure (artifactKey refId)

def credentialBindingHash (credentialBinding : String) : String := sha256.text credentialBinding

def blobKey (caller : DurableArtifactCaller) (refId contentHash : String) : String :=
  "blobs/" ++ sha256.text (caller.tenantId ++ nul ++ caller.ownerId ++ nul ++
    credentialBindingHash sha256 caller.credentialBinding ++ nul ++ refId ++ nul ++ contentHash)

def blobOwnerId (metadata : StoredDurableArtifactMetadata) : String :=
  "artifact-owner-" ++ sha256.text (metadata.tenantId ++ nul ++ metadata.ownerId ++ nul ++
    metadata.credentialBindingHash)

def digest (bytes : B) : String := "sha256-" ++ sha256.bytes bytes

def externalSourceKey (refId : String) (caller : DurableArtifactCaller) : Except Fault String := do
  assertRefId refId
  assertTenantId caller.tenantId
  assertOwnerId caller.ownerId
  pure ("output-source:" ++ sha256.text (Json.arr [.str caller.tenantId, .str caller.ownerId,
    .str (credentialBindingHash sha256 caller.credentialBinding), .str refId]).stringify)

/-! ## Codec -/

def publicRecord (record : StoredDurableArtifactRecord) : DurableArtifactRecord :=
  ⟨record.metadata.toDurableArtifactMetadata, record.revision⟩

def decode (record : Record String ArtifactValue) : Except Fault StoredDurableArtifactRecord :=
  match record.value with
  | .metadata metadata => do
    validateMetadata sha256 metadata
    let key ← metadataKey metadata.refId
    if key ≠ record.key ∨ metadata.createdAt ≠ record.createdAt then
      throw (.error "durable artifact metadata binding is malformed")
    pure ⟨metadata, record.revision⟩
  | .sourceHead .. | .sourceEdge .. => throw (.error "durable artifact metadata is malformed")

def encode (metadata : StoredDurableArtifactMetadata) : Except Fault ArtifactValue := do
  validateMetadata sha256 metadata
  pure (.metadata metadata)

def sameArtifact (left right : StoredDurableArtifactMetadata) : Bool :=
  left.refId == right.refId && left.tenantId == right.tenantId && left.ownerId == right.ownerId &&
    left.credentialBindingHash == right.credentialBindingHash &&
    left.contentHash == right.contentHash && left.byteSize == right.byteSize &&
    left.expiresAt == right.expiresAt && left.blobKey == right.blobKey &&
    left.retentionPolicy == right.retentionPolicy &&
    left.deletionPolicy == right.deletionPolicy && left.verification == right.verification &&
    left.details.toJson.stringify == right.details.toJson.stringify

/-- `edgePointer`, on texts. -/
def isEdgePointer (value : String) : Bool :=
  "output-edge:".toList.isPrefixOf value.toList && (value.toList.drop 12).length == 36 &&
    (value.toList.drop 12).all fun c => isHexChar c || c == '-'

def decodeOutputSourceHead (value : ArtifactValue) : Except Fault (Bool × Option String) :=
  match value with
  | .sourceHead revoked head =>
    if head.any fun pointer => !isEdgePointer pointer then
      .error (.error "Invalid external source index")
    else .ok (revoked, head)
  | .metadata _ | .sourceEdge .. => .error (.error "Invalid external source index")

def decodeOutputSourceEdge (value : ArtifactValue) : Except Fault (String × Option String) :=
  match value with
  | .sourceEdge outputRefId next =>
    if next.any fun pointer => !isEdgePointer pointer then
      .error (.error "Invalid external source edge")
    else do
      assertRefId outputRefId
      pure (outputRefId, next)
  | .metadata _ | .sourceHead .. => .error (.error "Invalid external source edge")

end Codec

end Groundlane.Artifacts
