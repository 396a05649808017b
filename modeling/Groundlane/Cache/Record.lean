import Groundlane.Cache.Contract

/-!
# The records of the document cache

The values that `core/durable-document-cache.ts` keeps in the record store, with their texts,
keys and decoders: the core of a cached document, the binding of a source to a core, the index
of the bindings of a source, and the marker of a payload that may have to be cleaned up.
-/

namespace Groundlane.DocumentCache

open Fenced

/-- Data that can be cached: its JSON value, its bytes, and the way back. The bytes are those of
`JSON.stringify`, and `JSON.parse` reads them back. -/
class CacheData (D : Type) (B : outParam Type) where
  json : D → Json
  encode : D → B
  decode : B → Except Fault D
  decode_encode : ∀ data, decode (encode data) = .ok data

/-- The data of a core: in the record itself, or as a reference to a blob. -/
inductive CorePayload (D : Type) where
  | data (data : D)
  | payloadBlob (blobKey digest : String) (byteSize : Nat)
deriving DecidableEq

structure DurableCacheCore (D : Type) where
  key : ParsedPayloadCacheKey
  keyString : String
  payloadId : String
  payload : CorePayload D
  provenance : BillingProvenance
  createdAt : Int
  expiresAt : Int
deriving DecidableEq

structure DurableSourceBinding where
  coreRecordKey : String
  sourceIdentity : String
  sourceVersion : String
  ownershipScope : String
  createdAt : Int
  expiresAt : Int
  revoked : Bool
deriving DecidableEq, Repr

structure DurableSourceBindingIndex where
  ownershipScope : String
  sourceIdentity : String
  bindingKeys : List String
  createdAt : Int
  updatedAt : Int
  expiresAt : Int
  revoked : Bool
deriving DecidableEq, Repr

structure DurablePayloadCleanup where
  coreRecordKey : String
  blobKey : String
  ownerId : String
  digest : String
deriving DecidableEq, Repr

/-- The values of the record store that belong to the document cache. -/
inductive CacheValue (D : Type) where
  | core (core : DurableCacheCore D)
  | binding (binding : DurableSourceBinding)
  | sourceIndex (index : DurableSourceBindingIndex)
  | cleanup (cleanup : DurablePayloadCleanup)
deriving DecidableEq

/-! ## Text -/

def ParsedPayloadCacheKey.toJson (key : ParsedPayloadCacheKey) : Json :=
  .obj [("ownershipScope", .str key.ownershipScope), ("contentHash", .str key.contentHash),
    ("engineId", .str key.engineId), ("engineVersion", .str key.engineVersion),
    ("modelId", .str key.modelId), ("modelVersion", .str key.modelVersion),
    ("normalizedOptions", .str key.normalizedOptions),
    ("schemaVersion", .str key.schemaVersion), ("policyVersion", .str key.policyVersion)]

def BillingProvenance.toJson (provenance : BillingProvenance) : Json :=
  .obj [("isOriginal", .bool provenance.isOriginal),
    ("originalCost", Json.ofInt provenance.originalCost), ("engine", .str provenance.engine),
    ("model", .str provenance.model)]

def CorePayload.toJson {D : Type} (json : D → Json) : CorePayload D → String × Json
  | .data value => ("data", json value)
  | .payloadBlob blobKey digest byteSize =>
    ("payloadBlob", .obj [("blobKey", .str blobKey), ("digest", .str digest),
      ("byteSize", Json.ofInt byteSize)])

def DurableCacheCore.toJson {D : Type} (json : D → Json) (core : DurableCacheCore D) : Json :=
  .obj [("schemaVersion", Json.ofInt 1), ("kind", .str "document-cache-core"),
    ("key", core.key.toJson), ("keyString", .str core.keyString),
    ("payloadId", .str core.payloadId), core.payload.toJson json,
    ("provenance", core.provenance.toJson), ("createdAt", Json.ofInt core.createdAt),
    ("expiresAt", Json.ofInt core.expiresAt)]

def DurableSourceBinding.toJson (binding : DurableSourceBinding) : Json :=
  .obj [("schemaVersion", Json.ofInt 1), ("kind", .str "document-cache-source-binding"),
    ("coreRecordKey", .str binding.coreRecordKey),
    ("sourceIdentity", .str binding.sourceIdentity),
    ("sourceVersion", .str binding.sourceVersion),
    ("ownershipScope", .str binding.ownershipScope),
    ("createdAt", Json.ofInt binding.createdAt), ("expiresAt", Json.ofInt binding.expiresAt),
    ("revoked", .bool binding.revoked)]

def DurableSourceBindingIndex.toJson (index : DurableSourceBindingIndex) : Json :=
  .obj [("schemaVersion", Json.ofInt 1), ("kind", .str "document-cache-source-index"),
    ("ownershipScope", .str index.ownershipScope), ("sourceIdentity", .str index.sourceIdentity),
    ("bindingKeys", .arr (index.bindingKeys.map .str)),
    ("createdAt", Json.ofInt index.createdAt), ("updatedAt", Json.ofInt index.updatedAt),
    ("expiresAt", Json.ofInt index.expiresAt), ("revoked", .bool index.revoked)]

def DurablePayloadCleanup.toJson (cleanup : DurablePayloadCleanup) : Json :=
  .obj [("schemaVersion", Json.ofInt 1), ("kind", .str "document-cache-payload-cleanup"),
    ("coreRecordKey", .str cleanup.coreRecordKey), ("blobKey", .str cleanup.blobKey),
    ("ownerId", .str cleanup.ownerId), ("digest", .str cleanup.digest)]

def CacheValue.toJson {D : Type} (json : D → Json) : CacheValue D → Json
  | .core value => value.toJson json
  | .binding value => value.toJson
  | .sourceIndex value => value.toJson
  | .cleanup value => value.toJson

/-- `encode`: the text of a value, by which the adapters bound its size. -/
instance {D B : Type} [CacheData D B] : Stored (CacheValue D) where
  text value := (value.toJson CacheData.json).render

/-! ## Keys -/

section Keys

variable {B : Type} (sha256 : Sha256 B)

/-- `payloadId`, the first half of the digest of the key. -/
def payloadId (keyString : String) : String :=
  String.ofList ((sha256.text keyString).toList.take 32)

def coreRecordKey (keyString : String) : String := "document-cache.core." ++ sha256.text keyString

/-- What the keys of bindings start with. -/
def bindingPrefix : String := "document-cache.binding."

def bindingRecordKey (keyString ownershipScope sourceIdentity : String) : String :=
  bindingPrefix ++ sha256.text (keyString ++ nul ++ ownershipScope ++ nul ++ sourceIdentity)

def sourceIndexRecordKey (ownershipScope sourceIdentity : String) : String :=
  "document-cache.source." ++ sha256.text (ownershipScope ++ nul ++ sourceIdentity)

/-- The key of the bytes of a payload. -/
def payloadBlobKey (ownerId keyString payloadDigest : String) : String :=
  "blobs/" ++ sha256.text (ownerId ++ nul ++ keyString ++ nul ++ payloadDigest)

def cleanupRecordKey (blobKey : String) : String :=
  "document-cache.cleanup." ++ sha256.text blobKey

/-- The digest of the bytes of a payload. -/
def payloadDigest (bytes : B) : String := "sha256-" ++ sha256.bytes bytes

end Keys

/-! ## Decoders -/

section Decoders

variable {D : Type}

def decodeCore (record : Option (Record String (CacheValue D))) :
    Except Fault (Option (DurableCacheCore D)) :=
  match record with
  | none => .ok none
  | some record =>
    match record.value with
    | .core core => .ok (some core)
    | .binding _ | .sourceIndex _ | .cleanup _ =>
      .error (.error "durable document cache core is malformed")

def decodeBinding (record : Option (Record String (CacheValue D))) :
    Except Fault (Option DurableSourceBinding) :=
  match record with
  | none => .ok none
  | some record =>
    match record.value with
    | .binding binding => .ok (some binding)
    | .core _ | .sourceIndex _ | .cleanup _ =>
      .error (.error "durable document cache source binding is malformed")

/-- `MAX_SOURCE_BINDINGS`. -/
def maxSourceBindings : Nat := 128

def decodeSourceIndex (record : Option (Record String (CacheValue D))) :
    Except Fault (Option DurableSourceBindingIndex) :=
  match record with
  | none => .ok none
  | some record =>
    match record.value with
    | .sourceIndex index =>
      if maxSourceBindings < index.bindingKeys.length ∨
          (index.bindingKeys.all fun key =>
            bindingPrefix.toList.isPrefixOf key.toList) = false then
        .error (.error "durable document cache source index is malformed")
      else .ok (some index)
    | .core _ | .binding _ | .cleanup _ =>
      .error (.error "durable document cache source index is malformed")

/-- A record that is not a cleanup marker has none. -/
def decodeCleanup (record : Record String (CacheValue D)) : Option DurablePayloadCleanup :=
  match record.value with
  | .cleanup cleanup => some cleanup
  | .core _ | .binding _ | .sourceIndex _ => none

end Decoders

def sameCacheKey (left right : ParsedPayloadCacheKey) : Except Fault Bool := do
  let leftString ← documentCacheKeyString left
  let rightString ← documentCacheKeyString right
  pure (leftString == rightString)

def makeHit {D : Type} (core : DurableCacheCore D) (nowMs : Int) : Except Fault CacheHitResult := do
  let hit : CacheHitResult :=
    { createdAt := core.createdAt
      expiresAt := core.expiresAt
      ageSeconds := max 0 ((nowMs - core.createdAt) / 1000)
      sourceHash := core.key.contentHash
      engineVersion := core.key.engineVersion
      modelVersion := core.key.modelVersion
      billingProvenance := core.provenance }
  validateCacheHit hit
  pure hit

def validateIdentity (params : DocumentCacheIdentity) : Except Fault Unit := do
  if utf16Length params.sourceIdentity = 0 ∨ 1024 < utf16Length params.sourceIdentity then
    throw (.error "sourceIdentity must be non-empty and bounded")
  if ¬ isSafeInteger params.nowMs ∨ params.nowMs ≤ 0 then
    throw (.error "nowMs must be a positive integer")
  if params.sourceExpiresAt.any fun expiresAt => ¬ isSafeInteger expiresAt ∨ expiresAt ≤ 0 then
    throw (.error "sourceExpiresAt must be a positive integer")
  validateOwnershipScope params.ownershipScope params.key.ownershipScope
  if params.networkPolicyChecked = some false then
    validateNetworkPolicyRequired defaultCacheScopePolicy false
  let _ ← documentCacheKeyString params.key

end Groundlane.DocumentCache
