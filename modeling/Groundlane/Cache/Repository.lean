import Groundlane.Cache.Record
import Groundlane.Durable.Rules

/-!
# The durable document cache

`DurableDocumentCacheRepository` of `core/durable-document-cache.ts`: its methods as programs
over the record store and the blob store. The execution of a document is a port. A `try` block
is the program of its body with its errors caught.
-/

namespace Groundlane.DocumentCache

open Fenced Interleaving

/-- What the repository asks of its surroundings: the document that a `process` executes. -/
inductive Request where
  | execute
deriving DecidableEq, Repr

abbrev Answer (D : Type) : Request → Type
  | .execute => Except Fault (DocumentCacheExecution D)

/-- The constructor arguments of a repository, and the digest function; `hasPayloads` if there
is a blob store for payloads. -/
structure DurableDocumentCacheRepository (B : Type) where
  sha256 : Sha256 B
  maxCasAttempts : Nat
  hasPayloads : Bool
  positive : 1 ≤ maxCasAttempts

inductive RevokeResult where
  | revoked
  | missing
deriving DecidableEq, Repr

structure DurableDocumentCacheSweepPage where
  scanned : Nat
  removed : Nat
  nextCursor : Option String
deriving DecidableEq, Repr

/-- The methods with their arguments. -/
inductive Call (D : Type) where
  | process (config : CacheConfig) (identity : DocumentCacheIdentity)
  | lookup (config : CacheConfig) (identity : DocumentCacheIdentity)
  | commit (config : CacheConfig) (identity : DocumentCacheIdentity)
    (execution : DocumentCacheExecution D) (decision : DocumentCacheLookupMiss)
  | revokeSourceBinding (key : ParsedPayloadCacheKey) (sourceIdentity ownershipScope : String)
    (nowMs : Int)
  | revokeAllSourceBindings (sourceIdentity ownershipScope : String) (nowMs : Int)
  | sweepExpiredPage (nowMs : Int) (cursor : Option String) (limit : Nat)
deriving DecidableEq

/-- What the methods return. -/
inductive Reply (D : Type) where
  | processed (result : DocumentCacheProcessResult D)
  | lookup (result : DocumentCacheLookupResult D)
  | committed (result : DocumentCacheCommitResult D)
  | revocation (result : RevokeResult)
  | swept (page : DurableDocumentCacheSweepPage)
deriving DecidableEq

/-- A program of the repository. -/
abbrev CacheIo (D B : Type) : Type → Type := Io (Answer D) (CacheValue D) B

variable {D B : Type} [CacheData D B] [ByteString B] (repository : DurableDocumentCacheRepository B)

/-- `cacheError`. -/
def cacheError : String := "Document cache unavailable"

/-! ## Payloads -/

/-- The reference to a stored payload, and its cleanup marker. -/
structure StoredPayload where
  blobKey : String
  digest : String
  byteSize : Nat
  cleanupKey : String
  cleanupRevision : Nat

def storePayload (ownerId keyString coreKey : String) (nowMs : Int) (data : D) :
    CacheIo D B (Option StoredPayload) :=
  if repository.hasPayloads = false then pure none
  else do
    let bytes : B := CacheData.encode data
    if ByteString.byteLength bytes < 1 ∨ maxImmutableBlobBytes < ByteString.byteLength bytes then
      Program.raise (.error "document cache payload exceeds the immutable blob limit")
    else do
      let payloadDigest := payloadDigest repository.sha256 bytes
      let blobKey := payloadBlobKey repository.sha256 ownerId keyString payloadDigest
      let cleanupKey := cleanupRecordKey repository.sha256 blobKey
      let cleanup ← createIfAbsent cleanupKey
        (CacheValue.cleanup ⟨coreKey, blobKey, ownerId, payloadDigest⟩ : CacheValue D) nowMs
        (some (nowMs + 3600000))
      let result ← putIfAbsent repository.sha256 blobKey ownerId payloadDigest bytes
      match result with
      | .conflict _ => Program.raise (.error "document cache payload blob conflict")
      | _ => pure (some ⟨blobKey, payloadDigest, ByteString.byteLength bytes, cleanupKey,
        cleanup.record.revision⟩)

def loadCoreData (core : DurableCacheCore D) : CacheIo D B D :=
  match core.payload with
  | .data data => pure data
  | .payloadBlob blobKey digest byteSize =>
    if repository.hasPayloads = false then
      Program.raise (.error "document cache payload storage is unavailable")
    else do
      let bytes ← getBlob repository.sha256 blobKey core.key.ownershipScope digest
        maxImmutableBlobBytes
      match bytes with
      | none => Program.raise (.error "document cache payload blob is missing")
      | some bytes =>
        if ByteString.byteLength bytes ≠ byteSize then
          Program.raise (.error "document cache payload blob is missing")
        else do
          let data ← CacheData.decode bytes
          pure data

/-- The key of the blob that a core refers to. -/
def CorePayload.blobKey? : CorePayload D → Option String
  | .data _ => none
  | .payloadBlob blobKey _ _ => some blobKey

/-- `payloads?.deleteIfOwner`; nothing happens without a blob store. -/
def discardPayload (blobKey ownerId : String) : CacheIo D B (Option BlobDeleteResult) :=
  if repository.hasPayloads = false then pure none
  else do
    let result ← deleteIfOwner repository.sha256 blobKey ownerId
    pure (some result)

def deleteUnusedPayload (candidate : Option (DurableCacheCore D)) (winner : DurableCacheCore D) :
    CacheIo D B Unit :=
  match candidate with
  | none => pure ()
  | some candidate =>
    match candidate.payload with
    | .data _ => pure ()
    | .payloadBlob blobKey _ _ =>
      if winner.payload.blobKey? ≠ some blobKey then do
        let _ ← discardPayload repository blobKey candidate.key.ownershipScope
        pure ()
      else pure ()

/-! ## Cores -/

/-- The compare-and-swap loop of `replaceRecord`. -/
def replaceRecordFrom (key : String) (core : DurableCacheCore D) (nowMs expiresAt : Int) :
    Nat → CacheIo D B (DurableCacheCore D)
  | 0 => Program.raise (.error "durable document cache core CAS retry limit exceeded")
  | attempts + 1 => do
    let current ← get key
    match current with
    | none => do
      let created ← createIfAbsent key (CacheValue.core core) nowMs (some expiresAt)
      match created with
      | .created record => do
        let decoded ← decodeCore (some record)
        match decoded with
        | none => Program.raise (.error "durable document cache core disappeared")
        | some decoded => pure decoded
      | .existing _ => replaceRecordFrom key core nowMs expiresAt attempts
    | some current => do
      let updated ← compareAndSwap key current.revision (CacheValue.core core) nowMs
        (some expiresAt)
      match updated with
      | .updated record => do
        let decoded ← decodeCore (some record)
        match decoded with
        | none => Program.raise (.error "durable document cache core disappeared")
        | some decoded => do
          let replaced ← decodeCore (some current)
          deleteUnusedPayload repository replaced decoded
          pure decoded
      | _ => replaceRecordFrom key core nowMs expiresAt attempts

def replaceRecord (key : String) (core : DurableCacheCore D) (nowMs expiresAt : Int) :
    CacheIo D B (DurableCacheCore D) :=
  replaceRecordFrom repository key core nowMs expiresAt repository.maxCasAttempts

def createCoreIfMissing (key : String) (core : DurableCacheCore D) (nowMs expiresAt : Int) :
    CacheIo D B (DurableCacheCore D) := do
  let result ← createIfAbsent key (CacheValue.core core) nowMs (some expiresAt)
  match result with
  | .created _ => pure core
  | .existing record => do
    let existing ← decodeCore (some record)
    match existing with
    | none => Program.raise (.error "durable document cache core disappeared")
    | some existing =>
      if nowMs < existing.expiresAt ∧ existing.keyString = core.keyString then do
        deleteUnusedPayload repository (some core) existing
        pure existing
      else do
        let _ ← replaceRecord repository key core nowMs expiresAt
        pure core

/-! ## Source indexes and bindings -/

/-- The compare-and-swap loop of `ensureSourceIndex`. -/
def ensureSourceIndexFrom (key bindingKey : String) (identity : DocumentCacheIdentity)
    (expiresAt : Int) : Nat → CacheIo D B Bool
  | 0 => Program.raise (.error "durable document cache source index CAS retry limit exceeded")
  | attempts + 1 => do
    let current ← get key
    match current with
    | none => do
      let created ← createIfAbsent key (CacheValue.sourceIndex
        { ownershipScope := identity.ownershipScope
          sourceIdentity := identity.sourceIdentity
          bindingKeys := [bindingKey]
          createdAt := identity.nowMs
          updatedAt := identity.nowMs
          expiresAt := expiresAt
          revoked := false } : CacheValue D) identity.nowMs (some expiresAt)
      match created with
      | .created _ => pure true
      | .existing _ => ensureSourceIndexFrom key bindingKey identity expiresAt attempts
    | some current => do
      let decoded ← decodeSourceIndex (some current)
      match decoded with
      | none => Program.raise (.error "durable document cache source index is malformed")
      | some index =>
        if index.ownershipScope ≠ identity.ownershipScope ∨
            index.sourceIdentity ≠ identity.sourceIdentity then
          Program.raise (.error "durable document cache source index binding mismatch")
        else if index.revoked then pure false
        else do
          let known := index.bindingKeys.contains bindingKey
          let bindingKeys :=
            if known then index.bindingKeys else index.bindingKeys ++ [bindingKey]
          if maxSourceBindings < bindingKeys.length then
            Program.raise (.error "durable document cache source binding limit exceeded")
          else do
            let nextExpiry := max index.expiresAt expiresAt
            if known ∧ nextExpiry = index.expiresAt then pure true
            else do
              let updated ← compareAndSwap key current.revision (CacheValue.sourceIndex
                { index with
                  bindingKeys := bindingKeys, updatedAt := identity.nowMs,
                  expiresAt := nextExpiry } : CacheValue D) identity.nowMs
                (some nextExpiry)
              match updated with
              | .updated _ => pure true
              | _ => ensureSourceIndexFrom key bindingKey identity expiresAt attempts

def ensureSourceIndex (key bindingKey : String) (identity : DocumentCacheIdentity)
    (expiresAt : Int) : CacheIo D B Bool :=
  ensureSourceIndexFrom key bindingKey identity expiresAt repository.maxCasAttempts

/-- The compare-and-swap loop of `upsertRecord`. -/
def upsertRecordFrom (key : String) (binding : DurableSourceBinding) (nowMs expiresAt : Int) :
    Nat → CacheIo D B Unit
  | 0 => Program.raise (.error "durable document cache binding CAS retry limit exceeded")
  | attempts + 1 => do
    let current ← get key
    match current with
    | none => do
      let created ← createIfAbsent key (CacheValue.binding binding : CacheValue D) nowMs
        (some expiresAt)
      match created with
      | .created _ => pure ()
      | .existing _ => upsertRecordFrom key binding nowMs expiresAt attempts
    | some current => do
      let updated ← compareAndSwap key current.revision
        (CacheValue.binding binding : CacheValue D) nowMs (some expiresAt)
      match updated with
      | .updated _ => pure ()
      | _ => upsertRecordFrom key binding nowMs expiresAt attempts

def upsertRecord (key : String) (binding : DurableSourceBinding) (nowMs expiresAt : Int) :
    CacheIo D B Unit :=
  upsertRecordFrom key binding nowMs expiresAt repository.maxCasAttempts

def isEquivalentLiveBinding (record : Record String (CacheValue D))
    (expected : DurableSourceBinding) (nowMs : Int) : Except Fault Bool := do
  let current ← decodeBinding (some record)
  pure (current.any fun current => !current.revoked && decide (nowMs < current.expiresAt) &&
    current.coreRecordKey == expected.coreRecordKey &&
    current.sourceIdentity == expected.sourceIdentity &&
    current.sourceVersion == expected.sourceVersion &&
    current.ownershipScope == expected.ownershipScope)

def upsertRecordFenced (key : String) (binding : DurableSourceBinding) (nowMs : Int)
    (expectedRevision : Option Nat) : CacheIo D B Bool :=
  match expectedRevision with
  | none => do
    let created ← createIfAbsent key (CacheValue.binding binding : CacheValue D) nowMs
      (some binding.expiresAt)
    match created with
    | .created _ => pure true
    | .existing record => do
      let equivalent ← isEquivalentLiveBinding record binding nowMs
      pure equivalent
  | some expectedRevision => do
    let updated ← compareAndSwap key expectedRevision
      (CacheValue.binding binding : CacheValue D) nowMs (some binding.expiresAt)
    match updated with
    | .updated _ => pure true
    | .missing => pure false
    | .conflict record => do
      let equivalent ← isEquivalentLiveBinding record binding nowMs
      pure equivalent

/-- The compare-and-swap loop of `revokeBindingRecord`. -/
def revokeBindingRecordFrom (key : String) (nowMs : Int) : Nat → CacheIo D B RevokeResult
  | 0 => Program.raise (.error "durable document cache source binding CAS retry limit exceeded")
  | attempts + 1 => do
    let record ← get key
    match record with
    | none => pure .missing
    | some record => do
      let decoded ← decodeBinding (some record)
      match decoded with
      | none => pure .missing
      | some binding =>
        if binding.revoked then pure .revoked
        else do
          let expiresAt := max binding.expiresAt (nowMs + 1)
          let result ← compareAndSwap key record.revision (CacheValue.binding
            { binding with revoked := true, expiresAt := expiresAt } : CacheValue D) nowMs
            (some expiresAt)
          match result with
          | .updated _ => pure .revoked
          | .missing => pure .missing
          | .conflict _ => revokeBindingRecordFrom key nowMs attempts

def revokeBindingRecord (key : String) (nowMs : Int) : CacheIo D B RevokeResult :=
  revokeBindingRecordFrom key nowMs repository.maxCasAttempts

/-! ## Lookup -/

/-- The effective mode of a request: a tool outside the scope of the cache bypasses it. -/
def effectiveMode (identity : DocumentCacheIdentity) (resolved : ResolvedCacheMode) : CacheMode :=
  if identity.toolName.any fun tool => (validateCacheScope tool defaultCacheScopePolicy).1 = false
  then .bypass
  else resolved.effectiveMode

/-- The keys of the core, the binding and the source index of a request. -/
structure CacheKeys where
  keyString : String
  core : String
  binding : String
  sourceIndex : String

def cacheKeys (identity : DocumentCacheIdentity) (keyString : String) : CacheKeys where
  keyString := keyString
  core := coreRecordKey repository.sha256 keyString
  binding := bindingRecordKey repository.sha256 keyString identity.ownershipScope
    identity.sourceIdentity
  sourceIndex := sourceIndexRecordKey repository.sha256 identity.ownershipScope
    identity.sourceIdentity

/-- Whether a core, a binding and an index make a hit. -/
def isBound (identity : DocumentCacheIdentity) (keys : CacheKeys) (core : DurableCacheCore D)
    (binding : DurableSourceBinding) (index : DurableSourceBindingIndex) : Bool :=
  !index.revoked && decide (identity.nowMs < index.expiresAt) &&
    index.ownershipScope == identity.ownershipScope &&
    index.sourceIdentity == identity.sourceIdentity &&
    index.bindingKeys.contains keys.binding && decide (identity.nowMs < core.expiresAt) &&
    decide (identity.nowMs < binding.expiresAt) && !binding.revoked &&
    binding.coreRecordKey == keys.core && binding.sourceIdentity == identity.sourceIdentity &&
    binding.sourceVersion == identity.sourceVersion &&
    binding.ownershipScope == identity.ownershipScope && core.keyString == keys.keyString

/-- The decision of a lookup that has found nothing to return. -/
def missed (bindingRecord : Option (Record String (CacheValue D)))
    (binding : Option DurableSourceBinding) (index : Option DurableSourceBindingIndex) :
    DocumentCacheLookupMiss :=
  if binding.any DurableSourceBinding.revoked ∨ index.any DurableSourceBindingIndex.revoked then
    ⟨.revoked, none, false, none⟩
  else ⟨.ordinary, some ⟨bindingRecord.map Record.revision⟩, false, none⟩

/-- Return the data of a core. -/
def serve (core : DurableCacheCore D) (nowMs : Int) :
    CacheIo D B (DocumentCacheLookupResult D) := do
  let data ← loadCoreData repository core
  let hit ← makeHit core nowMs
  pure (.hit data hit)

/-- Bind the source to a core with the same content and return its data. -/
def rebind (identity : DocumentCacheIdentity) (keys : CacheKeys) (core : DurableCacheCore D)
    (ttlSeconds : Int) : CacheIo D B (DocumentCacheLookupResult D) := do
  let expiresAt := min core.expiresAt (identity.nowMs + ttlSeconds * 1000)
  let data ← loadCoreData repository core
  let ensured ← ensureSourceIndex repository keys.sourceIndex keys.binding identity expiresAt
  if ensured = false then pure (.miss ⟨.revoked, none, false, none⟩)
  else do
    upsertRecord repository keys.binding
      { coreRecordKey := keys.core
        sourceIdentity := identity.sourceIdentity
        sourceVersion := identity.sourceVersion
        ownershipScope := identity.ownershipScope
        createdAt := identity.nowMs
        expiresAt := expiresAt
        revoked := false } identity.nowMs expiresAt
    let hit ← makeHit core identity.nowMs
    pure (.hit data hit)

/-- The three records that a lookup reads, in any order. -/
def readRecords (keys : CacheKeys) :
    CacheIo D B (Option (Record String (CacheValue D)) × Option (Record String (CacheValue D)) ×
      Option (Record String (CacheValue D))) :=
  both (get keys.core) (both (get keys.binding) (get keys.sourceIndex))

/-- The `try` block of `lookup`. -/
def readCache (effectiveConfig : CacheConfig) (identity : DocumentCacheIdentity)
    (keys : CacheKeys) : CacheIo D B (DocumentCacheLookupResult D) := do
  let records ← readRecords keys
  let core ← decodeCore records.1
  let binding ← decodeBinding records.2.1
  let sourceIndex ← decodeSourceIndex records.2.2
  match core, binding, sourceIndex with
  | some core, some found, some index =>
    if isBound identity keys core found index then do
      let same ← sameCacheKey core.key identity.key
      if same then serve repository core identity.nowMs
      else pure (.miss (missed records.2.1 binding sourceIndex))
    else pure (.miss (missed records.2.1 binding sourceIndex))
  | some core, none, index =>
    if (index.any DurableSourceBindingIndex.revoked) = false ∧ identity.nowMs < core.expiresAt ∧
        core.keyString = keys.keyString then do
      let same ← sameCacheKey core.key identity.key
      let ttlSeconds := resolveEffectiveTtl identity.requestedTtlSeconds effectiveConfig
      if same ∧ 0 < ttlSeconds then rebind repository identity keys core ttlSeconds
      else pure (.miss (missed records.2.1 binding sourceIndex))
    else pure (.miss (missed records.2.1 binding sourceIndex))
  | _, _, _ => pure (.miss (missed records.2.1 binding sourceIndex))

def lookup (config : CacheConfig) (identity : DocumentCacheIdentity) :
    CacheIo D B (DocumentCacheLookupResult D) := do
  validateIdentity identity
  let effectiveConfig := cacheConfigForIdentity config identity
  let resolved := resolveCacheMode identity.mode effectiveConfig
  match effectiveMode identity resolved with
  | .bypass =>
    if resolved.degraded then pure (.miss ⟨.disabled, none, true, none⟩)
    else pure (.miss ⟨.bypass, none, false, none⟩)
  | .refresh => pure (.miss ⟨.refresh, none, false, none⟩)
  | .use => do
    let keyString ← documentCacheKeyString identity.key
    let outcome ← (readCache repository effectiveConfig identity
      (cacheKeys repository identity keyString)).attempt
    match outcome with
    | .ok result => pure result
    | .error _ => pure (.miss ⟨.ordinary, none, false, some cacheError⟩)

/-! ## Commit -/

def validateCommitDisposition (config : CacheConfig) (identity : DocumentCacheIdentity)
    (decision : DocumentCacheLookupMiss) : Except Fault Unit := do
  let resolved := resolveCacheMode identity.mode config
  let compatible : Bool :=
    if resolved.degraded then decide (decision.disposition = .disabled)
    else match effectiveMode identity resolved with
      | .bypass => decide (decision.disposition = .bypass)
      | .refresh => decide (decision.disposition = .refresh)
      | .use => decide (decision.disposition = .ordinary ∨ decision.disposition = .revoked)
  if compatible = false then
    throw (.error "document cache disposition does not match the request")
  if decision.cacheError ≠ none ∧ decision.disposition ≠ .ordinary then
    throw (.error "document cache fault is only valid for an ordinary lookup")
  if decision.disposition = .ordinary ∧ decision.cacheError = none ∧ decision.commitFence = none
  then
    throw (.error "ordinary document cache commit is missing its lookup fence")

/-- The result of a commit that stores nothing. -/
def unstored (execution : DocumentCacheExecution D) (degraded : Bool)
    (cacheError : Option String) : DocumentCacheCommitResult D :=
  ⟨execution.data, execution.provenance, false, none, none, degraded, cacheError⟩

/-- The core that a commit stores. -/
def commitCore (identity : DocumentCacheIdentity) (keyString : String)
    (execution : DocumentCacheExecution D) (storedPayload : Option StoredPayload)
    (expiresAt : Int) : DurableCacheCore D where
  key := identity.key
  keyString := keyString
  payloadId := payloadId repository.sha256 keyString
  payload :=
    match storedPayload with
    | none => .data execution.data
    | some stored => .payloadBlob stored.blobKey stored.digest stored.byteSize
  provenance := execution.provenance
  createdAt := identity.nowMs
  expiresAt := expiresAt

/-- The part of a commit behind its core: whether the binding was stored. -/
def commitBinding (identity : DocumentCacheIdentity) (keys : CacheKeys)
    (decision : DocumentCacheLookupMiss) (core storedCore : DurableCacheCore D)
    (bindingExpiry : Int) : CacheIo D B Bool := do
  let ensured ← ensureSourceIndex repository keys.sourceIndex keys.binding identity bindingExpiry
  if ensured = false then do
    deleteUnusedPayload repository (some core) storedCore
    pure false
  else do
    let binding : DurableSourceBinding :=
      { coreRecordKey := keys.core
        sourceIdentity := identity.sourceIdentity
        sourceVersion := identity.sourceVersion
        ownershipScope := identity.ownershipScope
        createdAt := identity.nowMs
        expiresAt := bindingExpiry
        revoked := false }
    let bindingStored ←
      (if decision.disposition = .refresh then do
        upsertRecord repository keys.binding binding identity.nowMs bindingExpiry
        pure true
      else upsertRecordFenced keys.binding binding identity.nowMs
        (decision.commitFence.bind DocumentCacheCommitFence.bindingRevision) :
        CacheIo D B Bool)
    if bindingStored = false then pure false
    else do
      let record ← get keys.sourceIndex
      let sourceIndex ← decodeSourceIndex record
      if sourceIndex.any DurableSourceBindingIndex.revoked then do
        let _ ← revokeBindingRecord repository keys.binding identity.nowMs
        pure false
      else pure true

/-- The `try` block of `commit`. -/
def writeCache (identity : DocumentCacheIdentity) (keys : CacheKeys)
    (execution : DocumentCacheExecution D) (decision : DocumentCacheLookupMiss)
    (expiresAt : Int) : CacheIo D B (DocumentCacheCommitResult D) := do
  let storedPayload ← storePayload repository identity.ownershipScope keys.keyString keys.core
    identity.nowMs execution.data
  let core := commitCore repository identity keys.keyString execution storedPayload expiresAt
  let storedCore ←
    (if decision.disposition = .refresh then
      replaceRecord repository keys.core core identity.nowMs expiresAt
    else createCoreIfMissing repository keys.core core identity.nowMs expiresAt :
      CacheIo D B (DurableCacheCore D))
  let bindingExpiry := min storedCore.expiresAt expiresAt
  let stored ← commitBinding repository identity keys decision core storedCore bindingExpiry
  if stored = false then pure (unstored execution false none)
  else do
    match storedPayload with
    | none => pure ()
    | some payload => do
      let _ ← deleteIfRevision payload.cleanupKey payload.cleanupRevision
      pure ()
    pure ⟨execution.data, execution.provenance, true, some identity.nowMs, some bindingExpiry,
      false, none⟩

def commit (config : CacheConfig) (identity : DocumentCacheIdentity)
    (execution : DocumentCacheExecution D) (decision : DocumentCacheLookupMiss) :
    CacheIo D B (DocumentCacheCommitResult D) := do
  validateIdentity identity
  validateCommitDisposition config identity decision
  if decision.disposition = .bypass ∨ decision.disposition = .disabled ∨
      decision.disposition = .revoked ∨ decision.cacheError ≠ none then
    pure (unstored execution (decision.disposition = .disabled)
      (decision.cacheError.map fun _ => cacheError))
  else do
    let ttlSeconds := resolveEffectiveTtl identity.requestedTtlSeconds
      (cacheConfigForIdentity config identity)
    if ttlSeconds ≤ 0 then pure (unstored execution false none)
    else do
      let keyString ← documentCacheKeyString identity.key
      let outcome ← (writeCache repository identity (cacheKeys repository identity keyString)
        execution decision (identity.nowMs + ttlSeconds * 1000)).attempt
      match outcome with
      | .ok result => pure result
      | .error _ => pure (unstored execution false (some cacheError))

def process (config : CacheConfig) (identity : DocumentCacheIdentity) :
    CacheIo D B (DocumentCacheProcessResult D) := do
  let result ← lookup repository config identity
  match result with
  | .hit data hit => pure (.hit data hit)
  | .miss decision => do
    let answer ← ask Request.execute
    let execution ← (answer : Except Fault (DocumentCacheExecution D))
    let committed ← commit repository config identity execution decision
    pure (.committed committed)

/-! ## Revocation -/

/-- The compare-and-swap loop of `revokeAllSourceBindings`: the revoked index. -/
def revokeIndexFrom (key sourceIdentity ownershipScope : String) (nowMs : Int) :
    Nat → CacheIo D B (Option DurableSourceBindingIndex)
  | 0 => Program.raise (.error "durable document cache source index CAS retry limit exceeded")
  | attempts + 1 => do
    let record ← get key
    match record with
    | none => pure none
    | some record => do
      let decoded ← decodeSourceIndex (some record)
      match decoded with
      | none => pure none
      | some index =>
        if index.ownershipScope ≠ ownershipScope ∨ index.sourceIdentity ≠ sourceIdentity then
          Program.raise (.error "durable document cache source index binding mismatch")
        else if index.revoked then pure (some index)
        else do
          let expiresAt := max index.expiresAt (nowMs + 1)
          let result ← compareAndSwap key record.revision (CacheValue.sourceIndex
            { index with revoked := true, updatedAt := nowMs, expiresAt := expiresAt } :
              CacheValue D) nowMs (some expiresAt)
          match result with
          | .updated record => do
            let revoked ← decodeSourceIndex (some record)
            match revoked with
            | none =>
              Program.raise (.error "durable document cache source index CAS retry limit exceeded")
            | some revoked => pure (some revoked)
          | .missing => pure none
          | .conflict _ => revokeIndexFrom key sourceIdentity ownershipScope nowMs attempts

def revokeAllSourceBindings (sourceIdentity ownershipScope : String) (nowMs : Int) :
    CacheIo D B RevokeResult :=
  if utf16Length sourceIdentity = 0 ∨ 1024 < utf16Length sourceIdentity ∨
      utf16Length ownershipScope = 0 ∨ 2048 < utf16Length ownershipScope then
    Program.raise (.error "source cache binding identity is invalid")
  else if ¬ isSafeInteger nowMs ∨ nowMs ≤ 0 then
    Program.raise (.error "nowMs must be a positive integer")
  else do
    let index ← revokeIndexFrom (sourceIndexRecordKey repository.sha256 ownershipScope
      sourceIdentity) sourceIdentity ownershipScope nowMs repository.maxCasAttempts
    match index with
    | none => pure .missing
    | some index => do
      let _ ← Program.all .order id (index.bindingKeys.map fun key =>
        revokeBindingRecord repository key nowMs)
      pure .revoked

def revokeSourceBinding (key : ParsedPayloadCacheKey) (sourceIdentity ownershipScope : String)
    (nowMs : Int) : CacheIo D B RevokeResult := do
  validateOwnershipScope ownershipScope key.ownershipScope
  if utf16Length sourceIdentity = 0 ∨ 1024 < utf16Length sourceIdentity then
    Program.raise (.error "sourceIdentity must be non-empty and bounded")
  else if ¬ isSafeInteger nowMs ∨ nowMs ≤ 0 then
    Program.raise (.error "nowMs must be a positive integer")
  else do
    let all ← revokeAllSourceBindings repository sourceIdentity ownershipScope nowMs
    if all ≠ .missing then pure .revoked
    else do
      let keyString ← documentCacheKeyString key
      revokeBindingRecord repository
        (bindingRecordKey repository.sha256 keyString ownershipScope sourceIdentity) nowMs

/-! ## Sweeping -/

/-- Whether the bytes of an expired record are gone, so that the record may follow. -/
def sweepPayload (record : Record String (CacheValue D)) : CacheIo D B Bool :=
  match decodeCleanup record with
  | some cleanup => do
    let found ← get cleanup.coreRecordKey
    let core ← decodeCore found
    if (core.bind fun core => core.payload.blobKey?) ≠ some cleanup.blobKey then do
      let deleted ← discardPayload repository cleanup.blobKey cleanup.ownerId
      pure (match deleted with
        | none => false
        | some .ownerMismatch => false
        | some _ => true)
    else pure true
  | none =>
    match decodeCore (some record) with
    | .ok (some core) =>
      match core.payload.blobKey? with
      | none => pure true
      | some blobKey => do
        let deleted ← discardPayload repository blobKey core.key.ownershipScope
        pure (match deleted with
          | none => false
          | some .ownerMismatch => false
          | some _ => true)
    | _ => pure true

/-- The loop of `sweepExpiredPage`. -/
def sweepRecords : List (Record String (CacheValue D)) → Nat → CacheIo D B Nat
  | [], removed => pure removed
  | record :: rest, removed => do
    let cleared ← sweepPayload repository record
    if cleared = false then sweepRecords rest removed
    else do
      let outcome ← deleteIfRevision record.key record.revision
      sweepRecords rest (if outcome = .deleted then removed + 1 else removed)

/-- Blob deletion precedes metadata CAS. -/
def sweepExpiredPage (nowMs : Int) (cursor : Option String) (limit : Nat) :
    CacheIo D B DurableDocumentCacheSweepPage :=
  if ¬ isSafeInteger nowMs ∨ nowMs < 1 ∨ limit < 1 ∨ 100 < limit then
    Program.raise (.error "durable document cache sweep bounds are invalid")
  else do
    let page ← scanExpired nowMs cursor limit
    let removed ← sweepRecords repository page.1 0
    pure ⟨page.1.length, removed, page.2⟩

/-! ## All calls -/

/-- The program of each call. -/
def main : Call D → CacheIo D B (Reply D)
  | .process config identity =>
    (process repository config identity).bind fun result => pure (.processed result)
  | .lookup config identity =>
    (lookup repository config identity).bind fun result => pure (.lookup result)
  | .commit config identity execution decision =>
    (commit repository config identity execution decision).bind fun result =>
      pure (.committed result)
  | .revokeSourceBinding key sourceIdentity ownershipScope nowMs =>
    (revokeSourceBinding repository key sourceIdentity ownershipScope nowMs).bind fun result =>
      pure (.revocation result)
  | .revokeAllSourceBindings sourceIdentity ownershipScope nowMs =>
    (revokeAllSourceBindings repository sourceIdentity ownershipScope nowMs).bind fun result =>
      pure (.revocation result)
  | .sweepExpiredPage nowMs cursor limit =>
    (sweepExpiredPage repository nowMs cursor limit).bind fun page => pure (.swept page)

/-- All calls of one repository over one record store and one blob store. -/
def DurableDocumentCacheRepository.system :
    System (Call D) (Op (CacheValue D) B Request) (Op.Res (Answer D)) Fault (Reply D)
      (Disk (CacheValue D) B) (Oracle (Answer D)) :=
  Groundlane.system repository.sha256 (main repository)

end Groundlane.DocumentCache
