import Groundlane.Durable.Store

/-!
# The contract of the document cache

The part of `core/document-cache-contract.ts` that the durable cache uses: modes and lifetimes,
the key of a parsed payload and its text, and the shapes of requests, decisions and results. The
cached data is of an arbitrary type `D`.
-/

namespace Groundlane.DocumentCache

/-! ## Modes and lifetimes -/

inductive CacheMode where
  | use
  | refresh
  | bypass
deriving DecidableEq, Repr

structure CacheConfig where
  defaultTtlSeconds : Int
  operatorMaxTtlSeconds : Option Int
  enabled : Bool
  sourceExpirySeconds : Option Int
deriving DecidableEq, Repr

structure ResolvedCacheMode where
  effectiveMode : CacheMode
  degraded : Bool
  reason : Option String
deriving DecidableEq, Repr

def resolveCacheMode (requested : CacheMode) (config : CacheConfig) : ResolvedCacheMode :=
  if config.enabled = false then
    if requested = .use ∨ requested = .refresh then
      ⟨.bypass, true, some "Operator disabled cache; degraded to bypass"⟩
    else ⟨.bypass, false, none⟩
  else ⟨requested, false, none⟩

/-- The bound of an optional limit. -/
def limited (value : Int) : Option Int → Int
  | none => value
  | some limit => min value limit

def resolveEffectiveTtl (requestedTtlSeconds : Option Int) (config : CacheConfig) : Int :=
  max (limited (limited (requestedTtlSeconds.getD config.defaultTtlSeconds)
    config.operatorMaxTtlSeconds) config.sourceExpirySeconds) 0

/-! ## Keys -/

structure ParsedPayloadCacheKey where
  ownershipScope : String
  contentHash : String
  engineId : String
  engineVersion : String
  modelId : String
  modelVersion : String
  normalizedOptions : String
  schemaVersion : String
  policyVersion : String
deriving DecidableEq, Repr

/-- A field of a key that must not be empty. -/
def requireField (value field : String) : Except Fault Unit :=
  if value = "" then .error (.error ("Cache key must include " ++ field)) else .ok ()

def validateCacheKey (key : ParsedPayloadCacheKey) : Except Fault Unit := do
  requireField key.ownershipScope "ownershipScope"
  requireField key.contentHash "contentHash"
  requireField key.engineId "engineId"
  requireField key.engineVersion "engineVersion"
  requireField key.modelId "modelId"
  requireField key.modelVersion "modelVersion"
  requireField key.schemaVersion "schemaVersion"
  requireField key.policyVersion "policyVersion"

def validateOwnershipScope (requestScope keyScope : String) : Except Fault Unit :=
  if requestScope ≠ keyScope then
    .error (.error ("Cross-tenant cache reuse forbidden: request scope \"" ++ requestScope ++
      "\" does not match key scope \"" ++ keyScope ++ "\""))
  else .ok ()

/-- The fields of a key in the order in which its text has them. -/
def ParsedPayloadCacheKey.fields (key : ParsedPayloadCacheKey) : List String :=
  [key.ownershipScope, key.contentHash, key.engineId, key.engineVersion, key.modelId,
    key.modelVersion, key.normalizedOptions, key.schemaVersion, key.policyVersion]

/-- `MAX_DOCUMENT_CACHE_KEY_CHARS`. -/
def maxDocumentCacheKeyChars : Nat := 2048

def documentCacheKeyString (key : ParsedPayloadCacheKey) : Except Fault String := do
  validateCacheKey key
  let raw := ":".intercalate key.fields
  if maxDocumentCacheKeyChars < utf16Length raw then
    throw (.groundlane .invalidInput "document-cache" "Document cache key exceeds 2048 characters")
  pure raw

/-! ## Hits -/

structure BillingProvenance where
  isOriginal : Bool
  originalCost : Int
  engine : String
  model : String
deriving DecidableEq, Repr

structure CacheHitResult where
  createdAt : Int
  expiresAt : Int
  ageSeconds : Int
  sourceHash : String
  engineVersion : String
  modelVersion : String
  billingProvenance : BillingProvenance
deriving DecidableEq, Repr

def validateCacheHit (hit : CacheHitResult) : Except Fault Unit := do
  if hit.billingProvenance.isOriginal = false then
    throw (.error "Cache hit must report original billing provenance, not new execution")
  if hit.ageSeconds < 0 then
    throw (.error "Cache hit ageSeconds must be non-negative")
  if hit.expiresAt ≤ hit.createdAt then
    throw (.error "Cache hit expiresAt must be after createdAt")

/-! ## Scope of the cache -/

structure CacheScopePolicy where
  excludes : List String
  requiresNetworkPolicyCheck : Bool

/-- `DEFAULT_CACHE_SCOPE_POLICY`. -/
def defaultCacheScopePolicy : CacheScopePolicy := ⟨["web_fetch", "web_extract", "parse"], true⟩

def validateCacheScope (toolName : String) (policy : CacheScopePolicy) : Bool × String :=
  if policy.excludes.contains toolName then
    (false, "Tool \"" ++ toolName ++ "\" is excluded from document processing cache")
  else (true, "Tool is within cache scope")

def validateNetworkPolicyRequired (policy : CacheScopePolicy) (networkPolicyChecked : Bool) :
    Except Fault Unit :=
  if policy.requiresNetworkPolicyCheck ∧ networkPolicyChecked = false then
    .error (.error "URL security/DNS/redirect checks must complete before cache lookup")
  else .ok ()

/-! ## Requests and results -/

structure DocumentCacheExecution (D : Type) where
  data : D
  provenance : BillingProvenance
deriving DecidableEq, Repr

structure DocumentCacheIdentity where
  mode : CacheMode
  key : ParsedPayloadCacheKey
  sourceIdentity : String
  sourceVersion : String
  ownershipScope : String
  nowMs : Int
  sourceExpiresAt : Option Int
  requestedTtlSeconds : Option Int
  toolName : Option String
  networkPolicyChecked : Option Bool
deriving DecidableEq, Repr

def cacheConfigForIdentity (config : CacheConfig) (identity : DocumentCacheIdentity) :
    CacheConfig :=
  match identity.sourceExpiresAt with
  | none => config
  | some sourceExpiresAt =>
    let remainingSeconds := max 0 ((sourceExpiresAt - identity.nowMs) / 1000)
    { config with
      sourceExpirySeconds := some (limited remainingSeconds config.sourceExpirySeconds) }

inductive DocumentCacheMissDisposition where
  | ordinary
  | revoked
  | disabled
  | bypass
  | refresh
deriving DecidableEq, Repr

/-- The revision of the binding at the lookup, if there was one. -/
structure DocumentCacheCommitFence where
  bindingRevision : Option Nat
deriving DecidableEq, Repr

structure DocumentCacheLookupMiss where
  disposition : DocumentCacheMissDisposition
  commitFence : Option DocumentCacheCommitFence
  degraded : Bool
  cacheError : Option String
deriving DecidableEq, Repr

inductive DocumentCacheLookupResult (D : Type) where
  | hit (data : D) (hit : CacheHitResult)
  | miss (miss : DocumentCacheLookupMiss)
deriving DecidableEq, Repr

structure DocumentCacheCommitResult (D : Type) where
  data : D
  provenance : BillingProvenance
  stored : Bool
  createdAt : Option Int
  expiresAt : Option Int
  degraded : Bool
  cacheError : Option String
deriving DecidableEq, Repr

inductive DocumentCacheProcessResult (D : Type) where
  | hit (data : D) (hit : CacheHitResult)
  | committed (result : DocumentCacheCommitResult D)
deriving DecidableEq, Repr

end Groundlane.DocumentCache
