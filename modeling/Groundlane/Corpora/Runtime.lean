import Groundlane.Corpora.Store

/-!
# The corpus runtime

The reads of the repository of `core/durable-corpora.ts` and the search of the runtime of
`core/durable-corpus-runtime.ts` over it, as programs on the stores.
-/

namespace Groundlane.Corpora

open Calendar Fenced Interleaving Sequential

/-! ## Inputs and views -/

structure DurableCorpusCaller extends DurableCorpusBinding where
  roles : List String
deriving DecidableEq, Repr

structure CorpusView where
  corpusId : String
  displayName : String
  state : CorpusState
  sourceCount : Nat
  updatedAt : String
  expiresAt : Option String
deriving DecidableEq, Repr

structure SearchResultProvenance where
  corpusBoundary : String
  freshnessTimestamp : String
deriving DecidableEq, Repr

structure ScopedCorpusSearchResult extends CorpusIndexHit where
  provenance : SearchResultProvenance
deriving DecidableEq

structure ScopedCorpusSearchResponse where
  corpusId : String
  query : String
  results : List ScopedCorpusSearchResult
  warnings : List String
deriving DecidableEq

/-- What the runtime is built with: the functions of the platform, the index, whether there is a
cache to invalidate, and the bound on the size of a source. -/
structure DurableCorpusRuntime where
  dates : DateParser
  sha256 : Sha256 String
  normalize : String → String
  localeBefore : String → String → Bool
  ranking : Ranking
  hasCache : Bool
  maxSourceBytes : Nat
  bounded : 1 ≤ maxSourceBytes ∧ maxSourceBytes ≤ 32 * 1024 * 1024

/-- A check of the repository or of the runtime. -/
def refuseIf (condition : Prop) [Decidable condition] (message : String) : Except Fault Unit :=
  throwIf condition (.error message)

/-! ## The repository -/

/-- Whether the record has expired. -/
def DurableCorpusRecord.expired (record : DurableCorpusRecord) (nowMs : Int) : Prop :=
  record.expiresAt.any (fun expiresAt => expiresAt ≤ nowMs) = true

instance (record : DurableCorpusRecord) (nowMs : Int) : Decidable (record.expired nowMs) :=
  inferInstanceAs (Decidable (_ = true))

namespace DurableCorpusRepository

variable (dates : DateParser)

/-- The checks of a read, in their order. -/
def checkRead (binding : DurableCorpusBinding) (nowMs : Int) (includeRevoked : Bool)
    (record : DurableCorpusRecord) : Except Fault Unit := do
  assertBinding record binding
  refuseIf (record.expired nowMs) "corpus has expired"
  refuseIf (includeRevoked = false ∧ record.state.withdrawn = true) "corpus access is revoked"

def get (corpusId : String) (binding : DurableCorpusBinding) (nowMs : Int)
    (includeRevoked : Bool) : Io (Option DurableCorpusView) := do
  assertTimestamp nowMs "corpus read time"
  let key ← keyFor corpusId
  let stored ← DurableRecordStore.get key
  match stored with
  | none => pure none
  | some stored => do
    let record ← decode dates stored
    checkRead binding nowMs includeRevoked record
    pure (some ⟨record, stored.revision⟩)

/-- The read at the beginning of an operation. -/
def present (corpusId : String) (binding : DurableCorpusBinding) (nowMs : Int)
    (includeRevoked : Bool) : Io DurableCorpusView := do
  let view ← get dates corpusId binding nowMs includeRevoked
  match view with
  | none => Program.raise (.error "durable corpus is missing")
  | some view => pure view

end DurableCorpusRepository

/-! ## Helpers of the runtime -/

def CorpusSourceManifestEntry.revoked (entry : CorpusSourceManifestEntry) : Bool :=
  "revoked:".toList.isPrefixOf entry.lifecycleProvenance.toList

def sourceExpiry (dates : DateParser) (entry : CorpusSourceManifestEntry) : Option Int :=
  if entry.retentionPolicy = "persistent" then none else dates.parse entry.retentionPolicy

def canRead (entry : CorpusSourceManifestEntry) (caller : DurableCorpusCaller) : Bool :=
  caller.roles.any fun role => entry.acl.contains role

/-- Whether the source is neither revoked nor expired. -/
def CorpusSourceManifestEntry.live (dates : DateParser) (nowMs : Int)
    (entry : CorpusSourceManifestEntry) : Bool :=
  !entry.revoked && (sourceExpiry dates entry).all fun expiry => decide (nowMs < expiry)

def activeSources (dates : DateParser) (manifest : CorpusManifest) (nowMs : Int) :
    List CorpusSourceManifestEntry :=
  manifest.sources.filter (CorpusSourceManifestEntry.live dates nowMs)

namespace DurableCorpusRuntime

variable (runtime : DurableCorpusRuntime)

def require (corpusId : String) (caller : DurableCorpusCaller) (nowMs : Int) :
    Io DurableCorpusView :=
  DurableCorpusRepository.present runtime.dates corpusId caller.toDurableCorpusBinding nowMs false

/-! ## Searching -/

/-- The result that a hit is shown as, if the caller may see its source. -/
def resultOf (corpusId : String) (caller : DurableCorpusCaller) (nowMs : Int)
    (live : List CorpusSourceManifestEntry) (hit : CorpusIndexHit) :
    Option ScopedCorpusSearchResult :=
  -- A later source of the same ID would take the place of an earlier one in the map.
  match live.reverse.find? fun source => source.sourceId = hit.sourceId with
  | none => none
  | some source =>
    if source.contentHash ≠ hit.contentHash ∨ canRead source caller = false then none
    else some ⟨hit, ⟨corpusId, toISOString nowMs⟩⟩

def searchCorpus (corpusId query : String) (caller : DurableCorpusCaller) (maxResults : Nat) :
    Io ScopedCorpusSearchResponse := do
  let nowMs ← now
  let current ← runtime.require corpusId caller nowMs.val
  let live := activeSources runtime.dates current.record.manifest nowMs.val
  let hits ← CorpusDerivedIndex.search corpusId query maxResults
  pure ⟨corpusId, query, (hits.filterMap (resultOf corpusId caller nowMs.val live)).take maxResults,
    if current.record.state = .degraded then
      ["Corpus derived index is degraded; results may be stale."] else []⟩

end DurableCorpusRuntime

end Groundlane.Corpora
