import Mathlib.Data.Rat.Init
import Groundlane.Corpora.Record
import Groundlane.Interleaving.Program
import Groundlane.Ordered.Ranking

/-!
# The stores of the corpus runtime

The corpus runtime works on the record store of `core/durable-store.ts`, on a derived index and on
the artifacts of the sources. A `Ranking` stands for what the index does with a query; every
operation on the index, on the artifacts and on the cache may fail, before or after it took
effect. `exec` says what each operation does, and `record_cases` what it does to the records.
-/

namespace Groundlane.Corpora

open Calendar Fenced Interleaving

/-! ## Data -/

structure CorpusIndexDocument where
  sourceId : String
  contentHash : String
  text : String
deriving DecidableEq, Repr

structure CorpusIndexHit where
  sourceId : String
  contentHash : String
  snippet : String
  score : ℚ
deriving DecidableEq

/-- What the index makes of queries: which it refuses, what a document gets for a query, and in
which order it lists hits. -/
structure Ranking where
  check : String → Nat → Except Fault Unit
  hit : String → CorpusIndexDocument → Option (String × ℚ)
  before : CorpusIndexHit → CorpusIndexHit → Bool
  trans : ∀ first second third, before first second = true → before second third = true →
    before first third = true
  total : ∀ first second, before first second = true ∨ before second first = true

/-- The hits of the documents, best first. -/
def Ranking.ranked (ranking : Ranking) (query : String) (documents : List CorpusIndexDocument) :
    List CorpusIndexHit :=
  (documents.filterMap fun document => (ranking.hit query document).map fun (snippet, score) =>
    ⟨document.sourceId, document.contentHash, snippet, score⟩).insertionSort
      fun first second => ranking.before first second

/-- Where the bytes of a source are kept. -/
structure ArtifactPlace extends DurableCorpusBinding where
  corpusId : String
  sourceId : String
  contentHash : String
deriving DecidableEq, Repr

/-- Records, the documents of the index by corpus, and the artifacts. -/
structure Stores where
  records : Store String DurableCorpusRecord
  index : String → List CorpusIndexDocument
  artifacts : ArtifactPlace → Option String

/-! ## Operations -/

inductive Op where
  | get (key : String)
  | createIfAbsent (key : String) (value : DurableCorpusRecord) (nowMs : Int)
    (expiresAt : Option Int)
  | compareAndSwap (key : String) (expectedRevision : Nat) (value : DurableCorpusRecord)
    (nowMs : Int) (expiresAt : Option Int)
  | replaceFromManifest (corpusId : String) (documents : List CorpusIndexDocument)
  | upsert (corpusId : String) (document : CorpusIndexDocument)
  | remove (corpusId sourceId : String)
  | search (corpusId query : String) (limit : Nat)
  | deleteIndex (corpusId : String)
  | put (place : ArtifactPlace) (bytes : String)
  | read (place : ArtifactPlace) (maxBytes : Nat)
  | delete (place : ArtifactPlace)
  | revoke (place : ArtifactPlace)
  | now
  | newId

abbrev Op.Res : Op → Type
  | get _ => Option (Record String DurableCorpusRecord)
  | createIfAbsent .. => CreateResult String DurableCorpusRecord
  | compareAndSwap .. => CasResult String DurableCorpusRecord
  | replaceFromManifest .. | upsert .. | remove .. | deleteIndex _ | put .. | revoke _ =>
    Except Fault Unit
  | search .. => Except Fault (List CorpusIndexHit)
  | read .. => Except Fault String
  | delete _ => Except Fault Bool
  | now => { time : Int // IsTimeValue time }
  | newId => String

/-- How an operation on the index, the artifacts or the cache goes. -/
inductive Outcome where
  | succeeds
  | failsBefore
  | failsAfter
deriving DecidableEq, Repr

/-- What the stores do not determine. -/
structure Oracle where
  outcome : Outcome
  now : { time : Int // IsTimeValue time }
  newId : String

/-- A change that may fail before or after it took effect. -/
def Outcome.settle {α : Type} (outcome : Outcome) (stores after : Stores)
    (answer : Except Fault α) : Stores × Except Fault α :=
  match outcome with
  | .succeeds => (after, answer)
  | .failsBefore => (stores, .error .other)
  | .failsAfter => (after, .error .other)

def Stores.setIndex (stores : Stores) (corpusId : String)
    (documents : List CorpusIndexDocument) : Stores :=
  { stores with index := Function.update stores.index corpusId documents }

def Stores.setArtifact (stores : Stores) (place : ArtifactPlace) (bytes : Option String) :
    Stores :=
  { stores with artifacts := Function.update stores.artifacts place bytes }

/-- The documents without the one of a source. -/
def withoutSource (sourceId : String) (documents : List CorpusIndexDocument) :
    List CorpusIndexDocument :=
  documents.filter fun document => document.sourceId ≠ sourceId

/-- The answer of `put`, which refuses other bytes under the same place. -/
def Stores.putArtifact (stores : Stores) (place : ArtifactPlace) (bytes : String) :
    Stores × Except Fault Unit :=
  match stores.artifacts place with
  | none => (stores.setArtifact place (some bytes), .ok ())
  | some existing =>
    if existing = bytes then (stores, .ok ())
    else (stores, .error (.error "corpus source artifact conflicts with durable storage"))

/-- The answer of `read`. -/
def Stores.readArtifact (stores : Stores) (place : ArtifactPlace) (maxBytes : Nat) :
    Except Fault String :=
  match stores.artifacts place with
  | none => .error (.error "corpus source artifact is unavailable")
  | some bytes =>
    if maxBytes < utf8Length bytes.toList then
      .error (.error "immutable blob exceeds the read limit")
    else .ok bytes

/-- What each operation does to the stores, and its answer. -/
def exec (ranking : Ranking) (oracle : Oracle) (op : Op) (stores : Stores) : Stores × op.Res :=
  match op with
  | .get key => (stores, stores.records.get key)
  | .createIfAbsent key value nowMs expiresAt =>
    let result := stores.records.createIfAbsent key value nowMs expiresAt
    ({ stores with records := result.1 }, result.2)
  | .compareAndSwap key expectedRevision value nowMs expiresAt =>
    let result := stores.records.compareAndSwap key expectedRevision value nowMs expiresAt
    ({ stores with records := result.1 }, result.2)
  | .replaceFromManifest corpusId documents =>
    oracle.outcome.settle stores (stores.setIndex corpusId documents) (.ok ())
  | .upsert corpusId document =>
    oracle.outcome.settle stores (stores.setIndex corpusId
      (withoutSource document.sourceId (stores.index corpusId) ++ [document])) (.ok ())
  | .remove corpusId sourceId =>
    oracle.outcome.settle stores
      (stores.setIndex corpusId (withoutSource sourceId (stores.index corpusId))) (.ok ())
  | .search corpusId query limit =>
    oracle.outcome.settle stores stores (do
      ranking.check query limit
      pure ((ranking.ranked query (stores.index corpusId)).take limit))
  | .deleteIndex corpusId => oracle.outcome.settle stores (stores.setIndex corpusId []) (.ok ())
  | .put place bytes =>
    let result := stores.putArtifact place bytes
    oracle.outcome.settle stores result.1 result.2
  | .read place maxBytes => oracle.outcome.settle stores stores (stores.readArtifact place maxBytes)
  | .delete place => oracle.outcome.settle stores (stores.setArtifact place none) (.ok true)
  | .revoke _ => oracle.outcome.settle stores stores (.ok ())
  | .now => (stores, oracle.now)
  | .newId => (stores, oracle.newId)

/-! ## The ports as programs -/

abbrev Io : Type → Type := Program Op Op.Res Fault

namespace DurableRecordStore

def get (key : String) : Io (Option (Record String DurableCorpusRecord)) := do
  validateDurableKey key
  Program.request (Op.get key)

end DurableRecordStore

/-- Await an operation that may fail. -/
def fallible {α : Type} (op : Op) (answer : op.Res → Except Fault α) : Io α :=
  (Program.request op).bind fun result => Program.ofExcept (answer result)

namespace CorpusDerivedIndex

def search (corpusId query : String) (limit : Nat) : Io (List CorpusIndexHit) :=
  fallible (.search corpusId query limit) id

end CorpusDerivedIndex

/-- `now().getTime()`. -/
def now : Io { time : Int // IsTimeValue time } :=
  Program.request Op.now

end Groundlane.Corpora
