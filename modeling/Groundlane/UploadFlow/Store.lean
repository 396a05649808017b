import Groundlane.Ordered.Map
import Groundlane.Sequential.Runs
import Groundlane.UploadFlow.Contract

/-!
# The upload flow store

`UploadFlowStore` of `core/upload-intent.ts` over `InMemoryUploadBlobStorage`: an intent is
created, its bytes are put once into staging, and completing it verifies them, promotes them to an
immutable final object and mints an artifact reference. An operation returns what it returned or
threw together with the store afterwards: a call that throws may still have marked an intent as
expired or taken a number of the sequence.
-/

namespace Groundlane.UploadFlow

open Sequential

structure CreateUploadIntentInput where
  ownershipScope : String
  declaredMime : String
  declaredSize : Int
  maxSize : Option Int
  expectedDigest : Option String
  ttlMs : Option Int
  intentId : Option String
  multipart : Option Bool

/-- A call without overrides has neither of them. -/
structure FinalizeOverrides where
  contentHash : Option String
  sniffedMime : Option String

structure StoredIntent where
  intent : UploadIntent
  hasPut : Bool
deriving DecidableEq

/-- The intent with another status. -/
def StoredIntent.mark (stored : StoredIntent) (status : UploadIntentStatus) : StoredIntent :=
  { stored with intent := { stored.intent with status } }

/-! ## Storage -/

structure InMemoryUploadBlobStorage where
  staging : OrderedMap String Bytes
  finals : OrderedMap String Bytes

namespace InMemoryUploadBlobStorage

variable (storage : InMemoryUploadBlobStorage)

def putStaging (intentId : String) (bytes : Bytes) : Except Fault InMemoryUploadBlobStorage :=
  if storage.staging.size ≥ maxStagingEntries ∧ ¬ storage.staging.has intentId then
    .error (uploadInputError "Staging store is full")
  else if bytes.length > maxUploadBytes then
    .error (uploadInputError ("Staging bytes exceed limit: " ++ toString bytes.length ++ " > " ++
      toString maxUploadBytes))
  else .ok { storage with staging := storage.staging.set intentId bytes }

def getStaging (intentId : String) : Option Bytes :=
  storage.staging.get? intentId

def deleteStaging (intentId : String) : InMemoryUploadBlobStorage :=
  { storage with staging := storage.staging.erase intentId }

def putFinal (refId : String) (bytes : Bytes) : Except Fault InMemoryUploadBlobStorage :=
  if storage.finals.has refId then
    .error (uploadInputError "Cannot overwrite a finalized object")
  else .ok { storage with finals := storage.finals.set refId bytes }

def getFinal (refId : String) : Option Bytes :=
  storage.finals.get? refId

end InMemoryUploadBlobStorage

structure UploadFlowStore where
  seq : Nat
  intents : OrderedMap String StoredIntent
  refs : OrderedMap String ArtifactRef
  storage : InMemoryUploadBlobStorage

/-- What an operation returned or threw, and the store afterwards. -/
abbrev Outcome (α : Type) := Except Fault α × UploadFlowStore

/-- `/expired/i.test(message)`. -/
def mentionsExpired : List Char → Bool
  | [] => false
  | c :: rest => "expired".toList.isPrefixOf ((c :: rest).map Char.toLower) || mentionsExpired rest

/-- `n.toString(16).padStart(4, "0")`. -/
def hexText (n : Nat) : String :=
  let digits := Nat.toDigits 16 n
  String.ofList (.replicate (4 - digits.length) '0' ++ digits)

/-- `slice(0, limit)` of a digest. -/
def firstDigits (limit : Nat) (digest : String) : String :=
  String.ofList (digest.toList.take limit)

namespace UploadFlowStore

variable (sha256 : Sha256 Bytes) (store : UploadFlowStore)

/-- `new UploadFlowStore()`. -/
def create : UploadFlowStore where
  seq := 0
  intents := .empty
  refs := .empty
  storage := ⟨.empty, .empty⟩

/-- The checks of `createIntent` before a number of the sequence is taken, with the type, the
largest size and the lifetime of the intent. -/
def checkCreateIntent (input : CreateUploadIntentInput) : Except Fault (String × Int × Int) := do
  assertBoundedOwnershipScope input.ownershipScope
  let declaredMime ← assertUploadMime input.declaredMime
  throwIf (input.declaredSize ≤ 0)
    (uploadInputError "Upload intent declaredSize must be a positive integer")
  let maxSize := input.maxSize.getD maxUploadBytes
  throwIf (maxSize ≤ 0 ∨ maxSize > maxUploadBytes)
    (uploadInputError ("Upload maxSize must be a positive integer at most " ++
      toString maxUploadBytes))
  throwIf (input.declaredSize > maxSize)
    (uploadInputError ("Declared size " ++ toString input.declaredSize ++
      " exceeds max size " ++ toString maxSize))
  let ttlMs := input.ttlMs.getD uploadIntentDefaultTtlMs
  throwIf (ttlMs ≤ 0 ∨ ttlMs > maxUploadTtlMs)
    (uploadInputError "Upload intent TTL must be a positive integer within caps")
  throwIf (input.intentId.any fun intentId =>
      intentId = "" ∨ utf16Length intentId > maxIntentIdChars)
    (uploadInputError "Upload intent must have a non-empty intentId within bounds")
  return (declaredMime, maxSize, ttlMs)

/-- The id of an intent that was created without one. -/
def defaultIntentId (seq : Nat) (nowMs : Int) : String :=
  "intent_" ++ hexText seq ++
    firstDigits 12 (sha256.text ("intent:" ++ toString seq ++ ":" ++ toString nowMs))

def createIntent (input : CreateUploadIntentInput) (nowMs : Int) : Outcome UploadIntent :=
  match checkCreateIntent input with
  | .error fault => (.error fault, store)
  | .ok (declaredMime, maxSize, ttlMs) =>
    let seq := store.seq + 1
    let intentId := input.intentId.getD (defaultIntentId sha256 seq nowMs)
    if store.intents.has intentId then
      (.error (uploadInputError "Upload intent already exists"), { store with seq })
    else
      let intent : UploadIntent :=
        { intentId
          ownershipScope := input.ownershipScope
          declaredMime
          declaredSize := input.declaredSize
          maxSize
          expectedDigest := input.expectedDigest
          expiresAt := nowMs + ttlMs
          status := .pending
          multipart := input.multipart.getD false }
      match validateCreateIntent intent nowMs with
      | .error fault => (.error fault, { store with seq })
      | .ok () =>
        (.ok intent, { store with seq, intents := store.intents.set intentId ⟨intent, false⟩ })

/-- `markStatus`: nothing happens to an intent that is not known. -/
def markStatus (intentId : String) (status : UploadIntentStatus) : UploadFlowStore :=
  match store.intents.get? intentId with
  | none => store
  | some stored => { store with intents := store.intents.set intentId (stored.mark status) }

def unknownIntent : Fault := uploadInputError "Unknown upload intent"

def recordPut (intentId callerScope : String) (bytes : Bytes) (nowMs : Int) : Outcome Unit :=
  match store.intents.get? intentId with
  | none => (.error unknownIntent, store)
  | some stored =>
    match validateCrossOwnership stored.intent callerScope with
    | .error fault => (.error fault, store)
    | .ok () =>
      if nowMs ≥ stored.intent.expiresAt then
        (.error (uploadInputError "Upload intent has expired"), store.markStatus intentId .expired)
      else if stored.intent.status = .finalized then
        (.error (uploadInputError "Cannot overwrite a finalized staging object"), store)
      else if stored.intent.status = .expired ∨ stored.intent.status = .failed then
        (.error (uploadInputError "Upload intent is no longer writable"), store)
      else if stored.hasPut then
        (.error (uploadInputError
          "Cannot overwrite a staging object: V1 supports a single PUT per intent"), store)
      else if bytes.length > stored.intent.maxSize then
        (.error (uploadInputError ("Actual size " ++ toString bytes.length ++
          " exceeds max size " ++ toString stored.intent.maxSize)), store)
      else match store.storage.putStaging intentId bytes with
        | .error fault => (.error fault, store)
        | .ok storage =>
          (.ok (), { store with
            storage
            intents := store.intents.set intentId
              { stored.mark .uploading with hasPut := true } })

/-- The content hash that a completion works with. -/
def contentHashOf (staged : Bytes) (overrides : FinalizeOverrides) : String :=
  overrides.contentHash.getD (hashUploadBytes sha256 staged)

/-- The reference id that the next completion of the intent mints. -/
def nextRefId (intentId contentHash : String) : String :=
  "art_" ++ firstDigits 32
    (sha256.text (intentId ++ ":" ++ contentHash ++ ":" ++ toString (store.seq + 1)))

/-- The checks between the validation of a completion and the minting. -/
def verifyStaged (intent : UploadIntent) (staged : Bytes) (contentHash : String) :
    Except Fault Unit := do
  checkSniffMatchesDeclared (sniffUploadMime staged) intent.declaredMime
  checkDigest intent.expectedDigest contentHash uploadInputError

/-- The reference that a completion mints, checked. -/
def mintRef (intent : UploadIntent) (staged : Bytes) (contentHash refId : String) (nowMs : Int) :
    Except Fault ArtifactRef := do
  validateArtifactRefId refId
  createArtifactRef
    { refId
      artifactKind := .source
      ownershipScope := intent.ownershipScope
      contentHash
      byteSize := staged.length
      createdAt := nowMs
      expiresAt := nowMs + verifiedArtifactDefaultTtlMs
      retentionPolicy := .transient
      verified := true }

def completeAndFinalize (intentId callerScope : String) (nowMs : Int)
    (overrides : FinalizeOverrides) : Outcome ArtifactRef :=
  match store.intents.get? intentId with
  | none => (.error unknownIntent, store)
  | some stored =>
    match validateCrossOwnership stored.intent callerScope with
    | .error fault => (.error fault, store)
    | .ok () =>
      if stored.intent.status = .finalized then
        (.error (uploadInputError "Cannot overwrite a finalized staging object"), store)
      else match store.storage.getStaging intentId with
        | none => (.error (uploadInputError "Staging object not found for intent"), store)
        | some staged =>
          let sniffedMime := (overrides.sniffedMime.orElse fun _ => sniffUploadMime staged).getD
            stored.intent.declaredMime
          let contentHash := contentHashOf sha256 staged overrides
          let req := { intentId, actualSize := staged.length, sniffedMime, contentHash }
          match validateCompleteUpload stored.intent req nowMs with
          | .error fault =>
            (.error fault, if mentionsExpired fault.message.toList then
              store.markStatus intentId .expired else store)
          | .ok () =>
            match verifyStaged stored.intent staged contentHash with
            | .error fault => (.error fault, store)
            | .ok () =>
              let refId := store.nextRefId sha256 intentId contentHash
              match mintRef stored.intent staged contentHash refId nowMs with
              | .error fault => (.error fault, { store with seq := store.seq + 1 })
              | .ok ref =>
                match store.storage.putFinal refId staged with
                | .error fault => (.error fault, { store with seq := store.seq + 1 })
                | .ok storage =>
                  (.ok ref,
                    { seq := store.seq + 1
                      intents := (store.markStatus intentId .finalized).intents
                      refs := store.refs.set refId ref
                      storage := storage.deleteStaging intentId })

def markFailed (intentId : String) : UploadFlowStore :=
  { store.markStatus intentId .failed with
    storage := store.storage.deleteStaging intentId }

def getIntent (intentId : String) : Option UploadIntent :=
  (store.intents.get? intentId).map StoredIntent.intent

def getFinalRef (refId : String) : Option ArtifactRef :=
  store.refs.get? refId

def getFinalBytes (refId : String) : Option Bytes :=
  store.storage.getFinal refId

end UploadFlowStore

/-! ## Calls -/

inductive Call where
  | createIntent (input : CreateUploadIntentInput) (nowMs : Int)
  | recordPut (intentId callerScope : String) (bytes : Bytes) (nowMs : Int)
  | completeAndFinalize (intentId callerScope : String) (nowMs : Int)
    (overrides : FinalizeOverrides)
  | markFailed (intentId : String)

namespace UploadFlowStore

/-- The store after a call. -/
def perform (sha256 : Sha256 Bytes) (store : UploadFlowStore) : Call → UploadFlowStore
  | .createIntent input nowMs => (store.createIntent sha256 input nowMs).2
  | .recordPut intentId callerScope bytes nowMs =>
    (store.recordPut intentId callerScope bytes nowMs).2
  | .completeAndFinalize intentId callerScope nowMs overrides =>
    (store.completeAndFinalize sha256 intentId callerScope nowMs overrides).2
  | .markFailed intentId => store.markFailed intentId

/-- The reference that a call mints, with the intent it is minted for. -/
def minted (sha256 : Sha256 Bytes) (store : UploadFlowStore) : Call → List (String × ArtifactRef)
  | .completeAndFinalize intentId callerScope nowMs overrides =>
    match (store.completeAndFinalize sha256 intentId callerScope nowMs overrides).1 with
    | .ok ref => [(intentId, ref)]
    | .error _ => []
  | _ => []

end UploadFlowStore

end Groundlane.UploadFlow
