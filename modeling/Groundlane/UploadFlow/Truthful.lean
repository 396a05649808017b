import Groundlane.Durable.Digest
import Groundlane.UploadFlow.Store

/-!
# The upload flow mints truthful references

What one call can do to an intent and its staged bytes is said once (`entry_step`), and what a
completion can do once (`completion_step`). `UploadFlowStore.mints_truthful` is the result over
whole runs: when no finalized intent is marked as failed or found expired by a late put, no
completion overrides the content hash with another one, and no type is sniffed under another name
than the declared one, every intent mints at most one reference and stays finalized, references
are truthful, and a completion succeeds exactly when the sniffed type is accepted. The code does
not make the first three checks itself, and its own type comparison rejects what
`checkSniffMatchesDeclared` accepts (`untruthful_reference`).
-/

namespace Groundlane.UploadFlow

open Sequential

namespace UploadFlowStore

variable {sha256 : Sha256 Bytes} {store : UploadFlowStore} {call : Call} {intentId : String}

/-! ## What one call does -/

variable (nowMs : Int) {intent : UploadIntent} {staged : Bytes}

theorem validateCrossOwnership_ok {callerScope : String} :
    validateCrossOwnership intent callerScope = .ok () ↔ intent.ownershipScope = callerScope := by
  unfold validateCrossOwnership
  by_cases h : intent.ownershipScope = callerScope
  · rw [if_neg (not_not_intro h)]
    exact ⟨fun _ => h, fun _ => rfl⟩
  · rw [if_pos h]
    exact ⟨nofun, fun heq => absurd heq h⟩

/-- What a completion returns, and what it leaves behind. -/
inductive CompletionStep (sha256 : Sha256 Bytes) (store : UploadFlowStore)
    (intentId callerScope : String) (nowMs : Int) (overrides : FinalizeOverrides) :
    Outcome ArtifactRef → Prop
  | refused (fault : Fault) :
    CompletionStep sha256 store intentId callerScope nowMs overrides (.error fault, store)
  | expired (fault : Fault) (stored : StoredIntent)
    (hget : store.intents.get? intentId = some stored)
    (hopen : stored.intent.status ≠ .finalized) :
    CompletionStep sha256 store intentId callerScope nowMs overrides
      (.error fault, store.markStatus intentId .expired)
  | unminted (fault : Fault) :
    CompletionStep sha256 store intentId callerScope nowMs overrides
      (.error fault, { store with seq := store.seq + 1 })
  | minted (stored : StoredIntent) (staged : Bytes) (ref : ArtifactRef)
    (hget : store.intents.get? intentId = some stored)
    (howner : stored.intent.ownershipScope = callerScope)
    (hstaged : store.storage.staging.get? intentId = some staged)
    (hvalid : validateCompleteUpload stored.intent
      { intentId, actualSize := staged.length
        sniffedMime := (overrides.sniffedMime.orElse fun _ => sniffUploadMime staged).getD
          stored.intent.declaredMime
        contentHash := contentHashOf sha256 staged overrides } nowMs = .ok ())
    (hverified : verifyStaged stored.intent staged (contentHashOf sha256 staged overrides) =
      .ok ())
    (href : mintRef stored.intent staged (contentHashOf sha256 staged overrides)
      (store.nextRefId sha256 intentId (contentHashOf sha256 staged overrides)) nowMs = .ok ref)
    (hfree : store.storage.finals.get?
      (store.nextRefId sha256 intentId (contentHashOf sha256 staged overrides)) = none) :
    CompletionStep sha256 store intentId callerScope nowMs overrides
      (.ok ref,
        { seq := store.seq + 1
          intents := (store.markStatus intentId .finalized).intents
          refs := store.refs.set
            (store.nextRefId sha256 intentId (contentHashOf sha256 staged overrides)) ref
          storage :=
            { staging := store.storage.staging.erase intentId
              finals := store.storage.finals.set
                (store.nextRefId sha256 intentId (contentHashOf sha256 staged overrides))
                staged } })

theorem completion_step (sha256 : Sha256 Bytes) (store : UploadFlowStore)
    (intentId callerScope : String) (nowMs : Int) (overrides : FinalizeOverrides) :
    CompletionStep sha256 store intentId callerScope nowMs overrides
      (store.completeAndFinalize sha256 intentId callerScope nowMs overrides) := by
  unfold completeAndFinalize
  cases hget : store.intents.get? intentId with
  | none => exact .refused _
  | some stored =>
    dsimp only
    cases howner : validateCrossOwnership stored.intent callerScope with
    | error fault => exact .refused _
    | ok _ =>
      dsimp only
      by_cases hfinalized : stored.intent.status = .finalized
      · rw [if_pos hfinalized]
        exact .refused _
      rw [if_neg hfinalized]
      unfold InMemoryUploadBlobStorage.getStaging
      cases hstaged : store.storage.staging.get? intentId with
      | none => exact .refused _
      | some staged =>
        dsimp only
        split
        · split
          · exact .expired _ stored hget hfinalized
          · exact .refused _
        · rename_i hvalid
          cases hverified : verifyStaged stored.intent staged
              (contentHashOf sha256 staged overrides) with
          | error fault => exact .refused _
          | ok _ =>
            dsimp only
            split
            · exact .unminted _
            · rename_i ref href
              unfold InMemoryUploadBlobStorage.putFinal OrderedMap.has
              cases hfree : store.storage.finals.get?
                  (store.nextRefId sha256 intentId (contentHashOf sha256 staged overrides)) with
              | some bytes => exact .unminted _
              | none =>
                exact .minted stored staged ref hget
                  (validateCrossOwnership_ok.1 howner) hstaged hvalid hverified href hfree

theorem perform_createIntent (input : CreateUploadIntentInput) (nowMs : Int) :
    store.perform sha256 (.createIntent input nowMs) = (store.createIntent sha256 input nowMs).2 :=
  rfl

theorem perform_recordPut (callerScope : String) (bytes : Bytes) (nowMs : Int) :
    store.perform sha256 (.recordPut intentId callerScope bytes nowMs) =
      (store.recordPut intentId callerScope bytes nowMs).2 :=
  rfl

theorem perform_completeAndFinalize (callerScope : String) (nowMs : Int)
    (overrides : FinalizeOverrides) :
    store.perform sha256 (.completeAndFinalize intentId callerScope nowMs overrides) =
      (store.completeAndFinalize sha256 intentId callerScope nowMs overrides).2 :=
  rfl

theorem perform_markFailed : store.perform sha256 (.markFailed intentId) = store.markFailed intentId :=
  rfl

/-- What is stored of an intent: the intent and its staged bytes. -/
def entry (store : UploadFlowStore) (intentId : String) : Option StoredIntent × Option Bytes :=
  (store.intents.get? intentId, store.storage.staging.get? intentId)

/-- What a call can do to an intent and its staged bytes. -/
inductive EntryStep (call : Call) (intentId : String) :
    Option StoredIntent × Option Bytes → Option StoredIntent × Option Bytes → Prop
  | kept (entry : Option StoredIntent × Option Bytes) : EntryStep call intentId entry entry
  | created (new : StoredIntent) (staged : Option Bytes) (hid : new.intent.intentId = intentId)
    (hmime : new.intent.declaredMime ∈ allowedUploadMimes)
    (hstatus : new.intent.status = .pending) :
    EntryStep call intentId (none, staged) (some new, staged)
  | put (stored : StoredIntent) (before : Option Bytes) (bytes : Bytes)
    (hopen : stored.intent.status ≠ .finalized ∧ stored.intent.status ≠ .expired ∧
      stored.intent.status ≠ .failed)
    (hsize : bytes.length ≤ stored.intent.maxSize) :
    EntryStep call intentId (some stored, before)
      (some { stored.mark .uploading with hasPut := true }, some bytes)
  | expired (stored : StoredIntent) (staged : Option Bytes)
    (hcause : stored.intent.status ≠ .finalized ∨ ∃ bytes nowMs,
      call = .recordPut intentId stored.intent.ownershipScope bytes nowMs ∧
        nowMs ≥ stored.intent.expiresAt) :
    EntryStep call intentId (some stored, staged) (some (stored.mark .expired), staged)
  | finalized (stored : StoredIntent) (staged : Bytes) :
    EntryStep call intentId (some stored, some staged) (some (stored.mark .finalized), none)
  | failed (stored : StoredIntent) (staged : Option Bytes) (hcall : call = .markFailed intentId) :
    EntryStep call intentId (some stored, staged) (some (stored.mark .failed), none)
  | dropped (staged : Option Bytes) (hcall : call = .markFailed intentId) :
    EntryStep call intentId (none, staged) (none, none)

variable {stored : StoredIntent} {contentHash : String} {ref : ArtifactRef}

theorem entry_markStatus {key : String} {status : UploadIntentStatus}
    (h : store.intents.get? key = some stored) (intentId : String) :
    (store.markStatus key status).intents.get? intentId =
      if intentId = key then some (stored.mark status) else store.intents.get? intentId := by
  unfold markStatus
  rw [h]
  exact OrderedMap.get?_set _ _ _ _

theorem markStatus_storage (store : UploadFlowStore) (intentId : String)
    (status : UploadIntentStatus) : (store.markStatus intentId status).storage = store.storage := by
  unfold markStatus
  cases store.intents.get? intentId <;> rfl

/-- The checked type of an intent is one of the allowed ones. -/
theorem checkCreateIntent_mime {input : CreateUploadIntentInput} {declaredMime : String}
    {maxSize ttlMs : Int} (h : checkCreateIntent input = .ok (declaredMime, maxSize, ttlMs)) :
    declaredMime ∈ allowedUploadMimes := by
  unfold checkCreateIntent at h
  obtain ⟨-, h⟩ := check_bind_eq_ok.1 h
  obtain ⟨checked, hmime, h⟩ := bind_eq_ok.1 h
  simp only [check_bind_eq_ok] at h
  obtain ⟨-, -, -, -, -, h⟩ := h
  obtain rfl : checked = declaredMime := (Prod.mk.inj (Except.ok.inj h)).1
  unfold assertUploadMime at hmime
  simp only [check_bind_eq_ok, throwIf_eq_ok] at hmime
  obtain ⟨-, -, hallowed, hmime⟩ := hmime
  rw [← Except.ok.inj hmime]
  simpa using hallowed

theorem createIntent_cases (sha256 : Sha256 Bytes) (store : UploadFlowStore)
    (input : CreateUploadIntentInput) (nowMs : Int) :
    (∃ seq, (store.createIntent sha256 input nowMs).2 = { store with seq }) ∨
      ∃ seq key new, store.intents.get? key = none ∧ new.intent.intentId = key ∧
        new.intent.declaredMime ∈ allowedUploadMimes ∧ new.intent.status = .pending ∧
        (store.createIntent sha256 input nowMs).2 =
          { store with seq, intents := store.intents.set key new } := by
  unfold createIntent
  cases hcheck : checkCreateIntent input with
  | error fault => exact .inl ⟨store.seq, rfl⟩
  | ok checked =>
    obtain ⟨_, _, _⟩ := checked
    dsimp only
    split
    · exact .inl ⟨_, rfl⟩
    · rename_i hnew
      split
      · exact .inl ⟨_, rfl⟩
      · exact .inr ⟨_, _, _, Option.not_isSome_iff_eq_none.1 hnew, rfl,
          checkCreateIntent_mime hcheck, rfl, rfl⟩

theorem recordPut_cases (store : UploadFlowStore) (intentId callerScope : String) (bytes : Bytes)
    (nowMs : Int) : (store.recordPut intentId callerScope bytes nowMs).2 = store ∨
      ∃ stored, store.intents.get? intentId = some stored ∧
        stored.intent.ownershipScope = callerScope ∧
        (nowMs ≥ stored.intent.expiresAt ∧
            (store.recordPut intentId callerScope bytes nowMs).2 =
              store.markStatus intentId .expired ∨
          stored.intent.status ≠ .finalized ∧ stored.intent.status ≠ .expired ∧
            stored.intent.status ≠ .failed ∧ bytes.length ≤ stored.intent.maxSize ∧
            (store.recordPut intentId callerScope bytes nowMs).2 =
              { store with
                intents := store.intents.set intentId
                  { stored.mark .uploading with hasPut := true }
                storage := { store.storage with
                  staging := store.storage.staging.set intentId bytes } }) := by
  unfold recordPut
  cases hget : store.intents.get? intentId with
  | none => exact .inl rfl
  | some stored =>
    dsimp only
    cases howner : validateCrossOwnership stored.intent callerScope with
    | error fault => exact .inl rfl
    | ok _ =>
      have howner := validateCrossOwnership_ok.1 howner
      dsimp only
      by_cases hdue : nowMs ≥ stored.intent.expiresAt
      · rw [if_pos hdue]
        exact .inr ⟨stored, rfl, howner, .inl ⟨hdue, rfl⟩⟩
      rw [if_neg hdue]
      by_cases hfinalized : stored.intent.status = .finalized
      · rw [if_pos hfinalized]
        exact .inl rfl
      rw [if_neg hfinalized]
      by_cases hclosed : stored.intent.status = .expired ∨ stored.intent.status = .failed
      · rw [if_pos hclosed]
        exact .inl rfl
      rw [if_neg hclosed]
      by_cases hput : stored.hasPut
      · rw [if_pos hput]
        exact .inl rfl
      rw [if_neg hput]
      by_cases hsize : bytes.length > stored.intent.maxSize
      · rw [if_pos hsize]
        exact .inl rfl
      rw [if_neg hsize]
      unfold InMemoryUploadBlobStorage.putStaging
      split
      · exact .inl rfl
      · rename_i storage hstorage
        split at hstorage
        · exact absurd hstorage nofun
        · split at hstorage
          · exact absurd hstorage nofun
          · obtain rfl := Except.ok.inj hstorage
            exact .inr ⟨stored, rfl, howner, .inr ⟨hfinalized, fun h => hclosed (.inl h),
              fun h => hclosed (.inr h), not_lt.1 hsize, rfl⟩⟩

/-- What a call does to an intent and its staged bytes. -/
theorem entry_step (sha256 : Sha256 Bytes) (store : UploadFlowStore) (call : Call)
    (intentId : String) :
    EntryStep call intentId (store.entry intentId) ((store.perform sha256 call).entry intentId) := by
  unfold entry
  cases call with
  | createIntent input nowMs =>
    rw [perform_createIntent]
    rcases createIntent_cases sha256 store input nowMs with
      ⟨_, heq⟩ | ⟨_, key, new, hnone, hid, hmime, hstatus, heq⟩
    · rw [heq]
      exact .kept _
    · rw [heq]
      dsimp only
      rw [OrderedMap.get?_set]
      by_cases hkey : intentId = key
      · rw [if_pos hkey, hkey, hnone]
        exact .created new _ hid hmime hstatus
      · rw [if_neg hkey]
        exact .kept _
  | recordPut key callerScope bytes nowMs =>
    rw [perform_recordPut]
    rcases recordPut_cases store key callerScope bytes nowMs with
      heq | ⟨stored, hget, rfl, ⟨hdue, heq⟩ | ⟨hfinalized, hexpired, hfailed, hsize, heq⟩⟩
    · rw [heq]
      exact .kept _
    · rw [heq, markStatus_storage, entry_markStatus hget]
      by_cases hkey : intentId = key
      · rw [if_pos hkey, hkey, hget]
        exact .expired stored _ (.inr ⟨bytes, nowMs, rfl, hdue⟩)
      · rw [if_neg hkey]
        exact .kept _
    · rw [heq]
      dsimp only
      rw [OrderedMap.get?_set, OrderedMap.get?_set]
      by_cases hkey : intentId = key
      · rw [if_pos hkey, if_pos hkey, hkey, hget]
        exact .put stored _ bytes ⟨hfinalized, hexpired, hfailed⟩ hsize
      · rw [if_neg hkey, if_neg hkey]
        exact .kept _
  | completeAndFinalize key callerScope nowMs overrides =>
    have hstep := completion_step sha256 store key callerScope nowMs overrides
    rw [perform_completeAndFinalize]
    generalize store.completeAndFinalize sha256 key callerScope nowMs overrides = outcome at hstep
    cases hstep with
    | refused => exact .kept _
    | expired _ stored hget hopen =>
      dsimp only
      rw [markStatus_storage, entry_markStatus hget]
      by_cases hkey : intentId = key
      · rw [if_pos hkey, hkey, hget]
        exact .expired stored _ (.inl hopen)
      · rw [if_neg hkey]
        exact .kept _
    | unminted => exact .kept _
    | minted stored staged ref hget _ hstaged =>
      dsimp only
      rw [OrderedMap.get?_erase, entry_markStatus hget]
      by_cases hkey : intentId = key
      · rw [if_pos hkey, if_pos hkey, hkey, hget, hstaged]
        exact .finalized stored staged
      · rw [if_neg hkey, if_neg hkey]
        exact .kept _
  | markFailed key =>
    rw [perform_markFailed]
    unfold markFailed InMemoryUploadBlobStorage.deleteStaging
    dsimp only
    rw [OrderedMap.get?_erase]
    cases hget : store.intents.get? key with
    | none =>
      have hsame : store.markStatus key .failed = store := by
        unfold markStatus
        rw [hget]
      rw [hsame]
      by_cases hkey : intentId = key
      · rw [if_pos hkey, hkey, hget]
        exact .dropped _ rfl
      · rw [if_neg hkey]
        exact .kept _
    | some stored =>
      rw [entry_markStatus hget]
      by_cases hkey : intentId = key
      · rw [if_pos hkey, if_pos hkey, hkey, hget]
        exact .failed stored _ rfl
      · rw [if_neg hkey, if_neg hkey]
        exact .kept _

/-- A final object is immutable. -/
theorem final_stays {refId : String} {bytes : Bytes} (h : store.getFinalBytes refId = some bytes)
    (call : Call) : (store.perform sha256 call).getFinalBytes refId = some bytes := by
  unfold getFinalBytes InMemoryUploadBlobStorage.getFinal at h ⊢
  cases call with
  | createIntent input nowMs =>
    rw [perform_createIntent]
    rcases createIntent_cases sha256 store input nowMs with
      ⟨_, heq⟩ | ⟨_, key, _, -, -, -, -, heq⟩
    · rw [heq]
      exact h
    · rw [heq]
      exact h
  | recordPut key callerScope data nowMs =>
    rw [perform_recordPut]
    rcases recordPut_cases store key callerScope data nowMs with
      heq | ⟨stored, -, -, ⟨-, heq⟩ | ⟨-, -, -, -, heq⟩⟩
    · rw [heq]
      exact h
    · rw [heq, markStatus_storage]
      exact h
    · rw [heq]
      exact h
  | completeAndFinalize key callerScope nowMs overrides =>
    have hstep := completion_step sha256 store key callerScope nowMs overrides
    rw [perform_completeAndFinalize]
    generalize store.completeAndFinalize sha256 key callerScope nowMs overrides = outcome at hstep
    cases hstep with
    | refused => exact h
    | expired =>
      dsimp only
      rw [markStatus_storage]
      exact h
    | unminted => exact h
    | minted stored staged ref _ _ _ _ _ _ hfree =>
      dsimp only
      rw [OrderedMap.get?_set_of_ne]
      · exact h
      · -- The new reference is not taken, and this one is.
        rintro rfl
        exact absurd (h.symm.trans hfree) nofun
  | markFailed key => exact h

/-! ## What the checks say -/

theorem checkDigest_ok {expectedDigest : Option String} {error : String → Fault} :
    checkDigest expectedDigest contentHash error = .ok () ↔
      ∀ digest, expectedDigest = some digest → contentHash = digest := by
  unfold checkDigest
  cases expectedDigest with
  | none => exact ⟨fun _ => nofun, fun _ => rfl⟩
  | some expected =>
    simp only [throwIf_eq_ok, ne_eq, not_not]
    exact ⟨fun h digest heq => h.trans (Option.some.inj heq), fun h => h expected rfl⟩

theorem validateCompleteUpload_ok {req : CompleteUploadRequest} {nowMs : Int} :
    validateCompleteUpload intent req nowMs = .ok () ↔
      nowMs < intent.expiresAt ∧ (intent.status = .uploading ∨ intent.status = .pending) ∧
        req.intentId = intent.intentId ∧ req.actualSize ≤ intent.maxSize ∧
        (∀ digest, intent.expectedDigest = some digest → req.contentHash = digest) ∧
        req.sniffedMime = intent.declaredMime := by
  unfold validateCompleteUpload
  simp only [check_bind_eq_ok, throwIf_eq_ok, checkDigest_ok]
  constructor
  · rintro ⟨hdue, -, -, -, hstatus, hid, hsize, hdigest, hmime⟩
    refine ⟨by omega, ?_, not_not.1 hid, by omega, hdigest, not_not.1 hmime⟩
    by_contra hne
    exact hstatus ⟨fun h => hne (.inl h), fun h => hne (.inr h)⟩
  · rintro ⟨_, hstatus, hid, _, hdigest, hmime⟩
    refine ⟨by omega, ?_, ?_, ?_, ?_, not_not.2 hid, by omega, hdigest, not_not.2 hmime⟩
    · rcases hstatus with h | h <;> rw [h] <;> decide
    · rcases hstatus with h | h <;> rw [h] <;> decide
    · rcases hstatus with h | h <;> rw [h] <;> decide
    · rintro ⟨huploading, hpending⟩
      exact hstatus.elim huploading hpending

theorem verifyStaged_ok : verifyStaged intent staged contentHash = .ok () ↔
      checkSniffMatchesDeclared (sniffUploadMime staged) intent.declaredMime = .ok () ∧
        ∀ digest, intent.expectedDigest = some digest → contentHash = digest := by
  unfold verifyStaged
  rw [check_bind_eq_ok, checkDigest_ok]

/-- What is known of a reference that was minted. -/
theorem of_mintRef_ok {contentHash refId : String} {nowMs : Int}
    (h : mintRef intent staged contentHash refId nowMs = .ok ref) :
    ref.refId = refId ∧ ref.contentHash = contentHash ∧ ref.byteSize = staged.length := by
  unfold mintRef createArtifactRef at h
  simp only [check_bind_eq_ok] at h
  obtain ⟨-, -, -, h⟩ := h
  rw [← Except.ok.inj h]
  exact ⟨rfl, rfl, rfl⟩

theorem isPresignedUrl_of_plain {text : List Char} (h : ∀ c ∈ text, c ≠ '?' ∧ c ≠ '&') :
    isPresignedUrl text = false := by
  induction text with
  | nil => rfl
  | cons c rest ih =>
    obtain ⟨hquestion, hand⟩ := h c List.mem_cons_self
    unfold isPresignedUrl
    rw [ih fun d hd => h d (List.mem_cons_of_mem _ hd)]
    simp [hquestion, hand]

/-- A reference id made of a digest is none of the things that a reference must not be. -/
theorem validateArtifactRefId_nextRefId (sha256 : Sha256 Bytes) (store : UploadFlowStore)
    (intentId contentHash : String) :
    validateArtifactRefId (store.nextRefId sha256 intentId contentHash) = .ok () := by
  obtain ⟨digits, hdigits, htext⟩ : ∃ digits : List Char, digits.all isHexChar = true ∧
      (store.nextRefId sha256 intentId contentHash).toList = 'a' :: 'r' :: 't' :: '_' :: digits := by
    refine ⟨_, ?_, String.toList_append⟩
    unfold firstDigits
    rw [String.toList_ofList]
    exact List.all_eq_true.2 fun c hc => List.all_eq_true.1
      (sha256.isHex_chars _ (sha256.isHex_text _)) c (List.mem_of_mem_take hc)
  have hplain : ∀ c ∈ 'a' :: 'r' :: 't' :: '_' :: digits, c ≠ '?' ∧ c ≠ '&' := by
    intro c hc
    have hhex : isHexChar c = true ∨ c ∈ ['a', 'r', 't', '_'] := by
      simp only [List.mem_cons] at hc ⊢
      rcases hc with h | h | h | h | h
      · exact .inr (.inl h)
      · exact .inr (.inr (.inl h))
      · exact .inr (.inr (.inr (.inl h)))
      · exact .inr (.inr (.inr (.inr (.inl h))))
      · exact .inl (List.all_eq_true.1 hdigits c h)
    constructor <;>
    · rintro rfl
      revert hhex
      decide
  unfold validateArtifactRefId
  simp only [check_bind_eq_ok, throwIf_eq_ok, htext, isPresignedUrl_of_plain hplain]
  refine ⟨?_, ?_, fun h => (by cases h), ?_, ?_⟩
  · intro hempty
    rw [hempty] at htext
    cases htext
  · simp [isR2Key, isHexChar]
  · simp [isFilesystemPath]
  · simp [isProviderNativeId]

/-- The references of `mintRef` are those that are minted. -/
theorem mintRef_nextRefId (sha256 : Sha256 Bytes) (store : UploadFlowStore) (intent : UploadIntent)
    (staged : Bytes) (intentId contentHash : String) (nowMs : Int) :
    ∃ ref, mintRef intent staged contentHash (store.nextRefId sha256 intentId contentHash) nowMs =
      .ok ref := by
  have hvalid := validateArtifactRefId_nextRefId sha256 store intentId contentHash
  unfold mintRef createArtifactRef
  dsimp only
  rw [hvalid]
  exact ⟨_, rfl⟩

/-! ## The property -/

/-- An intent that is finalized stays finalized. -/
def FinalizedStays (sha256 : Sha256 Bytes) (store : UploadFlowStore) (call : Call) : Prop :=
  ∀ intentId intent, store.getIntent intentId = some intent → intent.status = .finalized →
    ∃ after, (store.perform sha256 call).getIntent intentId = some after ∧
      after.status = .finalized

/-- A completion without overrides of an unexpired intent of the caller, whose staged bytes have
the expected digest, succeeds exactly when the sniffed type is accepted. -/
def CompletesAccepted (sha256 : Sha256 Bytes) (store : UploadFlowStore) (call : Call) : Prop :=
  ∀ intentId callerScope nowMs intent staged,
    call = .completeAndFinalize intentId callerScope nowMs ⟨none, none⟩ →
    store.getIntent intentId = some intent → intent.status = .uploading →
    intent.ownershipScope = callerScope → nowMs < intent.expiresAt →
    store.storage.getStaging intentId = some staged →
    (∀ digest, intent.expectedDigest = some digest → hashUploadBytes sha256 staged = digest) →
      ((∃ ref, (store.completeAndFinalize sha256 intentId callerScope nowMs ⟨none, none⟩).1 =
          .ok ref) ↔
        checkSniffMatchesDeclared (sniffUploadMime staged) intent.declaredMime = .ok ())

/-- In a run of a new store: every intent mints at most one reference and stays finalized,
references are truthful about the final bytes, and completions succeed as the type check says. -/
structure MintsTruthful (sha256 : Sha256 Bytes) (calls : List Call) : Prop where
  once : ((collect (perform sha256) (minted sha256) create calls).map Prod.fst).Nodup
  finalized : Each (perform sha256) (FinalizedStays sha256) create calls
  truthful : ∀ entry ∈ collect (perform sha256) (minted sha256) create calls,
    ∃ bytes, (run (perform sha256) create calls).getFinalBytes entry.2.refId = some bytes ∧
      entry.2.contentHash = hashUploadBytes sha256 bytes ∧ entry.2.byteSize = bytes.length
  completes : Each (perform sha256) (CompletesAccepted sha256) create calls

/-- The types that `checkSniffMatchesDeclared` accepts although the names differ: containers of
Office documents, and the second name of JPEG. -/
def isAliasType (sniffed declared : String) : Bool :=
  sniffed = "application/zip" && isOoxmlMime declared ||
    sniffed = "application/x-ole-storage" && isLegacyOfficeMime declared ||
    sniffed = "image/jpeg" && declared = "image/jpg"

/-- A completion that passes every check but the comparison of types. -/
def isDue (intent : UploadIntent) (callerScope : String) (nowMs : Int) (contentHash : String) :
    Bool :=
  intent.ownershipScope = callerScope && nowMs < intent.expiresAt && intent.status = .uploading &&
    intent.expectedDigest.all fun digest => contentHash = digest

/-- The calls that keep the store truthful. -/
def orderly (sha256 : Sha256 Bytes) (store : UploadFlowStore) : Call → Bool
  | .createIntent _ _ => true
  | .recordPut intentId callerScope _ nowMs =>
    (store.intents.get? intentId).all fun stored =>
      stored.intent.ownershipScope ≠ callerScope || nowMs < stored.intent.expiresAt ||
        stored.intent.status ≠ .finalized
  | .completeAndFinalize intentId callerScope nowMs overrides =>
    (store.intents.get? intentId).all fun stored =>
      (store.storage.getStaging intentId).all fun staged =>
        let contentHash := contentHashOf sha256 staged overrides
        !isDue stored.intent callerScope nowMs contentHash ||
          contentHash = hashUploadBytes sha256 staged &&
            (overrides.contentHash.isSome || overrides.sniffedMime.isSome ||
              (sniffUploadMime staged).all (fun sniffed =>
                !isAliasType sniffed stored.intent.declaredMime) &&
              !store.storage.finals.has (store.nextRefId sha256 intentId contentHash))
  | .markFailed intentId =>
    (store.intents.get? intentId).all fun stored => stored.intent.status ≠ .finalized

/-! ## The invariant -/

/-- What is stored of an intent is consistent: it carries its own id and an allowed type, and
bytes are staged only for an intent that took them or expired since. -/
def EntryConsistent (intentId : String) (entry : Option StoredIntent × Option Bytes) : Prop :=
  (∀ stored ∈ entry.1, stored.intent.intentId = intentId ∧
    stored.intent.declaredMime ∈ allowedUploadMimes) ∧
  ∀ bytes ∈ entry.2, ∃ stored ∈ entry.1,
    (stored.intent.status = .uploading ∨ stored.intent.status = .expired) ∧
      bytes.length ≤ stored.intent.maxSize

def Consistent (store : UploadFlowStore) : Prop :=
  ∀ intentId, EntryConsistent intentId (store.entry intentId)

theorem consistent_create : Consistent create :=
  fun _ => ⟨nofun, nofun⟩

/-- A call keeps the store consistent. -/
theorem consistent_step (h : Consistent store) (call : Call) :
    Consistent (store.perform sha256 call) := by
  intro intentId
  have hbefore := h intentId
  have hstep := entry_step sha256 store call intentId
  generalize store.entry intentId = before at hbefore hstep
  generalize (store.perform sha256 call).entry intentId = after at hstep
  obtain ⟨hnamed, hstaged⟩ := hbefore
  cases hstep with
  | kept => exact ⟨hnamed, hstaged⟩
  | created new staged hid hmime hstatus =>
    refine ⟨?_, fun bytes hbytes => ?_⟩
    · rintro stored ⟨⟩
      exact ⟨hid, hmime⟩
    · obtain ⟨stored, hstored, -⟩ := hstaged bytes hbytes
      exact absurd hstored nofun
  | put stored staged bytes hopen hsize =>
    refine ⟨?_, ?_⟩
    · rintro _ ⟨⟩
      exact hnamed stored rfl
    · rintro _ ⟨⟩
      exact ⟨_, rfl, .inl rfl, hsize⟩
  | expired stored staged hcause =>
    refine ⟨?_, fun bytes hbytes => ?_⟩
    · rintro _ ⟨⟩
      exact hnamed stored rfl
    · obtain ⟨_, ⟨⟩, -, hsize⟩ := hstaged bytes hbytes
      exact ⟨_, rfl, .inr rfl, hsize⟩
  | finalized stored staged =>
    refine ⟨?_, nofun⟩
    rintro _ ⟨⟩
    exact hnamed stored rfl
  | failed stored staged =>
    refine ⟨?_, nofun⟩
    rintro _ ⟨⟩
    exact hnamed stored rfl
  | dropped => exact ⟨nofun, nofun⟩

/-! ## One call -/

/-- An intent that has ended one way or another. -/
def Ended (store : UploadFlowStore) (intentId : String) : Prop :=
  ∃ stored, store.intents.get? intentId = some stored ∧
    (stored.intent.status = .finalized ∨ stored.intent.status = .expired ∨
      stored.intent.status = .failed)

theorem ended_step (h : Ended store intentId) (call : Call) :
    Ended (store.perform sha256 call) intentId := by
  obtain ⟨stored, hget, hstatus⟩ := h
  have hstep := entry_step sha256 store call intentId
  unfold entry at hstep
  rw [hget] at hstep
  unfold Ended
  generalize store.storage.staging.get? intentId = staged at hstep
  generalize (store.perform sha256 call).intents.get? intentId = after at hstep ⊢
  generalize (store.perform sha256 call).storage.staging.get? intentId = left at hstep
  cases hstep with
  | kept => exact ⟨stored, rfl, hstatus⟩
  | put _ _ bytes hopen hsize =>
    rcases hstatus with h | h | h
    · exact absurd h hopen.1
    · exact absurd h hopen.2.1
    · exact absurd h hopen.2.2
  | expired => exact ⟨_, rfl, .inr (.inl rfl)⟩
  | finalized => exact ⟨_, rfl, .inl rfl⟩
  | failed => exact ⟨_, rfl, .inr (.inr rfl)⟩

/-- An orderly call leaves finalized intents finalized. -/
theorem finalizedStays_of_orderly (horderly : store.orderly sha256 call = true) :
    FinalizedStays sha256 store call := by
  intro intentId intent hintent hfinalized
  obtain ⟨_, hget, rfl⟩ := Option.map_eq_some_iff.1 hintent
  have hstep := entry_step sha256 store call intentId
  unfold entry at hstep
  rw [hget] at hstep
  unfold getIntent
  generalize store.storage.staging.get? intentId = staged at hstep
  generalize (store.perform sha256 call).intents.get? intentId = after at hstep ⊢
  generalize (store.perform sha256 call).storage.staging.get? intentId = left at hstep
  cases hstep with
  | kept => exact ⟨_, rfl, hfinalized⟩
  | put _ _ bytes hopen hsize => exact absurd hfinalized hopen.1
  | expired _ _ hcause =>
    rcases hcause with hopen | ⟨_, _, rfl, hdue⟩
    · exact absurd hfinalized hopen
    · unfold orderly at horderly
      simp [hget, hfinalized] at horderly
      exact absurd horderly (not_lt.2 hdue)
  | finalized => exact ⟨_, rfl, rfl⟩
  | failed _ _ hcall =>
    subst hcall
    unfold orderly at horderly
    simp [hget, hfinalized] at horderly

theorem of_minted {intentId : String} (h : (intentId, ref) ∈ store.minted sha256 call) :
    ∃ callerScope nowMs overrides, call = .completeAndFinalize intentId callerScope nowMs overrides ∧
      (store.completeAndFinalize sha256 intentId callerScope nowMs overrides).1 = .ok ref := by
  cases call with
  | completeAndFinalize key callerScope nowMs overrides =>
    unfold minted at h
    cases houtcome : (store.completeAndFinalize sha256 key callerScope nowMs overrides).1 with
    | error fault =>
      simp only [houtcome] at h
      exact absurd h List.not_mem_nil
    | ok minted =>
      simp only [houtcome, List.mem_singleton, Prod.mk.injEq] at h
      obtain ⟨rfl, rfl⟩ := h
      exact ⟨callerScope, nowMs, overrides, rfl, houtcome⟩
  | createIntent input nowMs => exact absurd h List.not_mem_nil
  | recordPut key callerScope bytes nowMs => exact absurd h List.not_mem_nil
  | markFailed key => exact absurd h List.not_mem_nil

/-- An intent that mints a reference was open, and has ended afterwards. -/
theorem minted_ends {intentId : String} (h : intentId ∈ (store.minted sha256 call).map Prod.fst) :
    ¬ Ended store intentId ∧ Ended (store.perform sha256 call) intentId := by
  obtain ⟨⟨key, _⟩, hminted, hkey⟩ := List.mem_map.1 h
  obtain rfl : key = intentId := hkey
  obtain ⟨callerScope, nowMs, overrides, rfl, hok⟩ := of_minted hminted
  rw [perform_completeAndFinalize]
  have hstep := completion_step sha256 store key callerScope nowMs overrides
  generalize store.completeAndFinalize sha256 key callerScope nowMs overrides = outcome at hok hstep
  cases hstep with
  | refused => exact absurd hok nofun
  | expired => exact absurd hok nofun
  | unminted => exact absurd hok nofun
  | minted stored staged _ hget _ _ hvalid =>
    obtain ⟨-, hopen, -⟩ := validateCompleteUpload_ok.1 hvalid
    constructor
    · rintro ⟨_, hother, hended⟩
      rw [Option.some.inj (hother.symm.trans hget)] at hended
      rcases hopen with h | h <;>
      · rw [h] at hended
        exact absurd hended (by decide)
    · refine ⟨stored.mark .finalized, ?_, .inl rfl⟩
      dsimp only
      rw [entry_markStatus hget, if_pos rfl]

/-- A reference that an orderly call mints is truthful. -/
theorem minted_truthful (hconsistent : Consistent store) (horderly : store.orderly sha256 call = true)
    {entry : String × ArtifactRef} (h : entry ∈ store.minted sha256 call) :
    ∃ bytes, (store.perform sha256 call).getFinalBytes entry.2.refId = some bytes ∧
      entry.2.contentHash = hashUploadBytes sha256 bytes ∧ entry.2.byteSize = bytes.length := by
  obtain ⟨intentId, _⟩ := entry
  obtain ⟨callerScope, nowMs, overrides, rfl, hok⟩ := of_minted h
  rw [perform_completeAndFinalize]
  have hstep := completion_step sha256 store intentId callerScope nowMs overrides
  generalize store.completeAndFinalize sha256 intentId callerScope nowMs overrides = outcome
    at hok hstep
  cases hstep with
  | refused => exact absurd hok nofun
  | expired => exact absurd hok nofun
  | unminted => exact absurd hok nofun
  | minted stored staged _ hget howner hstaged hvalid hverified href =>
    obtain rfl := Except.ok.inj hok
    obtain ⟨hrefId, hhash, hsize⟩ := of_mintRef_ok href
    obtain ⟨htime, hopen, -, -, hdigest, -⟩ := validateCompleteUpload_ok.1 hvalid
    -- Bytes are staged, so the intent is not pending any more.
    have huploading : stored.intent.status = .uploading := by
      obtain ⟨_, hother, hstatus, -⟩ := (hconsistent intentId).2 staged hstaged
      obtain rfl := Option.some.inj (hget.symm.trans hother)
      rcases hopen with h | h
      · exact h
      · rw [h] at hstatus
        exact absurd hstatus (by decide)
    have hdue : isDue stored.intent callerScope nowMs (contentHashOf sha256 staged overrides) =
        true := by
      unfold isDue
      simp only [howner, huploading, htime, decide_true, Bool.true_and, Option.all_eq_true,
        decide_eq_true_eq]
      exact hdigest
    have htrue : contentHashOf sha256 staged overrides = hashUploadBytes sha256 staged := by
      unfold orderly InMemoryUploadBlobStorage.getStaging at horderly
      simp only [hget, hstaged, Option.all_some, hdue, Bool.not_true, Bool.false_or,
        Bool.and_eq_true, decide_eq_true_eq] at horderly
      exact horderly.1
    refine ⟨staged, ?_, hhash.trans htrue, hsize⟩
    unfold getFinalBytes InMemoryUploadBlobStorage.getFinal
    dsimp only
    rw [hrefId, OrderedMap.get?_set_self]

/-- The types that are sniffed. -/
theorem sniffUploadMime_mem {data : Bytes} {sniffed : String}
    (h : sniffUploadMime data = some sniffed) :
    sniffed ∈ ["application/pdf", "image/png", "image/jpeg", "image/gif", "image/webp",
      "application/zip", "application/x-ole-storage", "application/gzip"] := by
  unfold sniffUploadMime at h
  simp only [List.mem_cons]
  repeat' split at h
  all_goals cases h <;> simp

/-- For an allowed type, a sniffed type is accepted if it is the same or an alias. -/
theorem checkSniff_iff : ∀ sniffed ∈ ["application/pdf", "image/png", "image/jpeg", "image/gif",
      "image/webp", "application/zip", "application/x-ole-storage", "application/gzip"],
    ∀ declared ∈ allowedUploadMimes,
      (checkSniffMatchesDeclared (some sniffed) declared).isOk =
        (decide (sniffed = declared) || isAliasType sniffed declared) := by
  decide +kernel

/-- A completion without overrides that is due succeeds if the sniffed type has no other name than
the declared one, and only if it is accepted. -/
theorem complete_iff (hconsistent : Consistent store) {nowMs : Int}
    (hget : store.intents.get? intentId = some stored)
    (huploading : stored.intent.status = .uploading) (htime : nowMs < stored.intent.expiresAt)
    (hstaged : store.storage.staging.get? intentId = some staged)
    (hdigest : ∀ digest, stored.intent.expectedDigest = some digest →
      hashUploadBytes sha256 staged = digest)
    (halias : ∀ sniffed, sniffUploadMime staged = some sniffed →
      isAliasType sniffed stored.intent.declaredMime = false) (hfree : store.storage.finals.get?
      (store.nextRefId sha256 intentId (hashUploadBytes sha256 staged)) = none) :
    (∃ ref, (store.completeAndFinalize sha256 intentId stored.intent.ownershipScope nowMs
        ⟨none, none⟩).1 = .ok ref) ↔
      checkSniffMatchesDeclared (sniffUploadMime staged) stored.intent.declaredMime = .ok () := by
  obtain ⟨hid, hmime⟩ := (hconsistent intentId).1 stored hget
  have hsize : staged.length ≤ stored.intent.maxSize := by
    obtain ⟨other, hother, -, hsize⟩ := (hconsistent intentId).2 staged hstaged
    rw [Option.some.inj (hget.symm.trans hother)]
    exact hsize
  constructor
  · rintro ⟨ref, hok⟩
    have hstep := completion_step sha256 store intentId stored.intent.ownershipScope nowMs
      ⟨none, none⟩
    generalize store.completeAndFinalize sha256 intentId stored.intent.ownershipScope nowMs
      ⟨none, none⟩ = outcome at hok hstep
    cases hstep with
    | refused => exact absurd hok nofun
    | expired => exact absurd hok nofun
    | unminted => exact absurd hok nofun
    | minted other bytes _ hother _ hbytes _ hverified =>
      obtain rfl := Option.some.inj (hget.symm.trans hother)
      obtain rfl := Option.some.inj (hstaged.symm.trans hbytes)
      exact (verifyStaged_ok.1 hverified).1
  · intro hsniff
    -- The comparison of names accepts: nothing is sniffed, or the declared type itself.
    have hname : (sniffUploadMime staged).getD stored.intent.declaredMime =
        stored.intent.declaredMime := by
      cases hsniffed : sniffUploadMime staged with
      | none => rfl
      | some sniffed =>
        have hcheck := checkSniff_iff sniffed (sniffUploadMime_mem hsniffed)
          stored.intent.declaredMime hmime
        rw [halias sniffed hsniffed, ← hsniffed, hsniff, Bool.or_false] at hcheck
        exact of_decide_eq_true hcheck.symm
    have hvalid : validateCompleteUpload stored.intent
        { intentId, actualSize := staged.length
          sniffedMime := (sniffUploadMime staged).getD stored.intent.declaredMime
          contentHash := hashUploadBytes sha256 staged } nowMs = .ok () :=
      validateCompleteUpload_ok.2 ⟨htime, .inl huploading, hid.symm, hsize, hdigest, hname⟩
    have hverified := verifyStaged_ok.2 ⟨hsniff, hdigest⟩
    obtain ⟨ref, href⟩ := mintRef_nextRefId sha256 store stored.intent staged intentId
      (hashUploadBytes sha256 staged) nowMs
    refine ⟨ref, ?_⟩
    have hput : store.storage.putFinal
        (store.nextRefId sha256 intentId (hashUploadBytes sha256 staged)) staged =
          .ok { store.storage with
            finals := store.storage.finals.set
              (store.nextRefId sha256 intentId (hashUploadBytes sha256 staged)) staged } := by
      unfold InMemoryUploadBlobStorage.putFinal OrderedMap.has
      rw [hfree]
      rfl
    unfold completeAndFinalize InMemoryUploadBlobStorage.getStaging contentHashOf
    simp only [hget, validateCrossOwnership_ok.2 rfl, huploading, hstaged, Option.getD_none]
    rw [if_neg (by decide)]
    have horElse : ((none : Option String).orElse fun _ => sniffUploadMime staged) =
      sniffUploadMime staged := rfl
    simp only [horElse, hvalid, hverified, href, hput]

/-- An orderly completion succeeds as the type check says. -/
theorem completesAccepted_of_orderly (hconsistent : Consistent store)
    (horderly : store.orderly sha256 call = true) : CompletesAccepted sha256 store call := by
  rintro intentId callerScope nowMs intent staged rfl hintent huploading rfl htime hstaged hdigest
  obtain ⟨stored, hget, rfl⟩ := Option.map_eq_some_iff.1 hintent
  have hstaged : store.storage.staging.get? intentId = some staged := hstaged
  have hdue : isDue stored.intent stored.intent.ownershipScope nowMs
      (contentHashOf sha256 staged ⟨none, none⟩) = true := by
    unfold isDue
    simp only [huploading, htime, decide_true, Bool.true_and, Option.all_eq_true,
      decide_eq_true_eq]
    exact hdigest
  unfold orderly InMemoryUploadBlobStorage.getStaging at horderly
  simp only [hget, hstaged, Option.all_some, hdue, Bool.not_true, Bool.false_or,
    Bool.and_eq_true, decide_eq_true_eq, Option.isSome_none, Option.all_eq_true,
    Bool.not_eq_true'] at horderly
  obtain ⟨-, halias, hfree⟩ := horderly
  have hnone : store.storage.finals.get?
      (store.nextRefId sha256 intentId (contentHashOf sha256 staged ⟨none, none⟩)) = none := by
    simpa [OrderedMap.has] using hfree
  exact complete_iff hconsistent hget huploading htime hstaged hdigest halias hnone

/-! ## Whole runs -/

/-- In every run of orderly calls the store mints truthful references. -/
theorem mints_truthful (sha256 : Sha256 Bytes) (calls : List Call)
    (horderly : Each (perform sha256) (fun store call => store.orderly sha256 call = true) create
      calls) :
    MintsTruthful sha256 calls where
  once := by
    rw [map_collect]
    refine (nodup_collect (fun _ => True) Ended (fun _ _ _ _ => trivial)
      (fun _ call _ _ _ hended => ended_step hended call) ?_
      (fun _ _ _ _ _ hminted => minted_ends hminted) horderly trivial).1
    intro store call _ _
    cases call with
    | completeAndFinalize intentId callerScope nowMs overrides =>
        unfold minted
        dsimp only
        split
        · exact List.nodup_singleton intentId
        · exact List.nodup_nil
    | _ => exact List.nodup_nil
  finalized := horderly.imp fun _ _ hcall => finalizedStays_of_orderly hcall
  truthful :=
    collect_holds Consistent
      (fun store entry => ∃ bytes, store.getFinalBytes entry.2.refId = some bytes ∧
        entry.2.contentHash = hashUploadBytes sha256 bytes ∧ entry.2.byteSize = bytes.length)
      (fun _ call hinv _ => consistent_step hinv call)
      (fun _ call _ _ _ ⟨bytes, hbytes, htrue⟩ => ⟨bytes, final_stays hbytes call, htrue⟩)
      (fun _ _ _ hinv hcall hminted => minted_truthful hinv hcall hminted) horderly
      consistent_create
  completes :=
    horderly.gives (fun _ call hinv _ => consistent_step hinv call)
      (fun _ _ hinv hcall => completesAccepted_of_orderly hinv hcall) consistent_create

/-! ## Samples -/

/-- The digests that the samples need. -/
def sampleDigests : DigestTable where
  entries := [
    ("%PDF", "315d429b7714cedb6ad04ac31240145257692630457f3c88253c5beceac76027"),
    ("\u00ff\u00d8\u00ff", "6e568e1f67fba258184c78181539e5e8fdee447e49bb706fc0ea34fbf12336a5"),
    ("i:x:2", "68ab7fcf2227b472e8a79ff6c46021c1e0cf52c99d077569e327f37297345663"),
    ("i:sha256-315d429b7714cedb6ad04ac31240145257692630457f3c88253c5beceac76027:2",
      "518eeaf1396b85747e4d2c7df5419ab298af7277410b7fb181f8834745be530b")]
  hex := by decide +kernel
  nodup := by decide +kernel

/-- The digests of the samples, for bytes that are characters. -/
def sampleSha256 : Sha256 Bytes where
  text := sampleDigests.sha256.text
  bytes bytes :=
    sampleDigests.sha256.text (String.ofList (bytes.map fun byte => Char.ofNat byte.toNat))
  isHex := sampleDigests.sha256.isHex
  isHex_text := sampleDigests.sha256.isHex_text
  isHex_bytes _ := sampleDigests.sha256.isHex_text _
  isHex_chars := sampleDigests.sha256.isHex_chars

/-- An intent of the scope `"s"` for bytes of some type, and their put. -/
def sampleUpload (declaredMime : String) (bytes : Bytes) : List Call :=
  [.createIntent
      { ownershipScope := "s", declaredMime, declaredSize := 4, maxSize := none,
        expectedDigest := none, ttlMs := none, intentId := some "i", multipart := none } 0,
    .recordPut "i" "s" bytes 1]

/-- `%PDF`. -/
def samplePdf : Bytes := [0x25, 0x50, 0x44, 0x46]

theorem mints_truthful_sample :
    MintsTruthful sampleSha256 (sampleUpload "application/pdf" samplePdf ++
      [.completeAndFinalize "i" "s" 2 ⟨none, none⟩]) :=
  mints_truthful sampleSha256 _ (by decide +kernel)

/-- A completion that states another content hash than that of the staged bytes. -/
def overriddenCalls : List Call :=
  sampleUpload "application/pdf" samplePdf ++ [.completeAndFinalize "i" "s" 2 ⟨some "x", none⟩]

/-- The first bytes of a JPEG image. -/
def sampleJpeg : Bytes := [0xff, 0xd8, 0xff]

/-- A JPEG image that is declared under the second name of the type. -/
def jpegCalls : List Call :=
  sampleUpload "image/jpg" sampleJpeg ++ [.completeAndFinalize "i" "s" 2 ⟨none, none⟩]

/-- A reference is minted for a hash that its bytes do not have, and an image whose type is
accepted cannot be completed. -/
theorem untruthful_reference :
    ¬ MintsTruthful sampleSha256 overriddenCalls ∧ ¬ MintsTruthful sampleSha256 jpegCalls := by
  constructor
  · intro h
    have hminted : ∃ entry ∈ collect (perform sampleSha256) (minted sampleSha256) create
        overriddenCalls, entry.2.contentHash = "x" := by
      decide +kernel
    obtain ⟨entry, hentry, hhash⟩ := hminted
    obtain ⟨bytes, -, htrue, -⟩ := h.truthful entry hentry
    have htext := congrArg String.toList (hhash.symm.trans htrue)
    unfold hashUploadBytes at htext
    rw [String.toList_append] at htext
    have hhead : some 'x' = some 's' := congrArg List.head? htext
    exact absurd hhead (by decide)
  · intro h
    have hcompletion := h.completes.2.2.1 "i" "s" 2
      { intentId := "i", ownershipScope := "s", declaredMime := "image/jpg", declaredSize := 4
        maxSize := maxUploadBytes, expectedDigest := none, expiresAt := uploadIntentDefaultTtlMs
        status := .uploading, multipart := false }
      sampleJpeg rfl (by decide +kernel) rfl rfl (by decide) (by decide +kernel) nofun
    obtain ⟨ref, href⟩ := hcompletion.2 (by decide +kernel)
    have hrefused : ((run (perform sampleSha256) create
        (sampleUpload "image/jpg" sampleJpeg)).completeAndFinalize sampleSha256 "i" "s" 2
          ⟨none, none⟩).1.isOk = false := by
      decide +kernel
    have hok := congrArg Except.isOk href
    exact absurd (hrefused.symm.trans hok) nofun

end UploadFlowStore

end Groundlane.UploadFlow
