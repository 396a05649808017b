import Groundlane.Durable.Versions
import Groundlane.Uploads.Service

/-!
# What every call of the upload service promises

`UploadTransition` lists what the writers of a record make of the version they read; the records
of the service are never deleted, so `uploadCycle` is the whole life of a record. `Guarantee`
adds to it when a call settles an artifact for good (right after it has deleted the blob of an
artifact that it had found revoked) and what a finalization has found when it returns a
reference.

`verified` shows that every call keeps the guarantee, whatever the other calls do meanwhile.
-/

namespace Groundlane.Uploads

open Fenced Interleaving Interleaving.System

/-- A world of calls of the service. -/
abbrev UploadWorld (B : Type) : Type := DiskWorld Answer (Call B) UploadValue B (Reply B)

/-- An event of a call of the service. -/
abbrev UploadEvent (B : Type) : Type := DiskEvent Answer (Call B) UploadValue B (Reply B)

/-- Everything that happened, newest first. -/
abbrev UploadHistory (B : Type) : Type := List (Nat × UploadEvent B)

/-! ## Transitions -/

/-- What one writer makes of the version it read. -/
inductive UploadTransition : UploadValue → UploadValue → Prop where
  | expireIntent (state : UploadIntentState) (nowMs) : state.status ≠ .expired →
    UploadTransition (.intent state) (.intent (state.expired nowMs))
  | claimIntent (state : UploadIntentState) (finalization nowMs) : state.status = .pending →
    (finalization.byteSize : Int) = state.declaredSize →
    (∀ expected, state.expectedDigest = some expected → finalization.contentHash = expected) →
    UploadTransition (.intent state) (.intent (state.finalizing finalization nowMs))
  | finalizeIntent (state : UploadIntentState) (nowMs) : state.status = .finalizing →
    UploadTransition (.intent state) (.intent (state.finalized nowMs))
  | touchIntent (state : UploadIntentState) (nowMs) : state.status = .expired →
    UploadTransition (.intent state) (.intent (state.touched nowMs))
  | expireArtifact (state : ArtifactState) (nowMs) : state.status = .active →
    UploadTransition (.artifact state) (.artifact (state.expired nowMs))
  | deleteArtifact (state : ArtifactState) (nowMs) : state.status ≠ .deleted →
    UploadTransition (.artifact state) (.artifact (state.deleted nowMs))
  | leaseCleanup (state : ArtifactState) (reason : RevocationReason) (nowMs) :
    state.status = reason.status →
    UploadTransition (.artifact state) (.artifact (state.pending reason nowMs))
  | settleArtifact (state : ArtifactState) (reason nowMs) :
    state.status = .physicalCleanupPending → state.cleanupReason = some reason →
    UploadTransition (.artifact state) (.artifact (state.settled reason nowMs))
  | touchArtifact (state : ArtifactState) (nowMs) :
    state.status = .deleted ∨ state.status = .physicalCleanupPending →
    UploadTransition (.artifact state) (.artifact (state.touched nowMs))

/-- The values that a record starts with. -/
def startsAs (key : String) : UploadValue → Prop
  | .intent state => key = intentKey state.intentId ∧ state.status = .pending ∧
    state.finalization = none
  | .artifact state => key = artifactKey state.refId ∧ state.status = .active ∧
    state.cleanupReason = none

/-- The life of a record. -/
def uploadCycle : Lifecycle UploadValue := ⟨startsAs, UploadTransition⟩

/-! ## The guarantee -/

variable {B : Type}

/-- Call `i` has deleted the blob of an artifact that it had found revoked, and has done nothing
since. -/
def Removed (i : Nat) (next : ArtifactState) (history : UploadHistory B) : Prop :=
  ∃ record state answer, Reported i record history ∧ record.value = .artifact state ∧
    state.status ≠ .active ∧ state.blobKey = next.blobKey ∧
    Latest i (.effect (.deleteIfOwner next.blobKey next.ownerId) answer) history ∧
    answer ≠ .ownerMismatch

/-- Call `i` has found the intent of a finalization bound to the bytes and has checked them
against the declaration of the intent. -/
def Bound [ByteString B] (sha256 : Sha256 B) (i : Nat) (input : FinalizeDurableUploadInput B)
    (ref : DurableSourceArtifactRef) (history : UploadHistory B) : Prop :=
  ∃ record state finalization, Reported i record history ∧
    record.key = intentKey input.intentId ∧ record.value = .intent state ∧
    state.status ≠ .pending ∧ state.finalization = some finalization ∧
    ref = finalization.artifactRef state.ownerId ∧
    finalization.contentHash = contentDigest sha256 input.bytes ∧
    (ByteString.byteLength input.bytes : Int) = state.declaredSize ∧
    input.observedMime = state.declaredMime

/-- The circumstances of every event of call `i`. -/
def Guarantee [ByteString B] (sha256 : Sha256 B) (i : Nat) (event : UploadEvent B)
    (world : UploadWorld B) : Prop :=
  Revises uploadCycle i event world.history ∧
    match event with
    | .effect (.createIfAbsent _ (.artifact _) _ expiresAt) _ => expiresAt ≠ none
    | .effect (.compareAndSwap _ _ (.artifact next) _ expiresAt) _ =>
      expiresAt = none → Removed i next world.history
    | .response (.ok (.ref ref)) => ∀ input caller,
      (i, .invoke (.finalize input caller)) ∈ world.history →
      Bound sha256 i input ref world.history
    | _ => True

variable {input : FinalizeDurableUploadInput B} {record : Record String UploadValue}

theorem Bound.mono [ByteString B] {sha256 : Sha256 B} {i : Nat} {ref : DurableSourceArtifactRef}
    {history later : UploadHistory B} (hsub : history ⊆ later)
    (h : Bound sha256 i input ref history) : Bound sha256 i input ref later := by
  obtain ⟨record, state, finalization, hreported, hrest⟩ := h
  exact ⟨record, state, finalization, hreported.mono hsub, hrest⟩

/-! ## What the decoders check -/

theorem decodeIntent_ok {current : Versioned UploadIntentState}
    (h : decodeIntent record = .ok current) :
    record.value = .intent current.state ∧ record.revision = current.revision ∧
      ((current.state.status = .finalizing ∨ current.state.status = .finalized) →
        current.state.finalization ≠ none) := by
  unfold decodeIntent at h
  split at h
  · cases h
  · rename_i state hvalue
    split at h
    · cases h
    · rename_i hcheck
      obtain rfl := Except.ok.inj h
      simp only [not_or, not_and] at hcheck
      exact ⟨hvalue, rfl, hcheck.2.2⟩

theorem decodeArtifact_ok {current : Versioned ArtifactState}
    (h : decodeArtifact record = .ok current) :
    record.value = .artifact current.state ∧ record.revision = current.revision := by
  unfold decodeArtifact at h
  split at h
  · cases h
  · rename_i state hvalue
    split at h
    · cases h
    · obtain rfl := Except.ok.inj h
      exact ⟨hvalue, rfl⟩

theorem assertArtifactCaller_ok {state : ArtifactState} {caller : DurableUploadCaller}
    (h : assertArtifactCaller state caller = .ok ()) :
    state.ownerId = caller.ownerId ∧ state.credentialBinding = caller.credentialBinding := by
  unfold assertArtifactCaller at h
  split at h
  · cases h
  · rename_i hcaller
    simpa only [ne_eq, not_or, not_not] using hcaller

theorem validateFinalBytes_ok [ByteString B] {state : UploadIntentState} {digest : String}
    (h : validateFinalBytes state input digest = .ok ()) :
    (ByteString.byteLength input.bytes : Int) = state.declaredSize ∧
      input.observedMime = state.declaredMime ∧
      ∀ expected, state.expectedDigest = some expected → digest = expected := by
  simp only [validateFinalBytes, bind, Except.bind, pure, Except.pure] at h
  split at h
  · cases h
  rename_i hsize
  split at h
  · cases h
  rename_i hmime
  split at h
  · cases h
  rename_i hdigest
  refine ⟨by simpa using hsize, by simpa using hmime, fun expected hexpected => ?_⟩
  exact (by simpa [hexpected] using hdigest : expected = digest).symm

end Groundlane.Uploads
