import Groundlane.Durable.Digest
import Groundlane.Uploads.Lifecycle

/-!
# Deleted uploads

When an artifact is deleted or has expired, its record is settled (it has no expiry any more)
after its blob was deleted, and no cleanup visits it again. The bytes stay away unless a
finalization puts them back while the record is settled, or is about to be
(`deleted_stays_deleted`). A finalization of an intent that is being finalized already puts the
bytes before it looks at the artifact; so it can put back what was deleted meanwhile
(`deleted_comes_back`).
-/

namespace Groundlane.Uploads

open Fenced Interleaving Interleaving.System

variable {B : Type}

/-- Whether the last thing that call `i` has done is to delete the blob. -/
def removedLast (i : Nat) (blobKey : String) (history : UploadHistory B) : Bool :=
  match history.find? fun entry => entry.1 == i with
  | some (_, .effect (.deleteIfOwner key _) answer) => key == blobKey && answer != .ownerMismatch
  | _ => false

/-- Whether some call has deleted the blob and not gone on yet. -/
def removedJustNow (blobKey : String) (history : UploadHistory B) : Bool :=
  history.any fun entry => removedLast entry.1 blobKey history

/-- No blob is created under the key of an artifact that is settled, or that is not active and
whose blob some call has just deleted. -/
def unrevived (_ : Nat) (event : UploadEvent B) (world : UploadWorld B) : Bool :=
  match event with
  | .effect (.putIfAbsent blobKey _ _ _) (.created _) =>
    world.state.records.records.all fun record =>
      match record.value with
      | .artifact state => state.blobKey != blobKey || (record.expiresAt.isSome &&
        (state.status == .active || !removedJustNow blobKey world.history))
      | .intent _ => true
  | _ => true

variable {history : UploadHistory B} {answer : BlobDeleteResult} {blobKey ownerId : String}

theorem removedLast_of_latest {i : Nat}
    (h : Latest i (.effect (.deleteIfOwner blobKey ownerId) answer) history)
    (hanswer : answer ≠ .ownerMismatch) : removedLast i blobKey history = true := by
  obtain ⟨newer, _, rfl, hnewer⟩ := h
  have hskip : newer.find? (fun entry => entry.1 == i) = none :=
    List.find?_eq_none.2 fun ⟨j, other⟩ hother heq => by
      obtain rfl := beq_iff_eq.1 heq
      exact hnewer other hother
  simp [removedLast, List.find?_append, hskip, hanswer]

theorem removedJustNow_of_latest {i : Nat}
    (h : Latest i (.effect (.deleteIfOwner blobKey ownerId) answer) history)
    (hanswer : answer ≠ .ownerMismatch) : removedJustNow blobKey history = true :=
  List.any_eq_true.2 ⟨_, h.mem, removedLast_of_latest h hanswer⟩

/-- Call `i` has just deleted the blob of an artifact that it had found revoked. -/
def Removing (i : Nat) (blobKey : String) (history : UploadHistory B) : Prop :=
  ∃ record state ownerId answer, Reported i record history ∧ record.value = .artifact state ∧
    state.status ≠ .active ∧ state.blobKey = blobKey ∧
    Latest i (.effect (.deleteIfOwner blobKey ownerId) answer) history ∧ answer ≠ .ownerMismatch

theorem Removed.removing {i : Nat} {next : ArtifactState} (h : Removed i next history) :
    Removing i next.blobKey history := by
  obtain ⟨record, state, answer, hreported, hvalue, hrevoked, hkey, hlatest, hanswer⟩ := h
  exact ⟨record, state, _, answer, hreported, hvalue, hrevoked, hkey, hlatest, hanswer⟩

/-- What holds throughout a run in which no blob is revived. -/
structure DeletionInvariant (world : UploadWorld B) : Prop where
  versions : Versions uploadCycle world
  removing : ∀ i blobKey, Removing i blobKey world.history → world.state.blobs blobKey = none
  settled : ∀ key record state, world.state.records.get key = some record →
    record.value = .artifact state → record.expiresAt = none →
    world.state.blobs state.blobKey = none

theorem deletionInvariant_initial :
    DeletionInvariant (initial : Config (Call B) _ _ _ _ _).toWorld where
  versions := versions_initial
  removing := by simp [Removing, Reported, initial, Config.initial]
  settled := by simp [initial, Config.initial, Disk.empty]

section Step

variable [ByteString B] {service : DurableUploadArtifactService B} {i : Nat} {event : UploadEvent B}
  {before after : UploadWorld B} {record : Record String UploadValue} {state : ArtifactState}

/-- A blob that is away stays away, unless the step is a creation that `unrevived` allows. -/
theorem blob_gone_step (hstep : (uploads service).Step i event before after)
    (hunrevived : unrevived i event before = true) {key blobKey : String}
    (hget : before.state.records.get key = some record) (hvalue : record.value = .artifact state)
    (hkey : state.blobKey = blobKey) (hgone : record.expiresAt = none ∨
      (state.status ≠ .active ∧ removedJustNow blobKey before.history = true))
    (hblob : before.state.blobs blobKey = none) : after.state.blobs blobKey = none := by
  rcases Step.blob_cases hstep blobKey with hsame | ⟨_, rfl, -, -⟩ | ⟨_, rfl, -, hafter⟩
  · exact hsame.trans hblob
  · have hallowed := List.all_eq_true.1 hunrevived record (Store.get_mem hget)
    rcases hgone with hexpiry | ⟨hrevoked, hremoved⟩
    · simp [hvalue, hkey, hexpiry] at hallowed
    · simp [hvalue, hkey, hrevoked, hremoved] at hallowed
  · exact hafter

theorem DeletionInvariant.removing_step (h : DeletionInvariant before)
    (hstep : (uploads service).Step i event before after)
    (hunrevived : unrevived i event before = true) {j : Nat} {blobKey : String}
    (hremoving : Removing j blobKey after.history) : after.state.blobs blobKey = none := by
  obtain ⟨record, state, ownerId, answer, hreported, hvalue, hrevoked, hkey, hlatest, hanswer⟩ :=
    hremoving
  by_cases hj : i = j
  · subst hj
    obtain rfl := hstep.latest_eq hlatest
    exact (Step.deleteIfOwner_answer hstep).resolve_left hanswer
  · rw [hstep.latest_iff hj] at hlatest
    have hreported : Reported j record before.history :=
      (reported_after hstep hreported).resolve_right fun ⟨heq, _⟩ => hj heq.symm
    obtain ⟨-, current, hget, -, -, hpath⟩ := h.versions.told j record hreported
    have hlater := later_of_path hpath
    rw [hvalue] at hlater
    generalize hcurrent : current.value = value at hlater
    cases hlater with
    | @artifact _ later hlater =>
      have hsame : later.blobKey = state.blobKey := by rw [hlater.identity]
      exact blob_gone_step hstep hunrevived hget hcurrent (hsame.trans hkey)
        (.inr ⟨hlater.revoked hrevoked, removedJustNow_of_latest hlatest hanswer⟩)
        (h.removing j blobKey ⟨record, state, ownerId, answer, hreported, hvalue, hrevoked, hkey,
          hlatest, hanswer⟩)

theorem DeletionInvariant.settled_step (h : DeletionInvariant before)
    (hstep : (uploads service).Step i event before after)
    (hG : Guarantee service.sha256 i event before) (hunrevived : unrevived i event before = true)
    {key : String} (hget : after.state.records.get key = some record)
    (hvalue : record.value = .artifact state) (hexpiry : record.expiresAt = none) :
    after.state.blobs state.blobKey = none := by
  rcases version_cases hstep hG.1 h.versions key with
    hsame | ⟨value, _, _, -, rfl, -, hafter⟩ |
    ⟨_, value, _, _, -, -, rfl, -, hafter⟩
  · have hbefore := hsame.symm.trans hget
    exact blob_gone_step hstep hunrevived hbefore hvalue rfl (.inl hexpiry)
      (h.settled key record state hbefore hvalue hexpiry)
  · obtain rfl := Option.some.inj (hafter.symm.trans hget)
    obtain rfl : value = .artifact state := hvalue
    exact absurd hexpiry hG.2
  · obtain rfl := Option.some.inj (hafter.symm.trans hget)
    obtain rfl : value = .artifact state := hvalue
    have hblob := h.removing i state.blobKey (hG.2 hexpiry).removing
    rcases Step.blob_cases hstep state.blobKey with hsame | ⟨_, heq, -⟩ | ⟨_, -, -, hafter⟩
    · exact hsame.trans hblob
    · cases heq
    · exact hafter

theorem deletionInvariant_step (h : DeletionInvariant before)
    (hstep : (uploads service).Step i event before after)
    (hG : Guarantee service.sha256 i event before) (hunrevived : unrevived i event before = true) :
    DeletionInvariant after where
  versions := versions_step hstep hG.1 h.versions
  removing _ _ hremoving := h.removing_step hstep hunrevived hremoving
  settled _ _ _ hget hvalue hexpiry := h.settled_step hstep hG hunrevived hget hvalue hexpiry

/-! ## Runs -/

/-- In a run in which no finalization creates the blob of an artifact that is settled, or about
to be, no blob is stored for any settled artifact: one whose record has no expiry, whatever its
status. -/
theorem deleted_stays_deleted (service : DurableUploadArtifactService B)
    (actions : List (Action (Call B) (Oracle Answer)))
    (hunrevived : (uploads service).Meets (fun i event world => unrevived i event world = true)
      initial actions)
    (refId : String) (record : Record String UploadValue) (state : ArtifactState)
    (hget : ((uploads service).run initial actions).state.records.get (artifactKey refId) =
      some record)
    (hvalue : record.value = .artifact state)
    (hexpiry : record.expiresAt = none) :
    ((uploads service).run initial actions).state.blobs state.blobKey = none :=
  ((ready service).preserves (verified service) hunrevived (P := DeletionInvariant)
    (fun _ _ _ _ _ _ hstep hG hmeets h => deletionInvariant_step h hstep hG hmeets)
    deletionInvariant_initial).settled _ _ _ hget hvalue hexpiry

end Step

/-! ## Samples -/

/-- The digests that the samples need. -/
def sampleDigests : DigestTable where
  entries := [
    ("o\x00c\x00k", "b76767be9b2f48ec2d1cdd1fede5d5198b6c9303b8fe27f589c076968ed85ea7"),
    ("\x7b\"declaredMime\":\"a/b\",\"declaredSize\":3,\"filename\":\"f\"," ++
        "\"expectedDigest\":null,\"uploadTtlMs\":900000,\"artifactTtlMs\":86400000\x7d",
      "7bd4f1c1d5e68a4a53779dd1f0d6f9eca0b2efd74e5f83f779b72b637b7a93e9"),
    ("one", "7692c3ad3540bb803c020b3aee66cd8887123234ea0c6e7143c0add73ff431ed"),
    ("upl_b76767be9b2f48ec2d1cdd1fede5d5198b6c9303\x00" ++
        "sha256-7692c3ad3540bb803c020b3aee66cd8887123234ea0c6e7143c0add73ff431ed",
      "915ea1b66b787c9edc061a43ebaf5fddca69f90d9b7650cdca12505191835e4e"),
    ("o\x00c\x00art_915ea1b66b787c9edc061a43ebaf5fddca69f90d\x00" ++
        "sha256-7692c3ad3540bb803c020b3aee66cd8887123234ea0c6e7143c0add73ff431ed",
      "ae202c44ba99dc9b7ac00e01474d56e3025fedfaf4c46ac68413d8fbbd189171")]
  hex := by decide +kernel
  nodup := by decide +kernel

/-- A service with the default retention policy. -/
def sampleService : DurableUploadArtifactService String where
  sha256 := sampleDigests.sha256
  retention := ⟨⟨900, 60, 3600⟩, ⟨86400, 60, 2592000⟩⟩
  hasRevocations := false

def sampleCaller : DurableUploadCaller := ⟨"o", "c"⟩

/-- An intent to upload three bytes. -/
def sampleIntent : CreateDurableUploadIntentInput where
  idempotencyKey := "k"
  declaredMime := "a/b"
  declaredSize := 3
  filename := "f"
  expectedDigest := none
  uploadTtlMs := none
  artifactTtlMs := none
  nowMs := 1000

/-- The upload of these bytes. -/
def sampleUpload : FinalizeDurableUploadInput String where
  intentId := "upl_b76767be9b2f48ec2d1cdd1fede5d5198b6c9303"
  bytes := "one"
  observedMime := "a/b"
  nowMs := 2000

def sampleRefId : String := "art_915ea1b66b787c9edc061a43ebaf5fddca69f90d"

/-- Call `i` takes `count` steps. -/
def sampleSteps (i count : Nat) : List (Action (Call String) (Oracle Answer)) :=
  .replicate count (.advance i ⟨fun | .revoke _ => .ok (), true⟩)

/-- An upload is finalized, while a second finalization has read the intent, and deleted. -/
def sampleDeleted : List (Action (Call String) (Oracle Answer)) :=
  .invoke (.createIntent sampleIntent sampleCaller) :: sampleSteps 0 2 ++
    .invoke (.finalize sampleUpload sampleCaller) :: sampleSteps 1 2 ++
    .invoke (.finalize sampleUpload sampleCaller) :: sampleSteps 2 1 ++ sampleSteps 1 4 ++
    .invoke (.deleteArtifact sampleRefId sampleCaller 3000) :: sampleSteps 3 5

/-- Whether the record of the sample artifact is a settled, deleted one. -/
def sampleSettled (world : UploadWorld String) : Bool :=
  (world.state.records.get (artifactKey sampleRefId)).any fun record =>
    record.expiresAt == none &&
      match record.value with
      | .artifact state => state.status == .deleted
      | .intent _ => false

/-- Whether the bytes of the sample artifact are stored. -/
def sampleStored (world : UploadWorld String) : Bool :=
  (world.state.records.get (artifactKey sampleRefId)).any fun record =>
    match record.value with
    | .artifact state => (world.state.blobs state.blobKey).isSome
    | .intent _ => false

theorem sampleSettled_iff {world : UploadWorld String} (h : sampleSettled world = true) :
    ∃ record state, world.state.records.get (artifactKey sampleRefId) = some record ∧
      record.value = .artifact state ∧ state.status = .deleted ∧ record.expiresAt = none := by
  obtain ⟨record, hget, hsettled⟩ := (Option.any_eq_true _ _).1 h
  rw [Bool.and_eq_true, beq_iff_eq] at hsettled
  obtain ⟨hexpiry, hstatus⟩ := hsettled
  split at hstatus
  · rename_i state hvalue
    exact ⟨record, state, hget, hvalue, beq_iff_eq.1 hstatus, hexpiry⟩
  · cases hstatus

/-- The artifact is settled when its deletion ends, and so it is when the second finalization
has put the bytes back. -/
theorem sample_runs :
    ((uploads sampleService).checks unrevived initial sampleDeleted &&
      sampleSettled ((uploads sampleService).run initial sampleDeleted).toWorld &&
      let revived := (uploads sampleService).run
        ((uploads sampleService).run initial sampleDeleted) (sampleSteps 2 3)
      revived.threads.all (fun thread => thread.program.isNone) &&
        sampleSettled revived.toWorld && sampleStored revived.toWorld) = true := by
  decide +kernel

/-- The bytes of the deleted upload are gone. -/
theorem deleted_stays_deleted_sample : ∃ record state,
    ((uploads sampleService).run initial sampleDeleted).state.records.get
        (artifactKey sampleRefId) = some record ∧
      record.value = .artifact state ∧ state.status = .deleted ∧ record.expiresAt = none ∧
      ((uploads sampleService).run initial sampleDeleted).state.blobs state.blobKey = none := by
  obtain ⟨⟨hchecks, hsettled⟩, -⟩ : (_ ∧ _) ∧ _ := by
    simpa only [Bool.and_eq_true] using sample_runs
  obtain ⟨record, state, hget, hvalue, hstatus, hexpiry⟩ := sampleSettled_iff hsettled
  exact ⟨record, state, hget, hvalue, hstatus, hexpiry, deleted_stays_deleted sampleService
    sampleDeleted (System.meets_of_checks hchecks) sampleRefId record state hget hvalue hexpiry⟩

/-- After all calls have finished, the record of the artifact is settled as a deleted one, and
its bytes are stored. -/
theorem deleted_comes_back : ¬ ∀ service : DurableUploadArtifactService String,
    Function.Injective service.sha256.text →
    ∀ (actions : List (Action (Call String) (Oracle Answer))) (refId : String)
      (record : Record String UploadValue) (state : ArtifactState),
      (∀ thread ∈ ((uploads service).run initial actions).threads, thread.program = none) →
      ((uploads service).run initial actions).state.records.get (artifactKey refId) =
        some record →
      record.value = .artifact state → state.status = .deleted ∨ state.status = .expired →
      record.expiresAt = none →
      ((uploads service).run initial actions).state.blobs state.blobKey = none := by
  intro h
  obtain ⟨-, ⟨hfinished, hsettled⟩, hstored⟩ : _ ∧ (_ ∧ _) ∧ _ := by
    simpa only [Bool.and_eq_true, List.all_eq_true, Option.isNone_iff_eq_none,
      ← System.run_append] using sample_runs
  obtain ⟨record, state, hget, hvalue, hstatus, hexpiry⟩ := sampleSettled_iff hsettled
  have hgone := h sampleService sampleDigests.sha256_injective (sampleDeleted ++ sampleSteps 2 3)
    sampleRefId record state hfinished hget hvalue (.inl hstatus) hexpiry
  simp [sampleStored, hget, hvalue, hgone] at hstored

end Groundlane.Uploads
