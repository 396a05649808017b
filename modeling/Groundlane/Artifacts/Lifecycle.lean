import Groundlane.Artifacts.Verified
import Groundlane.Durable.Digest

/-!
# The life of an artifact record

What holds of the stored record of an artifact from its creation to its deletion, over whole
runs of the repository: its status only moves towards physical cleanup, and what it says about
the bytes and their owner is fixed (`revocation_final`). A writer swaps by revision alone, and
revisions start again at one when a record is deleted and created anew; so this is said of runs
in which no writer swaps such a new record for what it has made of the old one
(`revocation_undone` shows what happens otherwise). A read that returns bytes has seen the same
verified record before and after it read them, in every run.
-/

namespace Groundlane.Artifacts

open Fenced Interleaving

variable {B : Type}

/-- No calls yet, and nothing stored. -/
def initial : Config (Call B) (Op ArtifactValue B Request) (Op.Res Answer) Fault (Reply B)
    (Disk ArtifactValue B) :=
  Config.initial Disk.empty

theorem ready [ByteString B] (sha256 : Sha256 B) :
    Ready (repository sha256) (Guarantee sha256) (fun _ => True) initial :=
  ready_initial trivial

/-! ## A sample repository -/

/-- The digests that the samples need. -/
def sampleDigests : DigestTable where
  entries := [
    ("b", "3e23e8160039594a33894f6564e1b1348bbd7a0088d42c4acb73eeaed59c009d"),
    ("one", "7692c3ad3540bb803c020b3aee66cd8887123234ea0c6e7143c0add73ff431ed"),
    ("two", "3fc4ccfe745870e2c0d99f71f30ff0656c8dedd41cc1d7d3d376b0dbe685e2f3"),
    ("t\x00o\x003e23e8160039594a33894f6564e1b1348bbd7a0088d42c4acb73eeaed59c009d",
      "7f3f6160e92fe0a3939834c84871c049dc3969009dcf8f4ab912bac238d9be79"),
    ("t\x00o\x003e23e8160039594a33894f6564e1b1348bbd7a0088d42c4acb73eeaed59c009d\x00r\x00" ++
        "sha256-7692c3ad3540bb803c020b3aee66cd8887123234ea0c6e7143c0add73ff431ed",
      "4a6e3da41dfa23aa747545a22498530e8206f6b6a30def44b1ce16b534cddd1a"),
    ("t\x00o\x003e23e8160039594a33894f6564e1b1348bbd7a0088d42c4acb73eeaed59c009d\x00r\x00" ++
        "sha256-3fc4ccfe745870e2c0d99f71f30ff0656c8dedd41cc1d7d3d376b0dbe685e2f3",
      "5fbdc53a69a218d9f0bd450309b5cac36fa0391b526985a104efab011497ba21")]
  hex := by decide +kernel
  nodup := by decide +kernel

def sampleCaller : DurableArtifactCaller := ⟨"t", "o", "b"⟩

/-- A put of the artifact `r`. -/
def samplePut (bytes contentHash : String) (nowMs expiresAt : Int) :
    PutDurableArtifactInput String where
  refId := "r"
  tenantId := "t"
  ownerId := "o"
  credentialBinding := "b"
  contentHash := contentHash
  expiresAt := expiresAt
  retentionPolicy := "p"
  deletionPolicy := .onExpiry
  bytes := bytes
  verification := .pending
  details := .source "text/plain" "f"
  nowMs := nowMs

def putOne : PutDurableArtifactInput String :=
  samplePut "one" "sha256-7692c3ad3540bb803c020b3aee66cd8887123234ea0c6e7143c0add73ff431ed" 1000
    2000

def putTwo : PutDurableArtifactInput String :=
  samplePut "two" "sha256-3fc4ccfe745870e2c0d99f71f30ff0656c8dedd41cc1d7d3d376b0dbe685e2f3" 4000
    9000

/-- Call `i` takes `count` steps. -/
def sampleSteps (i count : Nat) : List (Action (Call String) (Oracle Answer)) :=
  .replicate count (.advance i ⟨fun | .randomUUID => "0", true⟩)

/-- A put runs to its end. -/
def samplePutOne : List (Action (Call String) (Oracle Answer)) :=
  .invoke (.put putOne) :: sampleSteps 0 3

/-- `expireDue` has found the expired artifact when a sweep removes it, and the artifact is put
anew. -/
def sampleReplaced : List (Action (Call String) (Oracle Answer)) :=
  samplePutOne ++ .invoke (.expireDue 3000 none 10) :: sampleSteps 1 1 ++
    .invoke (.sweepExpired 3000 none 10) :: sampleSteps 2 6 ++
    .invoke (.put putTwo) :: sampleSteps 3 3

/-! ## Reads -/

variable {sha256 : Sha256 B}

/-- The effects of a call that has read `bytes` between two reads of the record: at the second
one the record was active, verified and the caller's, its revision was that of the first one,
and the bytes have its digest. -/
def ReadBetween (sha256 : Sha256 B) (refId : String) (caller : DurableArtifactCaller) (bytes : B)
    (effects : List (Σ op : Op ArtifactValue B Request, op.Res Answer)) : Prop :=
  ∃ first last metadata blobKey ownerId contentHash maxBytes,
    effects = [⟨.get (artifactKey refId), some first⟩,
      ⟨.getBlob blobKey ownerId contentHash maxBytes, .ok (some bytes)⟩,
      ⟨.get (artifactKey refId), some last⟩] ∧
    last.value = .metadata metadata ∧ last.revision = first.revision ∧
    metadata.status = .active ∧ metadata.verification = .verified ∧
    metadata.tenantId = caller.tenantId ∧ metadata.ownerId = caller.ownerId ∧
    metadata.credentialBindingHash = credentialBindingHash sha256 caller.credentialBinding ∧
    digest sha256 bytes = metadata.contentHash

variable {effects : List (Σ op : Op ArtifactValue B Request, op.Res Answer)} {refId : String}
  {caller : DurableArtifactCaller} {metadata : StoredDurableArtifactMetadata}

theorem assertOwner_ok (h : assertOwner sha256 metadata caller = .ok ()) :
    metadata.tenantId = caller.tenantId ∧ metadata.ownerId = caller.ownerId ∧
      metadata.credentialBindingHash = credentialBindingHash sha256 caller.credentialBinding := by
  simp only [assertOwner, bind, Except.bind] at h
  split at h
  · cases h
  · split at h
    · cases h
    · rename_i howner
      simp only [ne_eq, not_or, not_not] at howner
      exact ⟨howner.2.1, howner.1, howner.2.2⟩

/-- What a read of a record has found. -/
theorem getStored_path {result : Option StoredDurableArtifactRecord}
    (h : Program.Path (getStored sha256 refId) effects (.done result)) :
    ∃ answer, effects = [⟨.get (artifactKey refId), answer⟩] ∧
      ∀ current, result = some current →
        ∃ record, answer = some record ∧ decode sha256 record = .ok current := by
  obtain ⟨_, hkey, h⟩ := h.check
  obtain rfl := metadataKey_ok hkey
  obtain ⟨_, _, answer, rfl, hget, hrest⟩ := h.bind_done
  obtain rfl := path_get hget
  cases answer with
  | none =>
    obtain ⟨rfl, heq⟩ := Program.path_done_iff.1 hrest
    cases heq
    exact ⟨none, rfl, by simp⟩
  | some record =>
    obtain ⟨_, hdecode, hend⟩ := hrest.check
    obtain ⟨rfl, heq⟩ := Program.path_done_iff.1 hend
    cases heq
    refine ⟨some record, rfl, ?_⟩
    rintro _ ⟨⟩
    exact ⟨record, rfl, hdecode⟩

section Read

variable [ByteString B]

theorem recheck_path {maxBytes : Int} {current : StoredDurableArtifactRecord} {bytes result : B}
    (h : Program.Path (recheck sha256 refId caller maxBytes current bytes) effects (.done result)) :
    ∃ record latest, effects = [⟨.get (artifactKey refId), some record⟩] ∧ result = bytes ∧
      decode sha256 record = .ok latest ∧ assertOwner sha256 latest.metadata caller = .ok () ∧
      latest.revision = current.revision ∧ latest.metadata.status = .active ∧
      latest.metadata.verification = .verified ∧
      digest sha256 bytes = latest.metadata.contentHash := by
  obtain ⟨_, _, latest, rfl, hread, hrest⟩ := h.bind_done
  obtain ⟨_, rfl, hfound⟩ := getStored_path hread
  cases latest with
  | none => exact absurd hrest Program.not_path_raise
  | some latest =>
    obtain ⟨record, rfl, hdecode⟩ := hfound latest rfl
    obtain ⟨_, howner, hchecks⟩ := hrest.check
    split at hchecks
    · exact absurd hchecks Program.not_path_raise
    · split at hchecks
      · exact absurd hchecks Program.not_path_raise
      · rename_i hstate hbytes
        obtain ⟨rfl, heq⟩ := Program.path_done_iff.1 hchecks
        cases heq
        simp only [ne_eq, not_or, not_not] at hstate hbytes
        exact ⟨record, latest, rfl, rfl, hdecode, howner, hstate.1, hstate.2.1, hstate.2.2,
          hbytes.2.2⟩

/-- The effects of a call of `readVerified` that has returned. -/
theorem readVerified_path {nowMs maxBytes : Int} {bytes : B}
    (h : Program.Path (readVerified sha256 refId caller nowMs maxBytes) effects (.done bytes)) :
    ReadBetween sha256 refId caller bytes effects := by
  obtain ⟨_, _, current, rfl, hread, hrest⟩ := h.bind_done
  obtain ⟨_, rfl, hfound⟩ := getStored_path hread
  cases current with
  | none => exact absurd hrest Program.not_path_raise
  | some current =>
    obtain ⟨record, rfl, hdecode⟩ := hfound current rfl
    obtain ⟨_, -, hchecks⟩ := hrest.check
    split at hchecks
    · -- The record has expired: whatever is still done, an error follows.
      split at hchecks
      · obtain ⟨_, _, _, _, _, hraise⟩ := hchecks.bind_done
        exact absurd hraise Program.not_path_raise
      · exact absurd hchecks Program.not_path_raise
    · split at hchecks
      · exact absurd hchecks Program.not_path_raise
      · split at hchecks
        · exact absurd hchecks Program.not_path_raise
        · obtain ⟨_, _, found, rfl, hblob, hend⟩ := hchecks.bind_done
          obtain rfl := path_getBlob hblob
          cases found with
          | none => exact absurd hend Program.not_path_raise
          | some found =>
            obtain ⟨last, latest, rfl, rfl, hdecodeLast, howner, hrevision, hactive, hverified,
              hdigest⟩ := recheck_path hend
            obtain ⟨hvalue, hlast, -⟩ := decode_ok hdecodeLast
            obtain ⟨-, hfirst, -⟩ := decode_ok hdecode
            obtain ⟨htenant, howner, hcredential⟩ := assertOwner_ok howner
            exact ⟨record, last, latest.metadata, _, _, _, _, rfl, hvalue,
              hlast.trans (hrevision.trans hfirst.symm), hactive, hverified, htenant, howner,
              hcredential, hdigest⟩

end Read

/-! ## Later versions of a record -/

/-- Whether a record may have the second status after it had the first. -/
def DurableArtifactStatus.moves : DurableArtifactStatus → DurableArtifactStatus → Bool
  | active, _ => true
  | logicallyExpired, next => next == logicallyExpired || next == physicalCleanupPending
  | logicallyDeleted, next => next == logicallyDeleted || next == physicalCleanupPending
  | physicalCleanupPending, next => next == physicalCleanupPending

/-- What a record says about the bytes and their owner. -/
structure ArtifactIdentity where
  tenantId : String
  ownerId : String
  credentialBindingHash : String
  contentHash : String
  byteSize : Nat
  blobKey : String
deriving DecidableEq

def StoredDurableArtifactMetadata.identity (metadata : StoredDurableArtifactMetadata) :
    ArtifactIdentity where
  tenantId := metadata.tenantId
  ownerId := metadata.ownerId
  credentialBindingHash := metadata.credentialBindingHash
  contentHash := metadata.contentHash
  byteSize := metadata.byteSize
  blobKey := metadata.blobKey

/-- `next` is what a record with `metadata` may have become. -/
structure Continues (metadata next : StoredDurableArtifactMetadata) : Prop where
  moves : metadata.status.moves next.status = true
  verified : metadata.verification = .verified → next.verification = .verified
  identity : next.identity = metadata.identity

theorem DurableArtifactStatus.moves_trans {first second third : DurableArtifactStatus}
    (h : first.moves second = true) (h' : second.moves third = true) :
    first.moves third = true := by
  revert h h'
  cases first <;> cases second <;> cases third <;> decide

theorem Continues.refl (metadata : StoredDurableArtifactMetadata) :
    Continues metadata metadata where
  moves := by cases h : metadata.status <;> rfl
  verified := id
  identity := rfl

theorem Continues.trans {first second third : StoredDurableArtifactMetadata}
    (h : Continues first second) (h' : Continues second third) : Continues first third where
  moves := DurableArtifactStatus.moves_trans h.moves h'.moves
  verified hverified := h'.verified (h.verified hverified)
  identity := h'.identity.trans h.identity

/-- Every writer continues what it has read. -/
theorem ArtifactTransition.continues {metadata next : StoredDurableArtifactMetadata}
    (h : ArtifactTransition metadata next) : Continues metadata next := by
  cases h with
  | markedVerified nowMs hactive => exact ⟨by rw [hactive]; rfl, fun _ => rfl, rfl⟩
  | expired nowMs hactive => exact ⟨by rw [hactive]; rfl, id, rfl⟩
  | deleted nowMs hactive => exact ⟨by rw [hactive]; rfl, id, rfl⟩
  | cleanupPending nowMs hrevoked =>
    refine ⟨?_, id, rfl⟩
    rcases hrevoked with hstatus | hstatus <;> rw [hstatus] <;> rfl
  | swept nowMs hstatus =>
    refine ⟨?_, id, rfl⟩
    cases h : metadata.status <;> rfl

/-! ## Records that were replaced -/

/-- Every record that call `i` has read. -/
def recordsRead (i : Nat) (history : ArtifactHistory B) : List (Record String ArtifactValue) :=
  history.flatMap fun
    | (j, .effect (.get _) answer) => if j = i then answer.toList else []
    | (j, .effect (.scanExpired ..) page) => if j = i then page.1 else []
    | _ => []

theorem Found.mem_recordsRead {i : Nat} {record : Record String ArtifactValue}
    {history : ArtifactHistory B} (h : Found i record history) :
    record ∈ recordsRead i history := by
  rw [recordsRead, List.mem_flatMap]
  rcases h with ⟨_, hmem⟩ | ⟨_, _, _, _, hmem, hpage⟩
  · exact ⟨_, hmem, by simp⟩
  · exact ⟨_, hmem, by simpa using hpage⟩

/-- Whether two values have the same identity, status and verification. -/
def agree : ArtifactValue → ArtifactValue → Bool
  | .metadata left, .metadata right =>
    left.identity == right.identity && left.status == right.status &&
      left.verification == right.verification
  | left, right => left == right

/-- A swap that succeeds meets what its call has read at that revision, not a record that was
created anew since. -/
def unreplaced (i : Nat) (event : ArtifactEvent B) (world : ArtifactWorld B) : Bool :=
  match event with
  | .effect (.compareAndSwap key revision (.metadata _) _ _) _ =>
    (world.state.records.get key).all fun stored =>
      stored.revision != revision ||
        (recordsRead i world.history).all fun read =>
          read.key != key || read.revision != revision || agree read.value stored.value
  | _ => true

/-- The record under `key` is not deleted. -/
def retained (key : String) (_ : Nat) (event : ArtifactEvent B) (_ : ArtifactWorld B) : Bool :=
  match event with
  | .effect (.deleteIfRevision other _) .deleted => other != key
  | _ => true

/-- What continues a record continues one that agrees with it. -/
theorem Continues.of_agree {read stored next : StoredDurableArtifactMetadata}
    (h : Continues read next) (hagree : agree (.metadata read) (.metadata stored) = true) :
    Continues stored next := by
  simp only [agree, Bool.and_eq_true, beq_iff_eq] at hagree
  obtain ⟨⟨hidentity, hstatus⟩, hverification⟩ := hagree
  exact ⟨hstatus ▸ h.moves, hverification ▸ h.verified, h.identity.trans hidentity⟩

/-- The metadata that is stored for an artifact. -/
def storedMetadata (refId : String) (world : ArtifactWorld B) :
    Option StoredDurableArtifactMetadata :=
  match world.state.records.get (artifactKey refId) with
  | some ⟨_, .metadata metadata, _, _, _, _⟩ => some metadata
  | _ => none

theorem storedMetadata_eq {world : ArtifactWorld B} : storedMetadata refId world = some metadata ↔
      ∃ record, world.state.records.get (artifactKey refId) = some record ∧
        record.value = .metadata metadata := by
  unfold storedMetadata
  split
  · rename_i hget
    simp [hget]
  · rename_i hother
    simp only [reduceCtorEq, false_iff, not_exists, not_and]
    rintro ⟨key, value, revision, createdAt, updatedAt, expiresAt⟩ hget rfl
    exact hother _ _ _ _ _ _ hget

variable [ByteString B]

/-- One step leads from a version of a record to a later one. -/
theorem continues_step {i : Nat} {event : ArtifactEvent B} {before after : ArtifactWorld B}
    (hstep : (repository sha256).Step i event before after) (hG : Guarantee sha256 i event before)
    (hunreplaced : unreplaced i event before = true)
    (hkept : retained (artifactKey refId) i event before = true)
    {first : StoredDurableArtifactMetadata}
    (h : ∃ metadata, storedMetadata refId before = some metadata ∧ Continues first metadata) :
    ∃ metadata, storedMetadata refId after = some metadata ∧ Continues first metadata := by
  obtain ⟨metadata, hstored, hcontinues⟩ := h
  obtain ⟨record, hget, hvalue⟩ := storedMetadata_eq.1 hstored
  rcases artifact_cases hstep hG refId with
    hsame | ⟨_, _, _, _, _, _, hnone, _⟩ |
    ⟨_, read, next, _, _, -, ⟨found, hfound, hkey, hread, hfoundRevision⟩,
      hrefId, hrevision, htransition, hbefore, rfl, hafter⟩ | ⟨_, -, rfl, -⟩
  · exact ⟨metadata, storedMetadata_eq.2 ⟨record, hsame.trans hget, hvalue⟩, hcontinues⟩
  · simp [hnone] at hget
  · obtain rfl := Option.some.inj (hbefore.symm.trans hget)
    have hagree : agree (.metadata read.metadata) (.metadata metadata) = true := by
      simp only [unreplaced, hbefore, Option.all_some, Bool.or_eq_true, bne_iff_ne, ne_eq,
        not_true_eq_false, false_or, List.all_eq_true] at hunreplaced
      have := hunreplaced found hfound.mem_recordsRead
      simpa [hkey, hrefId, hfoundRevision, hrevision, hread, hvalue] using this
    exact ⟨next, storedMetadata_eq.2 ⟨_, hafter, rfl⟩,
      hcontinues.trans (htransition.continues.of_agree hagree)⟩
  · simp [retained] at hkept

/-- From its creation to its deletion, the record of an artifact only moves towards physical
cleanup, and what it says about the bytes and their owner is fixed, when every swap meets what
its call has read and not a record that was created anew since. And, in every run, a call of
`readVerified` that has returned bytes has seen the same verified record before and after it
read them. -/
theorem revocation_final (sha256 : Sha256 B)
    (actions later : List (Action (Call B) (Oracle Answer))) (refId : String)
    (metadata : StoredDurableArtifactMetadata)
    (hstored : storedMetadata refId ((repository sha256).run initial actions).toWorld =
      some metadata)
    (hunreplaced : (repository sha256).Meets
      (fun i event world => unreplaced i event world = true)
      ((repository sha256).run initial actions) later)
    (hkept : (repository sha256).Meets
      (fun i event world => retained (artifactKey refId) i event world = true)
      ((repository sha256).run initial actions) later) :
    (∃ metadata', storedMetadata refId
        ((repository sha256).run initial (actions ++ later)).toWorld = some metadata' ∧
      Continues metadata metadata') ∧
    ∀ i other caller nowMs maxBytes bytes,
      (i, .invoke (.readVerified other caller nowMs maxBytes)) ∈
        ((repository sha256).run initial (actions ++ later)).history →
      (i, .response (.ok (.bytes bytes))) ∈
        ((repository sha256).run initial (actions ++ later)).history →
      ReadBetween sha256 other caller bytes
        (effectsOf i ((repository sha256).run initial (actions ++ later)).history) := by
  constructor
  · rw [System.run_append]
    exact ((ready sha256).run (verified sha256) actions).preserves (verified sha256)
      (hunreplaced.and hkept)
      (P := fun world => ∃ metadata', storedMetadata refId world = some metadata' ∧
        Continues metadata metadata')
      (fun i event before after _ _ hstep hG hmeets h =>
        continues_step hstep hG hmeets.1 hmeets.2 h)
      ⟨metadata, hstored, .refl metadata⟩
  · intro i other caller nowMs maxBytes bytes hcall hreturn
    have hpath := ((ready sha256).run (verified sha256) (actions ++ later)).consistent.returned
      hcall hreturn
    obtain ⟨effects, rest, found, heffects, hread, hend⟩ := hpath.bind_done
    obtain ⟨rfl, heq⟩ := Program.path_done_iff.1 hend
    cases heq
    rw [heffects, List.append_nil]
    exact readVerified_path hread

/-- A put artifact is marked as verified. -/
theorem revocation_final_sample :
    ∃ metadata metadata', storedMetadata "r" ((repository sampleDigests.sha256).run initial
        (samplePutOne ++ .invoke (.markVerified "r" sampleCaller 1 1500) ::
          sampleSteps 1 4)).toWorld = some metadata' ∧
      metadata.verification = .pending ∧ Continues metadata metadata' := by
  have hrun : ((storedMetadata "r"
        ((repository sampleDigests.sha256).run initial samplePutOne).toWorld).any
        (fun metadata => metadata.verification == .pending) &&
      (repository sampleDigests.sha256).checks
        (fun i event world => unreplaced i event world && retained (artifactKey "r") i event world)
        ((repository sampleDigests.sha256).run initial samplePutOne)
        (.invoke (.markVerified "r" sampleCaller 1 1500) :: sampleSteps 1 4)) = true := by
    decide +kernel
  rw [Bool.and_eq_true, Option.any_eq_true] at hrun
  obtain ⟨⟨metadata, hstored, hpending⟩, hchecks⟩ := hrun
  have hmeets := System.meets_of_checks hchecks
  obtain ⟨⟨metadata', hstored', hcontinues⟩, -⟩ := revocation_final sampleDigests.sha256
    samplePutOne (.invoke (.markVerified "r" sampleCaller 1 1500) :: sampleSteps 1 4) "r" metadata
    hstored (hmeets.mono fun _ _ _ h => ((Bool.and_eq_true _ _).mp h).1)
    (hmeets.mono fun _ _ _ h => ((Bool.and_eq_true _ _).mp h).2)
  exact ⟨metadata, metadata', hstored', beq_iff_eq.1 hpending, hcontinues⟩

/-- The record of an artifact that was put anew is swapped for an expired version of the old
one: what it says about the bytes changes, though it was not deleted in between. -/
theorem revocation_undone : ¬ ∀ sha256 : Sha256 String, Function.Injective sha256.text →
    ∀ (actions later : List (Action (Call String) (Oracle Answer))) (refId : String)
      (metadata : StoredDurableArtifactMetadata),
      storedMetadata refId ((repository sha256).run initial actions).toWorld = some metadata →
      (repository sha256).Meets
        (fun i event world => retained (artifactKey refId) i event world = true)
        ((repository sha256).run initial actions) later →
      ∃ metadata', storedMetadata refId
          ((repository sha256).run initial (actions ++ later)).toWorld = some metadata' ∧
        Continues metadata metadata' := by
  intro h
  have hrun : ((storedMetadata "r"
        ((repository sampleDigests.sha256).run initial sampleReplaced).toWorld).any
        (fun metadata => metadata.contentHash == putTwo.contentHash) &&
      (repository sampleDigests.sha256).checks (retained (artifactKey "r"))
        ((repository sampleDigests.sha256).run initial sampleReplaced) (sampleSteps 1 2) &&
      (storedMetadata "r" ((repository sampleDigests.sha256).run initial
        (sampleReplaced ++ sampleSteps 1 2)).toWorld).any
        fun metadata => metadata.contentHash == putOne.contentHash) = true := by
    decide +kernel
  simp only [Bool.and_eq_true, Option.any_eq_true, beq_iff_eq] at hrun
  obtain ⟨⟨⟨metadata, hstored, htwo⟩, hchecks⟩, found, hfound, hone⟩ := hrun
  obtain ⟨metadata', hstored', hcontinues⟩ := h sampleDigests.sha256
    sampleDigests.sha256_injective sampleReplaced (sampleSteps 1 2) "r" metadata hstored
    (System.meets_of_checks hchecks)
  obtain rfl := Option.some.inj (hfound.symm.trans hstored')
  have hsame : putOne.contentHash = putTwo.contentHash :=
    hone.symm.trans ((congrArg ArtifactIdentity.contentHash hcontinues.identity).trans htwo)
  exact absurd hsame (by decide)

/-! ## Any run -/

/-- The record of every artifact is about that artifact, and was created by a put of it that had
its blob in place. -/
def ArtifactsPlaced (sha256 : Sha256 B) (world : ArtifactWorld B) : Prop :=
  ∀ refId record, world.state.records.get (artifactKey refId) = some record →
    ∃ metadata, record.value = .metadata metadata ∧ metadata.refId = refId ∧
      ∃ i input, Placed sha256 i input world.history ∧ input.refId = refId

/-- In every run, artifacts come from puts only. -/
theorem artifacts_placed (sha256 : Sha256 B)
    (actions : List (Action (Call B) (Oracle Answer))) :
    ArtifactsPlaced sha256 ((repository sha256).run initial actions).toWorld := by
  refine (ready sha256).persists (verified sha256) actions ?_
    (by simp [ArtifactsPlaced, initial, Config.initial, Disk.empty])
  intro i event before after _ _ hstep hG h refId record hget
  have hmono : before.history ⊆ after.history := fun _ hmem => hstep.history_mono hmem
  rcases artifact_cases hstep hG refId with hsame |
    ⟨input, _, _, hplaced, -, rfl, -, -, hafter⟩ |
    ⟨current, read, next, _, _, -, -, hread, -, htransition, hcurrent, -, hafter⟩ |
    ⟨_, -, -, -, hafter⟩
  · obtain ⟨metadata, hvalue, hid, j, input, hplaced, hinput⟩ := h refId record (hsame ▸ hget)
    exact ⟨metadata, hvalue, hid, j, input, hplaced.mono hmono, hinput⟩
  · obtain rfl := Option.some.inj (hafter.symm.trans hget)
    exact ⟨_, rfl, rfl, i, input, hplaced.mono hmono, rfl⟩
  · obtain rfl := Option.some.inj (hafter.symm.trans hget)
    obtain ⟨_, -, -, j, input, hplaced, hinput⟩ := h refId current hcurrent
    exact ⟨next, rfl, htransition.refId_eq.trans hread, j, input, hplaced.mono hmono, hinput⟩
  · cases hafter.symm.trans hget

end Groundlane.Artifacts
