import Groundlane.Snapshots.Revocation

/-!
# Committed snapshots keep their bytes

Between the preparation of a snapshot and its commit only the intent protects the copied bytes,
for one hour. A commit that comes later can publish a snapshot whose bytes a cleanup has deleted
(`unreadable_snapshot`). When the bytes have not been deleted since they were last copied, and no
cleanup is about to delete them, the published snapshot keeps them as long as it is unrevoked,
unexpired, and its source active (`committed_readable`).
-/

namespace Groundlane.Snapshots

open Fenced Interleaving Interleaving.System Uploads DocumentAdmission

variable {B : Type}

/-! ## Readable snapshots -/

/-- The time has passed, by a reading of the clock or by the time of a cleanup. -/
def Lapsed (expiresAt : Int) (history : SnapshotHistory B) : Prop :=
  (∃ i now, (i, .effect .clock now) ∈ history ∧ expiresAt ≤ now) ∨
    ∃ i nowMs, CleansAt i nowMs history ∧ expiresAt ≤ nowMs

variable {history : SnapshotHistory B} {expiresAt : Int}

theorem Lapsed.mono {history later : SnapshotHistory B} (hsub : history ⊆ later)
    (h : Lapsed expiresAt history) : Lapsed expiresAt later := by
  rcases h with ⟨i, now, hnow, hle⟩ | ⟨i, nowMs, hcleans, hle⟩
  · exact .inl ⟨i, now, hsub hnow, hle⟩
  · exact .inr ⟨i, nowMs, hcleans.mono hsub, hle⟩

/-- The record under the key is a committed snapshot, unrevoked and unexpired, and its source is
active. -/
structure Live (key : String) (snapshot : Snapshot) (world : SnapshotWorld B) : Prop where
  committed : isIntentKey key = false
  stored : ∃ record, world.state.records.get key = some record ∧ record.value = snapshot
  unrevoked : snapshot.revoked = false
  unexpired : ¬ Lapsed snapshot.expiresAt world.history
  source : ∃ source, world.state.sources.get (artifactKey snapshot.source.refId) = some source ∧
    source.value.status = .active

/-- Every live snapshot has its bytes, under its blob key with the digest of its source. -/
def Readable (world : SnapshotWorld B) : Prop :=
  ∀ key snapshot, Live key snapshot world →
    ∃ blob, world.state.blobs snapshot.snapshotBlobKey = some blob ∧
      blob.ownerId = snapshot.source.ownerId ∧ blob.digest = snapshot.source.contentHash

/-- A commit is given what a prepare has returned. -/
def offered (_ : Nat) (event : SnapshotEvent B) (world : SnapshotWorld B) : Bool :=
  match event with
  | .invoke (.commit prepared _) => world.history.any fun
    | (_, .response (.ok (.prepared other))) => decide (other = prepared)
    | _ => false
  | _ => true

/-- The bytes have not been deleted since they were last copied. -/
def copied (blobKey : String) : SnapshotHistory B → Bool
  | [] => false
  | (_, .effect (.putIfAbsent key _ _ _) (.ok (.created _))) :: older =>
    decide (key = blobKey) || copied blobKey older
  | (_, .effect (.putIfAbsent key _ _ _) (.ok (.exists _))) :: older =>
    decide (key = blobKey) || copied blobKey older
  | (_, .effect (.deleteIfOwner key _) (.ok .deleted)) :: older =>
    decide (key ≠ blobKey) && copied blobKey older
  | _ :: older => copied blobKey older

/-- What call `i` has done last is to find no record under the key. -/
def missed (i : Nat) (key : String) (history : SnapshotHistory B) : Bool :=
  match history.find? fun entry => entry.1 == i with
  | some (_, .effect (.get other) (.ok none)) => decide (other = key)
  | _ => false

/-- A cleanup is about to delete the bytes: it has scanned an intent for them, and has just found
no snapshot. -/
def aboutToDelete (key blobKey : String) (history : SnapshotHistory B) : Bool :=
  history.any fun
    | (i, .effect (.scanExpired ..) (.ok page)) =>
      page.1.any (fun record => isIntentKey record.key &&
        decide (record.value.snapshotBlobKey = blobKey)) && missed i key history
    | _ => false

/-- A commit that takes effect is given what a prepare has returned; the bytes have not been
deleted since they were last copied, and no cleanup is about to delete them. -/
def protectedBytes (i : Nat) (event : SnapshotEvent B) (world : SnapshotWorld B) : Bool :=
  match event with
  | .effect (.commitAdmission publication) (.ok .committed) =>
    copied publication.record.value.snapshotBlobKey world.history &&
      !aboutToDelete publication.record.key publication.record.value.snapshotBlobKey world.history
  | _ => offered i event world

theorem missed_of_latest {i : Nat} {key : String}
    (h : Latest i (.effect (.get key) (.ok none)) history) : missed i key history = true := by
  obtain ⟨newer, older, rfl, hnewer⟩ := h
  have hfind : (newer ++ (i, Event.effect (Query.get key) (.ok none)) :: older).find?
      (fun entry => entry.1 == i) = some (i, .effect (.get key) (.ok none)) := by
    rw [List.find?_append, List.find?_eq_none.2 ?_]
    · simp
    · rintro ⟨j, event⟩ hmem hj
      obtain rfl : j = i := by simpa using hj
      exact hnewer event hmem
  simp [missed, hfind]

/-! ## Blob keys -/

variable {sha256 : Sha256 B}

theorem append_left_inj {front left right : String} (h : front ++ left = front ++ right) :
    left = right := by
  have htext := congrArg String.toList h
  rw [String.toList_append, String.toList_append] at htext
  exact String.toList_inj.1 (List.append_cancel_left htext)

/-- Snapshots with the same blob key are snapshots of the same job, source and life. -/
theorem Taken.same (hsha : Function.Injective sha256.text) {left right : Snapshot}
    (hleft : Taken sha256 left) (hright : Taken sha256 right)
    (h : left.snapshotBlobKey = right.snapshotBlobKey) :
    left.jobId = right.jobId ∧ left.source.contentHash = right.source.contentHash ∧
      left.source.ownerId = right.source.ownerId ∧ left.expiresAt = right.expiresAt := by
  have hblob := hleft.1.symm.trans (h.trans hright.1)
  have hdigest := append_left_inj (hsha (append_left_inj hblob))
  have hjson := Json.stringify_injective (hsha hdigest)
  simp only [Json.arr.injEq, List.cons.injEq, Json.str.injEq, ownerOf, and_true] at hjson
  obtain ⟨hjob, -, hhash, howner, -, hexpiry⟩ := hjson
  exact ⟨hjob, hhash, howner, Json.ofInt_injective hexpiry⟩

/-- The bytes of a snapshot are not stored as those of an uploaded artifact. -/
theorem Taken.ne_sourceBlobKey (hsha : Function.Injective sha256.text) {snapshot : Snapshot}
    (h : Taken sha256 snapshot) (ownerId rest : String) :
    sourceBlobKey sha256 ownerId rest ≠ snapshot.snapshotBlobKey := by
  intro heq
  have htext := hsha (append_left_inj (heq.trans h.1))
  have hnul : Char.ofNat 0 ∈ ("document-job-snapshot:" ++ snapshotDigest sha256 snapshot.jobId
      snapshot.source (ownerOf snapshot.source) snapshot.expiresAt).toList := by
    rw [← htext]
    simp [nul]
  rw [String.toList_append, List.mem_append] at hnul
  rcases hnul with hfront | hdigest
  · exact absurd hfront (by decide)
  · have hhex := List.all_eq_true.1 (sha256.isHex_chars _ (sha256.isHex_text _)) _ hdigest
    exact absurd hhex (by decide)

/-! ## Steps -/

/-- Two versions of an artifact have the same identity and the same life. -/
def SameSource (state next : ArtifactState) : Prop :=
  next.refId = state.refId ∧ next.contentHash = state.contentHash ∧
    next.byteSize = state.byteSize ∧ next.expiresAt = state.expiresAt

theorem SameSource.trans {first second third : ArtifactState} (h : SameSource first second)
    (h' : SameSource second third) : SameSource first third :=
  ⟨h'.1.trans h.1, h'.2.1.trans h.2.1, h'.2.2.1.trans h.2.2.1, h'.2.2.2.trans h.2.2.2⟩

variable {record : Record String Snapshot}

section Step

variable [ByteString B] {i : Nat} {event : SnapshotEvent B} {before after : SnapshotWorld B}
  {blobs : String → Option (Blob B)} {blobKey other ownerId : String} {blob : Blob B}

theorem putBlob_other (h : blobKey ≠ other) :
    (putBlob blobs blobKey blob).1 other = blobs other := by
  unfold putBlob
  split <;> simp [h.symm]

omit [ByteString B] in
theorem deleteBlob_other (h : blobKey ≠ other) :
    (deleteBlob blobs blobKey ownerId).1 other = blobs other := by
  unfold deleteBlob
  split
  · rfl
  · split <;> simp [h.symm]

theorem putBlob_cases (blobs : String → Option (Blob B)) (blobKey : String) (blob : Blob B) :
    (putBlob blobs blobKey blob).1 = blobs ∨
    blobs blobKey = none ∧ (putBlob blobs blobKey blob).1 blobKey = some blob ∧
      (putBlob blobs blobKey blob).2 = .created (blob.stat blobKey) := by
  unfold putBlob
  cases hblob : blobs blobKey with
  | none => exact .inr ⟨rfl, by simp, rfl⟩
  | some existing => exact .inl rfl

omit [ByteString B] in
theorem deleteBlob_cases (blobs : String → Option (Blob B)) (blobKey ownerId : String) :
    (deleteBlob blobs blobKey ownerId).1 = blobs ∨
    (deleteBlob blobs blobKey ownerId).2 = .deleted ∧
      (deleteBlob blobs blobKey ownerId).1 blobKey = none := by
  unfold deleteBlob
  cases blobs blobKey with
  | none => exact .inl rfl
  | some existing =>
    dsimp only
    split
    · exact .inl rfl
    · exact .inr ⟨rfl, by simp⟩

variable {key : String}

/-- A stored artifact stays stored with its identity, and is not active again. -/
theorem Step.source_kept (hstep : (repository sha256).Step i event before after)
    {source : Record String ArtifactState} (hget : before.state.sources.get key = some source) :
    ∃ next, after.state.sources.get key = some next ∧ SameSource source.value next.value ∧
      (source.value.status ≠ .active → next.value.status ≠ .active) := by
  have hsame (hstate : after.state.sources = before.state.sources) :
      ∃ next, after.state.sources.get key = some next ∧ SameSource source.value next.value ∧
        (source.value.status ≠ .active → next.value.status ≠ .active) :=
    ⟨source, hstate ▸ hget, ⟨rfl, rfl, rfl, rfl⟩, id⟩
  cases event with
  | invoke call => exact hsame (by rw [hstep.invoke_state])
  | response outcome => exact hsame (by rw [hstep.response_state])
  | effect query answer =>
    obtain ⟨_, hexec⟩ := hstep.exec_eq
    have hstate := (Prod.mk.inj hexec).1
    cases query with
    | source | get | scanExpired | getBlob | clock | aborted | storeSource | dropSource =>
      exact hsame (by rw [← hstate])
    | createIfAbsent | compareAndSwap | deleteIfRevision | putIfAbsent | deleteIfOwner =>
      simp only [repository, exec] at hexec
      split at hexec <;> exact hsame (by rw [← (Prod.mk.inj hexec).1])
    | commitAdmission publication =>
      simp only [repository, exec] at hexec
      split at hexec
      · exact hsame (by rw [← (Prod.mk.inj hexec).1])
      split at hexec
      · split at hexec <;> exact hsame (by rw [← (Prod.mk.inj hexec).1])
      · exact hsame (by rw [← (Prod.mk.inj hexec).1])
    | publishSource state nowMs =>
      refine ⟨source, ?_, ⟨rfl, rfl, rfl, rfl⟩, id⟩
      rcases before.state.sources.createIfAbsent_cases (artifactKey state.refId) state nowMs
        none with ⟨_, _, heq⟩ | ⟨hnone, heq⟩
      · simpa [← hstate, repository, exec, heq] using hget
      · have hne : artifactKey state.refId ≠ key := by
          rintro rfl
          simp [hnone] at hget
        simpa [← hstate, repository, exec, heq, hne] using hget
    | reviseSource refId next nowMs =>
      simp only [repository, exec] at hexec
      split at hexec
      · exact hsame (by rw [← (Prod.mk.inj hexec).1])
      rename_i current hcurrent
      split at hexec
      · rename_i hrevision
        by_cases hkey : artifactKey refId = key
        · subst hkey
          obtain rfl := Option.some.inj (hcurrent.symm.trans hget)
          simp only [isRevision, decide_eq_true_eq] at hrevision
          obtain ⟨hrefId, -, -, hhash, hsize, -, hexpiry, hstatus⟩ := hrevision
          refine ⟨⟨artifactKey refId, next, current.revision + 1, current.createdAt, nowMs,
            none⟩, ?_, ⟨hrefId, hhash, hsize, hexpiry⟩, fun _ => hstatus⟩
          rw [← (Prod.mk.inj hexec).1]
          simp [Store.compareAndSwap, hcurrent]
        · refine ⟨source, ?_, ⟨rfl, rfl, rfl, rfl⟩, id⟩
          rw [← (Prod.mk.inj hexec).1]
          exact (Store.get_compareAndSwap_of_ne hkey).trans hget
      · exact hsame (by rw [← (Prod.mk.inj hexec).1])

/-- What a step does to the bytes of a snapshot: nothing, it copies them where there are none, or
it deletes them. -/
theorem Step.blob_cases (hsha : Function.Injective sha256.text)
    (hstep : (repository sha256).Step i event before after) {snapshot : Snapshot}
    (htaken : Taken sha256 snapshot) :
    after.state.blobs snapshot.snapshotBlobKey = before.state.blobs snapshot.snapshotBlobKey ∨
      (∃ ownerId digest bytes stat,
        event = .effect (.putIfAbsent snapshot.snapshotBlobKey ownerId digest bytes)
          (.ok (.created stat)) ∧ before.state.blobs snapshot.snapshotBlobKey = none ∧
        after.state.blobs snapshot.snapshotBlobKey = some ⟨ownerId, digest, bytes⟩) ∨
      (∃ ownerId, event = .effect (.deleteIfOwner snapshot.snapshotBlobKey ownerId)
        (.ok .deleted)) ∧ after.state.blobs snapshot.snapshotBlobKey = none := by
  cases event with
  | invoke call => exact .inl (by rw [hstep.invoke_state])
  | response outcome => exact .inl (by rw [hstep.response_state])
  | effect query answer =>
    obtain ⟨_, hexec⟩ := hstep.exec_eq
    have hstate := (Prod.mk.inj hexec).1
    cases query with
    | source | get | scanExpired | getBlob | clock | aborted | publishSource =>
      exact .inl (by rw [← hstate])
    | createIfAbsent | compareAndSwap | deleteIfRevision =>
      simp only [repository, exec] at hexec
      split at hexec <;> exact .inl (by rw [← (Prod.mk.inj hexec).1])
    | reviseSource =>
      simp only [repository, exec] at hexec
      split at hexec
      · exact .inl (by rw [← (Prod.mk.inj hexec).1])
      · split at hexec <;> exact .inl (by rw [← (Prod.mk.inj hexec).1])
    | commitAdmission publication =>
      simp only [repository, exec] at hexec
      split at hexec
      · exact .inl (by rw [← (Prod.mk.inj hexec).1])
      split at hexec
      · split at hexec <;> exact .inl (by rw [← (Prod.mk.inj hexec).1])
      · exact .inl (by rw [← (Prod.mk.inj hexec).1])
    | storeSource ownerId rest digest bytes =>
      refine .inl ?_
      rw [← hstate]
      exact putBlob_other (htaken.ne_sourceBlobKey hsha ownerId rest)
    | dropSource ownerId rest =>
      refine .inl ?_
      rw [← hstate]
      exact deleteBlob_other (htaken.ne_sourceBlobKey hsha ownerId rest)
    | putIfAbsent blobKey ownerId digest bytes =>
      simp only [repository, exec] at hexec
      split at hexec
      · exact .inl (by rw [← (Prod.mk.inj hexec).1])
      obtain ⟨hstate, hanswer⟩ := Prod.mk.inj hexec
      rw [← hstate]
      by_cases hkey : blobKey = snapshot.snapshotBlobKey
      · subst hkey
        rcases putBlob_cases before.state.blobs snapshot.snapshotBlobKey
          ⟨ownerId, digest, bytes⟩ with hsame | ⟨hnone, hput, hcreated⟩
        · exact .inl (congrFun hsame _)
        · rw [hcreated] at hanswer
          cases hanswer
          exact .inr (.inl ⟨ownerId, digest, bytes, _, rfl, hnone, hput⟩)
      · exact .inl (putBlob_other hkey)
    | deleteIfOwner blobKey ownerId =>
      simp only [repository, exec] at hexec
      split at hexec
      · exact .inl (by rw [← (Prod.mk.inj hexec).1])
      obtain ⟨hstate, hanswer⟩ := Prod.mk.inj hexec
      rw [← hstate]
      by_cases hkey : blobKey = snapshot.snapshotBlobKey
      · subst hkey
        rcases deleteBlob_cases before.state.blobs snapshot.snapshotBlobKey ownerId with
          hsame | ⟨hdeleted, hnone⟩
        · exact .inl (congrFun hsame _)
        · rw [hdeleted] at hanswer
          cases hanswer
          exact .inr (.inr ⟨⟨ownerId, rfl⟩, hnone⟩)
      · exact .inl (deleteBlob_other hkey)

/-- After a copy that has succeeded there are bytes. -/
theorem Step.put_stored {digest : String} {bytes : B} {answer : BlobPutResult}
    (hstep : (repository sha256).Step i
      (.effect (.putIfAbsent blobKey ownerId digest bytes) (.ok answer)) before after) :
    ∃ blob, after.state.blobs blobKey = some blob := by
  obtain ⟨_, hexec⟩ := hstep.exec_eq
  simp only [repository, exec] at hexec
  split at hexec
  · cases (Prod.mk.inj hexec).2
  obtain ⟨hstate, -⟩ := Prod.mk.inj hexec
  rw [← hstate]
  cases hblob : before.state.blobs blobKey with
  | none => exact ⟨⟨ownerId, digest, bytes⟩, by simp [putBlob, hblob]⟩
  | some existing => exact ⟨existing, by simp [putBlob, hblob]⟩

/-- Where the record under a key comes from. -/
theorem Step.record_cases (hstep : (repository sha256).Step i event before after)
    (hget : after.state.records.get key = some record) :
    before.state.records.get key = some record ∨
      (∃ nowMs expiresAt answer,
        event = .effect (.createIfAbsent key record.value nowMs expiresAt) answer) ∨
      (∃ revision nowMs expiresAt answer,
        event = .effect (.compareAndSwap key revision record.value nowMs expiresAt) answer) ∨
      ∃ publication answer, event = .effect (.commitAdmission publication) answer ∧
        publication.record.value = record.value := by
  cases event with
  | invoke call => exact .inl (by rw [← hget, hstep.invoke_state])
  | response outcome => exact .inl (by rw [← hget, hstep.response_state])
  | effect query answer =>
    obtain ⟨_, hexec⟩ := hstep.exec_eq
    have hstate := (Prod.mk.inj hexec).1
    cases query with
    | source | get | scanExpired | getBlob | clock | aborted | publishSource | storeSource
    | dropSource => exact .inl (by rw [← hget, ← hstate])
    | putIfAbsent | deleteIfOwner =>
      simp only [repository, exec] at hexec
      split at hexec <;> exact .inl (by rw [← hget, ← (Prod.mk.inj hexec).1])
    | reviseSource =>
      simp only [repository, exec] at hexec
      split at hexec
      · exact .inl (by rw [← hget, ← (Prod.mk.inj hexec).1])
      · split at hexec <;> exact .inl (by rw [← hget, ← (Prod.mk.inj hexec).1])
    | createIfAbsent other value nowMs expiresAt =>
      simp only [repository, exec] at hexec
      split at hexec
      · exact .inl (by rw [← hget, ← (Prod.mk.inj hexec).1])
      rw [← (Prod.mk.inj hexec).1] at hget
      rcases before.state.records.createIfAbsent_cases other value nowMs expiresAt with
        ⟨_, _, heq⟩ | ⟨_, heq⟩
      · exact .inl (by simpa [heq] using hget)
      · by_cases hkey : other = key
        · subst hkey
          simp only [heq, Store.get_insert, if_true, Option.some.injEq] at hget
          subst hget
          exact .inr (.inl ⟨nowMs, expiresAt, answer, rfl⟩)
        · exact .inl (by simpa [heq, hkey] using hget)
    | deleteIfRevision other revision =>
      simp only [repository, exec] at hexec
      split at hexec
      · exact .inl (by rw [← hget, ← (Prod.mk.inj hexec).1])
      rw [← (Prod.mk.inj hexec).1] at hget
      rcases before.state.records.deleteIfRevision_cases other revision with
        ⟨_, heq⟩ | ⟨_, _, _, heq⟩ | ⟨_, _, _, heq⟩
      · exact .inl (by simpa [heq] using hget)
      · exact .inl (by simpa [heq] using hget)
      · by_cases hkey : other = key
        · subst hkey
          simp [heq] at hget
        · exact .inl (by simpa [heq, hkey] using hget)
    | compareAndSwap other revision value nowMs expiresAt =>
      simp only [repository, exec] at hexec
      split at hexec
      · exact .inl (by rw [← hget, ← (Prod.mk.inj hexec).1])
      rw [← (Prod.mk.inj hexec).1] at hget
      rcases before.state.records.compareAndSwap_cases other revision value nowMs expiresAt with
        ⟨_, heq⟩ | ⟨_, _, _, heq⟩ | ⟨_, hcurrent, _, heq⟩
      · exact .inl (by simpa [heq] using hget)
      · exact .inl (by simpa [heq] using hget)
      · by_cases hkey : other = key
        · subst hkey
          simp only [heq, Store.get_replace, if_true, hcurrent, Option.map_some,
            Option.some.injEq] at hget
          subst hget
          exact .inr (.inr (.inl ⟨revision, nowMs, expiresAt, answer, rfl⟩))
        · exact .inl (by simpa [heq, hkey] using hget)
    | commitAdmission publication =>
      simp only [repository, exec] at hexec
      split at hexec
      · exact .inl (by rw [← hget, ← (Prod.mk.inj hexec).1])
      split at hexec
      · rcases before.state.records.createIfAbsent_cases publication.record.key
            publication.record.value publication.record.nowMs
            (some publication.record.expiresAt) with ⟨_, _, heq⟩ | ⟨_, heq⟩
        · rw [heq] at hexec
          exact .inl (by rw [← hget, ← (Prod.mk.inj hexec).1])
        · rw [heq] at hexec
          rw [← (Prod.mk.inj hexec).1] at hget
          by_cases hkey : publication.record.key = key
          · simp only [Store.get_insert, hkey, if_true, Option.some.injEq] at hget
            exact .inr (.inr (.inr ⟨publication, answer, rfl, by rw [← hget]⟩))
          · exact .inl (by simpa [hkey] using hget)
      · exact .inl (by rw [← hget, ← (Prod.mk.inj hexec).1])

end Step

/-- Bytes that have not been deleted since they were copied were copied by the last event, or they
were there before it and it does not delete them. -/
theorem copied_cases {blobKey : String} {i : Nat} {event : SnapshotEvent B}
    {older : SnapshotHistory B} (h : copied blobKey ((i, event) :: older) = true) :
    (∃ ownerId digest bytes answer,
      event = .effect (.putIfAbsent blobKey ownerId digest bytes) (.ok answer)) ∨
    copied blobKey older = true ∧
      ∀ ownerId, event ≠ .effect (.deleteIfOwner blobKey ownerId) (.ok .deleted) := by
  unfold copied at h
  split at h
  · cases h
  · rename_i heq
    cases heq
    rw [Bool.or_eq_true, decide_eq_true_eq] at h
    rcases h with rfl | h
    · exact .inl ⟨_, _, _, _, rfl⟩
    · exact .inr ⟨h, by simp⟩
  · rename_i heq
    cases heq
    rw [Bool.or_eq_true, decide_eq_true_eq] at h
    rcases h with rfl | h
    · exact .inl ⟨_, _, _, _, rfl⟩
    · exact .inr ⟨h, by simp⟩
  · rename_i heq
    cases heq
    rw [Bool.and_eq_true, decide_eq_true_eq] at h
    exact .inr ⟨h.2, by simp [h.1]⟩
  · rename_i hother heq
    cases heq
    refine .inr ⟨h, ?_⟩
    rintro ownerId rfl
    exact hother _ _ _ rfl

/-! ## The invariant -/

/-- The record of a committed snapshot: under the key of its job, with its expiry until it is
revoked, and with its source stored. -/
structure Published (sha256 : Sha256 B) (key : String) (record : Record String Snapshot)
    (world : SnapshotWorld B) : Prop where
  key : key = jobKey sha256 record.value.jobId
  expiry : record.value.revoked = false → record.expiresAt = some record.value.expiresAt
  source : ∃ source, world.state.sources.get (artifactKey record.value.source.refId) =
    some source ∧ SameSource record.value.source source.value

/-- A call that has found a snapshot does not find its source missing. -/
def FindsSource (i : Nat) (event : SnapshotEvent B) (older : SnapshotHistory B) : Prop :=
  ∀ key loaded, Found i key loaded older → isIntentKey key = false →
    event ≠ .effect (.source (artifactKey loaded.value.source.refId)) (.ok none)

/-- What holds throughout a run of protected commits. -/
structure Retained (sha256 : Sha256 B) (world : SnapshotWorld B) : Prop where
  offered : ∀ i prepared, (i, .response (.ok (.prepared prepared))) ∈ world.history →
    Offer sha256 prepared
  commits : ∀ i prepared writes, (i, .invoke (.commit prepared writes)) ∈ world.history →
    Offer sha256 prepared
  taken : ∀ key record, world.state.records.get key = some record → Taken sha256 record.value
  published : ∀ key record, world.state.records.get key = some record →
    isIntentKey key = false → Published sha256 key record world
  found : ∀ i key record, Found i key record world.history → Taken sha256 record.value ∧
    (isIntentKey key = false → key = jobKey sha256 record.value.jobId)
  due : ∀ i record, Scanned i record world.history → isIntentKey record.key = false →
    record.value.revoked = true ∨ Lapsed record.value.expiresAt world.history
  swapped : ∀ i key revision value nowMs expiresAt changed,
    (i, .effect (.compareAndSwap key revision value nowMs expiresAt) (.ok (.updated changed))) ∈
      world.history → isIntentKey key = false →
    ∃ current, world.state.records.get key = some current ∧ Alike value current.value
  bytes : ∀ snapshot blob, Taken sha256 snapshot →
    world.state.blobs snapshot.snapshotBlobKey = some blob →
    blob.ownerId = snapshot.source.ownerId ∧ blob.digest = snapshot.source.contentHash
  present : ∀ snapshot, Taken sha256 snapshot →
    copied snapshot.snapshotBlobKey world.history = true →
    ∃ blob, world.state.blobs snapshot.snapshotBlobKey = some blob
  undecided : ∀ key stored, world.state.records.get key = some stored → isIntentKey key = false →
    ∀ j record, Scanned j record world.history → isIntentKey record.key = true →
    record.value.snapshotBlobKey = stored.value.snapshotBlobKey →
    ¬ Latest j (.effect (.get key) (.ok none)) world.history
  sources : ∀ i key found, (i, .effect (.source key) (.ok (some found))) ∈ world.history →
    ∃ current, world.state.sources.get key = some current ∧
      SameSource found.value current.value ∧
      (found.value.status ≠ .active → current.value.status ≠ .active)
  findsSource : Throughout FindsSource world.history
  readable : Readable world

section Invariant

variable {i : Nat} {event : SnapshotEvent B} {before after : SnapshotWorld B} {key : String}
  {snapshot : Snapshot}

/-- The source of a live snapshot is not gone. -/
theorem Retained.not_sourceGone (h : Retained sha256 before) (hkept : Kept before)
    (hlive : Live key snapshot before) : ¬ SourceGone i key before.history := by
  rintro ⟨loaded, hloaded, hgone⟩
  obtain ⟨stored, hstored, rfl⟩ := hlive.stored
  obtain ⟨-, _, hcurrent, -, halike⟩ := hkept.found i key loaded hloaded hlive.committed
  obtain rfl := Option.some.inj (hstored.symm.trans hcurrent)
  rcases hgone with ⟨_, _, hhistory, hbefore⟩ | ⟨found, hfound, hchanged⟩
  · have hfinds := h.findsSource
    rw [hhistory] at hfinds
    exact hfinds.entry key loaded hbefore hlive.committed rfl
  · obtain ⟨source, hsource, hsame, hstatus⟩ := h.sources i _ found hfound
    obtain ⟨_, hactive, hisActive⟩ := hlive.source
    rw [halike.source_eq] at hactive
    obtain rfl := Option.some.inj (hsource.symm.trans hactive)
    obtain ⟨_, hsource', -, hhash, hsize, hexpiry⟩ :=
      (h.published key stored hstored hlive.committed).source
    rw [halike.source_eq] at hsource' hhash hsize hexpiry
    obtain rfl := Option.some.inj (hsource.symm.trans hsource')
    rcases hchanged with hinactive | hne | hne | ⟨now, hnow, hle⟩
    · exact hstatus hinactive hisActive
    · exact hne (hsame.2.1.symm.trans hhash)
    · exact hne (hsame.2.2.1.symm.trans hsize)
    · have hexpires : found.value.expiresAt = loaded.value.source.expiresAt :=
        hsame.2.2.2.symm.trans hexpiry
      have htaken := (h.taken key stored hstored).2
      rw [halike.source_eq] at htaken
      exact hlive.unexpired (.inl ⟨i, now, hnow, htaken.trans (hexpires ▸ hle)⟩)

/-- Nobody deletes the bytes of a live snapshot. -/
theorem Retained.not_deletes (hsha : Function.Injective sha256.text) (h : Retained sha256 before)
    (hkept : Kept before) (hlive : Live key snapshot before) :
    ¬ Deletes sha256 i snapshot.snapshotBlobKey before.history := by
  intro hdeletes
  obtain ⟨stored, hstored, rfl⟩ := hlive.stored
  have htaken := h.taken key stored hstored
  have hkey := (h.published key stored hstored hlive.committed).key
  cases hdeletes with
  | revoked revision value nowMs expiresAt changed hswap hrevoked hblob =>
    obtain ⟨current, hcurrent, halike⟩ := h.swapped i _ revision value nowMs expiresAt changed
      hswap (isIntentKey_jobKey sha256 value.jobId)
    have hblob' : current.value.snapshotBlobKey = stored.value.snapshotBlobKey := by
      rw [← hblob]
      rcases halike with heq | heq <;> rw [heq]
      rfl
    have hjob := ((h.taken _ current hcurrent).same hsha htaken hblob').1
    have hjob' : current.value.jobId = value.jobId := by
      rcases halike with heq | heq <;> rw [heq]
      rfl
    rw [← hjob', hjob, ← hkey, hstored] at hcurrent
    obtain rfl := Option.some.inj hcurrent
    exact absurd hlive.unrevoked (by simp [halike.revoked hrevoked])
  | expired record hscanned hblob hsnapshot =>
    obtain ⟨htaken', hkey'⟩ := h.found i record.key record hscanned.found
    obtain ⟨hjob, -, -, hexpiry⟩ := htaken'.same hsha htaken hblob
    have hsame : record.key = key := (hkey' hsnapshot).trans (hjob ▸ hkey.symm)
    rcases h.due i record hscanned hsnapshot with hrevoked | hlapsed
    · obtain ⟨-, _, hcurrent, -, halike⟩ :=
        hkept.found i record.key record hscanned.found hsnapshot
      rw [hsame, hstored] at hcurrent
      obtain rfl := Option.some.inj hcurrent
      exact absurd hlive.unrevoked (by simp [halike.revoked hrevoked])
    · exact hlive.unexpired (hexpiry ▸ hlapsed)
  | unpublished record hscanned hblob hintent hlatest =>
    have hjob := ((h.found i record.key record hscanned.found).1.same hsha htaken hblob).1
    rw [hjob, ← hkey] at hlatest
    exact h.undecided key stored hstored hlive.committed i record hscanned hintent hblob hlatest
  | lapsed record nowMs hscanned hblob hcleans hle =>
    have hexpiry := ((h.found i record.key record hscanned.found).1.same hsha htaken hblob).2.2.2
    exact hlive.unexpired (.inr ⟨i, nowMs, hcleans, hexpiry ▸ hle⟩)
  | sourceGone record hscanned hblob hgone =>
    have hjob := ((h.found i record.key record hscanned.found).1.same hsha htaken hblob).1
    rw [hjob, ← hkey] at hgone
    exact h.not_sourceGone hkept hlive hgone

/-- What a commit publishes is a snapshot of its source as it was prepared. -/
theorem Retained.admitted (h : Retained sha256 before) {publication : Publication}
    {answer : (Query.commitAdmission publication : Query B).Res}
    (hG : Guarantee sha256 i (.effect (.commitAdmission publication) answer) before) :
    Taken sha256 publication.record.value ∧
      publication.record.key = jobKey sha256 publication.record.value.jobId ∧
      publication.record.expiresAt = publication.record.value.expiresAt ∧
      publication.source.key = artifactKey publication.record.value.source.refId ∧
      publication.source.value = publication.record.value.source := by
  obtain ⟨prepared, writes, hcall, hsource, hkey, hvalue, hexpiry⟩ := hG
  have hoffer := h.commits i prepared writes hcall
  rw [hsource, hkey, hvalue, hexpiry]
  exact ⟨hoffer.taken, hoffer.key, hoffer.expiry, hoffer.sourceKey, hoffer.source⟩

variable [ByteString B]

theorem Retained.taken_step (h : Retained sha256 before)
    (hstep : (repository sha256).Step i event before after) (hG : Guarantee sha256 i event before)
    (hget : after.state.records.get key = some record) : Taken sha256 record.value := by
  rcases Step.record_cases hstep hget with hbefore | ⟨_, _, _, rfl⟩ |
    ⟨_, _, _, _, rfl⟩ | ⟨_, _, rfl, hvalue⟩
  · exact h.taken key record hbefore
  · exact hG.1
  · obtain ⟨found, hfound, ⟨-, hvalue⟩ | ⟨-, hvalue⟩⟩ := hG
    · rw [hvalue]
      exact (h.found i key found hfound).1
    · rw [hvalue]
      exact (h.found i key found hfound).1
  · exact hvalue ▸ (h.admitted hG).1

theorem Published.step (h : Published sha256 key record before)
    (hstep : (repository sha256).Step i event before after) :
    Published sha256 key record after where
  key := h.key
  expiry := h.expiry
  source := by
    obtain ⟨source, hsource, hsame⟩ := h.source
    obtain ⟨next, hnext, hsame', -⟩ := Step.source_kept hstep hsource
    exact ⟨next, hnext, hsame.trans hsame'⟩

theorem Retained.published_step (h : Retained sha256 before) (hkept : Kept before)
    (hstep : (repository sha256).Step i event before after) (hG : Guarantee sha256 i event before)
    (hget : after.state.records.get key = some record) (hkey : isIntentKey key = false) :
    Published sha256 key record after := by
  rcases snapshot_cases hstep hG hkey with hsame | ⟨_, rfl, rfl, -, hadmissible, hafter⟩ |
    ⟨found, current, _, hfound, hcurrent, hnext, -, hvalue⟩
  · exact (h.published key record (hsame ▸ hget) hkey).step hstep
  · obtain rfl := Option.some.inj (hafter.symm.trans hget)
    obtain ⟨-, hjob, hexpiry, hsourceKey, hsource⟩ := h.admitted hG
    refine Published.step ⟨hjob, fun _ => congrArg some hexpiry, ?_⟩ hstep
    rw [Publication.admissible, Option.any_eq_true] at hadmissible
    obtain ⟨source, hstored, hmatches⟩ := hadmissible
    simp only [Bool.and_eq_true, decide_eq_true_eq] at hmatches
    rw [hsourceKey] at hstored
    refine ⟨source, hstored, ?_⟩
    rw [hmatches.1.1.2, hsource]
    exact ⟨rfl, rfl, rfl, rfl⟩
  · obtain rfl := Option.some.inj (hnext.symm.trans hget)
    obtain ⟨-, _, hcurrent', -, halike⟩ := hkept.found i key found hfound hkey
    obtain rfl := Option.some.inj (hcurrent.symm.trans hcurrent')
    have hpublished := h.published key current hcurrent hkey
    rw [← halike.revocation_eq] at hvalue
    refine Published.step ⟨?_, ?_, ?_⟩ hstep
    · rw [hvalue]
      exact hpublished.key
    · intro hunrevoked
      rw [hvalue] at hunrevoked
      cases hunrevoked
    · rw [hvalue]
      exact hpublished.source

variable {j : Nat}

theorem Retained.found_step (h : Retained sha256 before)
    (hstep : (repository sha256).Step i event before after)
    (hfound : Found j key record after.history) : Taken sha256 record.value ∧
      (isIntentKey key = false → key = jobKey sha256 record.value.jobId) := by
  rcases Step.found_stored hstep hfound with hfound | ⟨hstored, hstate⟩
  · exact h.found j key record hfound
  · rw [hstate] at hstored
    exact ⟨h.taken key record hstored, fun hkey => (h.published key record hstored hkey).key⟩

theorem Retained.due_step (h : Retained sha256 before)
    (hstep : (repository sha256).Step i event before after) (hG : Guarantee sha256 i event before)
    (hscanned : Scanned j record after.history) (hkey : isIntentKey record.key = false) :
    record.value.revoked = true ∨ Lapsed record.value.expiresAt after.history := by
  have hmono : before.history ⊆ after.history := fun _ h => hstep.history_mono h
  obtain ⟨nowMs, cursor, limit, page, hscan, hmem⟩ := hscanned
  rcases hstep.mem_history.1 hscan with heq | hscan
  · obtain ⟨rfl, rfl⟩ := Prod.mk.inj heq
    obtain ⟨hstored, _, hexpiry, hle⟩ := Step.scan_answer hstep hmem
    cases hrevoked : record.value.revoked with
    | true => exact .inl rfl
    | false =>
      have hsame := (h.published record.key record hstored hkey).expiry hrevoked
      obtain rfl := Option.some.inj (hexpiry.symm.trans hsame)
      exact .inr (.inr ⟨j, nowMs, CleansAt.mono hmono hG, hle⟩)
  · exact (h.due j record ⟨nowMs, cursor, limit, page, hscan, hmem⟩ hkey).imp_right
      fun hlapsed => hlapsed.mono hmono

theorem Retained.swapped_step (h : Retained sha256 before) (hkept : Kept before)
    (hstep : (repository sha256).Step i event before after) (hG : Guarantee sha256 i event before)
    {j revision : Nat} {value : Snapshot} {nowMs : Int} {expiresAt : Option Int}
    {changed : Record String Snapshot}
    (hswap : (j, .effect (.compareAndSwap key revision value nowMs expiresAt)
      (.ok (.updated changed))) ∈ after.history) (hkey : isIntentKey key = false) :
    ∃ current, after.state.records.get key = some current ∧ Alike value current.value := by
  rcases hstep.mem_history.1 hswap with heq | hswap
  · obtain ⟨rfl, rfl⟩ := Prod.mk.inj heq
    rcases Step.swap_answer hstep with ⟨hanswer, -⟩ | ⟨_, hanswer, -⟩ |
      ⟨_, next, -, -, -, hnext, -, hvalue, -⟩
    · cases hanswer
    · cases hanswer
    · exact ⟨next, hnext, .inl hvalue⟩
  · obtain ⟨_, hcurrent, halike⟩ :=
      h.swapped j key revision value nowMs expiresAt changed hswap hkey
    obtain ⟨next, hnext, -, halike'⟩ := hkept.step_alike hstep hG hcurrent hkey
    exact ⟨next, hnext, halike.trans halike'⟩

theorem Retained.bytes_step (hsha : Function.Injective sha256.text) (h : Retained sha256 before)
    (hstep : (repository sha256).Step i event before after) (hG : Guarantee sha256 i event before)
    (htaken : Taken sha256 snapshot) {blob : Blob B}
    (hblob : after.state.blobs snapshot.snapshotBlobKey = some blob) :
    blob.ownerId = snapshot.source.ownerId ∧ blob.digest = snapshot.source.contentHash := by
  rcases Step.blob_cases hsha hstep htaken with hsame |
    ⟨_, _, bytes, _, rfl, -, hput⟩ | ⟨-, hnone⟩
  · exact h.bytes snapshot blob htaken (hsame ▸ hblob)
  · obtain rfl := Option.some.inj (hput.symm.trans hblob)
    obtain ⟨_, hcopied, hkey, rfl, rfl⟩ := hG
    obtain ⟨-, hhash, howner, -⟩ := htaken.same hsha hcopied hkey
    exact ⟨howner.symm, hhash.symm⟩
  · simp [hnone] at hblob

theorem Retained.present_step (hsha : Function.Injective sha256.text) (h : Retained sha256 before)
    (hstep : (repository sha256).Step i event before after) (htaken : Taken sha256 snapshot)
    (hcopied : copied snapshot.snapshotBlobKey after.history = true) :
    ∃ blob, after.state.blobs snapshot.snapshotBlobKey = some blob := by
  rw [hstep.history] at hcopied
  rcases copied_cases hcopied with ⟨ownerId, _, _, _, rfl⟩ | ⟨hbefore, hkeeps⟩
  · exact Step.put_stored hstep
  · obtain ⟨blob, hblob⟩ := h.present snapshot htaken hbefore
    rcases Step.blob_cases hsha hstep htaken with hsame | ⟨_, _, _, _, -, hnone, -⟩ |
      ⟨⟨ownerId, hdelete⟩, -⟩
    · exact ⟨blob, hsame ▸ hblob⟩
    · simp [hblob] at hnone
    · exact absurd hdelete (hkeeps ownerId)

theorem Retained.undecided_step (h : Retained sha256 before) (hkept : Kept before)
    (hstep : (repository sha256).Step i event before after) (hG : Guarantee sha256 i event before)
    (hprotected : protectedBytes i event before = true) {stored : Record String Snapshot}
    (hstored : after.state.records.get key = some stored) (hkey : isIntentKey key = false)
    (hscanned : Scanned j record after.history) (hintent : isIntentKey record.key = true)
    (hblob : record.value.snapshotBlobKey = stored.value.snapshotBlobKey) :
    ¬ Latest j (.effect (.get key) (.ok none)) after.history := by
  intro hlatest
  by_cases hj : i = j
  · subst hj
    obtain rfl := hstep.latest_eq hlatest
    obtain ⟨hnone, hstate⟩ := Step.get_answer hstep
    simp [hstate, hnone] at hstored
  · have hlatest' := (hstep.latest_iff hj).1 hlatest
    have hscanned' : Scanned j record before.history := by
      obtain ⟨nowMs, cursor, limit, page, hscan, hmem⟩ := hscanned
      rcases hstep.mem_history.1 hscan with heq | hscan
      · exact absurd (Prod.mk.inj heq).1.symm hj
      · exact ⟨nowMs, cursor, limit, page, hscan, hmem⟩
    rcases snapshot_cases hstep hG hkey with hsame | ⟨_, rfl, rfl, -, -, hafter⟩ |
      ⟨found, current, _, hfound, hcurrent, hnext, -, hvalue⟩
    · exact h.undecided key stored (hsame ▸ hstored) hkey j record hscanned' hintent hblob hlatest'
    · obtain rfl := Option.some.inj (hafter.symm.trans hstored)
      rw [protectedBytes, Bool.and_eq_true, Bool.not_eq_true'] at hprotected
      refine absurd hprotected.2 (Bool.not_eq_false _ ▸ ?_)
      obtain ⟨_, _, _, _, hscan, hmem⟩ := hscanned'
      refine List.any_eq_true.2 ⟨_, hscan, ?_⟩
      rw [Bool.and_eq_true]
      exact ⟨List.any_eq_true.2 ⟨record, hmem, by simpa [hintent] using hblob⟩,
        missed_of_latest hlatest'⟩
    · obtain rfl := Option.some.inj (hnext.symm.trans hstored)
      obtain ⟨-, _, hcurrent', -, halike⟩ := hkept.found i key found hfound hkey
      obtain rfl := Option.some.inj (hcurrent.symm.trans hcurrent')
      rw [hvalue, ← halike.revocation_eq] at hblob
      exact h.undecided key current hcurrent hkey j record hscanned' hintent hblob hlatest'

theorem Retained.sources_step (h : Retained sha256 before)
    (hstep : (repository sha256).Step i event before after) {found : Record String ArtifactState}
    (hfound : (j, .effect (.source key) (.ok (some found))) ∈ after.history) :
    ∃ current, after.state.sources.get key = some current ∧
      SameSource found.value current.value ∧
      (found.value.status ≠ .active → current.value.status ≠ .active) := by
  rcases hstep.mem_history.1 hfound with heq | hfound
  · obtain ⟨rfl, rfl⟩ := Prod.mk.inj heq
    obtain ⟨hget, hstate⟩ := Step.source_answer hstep
    exact ⟨found, by rw [hstate, hget], ⟨rfl, rfl, rfl, rfl⟩, id⟩
  · obtain ⟨_, hcurrent, hsame, hstatus⟩ := h.sources j key found hfound
    obtain ⟨next, hnext, hsame', hstatus'⟩ := Step.source_kept hstep hcurrent
    exact ⟨next, hnext, hsame.trans hsame', fun hne => hstatus' (hstatus hne)⟩

theorem Retained.findsSource_step (h : Retained sha256 before) (hkept : Kept before)
    (hstep : (repository sha256).Step i event before after) :
    FindsSource i event before.history := by
  rintro key loaded hloaded hkey rfl
  obtain ⟨-, current, hcurrent, -, halike⟩ := hkept.found i key loaded hloaded hkey
  obtain ⟨source, hsource, -⟩ := (h.published key current hcurrent hkey).source
  rw [halike.source_eq, (Step.source_answer hstep).1] at hsource
  cases hsource

/-- A live snapshot was live before the step, or the step has published it. -/
theorem Live.earlier (h : Retained sha256 before) (hlive : Live key snapshot after)
    (hstep : (repository sha256).Step i event before after)
    (hG : Guarantee sha256 i event before) :
    Live key snapshot before ∨ ∃ publication,
      event = .effect (.commitAdmission publication) (.ok .committed) ∧
        publication.record.value = snapshot := by
  obtain ⟨stored, hstored, rfl⟩ := hlive.stored
  rcases snapshot_cases hstep hG hlive.committed with hsame | ⟨publication, rfl, -, -, -, hafter⟩ |
    ⟨_, _, next, -, -, hnext, -, hvalue⟩
  · rw [hsame] at hstored
    refine .inl ⟨hlive.committed, ⟨stored, hstored, rfl⟩, hlive.unrevoked, fun hlapsed =>
      hlive.unexpired (hlapsed.mono fun _ h => hstep.history_mono h), ?_⟩
    obtain ⟨source, hsource, -⟩ := (h.published key stored hstored hlive.committed).source
    obtain ⟨_, hnext, -, hstatus⟩ := Step.source_kept hstep hsource
    obtain ⟨_, hactive, hisActive⟩ := hlive.source
    obtain rfl := Option.some.inj (hnext.symm.trans hactive)
    exact ⟨source, hsource, not_not.1 fun hne => hstatus hne hisActive⟩
  · obtain rfl := Option.some.inj (hafter.symm.trans hstored)
    exact .inr ⟨publication, rfl, rfl⟩
  · obtain rfl := Option.some.inj (hnext.symm.trans hstored)
    have hunrevoked := hlive.unrevoked
    rw [hvalue] at hunrevoked
    cases hunrevoked

theorem Retained.readable_step (hsha : Function.Injective sha256.text)
    (h : Retained sha256 before) (hkept : Kept before)
    (hstep : (repository sha256).Step i event before after) (hG : Guarantee sha256 i event before)
    (hprotected : protectedBytes i event before = true) : Readable after := by
  intro key snapshot hlive
  rcases hlive.earlier h hstep hG with hbefore | ⟨_, rfl, rfl⟩
  · obtain ⟨blob, hblob, hidentity⟩ := h.readable key snapshot hbefore
    obtain ⟨stored, hstored, rfl⟩ := hbefore.stored
    rcases Step.blob_cases hsha hstep (h.taken key stored hstored) with hsame |
      ⟨_, _, _, _, -, hnone, -⟩ | ⟨⟨ownerId, rfl⟩, -⟩
    · exact ⟨blob, hsame ▸ hblob, hidentity⟩
    · simp [hblob] at hnone
    · exact absurd hG (h.not_deletes hsha hkept hbefore)
  · rw [protectedBytes, Bool.and_eq_true] at hprotected
    have htaken := (h.admitted hG).1
    obtain ⟨blob, hblob⟩ := h.present _ htaken hprotected.1
    have hidentity := h.bytes _ blob htaken hblob
    rcases Step.blob_cases hsha hstep htaken with hsame | ⟨_, _, _, _, hput, -⟩ |
      ⟨⟨_, hdelete⟩, -⟩
    · exact ⟨blob, hsame ▸ hblob, hidentity⟩
    · cases hput
    · cases hdelete

theorem retained_step (hsha : Function.Injective sha256.text) (h : Retained sha256 before)
    (hkept : Kept before) (hstep : (repository sha256).Step i event before after)
    (hG : Guarantee sha256 i event before) (hprotected : protectedBytes i event before = true) :
    Retained sha256 after where
  offered := by
    intro j prepared hreturn
    rcases hstep.mem_history.1 hreturn with heq | hreturn
    · obtain ⟨rfl, rfl⟩ := Prod.mk.inj heq
      exact hG
    · exact h.offered j prepared hreturn
  commits := by
    intro j prepared writes hcall
    rcases hstep.mem_history.1 hcall with heq | hcall
    · obtain ⟨rfl, rfl⟩ := Prod.mk.inj heq
      obtain ⟨⟨k, _⟩, hmem, htest⟩ := List.any_eq_true.1 hprotected
      split at htest
      · rename_i heq
        obtain ⟨rfl, rfl⟩ := Prod.mk.inj heq
        exact h.offered _ prepared (of_decide_eq_true htest ▸ hmem)
      · cases htest
    · exact h.commits j prepared writes hcall
  taken := fun _ _ hget => h.taken_step hstep hG hget
  published := fun _ _ hget hkey => h.published_step hkept hstep hG hget hkey
  found := fun _ _ _ hfound => h.found_step hstep hfound
  due := fun _ _ hscanned hkey => h.due_step hstep hG hscanned hkey
  swapped := fun _ _ _ _ _ _ _ hswap hkey => h.swapped_step hkept hstep hG hswap hkey
  bytes := fun _ _ htaken hblob => h.bytes_step hsha hstep hG htaken hblob
  present := fun _ htaken hcopied => h.present_step hsha hstep htaken hcopied
  undecided := fun _ _ hstored hkey _ _ hscanned hintent hblob =>
    h.undecided_step hkept hstep hG hprotected hstored hkey hscanned hintent hblob
  sources := fun _ _ _ hfound => h.sources_step hstep hfound
  findsSource := h.findsSource.step hstep (h.findsSource_step hkept hstep)
  readable := h.readable_step hsha hkept hstep hG hprotected

end Invariant

/-! ## Runs -/

theorem retained_initial :
    Retained sha256 (initial : Config (Call B) (Query B) _ _ _ _).toWorld where
  offered := by simp [initial, Config.initial]
  commits := by simp [initial, Config.initial]
  taken := by simp [initial, Config.initial]
  published := by simp [initial, Config.initial]
  found := by simp [Found, initial, Config.initial]
  due := by simp [Scanned, initial, Config.initial]
  swapped := by simp [initial, Config.initial]
  bytes := by simp [initial, Config.initial]
  present := by simp [initial, Config.initial, copied]
  undecided := by simp [initial, Config.initial]
  sources := by simp [initial, Config.initial]
  findsSource := trivial
  readable := by
    rintro key snapshot ⟨-, ⟨record, hstored, -⟩, -⟩
    simp [initial, Config.initial] at hstored

/-- In a run in which every commit is given what a prepare has returned, and every commit that
takes effect finds the bytes not deleted since they were last copied and no cleanup about to
delete them, every live snapshot has its bytes. -/
theorem committed_readable [ByteString B] (sha256 : Sha256 B)
    (hsha : Function.Injective sha256.text) (actions : List (Action (Call B) Outside))
    (hprotected : (repository sha256).Meets
      (fun i event world => protectedBytes i event world = true) initial actions) :
    Readable ((repository sha256).run initial actions).toWorld :=
  ((ready sha256).preserves (verified sha256) hprotected (P := Retained sha256)
    (fun _ _ _ _ hkept _ hstep hG hprotected h => retained_step hsha h hkept hstep hG hprotected)
    retained_initial).readable

/-! ## Samples -/

/-- The prepared snapshot is committed at once. -/
def sampleCommitted : List (Action (Call String) Outside) :=
  sampleTaken ++ .invoke (.commit samplePrepared []) :: sampleSteps 3 4 2000

/-- The prepared snapshot is committed after a cleanup has removed its expired intent. -/
def sampleLate : List (Action (Call String) Outside) :=
  sampleTaken ++ .invoke (.cleanup 3700000 none 10) :: sampleSteps 3 5 3700000 ++
    .invoke (.commit samplePrepared []) :: sampleSteps 4 4 3800000

/-- Whether the time has passed. -/
def lapsed (expiresAt : Int) (history : SnapshotHistory B) : Bool :=
  history.any fun
    | (_, .effect .clock now) => decide (expiresAt ≤ now)
    | (_, .invoke (.cleanup nowMs _ _)) => decide (expiresAt ≤ nowMs)
    | _ => false

theorem Lapsed.lapsed (h : Lapsed expiresAt history) : lapsed expiresAt history = true := by
  rcases h with ⟨i, _, hnow, hle⟩ | ⟨i, _, ⟨_, _, hcall⟩, hle⟩
  · exact List.any_eq_true.2 ⟨_, hnow, by simpa using hle⟩
  · exact List.any_eq_true.2 ⟨_, hcall, by simpa using hle⟩

/-- Whether the sample snapshot is live. -/
def sampleLive (world : SnapshotWorld String) : Bool :=
  (world.state.records.get samplePrepared.record.key).any
      (fun record => decide (record.value = samplePrepared.record.value)) &&
    !lapsed samplePrepared.record.value.expiresAt world.history &&
    (world.state.sources.get samplePrepared.source.key).any
      fun source => decide (source.value.status = .active)

theorem live_of_sampleLive {world : SnapshotWorld String} (h : sampleLive world = true) :
    Live samplePrepared.record.key samplePrepared.record.value world := by
  rw [sampleLive, Bool.and_eq_true, Bool.and_eq_true, Option.any_eq_true, Option.any_eq_true,
    Bool.not_eq_true'] at h
  obtain ⟨⟨⟨record, hstored, hvalue⟩, hunexpired⟩, source, hsource, hactive⟩ := h
  refine ⟨isIntentKey_jobKey _ _, ⟨record, hstored, of_decide_eq_true hvalue⟩, rfl, ?_, source,
    hsource, of_decide_eq_true hactive⟩
  intro hlapsed
  simp [hlapsed.lapsed] at hunexpired

theorem sample_commits :
    ((repository sampleSha256).checks protectedBytes initial sampleCommitted &&
      sampleLive ((repository sampleSha256).run initial sampleCommitted).toWorld &&
      (repository sampleSha256).checks offered initial sampleLate &&
      let late := (repository sampleSha256).run initial sampleLate
      late.threads.all (fun thread => thread.program.isNone) && sampleLive late.toWorld &&
        (late.state.blobs samplePrepared.record.value.snapshotBlobKey).isNone) = true := by
  decide +kernel

/-- The snapshot that is committed at once is live and has its bytes. -/
theorem committed_readable_sample :
    Readable ((repository sampleSha256).run initial sampleCommitted).toWorld ∧
      Live samplePrepared.record.key samplePrepared.record.value
        ((repository sampleSha256).run initial sampleCommitted).toWorld := by
  obtain ⟨⟨⟨hchecks, hlive⟩, -⟩, -⟩ : ((_ ∧ _) ∧ _) ∧ _ := by
    simpa only [Bool.and_eq_true] using sample_commits
  exact ⟨committed_readable sampleSha256 sampleDigests.sha256_injective sampleCommitted
    (meets_of_checks hchecks), live_of_sampleLive hlive⟩

/-- After all calls have finished, a live snapshot has no bytes. -/
theorem unreadable_snapshot : ¬ ∀ sha256 : Sha256 String, Function.Injective sha256.text →
    ∀ actions : List (Action (Call String) Outside),
      (repository sha256).Meets (fun i event world => offered i event world = true) initial
        actions →
      (∀ thread ∈ ((repository sha256).run initial actions).threads, thread.program = none) →
      Readable ((repository sha256).run initial actions).toWorld := by
  intro h
  obtain ⟨⟨-, hchecks⟩, ⟨hfinished, hlive⟩, hgone⟩ : (_ ∧ _) ∧ (_ ∧ _) ∧ _ := by
    simpa only [Bool.and_eq_true, List.all_eq_true, Option.isNone_iff_eq_none]
      using sample_commits
  obtain ⟨blob, hblob, -⟩ := h sampleSha256 sampleDigests.sha256_injective sampleLate
    (meets_of_checks hchecks) hfinished _ _ (live_of_sampleLive hlive)
  simp [hgone] at hblob

end Groundlane.Snapshots
