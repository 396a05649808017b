import Groundlane.Durable.Digest
import Groundlane.Snapshots.Verified

/-!
# Snapshot reads and revocation

A read that starts after a revocation has returned gives no bytes, and a read that returns has
seen the record and the source again after it had fetched the bytes (`reads_respect_revocation`).
The second look at the record does not ask whether the snapshot has been revoked, so the read
returns the bytes of one that has been revoked since the first look (`revoked_bytes_returned`).
-/

namespace Groundlane.Snapshots

open Fenced Interleaving Interleaving.System Uploads DocumentAdmission

variable {B : Type}

/-- The operations of a call with their answers. -/
abbrev Effects (B : Type) : Type := List (Σ query : Query B, query.Res)

/-! ## Paths -/

variable {result : DurableArtifactRead B} {key : String}

section Paths

variable {effects : Effects B}

theorem call_path {α : Type} {program : SnapshotIo B (Except Fault α)} {value : α}
    (h : Program.Path (call program) effects (.done value)) :
    Program.Path program effects (.done (.ok value)) := by
  obtain ⟨_, _, outcome, rfl, hprogram, hrest⟩ := h.bind_done
  cases outcome with
  | ok result =>
    obtain ⟨rfl, heq⟩ := Program.path_done_iff.1 hrest
    rw [Program.done.inj heq, List.append_nil]
    exact hprogram
  | error fault => exact absurd hrest Program.not_path_raise

theorem getRecord_path {found : Option (Record String Snapshot)}
    (h : Program.Path (getRecord key) effects (.done found)) :
    effects = [⟨.get key, .ok found⟩] := by
  obtain ⟨_, -, h⟩ := h.check
  exact Program.path_request_iff.1 (call_path h)

theorem sourceRecord_path {found : Option (Record String ArtifactState)}
    (h : Program.Path (sourceRecord key) effects (.done found)) :
    effects = [⟨.source key, .ok found⟩] := by
  obtain ⟨_, -, h⟩ := h.check
  exact Program.path_request_iff.1 (call_path h)

theorem clock_path {now : Int} (h : Program.Path clock effects (.done now)) :
    effects = [⟨.clock, now⟩] :=
  Program.path_request_iff.1 h

theorem throwIfAborted_path (h : Program.Path throwIfAborted effects (.done ())) :
    effects = [⟨.aborted, false⟩] := by
  obtain ⟨_, _, aborted, rfl, hrequest, hrest⟩ := h.bind_done
  obtain rfl := Program.path_request_iff.1 hrequest
  cases aborted with
  | true => exact absurd hrest Program.not_path_raise
  | false =>
    obtain ⟨rfl, -⟩ := Program.path_done_iff.1 hrest
    rfl

theorem getBlob_path {sha256 : Sha256 B} {blobKey ownerId digest : String} {maxBytes : Int}
    {found : Option B}
    (h : Program.Path (getBlob sha256 blobKey ownerId digest maxBytes) effects (.done found)) :
    effects = [⟨.getBlob blobKey ownerId digest maxBytes, .ok found⟩] := by
  obtain ⟨_, -, h⟩ := h.check
  obtain ⟨_, -, h⟩ := h.check
  obtain ⟨_, -, h⟩ := h.check
  exact Program.path_request_iff.1 (call_path h)

variable {sha256 : Sha256 B} {jobId : String} {caller : DurableUploadCaller}

theorem load_path {snapshot : Snapshot}
    (h : Program.Path (load sha256 jobId caller) effects (.done snapshot)) :
    ∃ record, effects = [⟨.get (jobKey sha256 jobId), .ok (some record)⟩] ∧
      record.value = snapshot ∧ callerMatches snapshot.source caller = true := by
  obtain ⟨_, hkey, h⟩ := h.check
  obtain rfl := snapshotKey_ok hkey
  obtain ⟨_, _, found, rfl, hget, hrest⟩ := h.bind_done
  obtain rfl := getRecord_path hget
  cases found with
  | none => exact absurd hrest Program.not_path_raise
  | some record =>
    obtain ⟨_, -, hrest⟩ := hrest.check
    split at hrest
    · exact absurd hrest Program.not_path_raise
    rename_i hsame
    obtain ⟨rfl, heq⟩ := Program.path_done_iff.1 hrest
    rw [not_or, not_not, not_not] at hsame
    exact ⟨record, rfl, (Program.done.inj heq).symm, (Program.done.inj heq) ▸ hsame.2⟩

/-- The effects of a look at the metadata that has found the source available. -/
def Seen (sha256 : Sha256 B) (jobId : String) (caller : DurableUploadCaller) (snapshot : Snapshot)
    (effects : Effects B) : Prop :=
  ∃ now record found later,
    effects = [⟨.clock, now⟩, ⟨.get (jobKey sha256 jobId), .ok (some record)⟩,
      ⟨.source (artifactKey record.value.source.refId), .ok (some found)⟩, ⟨.clock, later⟩] ∧
    callerMatches record.value.source caller = true ∧ now < snapshot.expiresAt ∧
    found.value.status = .active ∧ later < found.value.expiresAt ∧
    found.value.contentHash = record.value.source.contentHash ∧
    found.value.byteSize = record.value.source.byteSize

theorem unavailable_path {snapshot : Snapshot}
    (h : Program.Path (unavailable sha256 snapshot jobId caller) effects (.done false)) :
    Seen sha256 jobId caller snapshot effects := by
  obtain ⟨_, _, now, rfl, hclock, hrest⟩ := h.bind_done
  obtain rfl := clock_path hclock
  split at hrest
  · cases (Program.path_done_iff.1 hrest).2
  rename_i hunexpired
  obtain ⟨_, _, status, rfl, hstatus, hend⟩ := hrest.bind_done
  obtain ⟨rfl, heq⟩ := Program.path_done_iff.1 hend
  cases status with
  | some status => cases heq
  | none =>
    obtain ⟨_, _, _, rfl, hload, hloaded⟩ := hstatus.bind_done
    obtain ⟨record, rfl, rfl, hcaller⟩ := load_path hload
    obtain ⟨_, _, found, rfl, hsource, hfound⟩ := hloaded.bind_done
    obtain rfl := sourceRecord_path hsource
    cases found with
    | none => cases (Program.path_done_iff.1 hfound).2
    | some found =>
      obtain ⟨_, -, hchecks⟩ := hfound.check
      split at hchecks
      · exact absurd hchecks Program.not_path_raise
      obtain ⟨_, _, later, rfl, hclock', hlast⟩ := hchecks.bind_done
      obtain rfl := clock_path hclock'
      split at hlast
      · cases (Program.path_done_iff.1 hlast).2
      rename_i hexpired
      split at hlast
      · cases (Program.path_done_iff.1 hlast).2
      rename_i hchanged
      obtain ⟨rfl, -⟩ := Program.path_done_iff.1 hlast
      simp only [ne_eq, not_or, not_not, not_le] at hunexpired hexpired hchanged
      exact ⟨now, record, found, later, rfl, hcaller, hunexpired, hchanged.1, hexpired.1,
        hchanged.2⟩

variable {sourceRefId : String} {maxBytes : Int}

/-- What a read that has returned did: it found the snapshot unrevoked, fetched the bytes, and
then looked at the metadata again. -/
theorem read_path
    (h : Program.Path (read sha256 jobId sourceRefId caller maxBytes) effects (.done result)) :
    ∃ record before after, effects = ⟨.get (jobKey sha256 jobId), .ok (some record)⟩ :: before ++
        [⟨.getBlob record.value.snapshotBlobKey caller.ownerId record.value.source.contentHash
          maxBytes, .ok (some result.bytes)⟩, ⟨.aborted, false⟩] ++ after ∧
      record.value.revoked = false ∧ Seen sha256 jobId caller record.value after ∧
      result = snapshotRead record.value sourceRefId caller result.bytes := by
  obtain ⟨_, _, _, rfl, hload, hrest⟩ := h.bind_done
  obtain ⟨record, rfl, rfl, -⟩ := load_path hload
  split at hrest
  · exact absurd hrest Program.not_path_raise
  rename_i hrevoked
  obtain ⟨third, _, _, rfl, -, hfetch⟩ := hrest.bind_done
  split at hfetch
  · exact absurd hfetch Program.not_path_raise
  obtain ⟨fifth, _, _, rfl, -, hget⟩ := hfetch.bind_done
  obtain ⟨_, _, bytes, rfl, hblob, habort⟩ := hget.bind_done
  obtain rfl := getBlob_path hblob
  obtain ⟨_, _, _, rfl, haborted, hfound⟩ := habort.bind_done
  obtain rfl := throwIfAborted_path haborted
  cases bytes with
  | none => exact absurd hfound Program.not_path_raise
  | some bytes =>
    obtain ⟨eleventh, _, _, rfl, hseen, hend⟩ := hfound.bind_done
    split at hend
    · exact absurd hend Program.not_path_raise
    rename_i hgone
    obtain ⟨rfl, heq⟩ := Program.path_done_iff.1 hend
    obtain rfl := Program.done.inj heq
    rw [Bool.not_eq_true] at hgone
    subst hgone
    simp only [ne_eq, not_or, not_not, Bool.not_eq_true] at hrevoked
    exact ⟨record, third ++ fifth, eleventh, by simp [snapshotRead], hrevoked.2,
      unavailable_path hseen, rfl⟩

end Paths

/-! ## Respect for revocation -/

/-- The effects of a call that has returned bytes to the owner of a snapshot: it has fetched them,
and then found the snapshot unrevoked and unexpired, with their digest, and its source active with
the same hash and size. -/
def ReadProperly (sha256 : Sha256 B) (jobId : String) (caller : DurableUploadCaller)
    (result : DurableArtifactRead B) (effects : Effects B) : Prop :=
  ∃ first blobKey digest maxBytes now record found later,
    effects = first ++ [⟨.getBlob blobKey caller.ownerId digest maxBytes, .ok (some result.bytes)⟩,
      ⟨.aborted, false⟩, ⟨.clock, now⟩, ⟨.get (jobKey sha256 jobId), .ok (some record)⟩,
      ⟨.source (artifactKey record.value.source.refId), .ok (some found)⟩, ⟨.clock, later⟩] ∧
    callerMatches record.value.source caller = true ∧
    "sha256-" ++ sha256.bytes result.bytes = record.value.source.contentHash ∧
    record.value.revoked = false ∧ now < record.value.expiresAt ∧
    found.value.status = .active ∧ later < found.value.expiresAt ∧
    found.value.contentHash = record.value.source.contentHash ∧
    found.value.byteSize = record.value.source.byteSize

/-- Reads respect revocation. -/
structure Respected (sha256 : Sha256 B) (history : SnapshotHistory B) : Prop where
  proper : ∀ i jobId sourceRefId caller maxBytes result,
    (i, .invoke (.read jobId sourceRefId caller maxBytes)) ∈ history →
    (i, .response (.ok (.read result))) ∈ history →
    ReadProperly sha256 jobId caller result (effectsOf i history)
  refused : ∀ newer i jobId sourceRefId caller maxBytes older,
    history = newer ++ (i, .invoke (.read jobId sourceRefId caller maxBytes)) :: older →
    ∀ j owner pending, (j, .invoke (.revoke jobId owner)) ∈ older →
    (j, .response (.ok (.revoked pending))) ∈ older →
    ∀ result, (i, .response (.ok (.read result))) ∉ history

/-- Call `i` has fetched the bytes of a snapshot. -/
def fetched (i : Nat) (history : SnapshotHistory B) : Bool :=
  history.any fun
    | (j, .effect (.getBlob ..) (.ok (some _))) => j == i
    | _ => false

/-- A call that looks at the record of a snapshot after it has fetched the bytes finds it
unrevoked. -/
def unrevoked (i : Nat) (event : SnapshotEvent B) (world : SnapshotWorld B) : Bool :=
  match event with
  | .effect (.get key) _ => !fetched i world.history ||
    (world.state.records.get key).all fun record => !record.value.revoked
  | _ => true

/-! ## Runs -/

/-- What a call finds under the key of a snapshot is revoked once a revocation of the snapshot
has returned. -/
def FindsRevoked (sha256 : Sha256 B) (_ : Nat) (event : SnapshotEvent B)
    (older : SnapshotHistory B) : Prop :=
  ∀ jobId record, event = .effect (.get (jobKey sha256 jobId)) (.ok (some record)) →
    ∀ j owner pending, (j, .invoke (.revoke jobId owner)) ∈ older →
    (j, .response (.ok (.revoked pending))) ∈ older → record.value.revoked = true

/-- What call `i` finds after it has fetched the bytes is not revoked. -/
def FindsUnrevoked (i : Nat) (event : SnapshotEvent B) (older : SnapshotHistory B) : Prop :=
  ∀ key record, event = .effect (.get key) (.ok (some record)) → fetched i older = true →
    record.value.revoked = false

/-- Fetched bytes have the digest that was asked for. -/
def Digested (sha256 : Sha256 B) (event : SnapshotEvent B) : Prop :=
  ∀ blobKey ownerId digest maxBytes bytes,
    event = .effect (.getBlob blobKey ownerId digest maxBytes) (.ok (some bytes)) →
    "sha256-" ++ sha256.bytes bytes = digest

/-- What holds throughout a run. -/
structure ReadInvariant (sha256 : Sha256 B) (world : SnapshotWorld B) : Prop where
  invokedFirst : InvokedFirst world.history
  revoked : ∀ j jobId owner pending, (j, .invoke (.revoke jobId owner)) ∈ world.history →
    (j, .response (.ok (.revoked pending))) ∈ world.history →
    Revoked (jobKey sha256 jobId) world
  findsRevoked : Throughout (FindsRevoked sha256) world.history
  findsUnrevoked : Throughout FindsUnrevoked world.history
  digested : ∀ i event, (i, event) ∈ world.history → Digested sha256 event

section Step

variable [ByteString B] {sha256 : Sha256 B} {i : Nat} {event : SnapshotEvent B}
  {before after : SnapshotWorld B}

theorem Step.digested (hstep : (repository sha256).Step i event before after) :
    Digested sha256 event := by
  rintro blobKey ownerId digest maxBytes bytes rfl
  obtain ⟨_, hexec⟩ := hstep.exec_eq
  have hanswer := (Prod.mk.inj hexec).2
  split at hanswer
  · cases hanswer
  split at hanswer
  · cases hanswer
  · rename_i blob _
    unfold Blob.read at hanswer
    split at hanswer
    · cases hanswer
    rename_i hidentity
    split at hanswer
    · cases hanswer
    split at hanswer
    · cases hanswer
    rename_i hintact
    cases hanswer
    rw [not_or, not_not, not_not] at hidentity
    exact (not_not.1 hintact).trans hidentity.2

theorem readInvariant_step (hkept : Kept before)
    (hstep : (repository sha256).Step i event before after) (hG : Guarantee sha256 i event before)
    (hunrevoked : unrevoked i event before = true) (h : ReadInvariant sha256 before) :
    ReadInvariant sha256 after where
  invokedFirst := hstep.invokedFirst h.invokedFirst
  revoked := by
    intro j jobId owner pending hcall hreturn
    have hpersists := persistent_revoked (isIntentKey_jobKey sha256 jobId) i event before after
      hstep hG
    rcases hstep.mem_history.1 hreturn with heq | hreturn
    · obtain ⟨rfl, rfl⟩ := Prod.mk.inj heq
      rcases hstep.mem_history.1 hcall with heq | hcall
      · cases heq
      · exact (hpersists ⟨hkept, hG jobId owner hcall⟩).2
    · have hcall := hstep.mem_of_invoke hreturn hcall
      exact (hpersists ⟨hkept, h.revoked j jobId owner pending hcall hreturn⟩).2
  findsRevoked := by
    refine h.findsRevoked.step hstep ?_
    rintro jobId record rfl j owner pending hcall hreturn
    obtain ⟨_, hget, hrevoked⟩ := h.revoked j jobId owner pending hcall hreturn
    obtain rfl := Option.some.inj (hget.symm.trans (Step.get_answer hstep).1)
    exact hrevoked
  findsUnrevoked := by
    refine h.findsUnrevoked.step hstep ?_
    rintro key record rfl hfetched
    simpa [unrevoked, hfetched, (Step.get_answer hstep).1] using hunrevoked
  digested := by
    intro j other hother
    rcases hstep.mem_history.1 hother with heq | hother
    · obtain ⟨rfl, rfl⟩ := Prod.mk.inj heq
      exact Step.digested hstep
    · exact h.digested j other hother

end Step

variable [ByteString B] {sha256 : Sha256 B}

omit [ByteString B] in
/-- Whatever two calls have found of a snapshot has the same source and the same life. -/
theorem Kept.found_same {world : SnapshotWorld B} (h : Kept world) {i j : Nat}
    {record other : Record String Snapshot} (hkey : isIntentKey key = false)
    (hrecord : Found i key record world.history) (hother : Found j key other world.history) :
    record.value.source = other.value.source ∧ record.value.expiresAt = other.value.expiresAt := by
  obtain ⟨-, _, hget, -, halike⟩ := h.found i key record hrecord hkey
  obtain ⟨-, _, hget', -, halike'⟩ := h.found j key other hother hkey
  obtain rfl := Option.some.inj (hget.symm.trans hget')
  exact ⟨halike.source_eq.symm.trans halike'.source_eq,
    halike.expiresAt_eq.symm.trans halike'.expiresAt_eq⟩

omit [ByteString B] in
/-- A read that has returned has looked at the metadata after it had fetched the bytes. -/
theorem ReadInvariant.proper {world : SnapshotWorld B} (h : ReadInvariant sha256 world)
    (hkept : Kept world) {i : Nat} {jobId sourceRefId : String} {caller : DurableUploadCaller}
    {maxBytes : Int} (hpath : Program.Path (read sha256 jobId sourceRefId caller maxBytes)
      (effectsOf i world.history) (.done result)) :
    ReadProperly sha256 jobId caller result (effectsOf i world.history) := by
  obtain ⟨first, before, _, heffects, -, ⟨now, record, found, later, rfl, hcaller, hnow,
    hactive, hlater, hhash, hsize⟩, -⟩ := read_path hpath
  have hmem (query : Query B) (answer : query.Res)
      (hanswer : (⟨query, answer⟩ : Σ query : Query B, query.Res) ∈ effectsOf i world.history) :
      (i, .effect query answer) ∈ world.history := mem_effectsOf.1 hanswer
  have hfirst : Found i (jobKey sha256 jobId) first world.history :=
    .inl (hmem _ _ (by simp [heffects]))
  have hrecord : Found i (jobKey sha256 jobId) record world.history :=
    .inl (hmem _ _ (by simp [heffects]))
  obtain ⟨hsource, hexpiry⟩ := hkept.found_same (isIntentKey_jobKey sha256 jobId) hrecord hfirst
  have hblob : (i, .effect (.getBlob first.value.snapshotBlobKey caller.ownerId
      first.value.source.contentHash maxBytes) (.ok (some result.bytes))) ∈ world.history :=
    hmem _ _ (by simp [heffects])
  have hdigest := h.digested i _ hblob _ _ _ _ _ rfl
  -- The last look at the record comes after the bytes.
  have hsplit : effectsOf i world.history =
      (⟨.get (jobKey sha256 jobId), .ok (some first)⟩ :: before ++
        [⟨.getBlob first.value.snapshotBlobKey caller.ownerId first.value.source.contentHash
          maxBytes, .ok (some result.bytes)⟩, ⟨.aborted, false⟩, ⟨.clock, now⟩]) ++
      ⟨.get (jobKey sha256 jobId), .ok (some record)⟩ ::
        [⟨.source (artifactKey record.value.source.refId), .ok (some found)⟩, ⟨.clock, later⟩] := by
    simp [heffects]
  obtain ⟨_, older, hhistory, holder⟩ := split_at_effect hsplit
  have hfetched : fetched i older = true := by
    refine List.any_eq_true.2 ⟨_, mem_effectsOf.1 (holder ▸ List.mem_append_right _
      (List.mem_cons_self ..)), by simp⟩
  have hfinds := h.findsUnrevoked
  rw [hhistory] at hfinds
  refine ⟨_, _, _, _, now, record, found, later, by rw [heffects, List.append_assoc]; rfl, hcaller,
    by rw [hdigest, hsource], hfinds.entry _ record rfl hfetched, by rw [hexpiry]; exact hnow,
    hactive, hlater, hhash, hsize⟩

/-- In a run in which no call that has fetched the bytes of a snapshot finds it revoked when it
looks at its record again, reads respect revocation. -/
theorem reads_respect_revocation (sha256 : Sha256 B)
    (actions : List (Action (Call B) Outside))
    (hunrevoked : (repository sha256).Meets
      (fun i event world => unrevoked i event world = true) initial actions) :
    Respected sha256 ((repository sha256).run initial actions).history := by
  have hrun := (ready sha256).run (verified sha256) actions
  have h := (ready sha256).preserves (verified sha256) hunrevoked (P := ReadInvariant sha256)
    (fun _ _ _ _ hkept _ hstep hG hunrevoked h => readInvariant_step hkept hstep hG hunrevoked h)
    ⟨by simp [InvokedFirst, initial, Config.initial], by simp [initial, Config.initial], trivial,
      trivial, by simp [initial, Config.initial]⟩
  constructor
  · intro i jobId sourceRefId caller maxBytes result hcall hreturn
    have hpath := hrun.consistent.returned hcall hreturn
    obtain ⟨effects, rest, read, heffects, hread, hend⟩ := hpath.bind_done
    obtain ⟨rfl, heq⟩ := Program.path_done_iff.1 hend
    cases heq
    rw [List.append_nil] at heffects
    rw [← heffects] at hread
    exact h.proper hrun.inv hread
  · intro newer i jobId sourceRefId caller maxBytes older heq j owner pending hrevoke hrevoked result
      hreturn
    have hcall : (i, .invoke (.read jobId sourceRefId caller maxBytes)) ∈
        ((repository sha256).run initial actions).history := by simp [heq]
    have hpath := hrun.consistent.returned hcall hreturn
    obtain ⟨effects, rest, read, heffects, hread, hend⟩ := hpath.bind_done
    obtain ⟨rfl, hvalue⟩ := Program.path_done_iff.1 hend
    cases hvalue
    obtain ⟨record, before, after, rfl, hunrevoked, -⟩ := read_path hread
    have hfound : (i, .effect (.get (jobKey sha256 jobId)) (.ok (some record))) ∈
        newer ++ (i, .invoke (.read jobId sourceRefId caller maxBytes)) :: older := by
      rw [← heq]
      exact mem_effectsOf.1 (by simp [heffects])
    rcases List.mem_append.1 hfound with hnewer | holder
    · obtain ⟨later, earlier, rfl⟩ := List.append_of_mem hnewer
      have hfinds := h.findsRevoked
      rw [heq, List.append_assoc, List.cons_append] at hfinds
      have := hfinds.entry jobId record rfl j owner pending (by simp [hrevoke])
        (by simp [hrevoked])
      simp [hunrevoked] at this
    · rcases List.mem_cons.1 holder with hsame | holder
      · cases hsame
      · exact absurd holder (h.invokedFirst newer i _ older heq _)

/-! ## Samples -/

/-- The digests that the samples need. -/
def sampleDigests : DigestTable where
  entries := [
    ("one", "7692c3ad3540bb803c020b3aee66cd8887123234ea0c6e7143c0add73ff431ed"),
    ("o\x00r", "8edb48ba9bd5cea39fe1f9575b69d806d16014bd9f1a4bc0e7953aca368ae8dd"),
    ("j", "189f40034be7a199f1fa9891668ee3ab6049f82d38c68be70f596eab2e1857b7"),
    ("[\"j\",\"r\",\"sha256-7692c3ad3540bb803c020b3aee66cd8887123234ea0c6e7143c0add73ff431ed\"," ++
        "\"o\",\"b\",10000000]",
      "c2dc04e06ce3175d39d8bbb8cd03d084b013ecadc8ac516e2ee4236446da5553"),
    ("document-job-snapshot:c2dc04e06ce3175d39d8bbb8cd03d084b013ecadc8ac516e2ee4236446da5553",
      "42faf1217d50e56cb0db7f92c063b1d7aa54fc7d02338b395fed1ea06b10ca38")]
  hex := by decide +kernel
  nodup := by decide +kernel

def sampleSha256 : Sha256 String := sampleDigests.sha256

def sampleCaller : DurableUploadCaller := ⟨"o", "b"⟩

/-- An artifact of three bytes. -/
def sampleSource : ArtifactState where
  refId := "r"
  ownerId := "o"
  credentialBinding := "b"
  contentHash := "sha256-7692c3ad3540bb803c020b3aee66cd8887123234ea0c6e7143c0add73ff431ed"
  byteSize := 3
  mimeType := "a/b"
  filename := "f"
  blobKey := "blobs/8edb48ba9bd5cea39fe1f9575b69d806d16014bd9f1a4bc0e7953aca368ae8dd"
  createdAt := 1000
  updatedAt := 1000
  expiresAt := 10000000
  status := .active
  cleanupReason := none

/-- What `prepare` makes of the artifact at time 2000. -/
def samplePrepared : PreparedDocumentSourceSnapshot where
  source := ⟨artifactKey "r", 1, sampleSource⟩
  record := ⟨jobKey sampleSha256 "j", newSnapshot sampleSha256 "j" sampleSource sampleCaller
    10000000, 2000, 10000000⟩
  snapshotRefId := "snap_c2dc04e06ce3175d39d8bbb8cd03d084b013ecadc8ac516e2ee4236446da5553"
  expiresAt := 10000000

/-- Call `i` takes `count` steps at the time. -/
def sampleSteps (i count : Nat) (now : Int) : List (Action (Call String) Outside) :=
  .replicate count (.advance i ⟨false, now, false, true, .conflict⟩)

/-- An artifact is uploaded, and a snapshot of it is prepared. -/
def sampleTaken : List (Action (Call String) Outside) :=
  .invoke (.storeSource "o" "r" sampleSource.contentHash "one") :: sampleSteps 0 2 1000 ++
    .invoke (.publishSource sampleSource 1000) :: sampleSteps 1 2 1000 ++
    .invoke (.prepare "j" "r" sampleCaller 10000000 3) :: sampleSteps 2 14 2000

/-- The snapshot is published and read, at first up to the bytes. -/
def sampleRead : List (Action (Call String) Outside) :=
  sampleTaken ++ .invoke (.commit samplePrepared []) :: sampleSteps 3 4 2000 ++
    .invoke (.read "j" "r" sampleCaller 3) :: sampleSteps 4 7 3000

/-- What the read returns. -/
def sampleResult : DurableArtifactRead String :=
  snapshotRead samplePrepared.record.value "r" sampleCaller "one"

/-- The read ends, and the snapshot is revoked. -/
def sampleRespected : List (Action (Call String) Outside) :=
  sampleRead ++ sampleSteps 4 6 3000 ++ .invoke (.revoke "j" sampleCaller) :: sampleSteps 5 9 4000

/-- The snapshot is revoked before the read ends. -/
def sampleIgnored : List (Action (Call String) Outside) :=
  sampleRead ++ .invoke (.revoke "j" sampleCaller) :: sampleSteps 5 9 4000 ++ sampleSteps 4 6 5000

/-- Whether the last record that a call has looked at was revoked. -/
def lastRevoked (effects : Effects B) : Bool :=
  match effects.reverse with
  | _ :: _ :: ⟨.get _, .ok (some record)⟩ :: _ => record.value.revoked
  | _ => false

omit [ByteString B] in
theorem ReadProperly.not_lastRevoked {jobId : String} {caller : DurableUploadCaller}
    {effects : Effects B} (h : ReadProperly sha256 jobId caller result effects) :
    lastRevoked effects = false := by
  obtain ⟨_, _, _, _, _, _, _, _, rfl, -, -, hrevoked, -⟩ := h
  simpa [lastRevoked] using hrevoked

theorem sample_runs :
    ((repository sampleSha256).checks unrevoked initial sampleRespected &&
      returned 4 (.read sampleResult)
        ((repository sampleSha256).run initial sampleRespected).history &&
      returned 5 (.revoked false) ((repository sampleSha256).run initial sampleRespected).history &&
      let ignored := (repository sampleSha256).run initial sampleIgnored
      called 4 (.read "j" "r" sampleCaller 3) ignored.history &&
        returned 4 (.read sampleResult) ignored.history &&
        lastRevoked (effectsOf 4 ignored.history)) = true := by
  decide +kernel

/-- A snapshot is read, and then revoked. -/
theorem reads_respect_revocation_sample :
    Respected sampleSha256 ((repository sampleSha256).run initial sampleRespected).history ∧
      (4, .response (.ok (.read sampleResult))) ∈
        ((repository sampleSha256).run initial sampleRespected).history ∧
      (5, .response (.ok (.revoked false))) ∈
        ((repository sampleSha256).run initial sampleRespected).history := by
  obtain ⟨⟨⟨hchecks, hread⟩, hrevoked⟩, -⟩ : ((_ ∧ _) ∧ _) ∧ _ := by
    simpa only [Bool.and_eq_true] using sample_runs
  exact ⟨reads_respect_revocation sampleSha256 sampleRespected (meets_of_checks hchecks),
    mem_of_returned hread, mem_of_returned hrevoked⟩

/-- A read returns bytes although it has last found their snapshot revoked. -/
theorem revoked_bytes_returned : ¬ ∀ sha256 : Sha256 String, Function.Injective sha256.text →
    ∀ actions : List (Action (Call String) Outside),
      Respected sha256 ((repository sha256).run initial actions).history := by
  intro h
  obtain ⟨-, ⟨hcalled, hread⟩, hrevoked⟩ : _ ∧ (_ ∧ _) ∧ _ := by
    simpa only [Bool.and_eq_true] using sample_runs
  have hproper := (h sampleSha256 sampleDigests.sha256_injective sampleIgnored).proper 4 _ _ _ _ _
    (mem_of_called hcalled) (mem_of_returned hread)
  simp [hproper.not_lastRevoked] at hrevoked

end Groundlane.Snapshots
