import Groundlane.Artifacts.Lifecycle

/-!
# Puts at the same time

Runs in which all calls are puts. The key of the bytes depends on the caller, the artifact and
the digest, not on the rest of the metadata, so two puts of different metadata may share their
bytes; a put that is refused deletes the bytes if it has created them. When it does so only
while every other put that has found them in place is barred from a record of its own, all
records have their bytes (`put_keeps_bytes`); otherwise the record of the put that won is left
without them (`put_loses_bytes`).
-/

namespace Groundlane.Artifacts

open Fenced Interleaving

variable {B : Type} [ByteString B] {sha256 : Sha256 B}

/-- The bytes that the metadata speaks of are in the blob store. -/
def BytesStored (sha256 : Sha256 B) (metadata : StoredDurableArtifactMetadata)
    (world : ArtifactWorld B) : Prop :=
  ∃ blob, world.state.blobs metadata.blobKey = some blob ∧
    blob.ownerId = blobOwnerId sha256 metadata ∧ blob.digest = metadata.contentHash

/-- Every call is a put. -/
def putsOnly (_ : Nat) (event : ArtifactEvent B) (_ : ArtifactWorld B) : Bool :=
  match event with
  | .invoke (.put _) => true
  | .invoke _ => false
  | _ => true

/-- Whether call `i` has put its bytes in place, or found them there. -/
def inPlace (i : Nat) (history : ArtifactHistory B) : Bool :=
  history.any fun
    | (j, .effect (.putIfAbsent ..) (.created _)) => j == i
    | (j, .effect (.putIfAbsent ..) (.exists _)) => j == i
    | _ => false

/-- Whether a different record is stored where the put wants its own. -/
def barred (sha256 : Sha256 B) (input : PutDurableArtifactInput B) (world : ArtifactWorld B) :
    Bool :=
  (storedMetadata input.refId world).any fun metadata =>
    !sameArtifact metadata (putMetadata sha256 input)

/-- When bytes are deleted, every other put that has them in place and whose record passes the
checks is barred from it. -/
def spares (sha256 : Sha256 B) (i : Nat) (event : ArtifactEvent B) (world : ArtifactWorld B) :
    Bool :=
  match event with
  | .effect (.deleteIfOwner key _) _ => world.history.all fun
    | (j, .invoke (.put input)) =>
      j == i || (putMetadata sha256 input).blobKey != key || !inPlace j world.history ||
        !writable sha256 input || barred sha256 input world
    | _ => true
  | _ => true

/-- What holds throughout a run of puts. -/
structure PutInvariant (sha256 : Sha256 B) (world : ArtifactWorld B) : Prop where
  puts : ∀ i call, (i, .invoke call) ∈ world.history → ∃ input, call = .put input
  answered : ∀ i refId value nowMs expiresAt answer,
    (i, .effect (.createIfAbsent (artifactKey refId) value nowMs expiresAt) answer) ∈
      world.history → world.state.records.get (artifactKey refId) = some answer.record
  placed : ∀ i input, Placed sha256 i input world.history → writable sha256 input = true →
    BytesStored sha256 (putMetadata sha256 input) world ∨ barred sha256 input world = true
  records : ∀ refId metadata, storedMetadata refId world = some metadata →
    ∃ i input, Placed sha256 i input world.history ∧ writable sha256 input = true ∧
      input.refId = refId ∧ putMetadata sha256 input = metadata

theorem putInvariant_initial :
    PutInvariant sha256 (initial : Config (Call B) _ _ _ _ _).toWorld where
  puts := by simp [initial, Config.initial]
  answered := by simp [initial, Config.initial]
  placed := by simp [Placed, initial, Config.initial]
  records := by simp [storedMetadata, initial, Config.initial, Disk.empty]

variable {input : PutDurableArtifactInput B}

theorem Placed.inPlace {i : Nat} {history : ArtifactHistory B} (h : Placed sha256 i input history) :
    inPlace i history = true := by
  obtain ⟨-, answer, hmem, hanswer⟩ := h
  refine List.any_eq_true.2 ⟨_, hmem, ?_⟩
  cases answer with
  | created stat => simp
  | «exists» stat => simp
  | conflict stat => exact absurd rfl (hanswer stat)

theorem sameArtifact_refl (metadata : StoredDurableArtifactMetadata) :
    sameArtifact metadata metadata = true := by
  simp [sameArtifact]

/-! ## Steps -/

section Step

variable {i : Nat} {event : ArtifactEvent B} {before after : ArtifactWorld B}

/-- A call that is a put does not maintain records. -/
theorem PutInvariant.not_maintains (h : PutInvariant sha256 before) :
    ¬ Maintains i before.history := by
  rintro ⟨call, hcall, hput⟩
  obtain ⟨input, rfl⟩ := h.puts i call hcall
  exact hput input rfl

/-- Puts leave records alone. -/
theorem PutInvariant.get_step (h : PutInvariant sha256 before)
    (hstep : (repository sha256).Step i event before after) (hG : Guarantee sha256 i event before)
    {refId : String} {record : Record String ArtifactValue}
    (hget : before.state.records.get (artifactKey refId) = some record) :
    after.state.records.get (artifactKey refId) = some record := by
  rcases artifact_cases hstep hG refId with hsame | ⟨_, _, _, _, _, _, hnone, _⟩ |
    ⟨_, _, _, _, _, hmaintains, _⟩ | ⟨_, hmaintains, _⟩
  · exact hsame.trans hget
  · simp [hnone] at hget
  · exact absurd hmaintains h.not_maintains
  · exact absurd hmaintains h.not_maintains

theorem PutInvariant.barred_step (h : PutInvariant sha256 before)
    (hstep : (repository sha256).Step i event before after) (hG : Guarantee sha256 i event before)
    (hbarred : barred sha256 input before = true) : barred sha256 input after = true := by
  obtain ⟨metadata, hstored, hdifferent⟩ := (Option.any_eq_true _ _).1 hbarred
  obtain ⟨record, hget, hvalue⟩ := storedMetadata_eq.1 hstored
  exact (Option.any_eq_true _ _).2
    ⟨metadata, storedMetadata_eq.2 ⟨record, h.get_step hstep hG hget, hvalue⟩, hdifferent⟩

/-- A put that is refused, and whose record passes the checks, is barred from it. -/
theorem PutInvariant.barred_of_refused (h : PutInvariant sha256 before)
    (hrefused : Refused sha256 i input before.history) (hwritable : writable sha256 input = true) :
    barred sha256 input before = true := by
  obtain ⟨-, hwritable' | ⟨_, _, answer, metadata, hmem, hvalue, hdifferent⟩⟩ :=
    hrefused
  · simp [hwritable'] at hwritable
  · have hstored := storedMetadata_eq.2 ⟨answer.record, h.answered _ _ _ _ _ _ hmem, hvalue⟩
    exact (Option.any_eq_true _ _).2 ⟨metadata, hstored, by simp [hdifferent]⟩

/-- While bytes are deleted, every put that has them in place is barred from its record. -/
theorem PutInvariant.barred_of_deleted (h : PutInvariant sha256 before)
    (haccounted : (repository sha256).Accounted after) {key ownerId : String}
    {answer : BlobDeleteResult}
    (hstep : (repository sha256).Step i (.effect (.deleteIfOwner key ownerId) answer) before after)
    (hG : Guarantee sha256 i (.effect (.deleteIfOwner key ownerId) answer) before)
    (hspares : spares sha256 i (.effect (.deleteIfOwner key ownerId) answer) before = true)
    {j : Nat} (hplaced : Placed sha256 j input before.history)
    (hkey : (putMetadata sha256 input).blobKey = key) (hwritable : writable sha256 input = true) :
    barred sha256 input before = true := by
  by_cases hj : j = i
  · subst hj
    rcases hG with ⟨_, hrefused, -⟩ | ⟨hmaintains, -⟩
    · have hsame := haccounted.invoke_unique (hstep.history_mono hplaced.1)
        (hstep.history_mono hrefused.1.1)
      obtain rfl := Call.put.inj hsame
      exact h.barred_of_refused hrefused hwritable
    · exact absurd hmaintains h.not_maintains
  · have hcall := List.all_eq_true.1 hspares _ hplaced.1
    simpa [hj, hkey, hplaced.inPlace, hwritable] using hcall

theorem PutInvariant.placed_step (h : PutInvariant sha256 before)
    (haccounted : (repository sha256).Accounted after)
    (hstep : (repository sha256).Step i event before after) (hG : Guarantee sha256 i event before)
    (hspares : spares sha256 i event before = true) {j : Nat}
    (hplaced : Placed sha256 j input after.history) (hwritable : writable sha256 input = true) :
    BytesStored sha256 (putMetadata sha256 input) after ∨ barred sha256 input after = true := by
  obtain ⟨hcall, answer, hmem, hanswer⟩ := hplaced
  rcases hstep.mem_history.1 hmem with heq | hmem
  · obtain ⟨rfl, rfl⟩ := Prod.mk.inj heq
    obtain ⟨blob, hblob, hstat⟩ := (Step.putIfAbsent_answer hstep).resolve_left
      fun ⟨stat, hstat⟩ => hanswer stat hstat
    exact .inl ⟨blob, hblob, congrArg ImmutableBlobStat.ownerId hstat,
      congrArg ImmutableBlobStat.digest hstat⟩
  · have hplaced : Placed sha256 j input before.history :=
      ⟨hstep.mem_of_invoke hmem hcall, answer, hmem, hanswer⟩
    rcases h.placed j input hplaced hwritable with ⟨blob, hblob, hstat⟩ | hbarred
    · rcases Step.blob_cases hstep (putMetadata sha256 input).blobKey with
        hsame | ⟨_, _, hnone, _⟩ | ⟨_, rfl, _, _⟩
      · exact .inl ⟨blob, hsame.trans hblob, hstat⟩
      · simp [hnone] at hblob
      · exact .inr (h.barred_step hstep hG
          (h.barred_of_deleted haccounted hstep hG hspares hplaced rfl hwritable))
    · exact .inr (h.barred_step hstep hG hbarred)

/-- A step of a run of puts that spares the bytes of the others preserves the invariant. -/
theorem putInvariant_step (h : PutInvariant sha256 before)
    (haccounted : (repository sha256).Accounted after)
    (hstep : (repository sha256).Step i event before after) (hG : Guarantee sha256 i event before)
    (hputs : putsOnly i event before = true) (hspares : spares sha256 i event before = true) :
    PutInvariant sha256 after where
  puts := by
    intro j call hcall
    rcases hstep.mem_history.1 hcall with heq | hcall
    · obtain ⟨rfl, rfl⟩ := Prod.mk.inj heq
      cases call with
      | put input => exact ⟨input, rfl⟩
      | _ => cases hputs
    · exact h.puts j call hcall
  answered := by
    intro j refId value nowMs expiresAt answer hmem
    rcases hstep.mem_history.1 hmem with heq | hmem
    · obtain ⟨rfl, rfl⟩ := Prod.mk.inj heq
      exact (Step.createIfAbsent_answer hstep).1
    · exact h.get_step hstep hG (h.answered j refId value nowMs expiresAt answer hmem)
  placed _ _ hplaced hwritable := h.placed_step haccounted hstep hG hspares hplaced hwritable
  records := by
    intro refId metadata hstored
    have hmono : before.history ⊆ after.history := fun _ => hstep.history_mono
    obtain ⟨record, hget, hvalue⟩ := storedMetadata_eq.1 hstored
    rcases artifact_cases hstep hG refId with
      hsame | ⟨input, _, _, hplaced, hwritable, hrefId, -, -, hafter⟩ |
      ⟨_, _, _, _, _, hmaintains, _⟩ | ⟨_, hmaintains, _⟩
    · obtain ⟨j, input, hplaced, hrest⟩ :=
        h.records refId metadata (storedMetadata_eq.2 ⟨record, hsame.symm.trans hget, hvalue⟩)
      exact ⟨j, input, hplaced.mono hmono, hrest⟩
    · obtain rfl := Option.some.inj (hafter.symm.trans hget)
      exact ⟨i, input, hplaced.mono hmono, hwritable, hrefId, ArtifactValue.metadata.inj hvalue⟩
    · exact absurd hmaintains h.not_maintains
    · exact absurd hmaintains h.not_maintains

end Step

/-! ## Runs -/

/-- In a run of puts in which bytes are deleted only while every other put that has found them
in place is barred from its record, every record has its bytes. -/
theorem put_keeps_bytes (sha256 : Sha256 B) (actions : List (Action (Call B) (Oracle Answer)))
    (hputs : (repository sha256).Meets (fun i event world => putsOnly i event world = true)
      initial actions)
    (hspares : (repository sha256).Meets
      (fun i event world => spares sha256 i event world = true) initial actions)
    (refId : String) (metadata : StoredDurableArtifactMetadata)
    (hstored : storedMetadata refId ((repository sha256).run initial actions).toWorld =
      some metadata) :
    BytesStored sha256 metadata ((repository sha256).run initial actions).toWorld := by
  have hinv := (ready sha256).preserves (verified sha256) (hputs.and hspares)
    (P := PutInvariant sha256)
    (fun i event before after _ haccounted hstep hG hmeets h =>
      putInvariant_step h haccounted hstep hG hmeets.1 hmeets.2) putInvariant_initial
  obtain ⟨i, input, hplaced, hwritable, rfl, rfl⟩ := hinv.records refId metadata hstored
  refine (hinv.placed i input hplaced hwritable).resolve_right fun hbarred => ?_
  obtain ⟨other, hother, hdifferent⟩ := (Option.any_eq_true _ _).1 hbarred
  obtain rfl := Option.some.inj (hother.symm.trans hstored)
  simp [sameArtifact_refl] at hdifferent

/-- Two puts of the same artifact at the same time. -/
def sampleTwice : List (Action (Call String) (Oracle Answer)) :=
  [.invoke (.put putOne), .invoke (.put putOne)] ++ sampleSteps 0 1 ++ sampleSteps 1 3 ++
    sampleSteps 0 2

/-- The first put creates the bytes, the second one a record with another expiry, and the first
one finds that record. -/
def sampleRace : List (Action (Call String) (Oracle Answer)) :=
  [.invoke (.put putOne), .invoke (.put { putOne with expiresAt := 3000 })] ++ sampleSteps 0 1 ++
    sampleSteps 1 3 ++ sampleSteps 0 3

theorem put_keeps_bytes_sample :
    ∃ metadata, storedMetadata "r"
        ((repository sampleDigests.sha256).run initial sampleTwice).toWorld = some metadata ∧
      BytesStored sampleDigests.sha256 metadata
        ((repository sampleDigests.sha256).run initial sampleTwice).toWorld := by
  have hrun : ((repository sampleDigests.sha256).checks
        (fun i event world => putsOnly i event world && spares sampleDigests.sha256 i event world)
        initial sampleTwice &&
      (storedMetadata "r"
        ((repository sampleDigests.sha256).run initial sampleTwice).toWorld).isSome) = true := by
    decide +kernel
  rw [Bool.and_eq_true, Option.isSome_iff_exists] at hrun
  obtain ⟨hchecks, metadata, hstored⟩ := hrun
  have hmeets := System.meets_of_checks hchecks
  exact ⟨metadata, hstored, put_keeps_bytes sampleDigests.sha256 sampleTwice
    (hmeets.mono fun _ _ _ h => ((Bool.and_eq_true _ _).mp h).1)
    (hmeets.mono fun _ _ _ h => ((Bool.and_eq_true _ _).mp h).2) "r" metadata hstored⟩

/-- After two puts of different metadata for the same bytes, the record that was created is
active and its bytes are gone. -/
theorem put_loses_bytes : ¬ ∀ sha256 : Sha256 String, Function.Injective sha256.text →
    ∀ (actions : List (Action (Call String) (Oracle Answer))) (refId : String)
      (metadata : StoredDurableArtifactMetadata),
      (repository sha256).Meets (fun i event world => putsOnly i event world = true) initial
        actions →
      (∀ thread ∈ ((repository sha256).run initial actions).threads, thread.program = none) →
      storedMetadata refId ((repository sha256).run initial actions).toWorld = some metadata →
      metadata.status = .active →
      BytesStored sha256 metadata ((repository sha256).run initial actions).toWorld := by
  intro h
  have hrun : ((repository sampleDigests.sha256).checks putsOnly initial sampleRace &&
      ((repository sampleDigests.sha256).run initial sampleRace).threads.all
        (fun thread => thread.program.isNone) &&
      (storedMetadata "r" ((repository sampleDigests.sha256).run initial sampleRace).toWorld).any
        fun metadata => metadata.status == .active &&
          (((repository sampleDigests.sha256).run initial sampleRace).state.blobs
            metadata.blobKey).isNone) = true := by
    decide +kernel
  simp only [Bool.and_eq_true, Option.any_eq_true, List.all_eq_true, Option.isNone_iff_eq_none,
    beq_iff_eq] at hrun
  obtain ⟨⟨hchecks, hfinished⟩, metadata, hstored, hactive, hgone⟩ := hrun
  obtain ⟨blob, hblob, -⟩ := h sampleDigests.sha256 sampleDigests.sha256_injective sampleRace "r"
    metadata (System.meets_of_checks hchecks) hfinished hstored hactive
  simp [hgone] at hblob

end Groundlane.Artifacts
