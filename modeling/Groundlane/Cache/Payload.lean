import Groundlane.Cache.Revocation

/-!
# The bytes of cached documents

A core that refers to a blob is written by a commit that has the blob in place, and the blob is
still there unless it was deleted in between. When payloads are deleted only while no unexpired
core refers to them, and no other commit that has them in place may still write its core, every
unexpired core has its bytes (`payload_present`). The repository deletes a payload by what it has
read before, so a core may be left without bytes (`payload_lost`).
-/

namespace Groundlane.DocumentCache

open Fenced Interleaving

variable {D B : Type}

/-- Whether a sweep takes what expires at this time for expired. -/
def expiredBy (history : CacheHistory D B) (expiresAt : Int) : Bool :=
  history.any fun
    | (_, .invoke (.sweepExpiredPage nowMs _ _)) => decide (expiresAt ≤ nowMs)
    | _ => false

/-- Whether call `i` will not write its core any more. -/
def settled (i : Nat) (history : CacheHistory D B) : Bool :=
  history.any fun entry => entry.1 == i && settles entry.2

/-- A payload is deleted only if every stored core that refers to it has expired, and every other
call that has it in place will not write its core any more. -/
def spares (i : Nat) (event : CacheEvent D B) (world : CacheWorld D B) : Bool :=
  match event with
  | .effect (.deleteIfOwner key _) _ =>
    (world.state.records.records.all fun record =>
      match record.value with
      | .core core => core.payload.blobKey? != some key || expiredBy world.history core.expiresAt
      | _ => true) &&
    world.history.all fun
      | (_, .effect (.putIfAbsent ..) (.conflict _)) => true
      | (j, .effect (.putIfAbsent blobKey ..) _) =>
        j == i || blobKey != key || settled j world.history
      | _ => true
  | _ => true

theorem Unsettled.settled_eq {i : Nat} {history : CacheHistory D B} (h : Unsettled i history) :
    settled i history = false := by
  rw [settled, List.any_eq_false]
  rintro ⟨j, event⟩ hmem
  simp only [Bool.and_eq_true, beq_iff_eq, not_and]
  rintro rfl
  simp [h event hmem]

theorem expiredBy_mono {history later : CacheHistory D B} (hsub : history ⊆ later)
    {expiresAt : Int} (h : expiredBy history expiresAt = true) : expiredBy later expiresAt = true := by
  obtain ⟨entry, hmem, htest⟩ := List.any_eq_true.1 h
  exact List.any_eq_true.2 ⟨entry, hsub hmem, htest⟩

variable [ByteString B]

/-- The bytes that the core refers to are in the blob store. -/
def PayloadPresent (core : DurableCacheCore D) (world : CacheWorld D B) : Prop :=
  ∀ blobKey digest byteSize, core.payload = .payloadBlob blobKey digest byteSize →
    ∃ blob, world.state.blobs blobKey = some blob ∧
      blob.stat blobKey = ⟨blobKey, core.key.ownershipScope, digest, byteSize⟩

/-- What holds throughout a run in which `spares` does. -/
structure PayloadInvariant (world : CacheWorld D B) : Prop where
  placed : ∀ i blobKey ownerId digest bytes, InPlace i blobKey ownerId digest bytes world.history →
    Unsettled i world.history → ∃ blob, world.state.blobs blobKey = some blob ∧
      blob.stat blobKey = (⟨ownerId, digest, bytes⟩ : Blob B).stat blobKey
  cores : ∀ key record core, world.state.records.get key = some record →
    record.value = .core core → expiredBy world.history core.expiresAt = false →
    PayloadPresent core world

theorem payloadInvariant_initial :
    PayloadInvariant (initial : Config (Call D) (Op (CacheValue D) B Request) _ _ _ _).toWorld where
  placed := by simp [InPlace, initial, Config.initial]
  cores := by simp [initial, Config.initial, Disk.empty]

section Step

variable [CacheData D B] {repository : DurableDocumentCacheRepository B} {i : Nat}
  {event : CacheEvent D B} {before after : CacheWorld D B}

/-- Bytes that a call has in place stay there while it may still write its core. -/
theorem PayloadInvariant.placed_step (h : PayloadInvariant before)
    (hstep : repository.system.Step i event before after) (hspares : spares i event before = true)
    {j : Nat} {blobKey ownerId digest : String} {bytes : B}
    (hplace : InPlace j blobKey ownerId digest bytes after.history)
    (hunsettled : Unsettled j after.history) :
    ∃ blob, after.state.blobs blobKey = some blob ∧
      blob.stat blobKey = (⟨ownerId, digest, bytes⟩ : Blob B).stat blobKey := by
  obtain ⟨answer, hmem, hanswer⟩ := hplace
  rcases hstep.mem_history.1 hmem with heq | hmem
  · obtain ⟨rfl, rfl⟩ := Prod.mk.inj heq
    exact (Step.putIfAbsent_answer hstep).resolve_left fun ⟨stat, hstat⟩ => hanswer stat hstat
  · have hbefore : Unsettled j before.history :=
      fun event hevent => hunsettled event (hstep.history_mono hevent)
    obtain ⟨blob, hblob, hstat⟩ := h.placed j _ _ _ _ ⟨answer, hmem, hanswer⟩ hbefore
    rcases Step.blob_cases hstep blobKey with hsame | ⟨_, _, hnone, _⟩ | ⟨_, rfl, _, _⟩
    · exact ⟨blob, hsame.trans hblob, hstat⟩
    · simp [hnone] at hblob
    · -- Who deletes a payload settles itself, and spares the others.
      by_cases hj : j = i
      · subst hj
        simpa [settles] using hunsettled _ (hstep.mem_history.2 (.inl rfl))
      · simp only [spares, Bool.and_eq_true, List.all_eq_true] at hspares
        have hput := hspares.2 _ hmem
        cases answer with
        | conflict stat => exact absurd rfl (hanswer stat)
        | created stat => simp [hj, hbefore.settled_eq] at hput
        | «exists» stat => simp [hj, hbefore.settled_eq] at hput

/-- An unexpired core keeps its bytes. -/
theorem PayloadInvariant.cores_step (h : PayloadInvariant before)
    (hstep : repository.system.Step i event before after) (hG : Guarantee repository i event before)
    (hspares : spares i event before = true) {key : String}
    {record : Record String (CacheValue D)} {core : DurableCacheCore D}
    (hget : after.state.records.get key = some record) (hvalue : record.value = .core core)
    (hexpiry : expiredBy after.history core.expiresAt = false) : PayloadPresent core after := by
  intro blobKey digest byteSize hpayload
  have hexpiry : expiredBy before.history core.expiresAt = false := by
    rw [← Bool.not_eq_true] at hexpiry ⊢
    exact fun hexpired => hexpiry (expiredBy_mono (fun _ => hstep.history_mono) hexpired)
  have hpresent : ∃ blob, before.state.blobs blobKey = some blob ∧
      blob.stat blobKey = ⟨blobKey, core.key.ownershipScope, digest, byteSize⟩ := by
    rcases stored_core_cases hstep hG hget hvalue with hbefore | ⟨-, hcore, hunsettled⟩
    · exact h.cores key record core hbefore hvalue hexpiry blobKey digest byteSize hpayload
    · obtain ⟨_, _, -, -, hplace⟩ := hcore
      simp only [PayloadOf, hpayload] at hplace
      obtain ⟨-, rfl, hplace⟩ := hplace
      exact h.placed i _ _ _ _ hplace hunsettled
  obtain ⟨blob, hblob, hstat⟩ := hpresent
  rcases Step.blob_cases hstep blobKey with hsame | ⟨_, _, hnone, _⟩ | ⟨_, rfl, _, _⟩
  · exact ⟨blob, hsame.trans hblob, hstat⟩
  · simp [hnone] at hblob
  · have hbefore : before.state.records.get key = some record := by
      rcases Step.record_cases hstep key with hsame | ⟨_, _, _, heq, _⟩ | ⟨_, _, _, _, heq, _⟩ |
        ⟨_, heq, _⟩
      · exact hsame.symm.trans hget
      · cases heq
      · cases heq
      · cases heq
    simp only [spares, Bool.and_eq_true, List.all_eq_true] at hspares
    have hreferred := hspares.1 record (Store.get_mem hbefore)
    simp [hvalue, hpayload, CorePayload.blobKey?, hexpiry] at hreferred

end Step

variable [CacheData D B]

/-- In a run in which payloads are deleted only while no unexpired core refers to them and no
other commit that has them in place may still write its core, every core that no sweep of the
run takes for expired has its bytes. -/
theorem payload_present (repository : DurableDocumentCacheRepository B)
    (actions : List (Action (Call D) (Oracle (Answer D))))
    (hspares : repository.system.Meets (fun i event world => spares i event world = true) initial
      actions) (key : String) (record : Record String (CacheValue D)) (core : DurableCacheCore D)
    (hget : (repository.system.run initial actions).state.records.get key = some record)
    (hvalue : record.value = .core core)
    (hexpiry : expiredBy (repository.system.run initial actions).history core.expiresAt = false) :
    PayloadPresent core (repository.system.run initial actions).toWorld :=
  ((ready repository).preserves (verified repository) hspares (P := PayloadInvariant)
    (fun _ _ _ _ _ _ hstep hG hspares h =>
      { placed := fun _ _ _ _ _ hplace => h.placed_step hstep hspares hplace
        cores := fun _ _ _ hget hvalue => h.cores_step hstep hG hspares hget hvalue })
    payloadInvariant_initial).cores key record core hget hvalue hexpiry

/-! ## Samples -/

/-- A repository with a blob store. -/
def payloadRepository : DurableDocumentCacheRepository String :=
  ⟨sampleDigests.sha256, 8, true, sampleRepository.positive⟩

/-- Results are kept for a day. -/
def dayConfig : CacheConfig := ⟨86400, none, true, none⟩

/-- A commit stores its payload. -/
def sampleStored : List (Action (Call Bool) (Oracle (Answer Bool))) :=
  .invoke (.commit dayConfig (sampleIdentity "a:b" "c") ⟨true, true, 1, "e", "m"⟩
    ⟨.ordinary, some ⟨none⟩, false, none⟩) :: sampleSteps 0 2

/-- Before the commit writes its core, a sweep finds that the cleanup marker of the payload has
expired. -/
def sampleSwept : List (Action (Call Bool) (Oracle (Answer Bool))) :=
  sampleStored ++ .invoke (.sweepExpiredPage 3601000 none 10) :: sampleSteps 1 5 ++ sampleSteps 0 7

/-- The core of the samples, if it is stored and has not expired for any sweep. -/
def storedCore (world : CacheWorld Bool String) : Option (DurableCacheCore Bool) :=
  match world.state.records.get
    "document-cache.core.89c9b227baa93e1cf63072a93b55609499da885661307f8b78f16f1d27206607" with
  | some ⟨_, .core core, _, _, _, _⟩ =>
    if expiredBy world.history core.expiresAt then none else some core
  | _ => none

example : (storedCore initial.toWorld).isNone = true := by decide +kernel

theorem storedCore_eq {world : CacheWorld Bool String} {core : DurableCacheCore Bool}
    (h : storedCore world = some core) :
    ∃ key record, world.state.records.get key = some record ∧ record.value = .core core ∧
      expiredBy world.history core.expiresAt = false := by
  unfold storedCore at h
  split at h
  · rename_i hget
    split at h
    · cases h
    · rename_i hexpiry
      obtain rfl := Option.some.inj h
      exact ⟨_, _, hget, rfl, Bool.not_eq_true _ ▸ hexpiry⟩
  · cases h

/-- The committed document has its payload. -/
theorem payload_present_sample :
    ∃ (core : DurableCacheCore Bool) (blobKey digest : String) (byteSize : Nat),
      core.payload = .payloadBlob blobKey digest byteSize ∧ ∃ blob,
        (payloadRepository.system.run initial (sampleStored ++ sampleSteps 0 1)).state.blobs blobKey = some blob ∧
        blob.stat blobKey = ⟨blobKey, core.key.ownershipScope, digest, byteSize⟩ := by
  have hrun : (payloadRepository.system.checks spares initial (sampleStored ++ sampleSteps 0 1) &&
      (storedCore (payloadRepository.system.run initial (sampleStored ++ sampleSteps 0 1)).toWorld).any
        fun core => core.payload.blobKey?.isSome) = true := by
    decide +kernel
  rw [Bool.and_eq_true, Option.any_eq_true] at hrun
  obtain ⟨hchecks, core, hcore, hblob⟩ := hrun
  obtain ⟨key, record, hget, hvalue, hexpiry⟩ := storedCore_eq hcore
  have hpresent := payload_present payloadRepository _ (System.meets_of_checks hchecks)
    key record core hget hvalue hexpiry
  cases hpayload : core.payload with
  | data data => simp [hpayload, CorePayload.blobKey?] at hblob
  | payloadBlob blobKey digest byteSize =>
      exact ⟨core, blobKey, digest, byteSize, hpayload, hpresent _ _ _ hpayload⟩

/-- After a commit and a sweep at the same time have finished, the stored core refers to a payload
that is gone. -/
theorem payload_lost : ¬ ∀ repository : DurableDocumentCacheRepository String,
    repository.hasPayloads = true → Function.Injective repository.sha256.text →
    Function.Injective repository.sha256.bytes →
    ∀ (actions : List (Action (Call Bool) (Oracle (Answer Bool)))) (key : String)
      (record : Record String (CacheValue Bool)) (core : DurableCacheCore Bool),
      (∀ thread ∈ (repository.system.run initial actions).threads, thread.program = none) →
      (repository.system.run initial actions).state.records.get key = some record →
      record.value = .core core →
      expiredBy (repository.system.run initial actions).history core.expiresAt = false →
      PayloadPresent core (repository.system.run initial actions).toWorld := by
  intro h
  have hrun : ((payloadRepository.system.run initial sampleSwept).threads.all
        (fun thread => thread.program.isNone) &&
      (storedCore (payloadRepository.system.run initial sampleSwept).toWorld).any
        fun core => core.payload.blobKey?.any fun blobKey =>
          ((payloadRepository.system.run initial sampleSwept).state.blobs blobKey).isNone) =
      true := by
    decide +kernel
  simp only [Bool.and_eq_true, Option.any_eq_true, List.all_eq_true, Option.isNone_iff_eq_none]
    at hrun
  obtain ⟨hfinished, core, hcore, blobKey, hblobKey, hgone⟩ := hrun
  obtain ⟨key, record, hget, hvalue, hexpiry⟩ := storedCore_eq hcore
  have hpresent := h payloadRepository rfl sampleDigests.sha256_injective
    sampleDigests.sha256_injective sampleSwept key record core hfinished hget hvalue hexpiry
  cases hpayload : core.payload with
  | data data => simp [hpayload, CorePayload.blobKey?] at hblobKey
  | payloadBlob blobKey' digest byteSize =>
      obtain ⟨blob, hblob, -⟩ := hpresent _ _ _ hpayload
      rw [hpayload] at hblobKey
      obtain rfl := Option.some.inj hblobKey
      simp [hgone] at hblob

/-- The sweep does not know of payloads that are stored with their core. -/
example : (CorePayload.data true).blobKey? = none := by decide +kernel

end Groundlane.DocumentCache
