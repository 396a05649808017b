import Groundlane.Uploads.Guarantee

/-!
# Every call of the upload service keeps the guarantee

One lemma for each function of the service, in the order in which they call each other; the
result is `verified`. What a call knows of a record is that it was told of it; only the removal
of a blob has to be the last thing that the call has done when it settles the artifact.
-/

namespace Groundlane.Uploads

open Fenced Interleaving Interleaving.System

variable {B : Type} [ByteString B] {service : DurableUploadArtifactService B} {i : Nat}
  {world : UploadWorld B}

/-- What the other calls may do meanwhile. -/
abbrev Meanwhile (service : DurableUploadArtifactService B) (i : Nat) :
    UploadWorld B → UploadWorld B → Prop :=
  Rely (uploads service) (Guarantee service.sha256) i

/-- What all calls may do. -/
abbrev Grows (service : DurableUploadArtifactService B) : UploadWorld B → UploadWorld B → Prop :=
  Evolves (uploads service) (Guarantee service.sha256)

/-- The program keeps the guarantee as a part of call `i`, and `Q` holds of what it returns. -/
abbrev UploadSafe {α : Type} (service : DurableUploadArtifactService B) (i : Nat)
    (Q : α → UploadWorld B → Prop) (program : UploadIo B α) (world : UploadWorld B) : Prop :=
  Safe (uploads service) (Guarantee service.sha256) (Meanwhile service i) i (Returning Q) program
    world

/-- The history grows. -/
theorem grows {now : UploadWorld B}
    (h : Evolves (uploads service) (Guarantee service.sha256) world now) :
    world.history ⊆ now.history :=
  fun entry hentry => (persistent_mem_history entry).evolves h hentry

/-- The rule of sequence, at the types of the service. -/
theorem UploadSafe.andThen {α β : Type} {middle : α → UploadWorld B → Prop}
    {Q : β → UploadWorld B → Prop} {program : UploadIo B α} {rest : α → UploadIo B β}
    (h : UploadSafe service i middle program world)
    (hrest : ∀ value now, world.history ⊆ now.history → middle value now →
      UploadSafe service i Q (rest value) now) :
    UploadSafe service i Q (program.bind rest) world :=
  Safe.andThen (fun _ _ h => h.evolves) h fun value now hnow => hrest value now (grows hnow)

variable (caller : DurableUploadCaller) {record : Record String UploadValue} (refId : String)
  {α : Type} {Q : α → UploadWorld B → Prop} {program : UploadIo B α}

theorem UploadSafe.weaken {Q Q' : α → UploadWorld B → Prop}
    (h : UploadSafe service i Q program world) (hQ : ∀ value now, Q value now → Q' value now) :
    UploadSafe service i Q' program world :=
  h.mono fun _ now hpost value hvalue => hQ value now (hpost value hvalue)

/-- The handler of a storage call only raises. -/
theorem sanitized_safe {operation : UploadIo B α} (h : UploadSafe service i Q operation world) :
    UploadSafe service i Q (sanitizedStorageCall operation) world := by
  refine UploadSafe.andThen h.caught fun outcome now _ hvalue => ?_
  cases outcome with
  | ok value => exact Safe.done (hvalue value rfl)
  | error fault => cases fault <;> exact Safe.raise

/-! ## The ports -/

/-- A swap of a version that the call was told of. -/
theorem swap_safe {key : String} {value later : UploadValue} {revision : Nat} {nowMs : Int}
    {expiresAt : Option Int} (htold : Told i key value revision world.history)
    (hnext : UploadTransition value later)
    (hsettle : ∀ next, later = .artifact next → expiresAt = none →
      ∀ now, Meanwhile service i world now → Removed i next now.history) :
    UploadSafe service i (fun answer now => ∀ record,
        (answer = .updated record →
          Reported i record now.history ∧ record.key = key ∧ record.value = later) ∧
        (answer = .conflict record → Reported i record now.history ∧ record.key = key))
      (compareAndSwap key revision later nowMs expiresAt) world := by
  refine Safe.swap fun now answer hnow => ⟨(htold.mono (grows hnow.evolves)).revises hnext _ _ _, ?_⟩
  cases later with
  | intent next => trivial
  | artifact next => exact fun hexpiry => hsettle next rfl hexpiry now hnow

theorem readIntent_safe (id : String) (caller : DurableUploadCaller) :
    UploadSafe service i (fun current now =>
        Told i (intentKey id) (.intent current.state) current.revision now.history ∧
        ((current.state.status = .finalizing ∨ current.state.status = .finalized) →
          current.state.finalization ≠ none))
      (readIntent id caller) world := by
  refine (sanitized_safe (Safe.read fun now answer _ => ⟨trivial, trivial⟩)).andThen
    fun record now _ hrecord => ?_
  cases record with
  | none => exact Safe.raise
  | some record =>
    obtain ⟨hreported, hkey⟩ := hrecord record rfl
    refine Safe.check fun current hdecode => Safe.check fun _ _ => Safe.done ?_
    obtain ⟨hvalue, hrevision, hbound⟩ := decodeIntent_ok hdecode
    exact ⟨⟨record, hreported, hkey, hvalue, hrevision⟩, hbound⟩

theorem readArtifactState_safe (caller : DurableUploadCaller) :
    UploadSafe service i (fun current now =>
        Told i (artifactKey refId) (.artifact current.state) current.revision now.history)
      (readArtifactState refId caller) world := by
  refine (sanitized_safe (Safe.read fun now answer _ => ⟨trivial, trivial⟩)).andThen
    fun record now _ hrecord => ?_
  cases record with
  | none => exact Safe.raise
  | some record =>
    obtain ⟨hreported, hkey⟩ := hrecord record rfl
    refine Safe.check fun current hdecode => Safe.check fun _ _ => Safe.done ?_
    obtain ⟨hvalue, hrevision⟩ := decodeArtifact_ok hdecode
    exact ⟨record, hreported, hkey, hvalue, hrevision⟩

theorem revokeArtifactSource_safe (state : ArtifactState) (reason : RevocationReason)
    (nowMs : Int) :
    UploadSafe service i (fun _ _ => True) (revokeArtifactSource service state reason nowMs)
      world := by
  unfold revokeArtifactSource
  split
  · exact Safe.done trivial
  · refine sanitized_safe (UploadSafe.andThen (Safe.ask fun _ _ _ => ⟨trivial, trivial⟩) ?_)
    exact fun outcome now _ _ => Safe.ofExcept fun _ _ => trivial

/-- A deletion of a blob is what the call has done last. -/
theorem remove_safe (blobKey ownerId : String) :
    UploadSafe service i (fun answer now =>
        Latest i (.effect (.deleteIfOwner blobKey ownerId) answer) now.history)
      (deleteIfOwner service.sha256 blobKey ownerId) world :=
  Safe.mono (fun _ _ hpost value hvalue => (hpost value hvalue).latest)
    (Safe.deleteIfOwner fun _ _ _ => ⟨trivial, trivial⟩)

/-! ## `createIntent` and `getIntent` -/

theorem createIntent_safe (input : CreateDurableUploadIntentInput) (caller : DurableUploadCaller) :
    UploadSafe service i (fun _ _ => True) (createIntent service input caller) world := by
  refine Safe.check fun _ _ => Safe.check fun uploadTtlMs _ => Safe.check fun artifactTtlMs _ => ?_
  extract_lets initial
  refine UploadSafe.andThen (sanitized_safe (Safe.create fun now answer _ => ?_))
    fun created now _ _ => ?_
  · exact ⟨⟨rfl, rfl, rfl⟩, trivial⟩
  · refine Safe.check fun current _ => Safe.check fun _ _ => ?_
    split
    · exact Safe.raise
    · exact Safe.done trivial

/-- An intent that is not expired yet is expired. -/
theorem expireIntent_safe {key : String} {current : Versioned UploadIntentState}
    (htold : Told i key (.intent current.state) current.revision world.history)
    (hstatus : current.state.status ≠ .expired) (nowMs : Int) (expiresAt : Option Int) :
    UploadSafe service i (fun answer now => ∀ record, answer = .updated record →
        Reported i record now.history ∧ record.key = key ∧
          record.value = .intent (current.state.expired nowMs))
      (compareAndSwap key current.revision (UploadValue.intent (current.state.expired nowMs)) nowMs
        expiresAt) world :=
  (swap_safe htold (.expireIntent current.state nowMs hstatus) (by rintro _ ⟨⟩)).weaken
    fun _ _ h record => (h record).1

theorem getIntent_safe (id : String) (caller : DurableUploadCaller) (nowMs : Int) :
    UploadSafe service i (fun _ _ => True) (getIntent id caller nowMs) world := by
  refine Safe.check fun _ _ => Safe.check fun _ _ => Safe.check fun _ _ => ?_
  refine (readIntent_safe id caller).andThen fun current now _ hcurrent => ?_
  split
  · rename_i hpending
    refine (sanitized_safe (expireIntent_safe hcurrent.1 (by simp [hpending.1]) nowMs none)).andThen
      fun saved _ _ _ => ?_
    cases saved with
    | updated record => exact Safe.check fun _ _ => Safe.done trivial
    | _ => exact Safe.done trivial
  · exact Safe.done trivial

/-! ## `finalize` -/

section Finalize

variable {input : FinalizeDurableUploadInput B} {current : Versioned UploadIntentState}

/-- The intent is claimed for the bytes, which agree with its declaration. -/
structure Claimed (service : DurableUploadArtifactService B) (i : Nat)
    (input : FinalizeDurableUploadInput B) (current : Versioned UploadIntentState)
    (history : UploadHistory B) : Prop where
  told : Told i (intentKey input.intentId) (.intent current.state) current.revision history
  status : current.state.status = .finalizing
  size : (ByteString.byteLength input.bytes : Int) = current.state.declaredSize
  mime : input.observedMime = current.state.declaredMime

theorem Claimed.mono {history later : UploadHistory B} (hsub : history ⊆ later)
    (h : Claimed service i input current history) : Claimed service i input current later :=
  ⟨h.told.mono hsub, h.status, h.size, h.mime⟩

variable {finalization : FinalizationState}

theorem Claimed.bound {history : UploadHistory B} (h : Claimed service i input current history)
    (hfinalization : current.state.finalization = some finalization)
    (hdigest : finalization.contentHash = contentDigest service.sha256 input.bytes) :
    Bound service.sha256 i input (finalization.artifactRef current.state.ownerId) history := by
  obtain ⟨record, hreported, hkey, hvalue, -⟩ := h.told
  exact ⟨record, current.state, finalization, hreported, hkey, hvalue, by simp [h.status],
    hfinalization, rfl, hdigest, h.size, h.mime⟩

theorem claimIntent_safe
    (htold : Told i (intentKey input.intentId) (.intent current.state) current.revision
      world.history)
    (hstatus : current.state.status = .pending)
    (hsize : (ByteString.byteLength input.bytes : Int) = current.state.declaredSize)
    (hmime : input.observedMime = current.state.declaredMime)
    (hdigest : ∀ expected, current.state.expectedDigest = some expected →
      contentDigest service.sha256 input.bytes = expected) :
    UploadSafe service i (fun claimed now => Claimed service i input claimed now.history)
      (claimIntent service input current) world := by
  refine UploadSafe.andThen (sanitized_safe (swap_safe htold
    (.claimIntent current.state (newFinalization service current.state input) input.nowMs hstatus
      hsize hdigest) (by rintro _ ⟨⟩))) fun answer now _ hanswer => ?_
  cases answer with
  | updated record =>
    obtain ⟨hreported, hkey, hvalue⟩ := (hanswer record).1 rfl
    refine Safe.ofExcept fun claimed hdecode => ?_
    obtain ⟨hclaimed, hrevision, -⟩ := decodeIntent_ok hdecode
    have hstate : claimed.state =
        current.state.finalizing (newFinalization service current.state input) input.nowMs :=
      UploadValue.intent.inj (hclaimed.symm.trans hvalue)
    exact
      { told := ⟨record, hreported, hkey, hclaimed, hrevision⟩
        status := by rw [hstate]; rfl
        size := by rw [hstate]; exact hsize
        mime := by rw [hstate]; exact hmime }
  | _ => exact Safe.raise

theorem createArtifact_safe (hclaimed : Claimed service i input current world.history)
    (hfinalization : current.state.finalization = some finalization)
    (hdigest : finalization.contentHash = contentDigest service.sha256 input.bytes) :
    UploadSafe service i (fun ref now => Bound service.sha256 i input ref now.history)
      (createArtifact service input current finalization) world := by
  unfold createArtifact
  extract_lets artifact
  refine UploadSafe.andThen (sanitized_safe (Safe.create fun now answer _ => ?_))
    fun created first hfirst _ => ?_
  · exact ⟨⟨rfl, rfl, rfl⟩, by simp⟩
  refine Safe.check fun durableArtifact _ => ?_
  split
  · exact Safe.raise
  have hclaimed := hclaimed.mono hfirst
  refine UploadSafe.andThen (sanitized_safe (swap_safe hclaimed.told
    (.finalizeIntent current.state input.nowMs hclaimed.status) (by rintro _ ⟨⟩)))
    fun saved second hsecond _ => ?_
  have hbound := (hclaimed.bound hfinalization hdigest).mono hsecond
  cases saved with
  | updated record => exact Safe.done hbound
  | conflict record =>
    refine Safe.check fun raced _ => ?_
    split
    · exact Safe.done hbound
    · exact Safe.raise
  | missing => exact Safe.raise

theorem completeFinalization_safe (hclaimed : Claimed service i input current world.history)
    (hfinalization : current.state.finalization = some finalization)
    (hdigest : finalization.contentHash = contentDigest service.sha256 input.bytes) :
    UploadSafe service i (fun ref now => Bound service.sha256 i input ref now.history)
      (completeFinalization service input current finalization) world := by
  refine (sanitized_safe (UploadSafe.weaken (Safe.putIfAbsent fun now answer _ =>
    ⟨trivial, trivial⟩) fun _ _ _ => trivial)).andThen fun put now hnow _ => ?_
  cases put with
  | conflict stat => exact Safe.raise
  | _ =>
    dsimp only
    split
    · exact Safe.raise
    · exact createArtifact_safe (hclaimed.mono hnow) hfinalization hdigest

theorem finalizeClaimed_safe (hclaimed : Claimed service i input current world.history) :
    UploadSafe service i (fun ref now => Bound service.sha256 i input ref now.history)
      (finalizeClaimed service input current) world := by
  unfold finalizeClaimed
  split
  · exact Safe.raise
  · rename_i finalization hfinalization
    split
    · exact Safe.raise
    · rename_i hsame
      simp only [ne_eq, not_or, not_not] at hsame
      exact completeFinalization_safe hclaimed hfinalization hsame.1

theorem finalize_safe (input : FinalizeDurableUploadInput B) (caller : DurableUploadCaller) :
    UploadSafe service i (fun ref now => Bound service.sha256 i input ref now.history)
      (finalize service input caller) world := by
  refine Safe.check fun _ _ => Safe.check fun _ _ => Safe.check fun _ _ => Safe.check fun _ _ => ?_
  refine (readIntent_safe input.intentId caller).andThen fun current first hfirst hcurrent => ?_
  obtain ⟨htold, -⟩ := hcurrent
  split
  · exact Safe.raise
  rename_i hexpired
  split
  · rename_i hpending
    exact UploadSafe.andThen (sanitized_safe (expireIntent_safe htold hexpired input.nowMs none))
      fun _ _ _ _ => Safe.raise
  refine Safe.check fun _ hvalid => ?_
  obtain ⟨hsize, hmime, hdigest⟩ := validateFinalBytes_ok hvalid
  split
  · rename_i hstatus
    split
    · exact Safe.raise
    · rename_i finalization hfinalization
      split
      · exact Safe.raise
      · rename_i hsame
        rw [ne_eq, not_not] at hsame
        obtain ⟨record, hreported, hkey, hvalue, -⟩ := htold
        exact Safe.done ⟨record, current.state, finalization, hreported, hkey, hvalue,
          by simp [hstatus], hfinalization, rfl, hsame, hsize, hmime⟩
  · rename_i hstatus
    exact (claimIntent_safe htold hstatus hsize hmime hdigest).andThen
      fun claimed second _ hclaimed => finalizeClaimed_safe hclaimed
  · rename_i hfinalized hpending
    refine finalizeClaimed_safe ⟨htold, ?_, hsize, hmime⟩
    cases hstatus : current.state.status with
    | pending => exact absurd hstatus hpending
    | finalizing => rfl
    | finalized => exact absurd hstatus hfinalized
    | expired => exact absurd hstatus hexpired

end Finalize

/-! ## Artifacts -/

section Artifacts

variable {key : String} {nowMs : Int} {current : Versioned ArtifactState} {next : ArtifactState}

/-- A swap of the record of an artifact that leaves it scheduled. -/
theorem schedule_safe {expiresAt : Int}
    (htold : Told i key (.artifact current.state) current.revision world.history)
    (hnext : UploadTransition (.artifact current.state) (.artifact next)) :
    UploadSafe service i (fun answer now => ∀ record,
        (answer = .updated record →
          Reported i record now.history ∧ record.key = key ∧ record.value = .artifact next) ∧
        (answer = .conflict record → Reported i record now.history ∧ record.key = key))
      (compareAndSwap key current.revision (UploadValue.artifact next) nowMs (some expiresAt))
      world :=
  swap_safe htold hnext (by rintro _ _ ⟨⟩)

/-- The swap that settles an artifact right after its blob has been deleted. -/
theorem settle_safe {answer : BlobDeleteResult}
    (htold : Told i key (.artifact current.state) current.revision world.history)
    (hnext : UploadTransition (.artifact current.state) (.artifact next))
    (hrevoked : current.state.status ≠ .active) (hblob : next.blobKey = current.state.blobKey)
    (howner : next.ownerId = current.state.ownerId)
    (hremoved : Latest i (.effect (.deleteIfOwner current.state.blobKey current.state.ownerId)
      answer) world.history) (hanswer : answer ≠ .ownerMismatch) :
    UploadSafe service i (fun _ _ => True)
      (compareAndSwap key current.revision (UploadValue.artifact next) nowMs none) world := by
  refine (swap_safe htold hnext ?_).weaken fun _ _ _ => trivial
  rintro _ ⟨⟩ - now hnow
  obtain ⟨record, hreported, -, hvalue, -⟩ := htold
  refine ⟨record, current.state, answer, hreported.mono (grows hnow.evolves), hvalue, hrevoked,
    hblob.symm, ?_, hanswer⟩
  rw [hblob, howner]
  exact hnow.latest hremoved

theorem readArtifact_safe (caller : DurableUploadCaller) (nowMs maxBytes : Int) :
    UploadSafe service i (fun _ _ => True) (readArtifact service refId caller nowMs maxBytes)
      world := by
  refine Safe.check fun _ _ => Safe.check fun _ _ => Safe.check fun _ _ => ?_
  split
  · exact Safe.raise
  refine (readArtifactState_safe refId caller).andThen fun current first _ htold => ?_
  split
  · exact Safe.raise
  rename_i hrevoked
  split
  · exact Safe.raise
  rename_i hexpired
  split
  · have hactive : current.state.status = .active := by
      cases hstatus : current.state.status <;> simp_all
    exact UploadSafe.andThen (sanitized_safe (schedule_safe htold
      (.expireArtifact current.state nowMs hactive))) fun _ _ _ _ => Safe.raise
  split
  · exact Safe.raise
  refine UploadSafe.andThen (sanitized_safe (Safe.getBlob (fun _ _ h => h.evolves)
    fun now answer _ => ⟨trivial, trivial⟩)) fun bytes second _ _ => ?_
  cases bytes with
  | none => exact Safe.raise
  | some bytes =>
    refine (readArtifactState_safe refId caller).andThen fun latest third _ _ => ?_
    split
    · exact Safe.raise
    · exact Safe.done trivial

theorem markDeleted_safe
    (htold : Told i (artifactKey refId) (.artifact current.state) current.revision world.history) :
    UploadSafe service i (fun deleted now => deleted.state.status = .deleted ∧
        Told i (artifactKey refId) (.artifact deleted.state) deleted.revision now.history)
      (markDeleted refId nowMs current) world := by
  unfold markDeleted
  split
  · rename_i hdeleted
    exact Safe.done ⟨hdeleted, htold⟩
  · rename_i hstatus
    refine UploadSafe.andThen (sanitized_safe (schedule_safe htold
      (.deleteArtifact current.state nowMs hstatus))) fun saved now _ hsaved => ?_
    have hcheck : ∀ record, Reported i record now.history → record.key = artifactKey refId →
        UploadSafe service i (fun deleted now => deleted.state.status = .deleted ∧
            Told i (artifactKey refId) (.artifact deleted.state) deleted.revision now.history)
          (do let current ← decodeArtifact record
              if current.state.status ≠ .deleted then
                Program.raise (uploadErrorOf .upstreamError "Artifact deletion conflicted; retry")
              else pure current) now := by
      intro record hreported hkey
      refine Safe.check fun deleted hdecode => ?_
      obtain ⟨hvalue, hrevision⟩ := decodeArtifact_ok hdecode
      split
      · exact Safe.raise
      · rename_i hdeleted
        rw [ne_eq, not_not] at hdeleted
        exact Safe.done ⟨hdeleted, record, hreported, hkey, hvalue, hrevision⟩
    cases saved with
    | missing => exact Safe.raise
    | updated record =>
      obtain ⟨hreported, hkey, -⟩ := (hsaved record).1 rfl
      exact hcheck record hreported hkey
    | conflict record =>
      obtain ⟨hreported, hkey⟩ := (hsaved record).2 rfl
      exact hcheck record hreported hkey

theorem deleteArtifact_safe (caller : DurableUploadCaller) (nowMs : Int) :
    UploadSafe service i (fun _ _ => True) (deleteArtifact service refId caller nowMs) world := by
  refine Safe.check fun _ _ => Safe.check fun _ _ => Safe.check fun _ _ => ?_
  refine (readArtifactState_safe refId caller).andThen fun found first _ hfound => ?_
  refine (markDeleted_safe refId hfound).andThen fun current second _ hcurrent => ?_
  obtain ⟨hdeleted, htold⟩ := hcurrent
  refine (revokeArtifactSource_safe current.state .deleted nowMs).andThen fun _ third hthird _ => ?_
  refine (sanitized_safe (remove_safe current.state.blobKey current.state.ownerId)).andThen
    fun removed fourth hfourth hremoved => ?_
  split
  · exact Safe.raise
  · rename_i hanswer
    exact UploadSafe.andThen (sanitized_safe (settle_safe
      (htold.mono (List.Subset.trans hthird hfourth))
      (.touchArtifact current.state nowMs (.inl hdeleted)) (by simp [hdeleted]) rfl rfl hremoved
      hanswer)) fun _ _ _ _ => Safe.done trivial

/-! ## `cleanupExpiredPage` -/

theorem removeAndSettle_safe (logicallyRevoked : Nat)
    (htold : Told i key (.artifact current.state) current.revision world.history)
    (hpending : current.state.status = .physicalCleanupPending) :
    UploadSafe service i (fun _ _ => True)
      (removeAndSettle service key nowMs logicallyRevoked current) world := by
  refine UploadSafe.andThen (remove_safe _ _).caught fun removed now hnow hremoved => ?_
  cases removed with
  | error error => exact Safe.done trivial
  | ok removed =>
    dsimp only
    split
    · exact Safe.done trivial
    · rename_i hanswer
      split
      · exact Safe.done trivial
      · rename_i reason hreason
        refine UploadSafe.andThen (settle_safe (htold.mono hnow)
          (.settleArtifact current.state reason nowMs hpending hreason) (by simp [hpending]) rfl
          rfl (hremoved removed rfl) hanswer) fun saved _ _ _ => ?_
        cases saved <;> exact Safe.done trivial

theorem leaseCleanup_safe (logicallyRevoked : Nat)
    (htold : Told i key (.artifact current.state) current.revision world.history)
    (hnext : UploadTransition (.artifact current.state) (.artifact next))
    (hpending : next.status = .physicalCleanupPending) : UploadSafe service i (fun _ _ => True)
      (leaseCleanup service key nowMs logicallyRevoked current.revision next) world := by
  refine UploadSafe.andThen (schedule_safe htold hnext) fun saved now hnow hsaved => ?_
  cases saved with
  | updated record =>
    obtain ⟨hreported, hkey, hvalue⟩ := (hsaved record).1 rfl
    refine Safe.check fun leased hdecode => ?_
    obtain ⟨hleased, hrevision⟩ := decodeArtifact_ok hdecode
    have hstate : leased.state = next := UploadValue.artifact.inj (hleased.symm.trans hvalue)
    exact removeAndSettle_safe logicallyRevoked
      ⟨record, hreported, hkey, hleased, hrevision⟩ (hstate ▸ hpending)
  | _ => exact Safe.done trivial

theorem cleanupRevoked_safe (logicallyRevoked : Nat)
    (htold : Told i key (.artifact current.state) current.revision world.history) :
    UploadSafe service i (fun _ _ => True)
      (cleanupRevoked service key nowMs logicallyRevoked current) world := by
  unfold cleanupRevoked
  split
  · exact Safe.done trivial
  · rename_i hstatus
    exact (revokeArtifactSource_safe current.state .expired nowMs).andThen fun _ _ hnow _ =>
      leaseCleanup_safe logicallyRevoked (htold.mono hnow)
        (.leaseCleanup current.state .expired nowMs hstatus) rfl
  · rename_i hstatus
    exact (revokeArtifactSource_safe current.state .deleted nowMs).andThen fun _ _ hnow _ =>
      leaseCleanup_safe logicallyRevoked (htold.mono hnow)
        (.leaseCleanup current.state .deleted nowMs hstatus) rfl
  · rename_i hstatus
    have hlease : ∀ now : UploadWorld B, world.history ⊆ now.history →
        UploadSafe service i (fun _ _ => True) (leaseCleanup service key nowMs logicallyRevoked
          current.revision (current.state.touched nowMs)) now := fun now hnow =>
      leaseCleanup_safe logicallyRevoked (htold.mono hnow)
        (.touchArtifact current.state nowMs (.inr hstatus)) hstatus
    split
    · rename_i reason _
      exact (revokeArtifactSource_safe current.state reason nowMs).andThen
        fun _ now hnow _ => hlease now hnow
    · exact hlease world (List.Subset.refl _)

theorem cleanupArtifactRecord_safe (hrecord : Reported i record world.history) (nowMs : Int) :
    UploadSafe service i (fun _ _ => True) (cleanupArtifactRecord service record nowMs) world := by
  refine Safe.check fun current hdecode => ?_
  obtain ⟨hvalue, hrevision⟩ := decodeArtifact_ok hdecode
  have htold : Told i record.key (.artifact current.state) current.revision world.history :=
    ⟨record, hrecord, rfl, hvalue, hrevision⟩
  split
  · rename_i hactive
    refine UploadSafe.andThen (schedule_safe htold (.expireArtifact current.state nowMs hactive))
      fun saved now hnow hsaved => ?_
    cases saved with
    | updated revoked =>
      obtain ⟨hreported, hkey, -⟩ := (hsaved revoked).1 rfl
      refine Safe.check fun current hdecode => ?_
      obtain ⟨hvalue, hrevision⟩ := decodeArtifact_ok hdecode
      exact cleanupRevoked_safe 1 ⟨revoked, hreported, hkey, hvalue, hrevision⟩
    | _ => exact Safe.done trivial
  · exact cleanupRevoked_safe 0 htold

end Artifacts

theorem cleanupFinalization_safe {key : String} (expiresAt : Option Int) (nowMs : Int)
    {current : Versioned UploadIntentState}
    (htold : Told i key (.intent current.state) current.revision world.history)
    (hexpired : current.state.status = .expired) :
    UploadSafe service i (fun _ _ => True)
      (cleanupFinalization service key expiresAt nowMs current) world := by
  unfold cleanupFinalization
  split
  · refine UploadSafe.andThen (remove_safe _ _).caught fun removed now hnow _ => ?_
    cases removed with
    | error error => exact Safe.done trivial
    | ok removed =>
      dsimp only
      split
      · exact Safe.done trivial
      · refine UploadSafe.andThen (swap_safe (htold.mono hnow)
          (.touchIntent current.state nowMs hexpired) (by rintro _ ⟨⟩)) fun saved _ _ _ => ?_
        cases saved <;> exact Safe.done trivial
  · exact Safe.done trivial

theorem cleanupIntentRecord_safe (hrecord : Reported i record world.history) (nowMs : Int) :
    UploadSafe service i (fun _ _ => True) (cleanupIntentRecord service record nowMs) world := by
  refine Safe.check fun current hdecode => ?_
  obtain ⟨hvalue, hrevision, -⟩ := decodeIntent_ok hdecode
  have htold : Told i record.key (.intent current.state) current.revision world.history :=
    ⟨record, hrecord, rfl, hvalue, hrevision⟩
  split
  · rename_i hstatus
    extract_lets needsBlobCleanup
    refine (expireIntent_safe htold hstatus nowMs _).andThen fun saved now hnow hsaved => ?_
    cases saved with
    | updated revoked =>
      obtain ⟨hreported, hkey, hnext⟩ := hsaved revoked rfl
      refine Safe.check fun expired hdecode => ?_
      obtain ⟨hvalue, hrevision, -⟩ := decodeIntent_ok hdecode
      have hstate : expired.state = current.state.expired nowMs :=
        UploadValue.intent.inj (hvalue.symm.trans hnext)
      split
      · exact cleanupFinalization_safe _ _ ⟨revoked, hreported, hkey, hvalue, hrevision⟩
          (by rw [hstate]; rfl)
      · exact Safe.done trivial
    | _ => exact Safe.done trivial
  · rename_i hstatus
    rw [ne_eq, not_not] at hstatus
    exact cleanupFinalization_safe _ _ htold hstatus

theorem cleanupRecord_safe (hrecord : Reported i record world.history) (nowMs : Int) :
    UploadSafe service i (fun _ _ => True) (cleanupRecord service record nowMs) world := by
  unfold cleanupRecord
  split
  · exact (cleanupArtifactRecord_safe hrecord nowMs).andThen fun _ _ _ _ => Safe.done trivial
  · split
    · exact (cleanupIntentRecord_safe hrecord nowMs).andThen fun _ _ _ _ => Safe.done trivial
    · exact Safe.done trivial

theorem cleanupRecords_safe (nowMs : Int) (records : List (Record String UploadValue)) :
    ∀ (page : DurableUploadCleanupPage) (world : UploadWorld B),
      (∀ record ∈ records, Reported i record world.history) →
      UploadSafe service i (fun _ _ => True) (cleanupRecords service nowMs records page) world := by
  induction records with
  | nil => exact fun _ _ _ => Safe.done trivial
  | cons record rest ih =>
    intro page world hrecords
    rw [List.forall_mem_cons] at hrecords
    refine UploadSafe.andThen (cleanupRecord_safe hrecords.1 nowMs).caught
      fun outcome now hnow _ => ?_
    exact ih _ now fun other hother => (hrecords.2 other hother).mono hnow

theorem cleanupExpiredPage_safe (nowMs : Int) (cursor : Option String) (limit : Int) :
    UploadSafe service i (fun _ _ => True) (cleanupExpiredPage service nowMs cursor limit)
      world := by
  refine Safe.check fun _ _ => ?_
  split
  · exact Safe.raise
  split
  · exact Safe.raise
  exact UploadSafe.andThen (sanitized_safe (Safe.scan fun _ _ _ => ⟨trivial, trivial⟩))
    fun page now _ hpage => cleanupRecords_safe nowMs page.1 _ now hpage

/-! ## All calls -/

/-- A call whose reply owes nothing. -/
theorem reply_safe {reply : α → Reply B} (h : UploadSafe service i Q program world)
    (hreply : ∀ value now, Q value now → ∀ later, Meanwhile service i now later →
      Grows service world later → ∀ ref, reply value = .ref ref → ∀ input caller,
        (i, .invoke (.finalize input caller)) ∈ later.history →
        Bound service.sha256 i input ref later.history) :
    Safe (uploads service) (Guarantee service.sha256) (Meanwhile service i) i
      (Responds (uploads service) (Guarantee service.sha256) i)
      (program.bind fun value => pure (reply value)) world := by
  refine (Safe.andThen (Q := fun result now => ∀ later, Meanwhile service i now later →
    Guarantee service.sha256 i (.response (.ok result)) later) (fun _ _ h => h.evolves) h
    fun value now hnow hvalue => Safe.done fun later hlater => ⟨trivial, ?_⟩).responds ?_ ?_
  · have hgrown := hreply value now hvalue later hlater (hnow.trans hlater.evolves)
    cases hresult : reply value with
    | ref ref => exact hgrown ref hresult
    | _ => trivial
  · exact fun value now hvalue later hlater => hvalue later hlater
  · exact fun _ _ => ⟨trivial, trivial⟩

/-- Every call of the service keeps the guarantee. -/
theorem verified (service : DurableUploadArtifactService B) :
    Verified (uploads service) (Guarantee service.sha256) fun _ => True where
  inv := fun _ _ _ _ _ _ _ => trivial
  invoke := fun _ _ _ _ => ⟨trivial, trivial⟩
  main := by
    intro i call world _ hcalls _
    cases call with
    | createIntent input caller =>
      exact reply_safe (createIntent_safe input caller) (by rintro _ _ _ _ _ _ _ ⟨⟩)
    | getIntent id caller nowMs =>
      exact reply_safe (getIntent_safe id caller nowMs) (by rintro _ _ _ _ _ _ _ ⟨⟩)
    | finalize input caller =>
      refine reply_safe (finalize_safe input caller) ?_
      rintro ref now hbound later hlater hgrown _ ⟨⟩ input' caller' hcall
      cases ((persistent_calls i _).evolves hgrown hcalls).2 _ hcall
      exact hbound.mono (grows hlater.evolves)
    | readArtifact refId caller nowMs maxBytes =>
      exact reply_safe (readArtifact_safe refId caller nowMs maxBytes) (by rintro _ _ _ _ _ _ _ ⟨⟩)
    | deleteArtifact refId caller nowMs =>
      exact reply_safe (deleteArtifact_safe refId caller nowMs) (by rintro _ _ _ _ _ _ _ ⟨⟩)
    | cleanupExpiredPage nowMs cursor limit =>
      exact reply_safe (cleanupExpiredPage_safe nowMs cursor limit) (by rintro _ _ _ _ _ _ _ ⟨⟩)

end Groundlane.Uploads
