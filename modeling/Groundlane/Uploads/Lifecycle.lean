import Groundlane.Uploads.Verified

/-!
# The life of an upload

What holds over whole runs of the upload service. An intent that has left the status `pending`
is bound to one content for good, and all finalizations that return agree on the artifact
(`finalization_bound`). An artifact that is no longer active never becomes active again, and
bytes are read only by their owner and between two sights of the same active record
(`access_one_way`). Both rest on records never being deleted: whatever a call was told of is
stored in the same or a later version.
-/

namespace Groundlane.Uploads

open Fenced Interleaving Interleaving.System

/-! ## Later versions -/

/-- What an intent may have become: the declaration stays, and so does the finalization once the
intent is not pending any more. -/
structure IntentLater (state later : UploadIntentState) : Prop where
  declaration : later = { state with
    status := later.status, finalization := later.finalization, updatedAt := later.updatedAt }
  bound : state.status ≠ .pending →
    later.status ≠ .pending ∧ later.finalization = state.finalization

/-- What an artifact may have become: the bytes and their owner stay, and it does not become
active again. -/
structure ArtifactLater (state later : ArtifactState) : Prop where
  identity : later = { state with
    status := later.status, cleanupReason := later.cleanupReason, updatedAt := later.updatedAt }
  revoked : state.status ≠ .active → later.status ≠ .active

/-- What a value may have become. -/
inductive Later : UploadValue → UploadValue → Prop where
  | intent {state later : UploadIntentState} : IntentLater state later →
    Later (.intent state) (.intent later)
  | artifact {state later : ArtifactState} : ArtifactLater state later →
    Later (.artifact state) (.artifact later)

theorem Later.refl (value : UploadValue) : Later value value := by
  cases value with
  | intent state => exact .intent ⟨rfl, fun h => ⟨h, rfl⟩⟩
  | artifact state => exact .artifact ⟨rfl, id⟩

theorem Later.trans {first second third : UploadValue} (h : Later first second)
    (h' : Later second third) : Later first third := by
  cases h with
  | intent h =>
    cases h' with
    | intent h' =>
      refine .intent ⟨by rw [h'.declaration, h.declaration], fun hpending => ?_⟩
      obtain ⟨hsecond, heq⟩ := h.bound hpending
      obtain ⟨hthird, heq'⟩ := h'.bound hsecond
      exact ⟨hthird, heq'.trans heq⟩
  | artifact h =>
    cases h' with
    | artifact h' =>
      exact .artifact ⟨by rw [h'.identity, h.identity], fun hrevoked =>
        h'.revoked (h.revoked hrevoked)⟩

theorem RevocationReason.status_ne_active (reason : RevocationReason) :
    reason.status ≠ .active := by
  cases reason <;> simp [RevocationReason.status]

/-- Every writer makes a later version of what it read. -/
theorem UploadTransition.later {value next : UploadValue} (h : UploadTransition value next) :
    Later value next := by
  cases h with
  | expireIntent state nowMs _ =>
    exact .intent ⟨rfl, fun _ => ⟨by simp [UploadIntentState.expired], rfl⟩⟩
  | claimIntent state finalization nowMs hpending => exact .intent ⟨rfl, fun h => absurd hpending h⟩
  | finalizeIntent state nowMs _ =>
    exact .intent ⟨rfl, fun _ => ⟨by simp [UploadIntentState.finalized], rfl⟩⟩
  | touchIntent state nowMs _ => exact .intent ⟨rfl, fun h => ⟨h, rfl⟩⟩
  | expireArtifact state nowMs _ => exact .artifact ⟨rfl, fun _ => by simp [ArtifactState.expired]⟩
  | deleteArtifact state nowMs _ => exact .artifact ⟨rfl, fun _ => by simp [ArtifactState.deleted]⟩
  | leaseCleanup state reason nowMs _ =>
    exact .artifact ⟨rfl, fun _ => by simp [ArtifactState.pending]⟩
  | settleArtifact state reason nowMs _ _ => exact .artifact ⟨rfl, fun _ => reason.status_ne_active⟩
  | touchArtifact state nowMs _ => exact .artifact ⟨rfl, id⟩

/-- Between two versions of a record lie transitions. -/
theorem later_of_path {value later : UploadValue}
    (h : Relation.ReflTransGen uploadCycle.next value later) : Later value later :=
  holds_later h (P := Later value) (fun _ _ hnext h => h.trans hnext.later) (.refl value)

/-- What an intent is bound to agrees with its declaration. -/
def AgreesWithDeclaration : UploadValue → Prop
  | .intent state => ∀ finalization, state.finalization = some finalization →
    (finalization.byteSize : Int) = state.declaredSize ∧
    ∀ expected, state.expectedDigest = some expected → finalization.contentHash = expected
  | .artifact _ => True

variable {caller : DurableUploadCaller} {key : String}

theorem agreesWithDeclaration {value : UploadValue} (h : uploadCycle.Reached key value) :
    AgreesWithDeclaration value := by
  refine h.holds (fun first hfirst => ?_) fun value later hnext h => ?_
  · cases first with
    | intent state =>
      intro finalization hfinalization
      simp [hfirst.2.2] at hfinalization
    | artifact state => trivial
  · cases hnext with
    | claimIntent state finalization nowMs _ hsize hdigest =>
      intro bound hbound
      obtain rfl : finalization = bound := Option.some.inj hbound
      exact ⟨hsize, hdigest⟩
    | expireIntent state nowMs _ => exact h
    | finalizeIntent state nowMs _ => exact h
    | touchIntent state nowMs _ => exact h
    | _ => trivial

/-! ## Runs -/

variable {B : Type}

/-- No calls yet, and nothing stored. -/
def initial : Config (Call B) (Op UploadValue B Request) (Op.Res Answer) Fault (Reply B)
    (Disk UploadValue B) :=
  Config.initial Disk.empty

/-- The intent that is stored under an id. -/
def storedIntent (id : String) (world : UploadWorld B) : Option UploadIntentState :=
  match world.state.records.get (intentKey id) with
  | some ⟨_, .intent state, _, _, _, _⟩ => some state
  | _ => none

/-- The artifact that is stored under a reference. -/
def storedArtifact (refId : String) (world : UploadWorld B) : Option ArtifactState :=
  match world.state.records.get (artifactKey refId) with
  | some ⟨_, .artifact state, _, _, _, _⟩ => some state
  | _ => none

variable {effects : List (Σ op : Op UploadValue B Request, op.Res Answer)} {world : UploadWorld B}
  {refId : String}

theorem storedIntent_eq {id : String} {state : UploadIntentState} :
    storedIntent id world = some state ↔
      ∃ record, world.state.records.get (intentKey id) = some record ∧
        record.value = .intent state := by
  unfold storedIntent
  split
  · rename_i hget
    simp [hget]
  · rename_i hother
    simp only [reduceCtorEq, false_iff, not_exists, not_and]
    rintro ⟨key, value, revision, createdAt, updatedAt, expiresAt⟩ hget rfl
    exact hother _ _ _ _ _ _ hget

theorem storedArtifact_eq {state : ArtifactState} : storedArtifact refId world = some state ↔
      ∃ record, world.state.records.get (artifactKey refId) = some record ∧
        record.value = .artifact state := by
  unfold storedArtifact
  split
  · rename_i hget
    simp [hget]
  · rename_i hother
    simp only [reduceCtorEq, false_iff, not_exists, not_and]
    rintro ⟨key, value, revision, createdAt, updatedAt, expiresAt⟩ hget rfl
    exact hother _ _ _ _ _ _ hget

variable [ByteString B]

theorem ready (service : DurableUploadArtifactService B) :
    Ready (uploads service) (Guarantee service.sha256) (fun _ => True) initial :=
  ready_initial trivial

variable {service : DurableUploadArtifactService B}

/-- The records of a run keep to their life, and every returned finalization was bound. -/
structure Sound (service : DurableUploadArtifactService B) (world : UploadWorld B) : Prop where
  versions : Versions uploadCycle world
  bound : ∀ i input caller ref, (i, .invoke (.finalize input caller)) ∈ world.history →
    (i, .response (.ok (.ref ref))) ∈ world.history →
    Bound service.sha256 i input ref world.history

theorem sound_step {i : Nat} {event : UploadEvent B} {before after : UploadWorld B}
    (hstep : (uploads service).Step i event before after)
    (hG : Guarantee service.sha256 i event before) (h : Sound service before) :
    Sound service after where
  versions := versions_step hstep hG.1 h.versions
  bound := by
    intro j input caller ref hcall hreturn
    have hmono : before.history ⊆ after.history := fun _ h => hstep.history_mono h
    rcases hstep.mem_history.1 hreturn with heq | hreturn
    · obtain ⟨rfl, rfl⟩ := Prod.mk.inj heq
      have hcall : (j, .invoke (.finalize input caller)) ∈ before.history := by
        rcases hstep.mem_history.1 hcall with heq | hcall
        · cases heq
        · exact hcall
      exact (hG.2 input caller hcall).mono hmono
    · exact (h.bound j input caller ref (hstep.mem_of_invoke hreturn hcall) hreturn).mono hmono

theorem sound_run (service : DurableUploadArtifactService B)
    (actions : List (Action (Call B) (Oracle Answer))) :
    Sound service ((uploads service).run initial actions).toWorld :=
  (ready service).persists (verified service) actions
    (fun _ _ _ _ _ _ hstep hG h => sound_step hstep hG h)
    ⟨versions_initial, by simp [initial, Config.initial]⟩

/-- A stored record is stored in the same or a later version at the end of a longer run. -/
theorem stored_later (service : DurableUploadArtifactService B)
    (actions later : List (Action (Call B) (Oracle Answer))) {record : Record String UploadValue}
    (hget : ((uploads service).run initial actions).state.records.get key = some record) :
    ∃ current, ((uploads service).run initial (actions ++ later)).state.records.get key =
      some current ∧ Later record.value current.value := by
  obtain rfl := Store.get_key hget
  rw [System.run_append]
  obtain ⟨-, hfollows⟩ := ((ready service).run (verified service) actions).persists
    (verified service) later
    (P := fun world => Sound service world ∧ Follows uploadCycle record world.state.records)
    (fun _ _ _ _ _ _ hstep hG h => ⟨sound_step hstep hG h.1,
      follows_step hstep hG.1 h.1.versions h.2⟩)
    ⟨sound_run service actions, .of_get hget⟩
  obtain ⟨current, hcurrent, -, -, hpath⟩ := hfollows
  exact ⟨current, hcurrent, later_of_path hpath⟩

/-- What a finalization was bound to is what the stored intent is bound to. -/
theorem Sound.stored_bound (h : Sound service world) {i : Nat}
    {input : FinalizeDurableUploadInput B} {ref : DurableSourceArtifactRef}
    (hbound : Bound service.sha256 i input ref world.history) :
    ∃ state finalization, storedIntent input.intentId world = some state ∧
      state.finalization = some finalization ∧ ref = finalization.artifactRef state.ownerId ∧
      finalization.contentHash = contentDigest service.sha256 input.bytes ∧
      finalization.byteSize = ByteString.byteLength input.bytes ∧
      (finalization.byteSize : Int) = state.declaredSize ∧
      (∀ expected, state.expectedDigest = some expected → finalization.contentHash = expected) ∧
      input.observedMime = state.declaredMime := by
  obtain ⟨record, _, finalization, hreported, hkey, hvalue, hpending, hfinalization, rfl,
    hdigest, hsize, hmime⟩ := hbound
  obtain ⟨hreached, current, hget, -, -, hpath⟩ := h.versions.told i record hreported
  have hagrees := agreesWithDeclaration hreached
  rw [hvalue] at hagrees
  obtain ⟨hdeclared, hexpected⟩ := hagrees finalization hfinalization
  have hlater := later_of_path hpath
  rw [hvalue] at hlater
  generalize hcurrent : current.value = value at hlater
  cases hlater with
  | @intent _ later hlater =>
    obtain ⟨-, hsame⟩ := hlater.bound hpending
    have hdeclaration := hlater.declaration
    refine ⟨later, finalization, storedIntent_eq.2 ⟨current, hkey ▸ hget, hcurrent⟩,
      hsame.trans hfinalization, by rw [hdeclaration], hdigest, ?_,
      by rw [hdeclaration]; exact hdeclared,
      by rw [hdeclaration]; exact hexpected, by rw [hdeclaration]; exact hmime⟩
    exact Int.ofNat_inj.1 (hdeclared.trans hsize.symm)

/-- In every run, for every upload intent: all finalizations that return give the same
reference, which agrees with the declaration of the intent and with the bytes; and once the
intent is not pending any more, its finalization stays as it is. -/
theorem finalization_bound (service : DurableUploadArtifactService B)
    (actions later : List (Action (Call B) (Oracle Answer))) :
    let before := (uploads service).run initial actions
    let after := (uploads service).run initial (actions ++ later)
    (∀ i j input input' caller caller' ref ref',
      (i, .invoke (.finalize input caller)) ∈ after.history →
      (i, .response (.ok (.ref ref))) ∈ after.history →
      (j, .invoke (.finalize input' caller')) ∈ after.history →
      (j, .response (.ok (.ref ref'))) ∈ after.history →
      input.intentId = input'.intentId → ref = ref') ∧
    (∀ i input caller ref, (i, .invoke (.finalize input caller)) ∈ after.history →
      (i, .response (.ok (.ref ref))) ∈ after.history →
      ∃ state, storedIntent input.intentId after.toWorld = some state ∧
        (ref.byteSize : Int) = state.declaredSize ∧
        ref.byteSize = ByteString.byteLength input.bytes ∧
        ref.contentHash = contentDigest service.sha256 input.bytes ∧
        (∀ expected, state.expectedDigest = some expected → ref.contentHash = expected) ∧
        input.observedMime = state.declaredMime) ∧
    ∀ id state, storedIntent id before.toWorld = some state → state.status ≠ .pending →
      ∃ state', storedIntent id after.toWorld = some state' ∧ state'.status ≠ .pending ∧
        state'.finalization = state.finalization := by
  intro before after
  have hsound : Sound service after.toWorld := sound_run service (actions ++ later)
  refine ⟨?_, ?_, ?_⟩
  · intro i j input input' caller caller' ref ref' hcall hreturn hcall' hreturn' hid
    obtain ⟨state, finalization, hstored, hfinalization, rfl, -⟩ :=
      hsound.stored_bound (hsound.bound i input caller ref hcall hreturn)
    obtain ⟨state', finalization', hstored', hfinalization', rfl, -⟩ :=
      hsound.stored_bound (hsound.bound j input' caller' ref' hcall' hreturn')
    rw [← hid] at hstored'
    obtain rfl := Option.some.inj (hstored.symm.trans hstored')
    obtain rfl := Option.some.inj (hfinalization.symm.trans hfinalization')
    rfl
  · intro i input caller ref hcall hreturn
    obtain ⟨state, finalization, hstored, -, rfl, hdigest, hlength, hsize, hexpected, hmime⟩ :=
      hsound.stored_bound (hsound.bound i input caller ref hcall hreturn)
    exact ⟨state, hstored, hsize, hlength, hdigest, hexpected, hmime⟩
  · intro id state hstored hpending
    obtain ⟨record, hget, hvalue⟩ := storedIntent_eq.1 hstored
    obtain ⟨current, hcurrent, hlater⟩ := stored_later service actions later hget
    rw [hvalue] at hlater
    generalize hvalue' : current.value = value at hlater
    cases hlater with
    | @intent _ later hlater =>
        exact ⟨later, storedIntent_eq.2 ⟨current, hcurrent, hvalue'⟩, hlater.bound hpending⟩

/-- In every run, the cleanup of an artifact is taken off the schedule only by a call that has just
deleted the blob of the artifact, which it had found revoked. -/
theorem settlements_warranted (service : DurableUploadArtifactService B)
    (actions : List (Action (Call B) (Oracle Answer))) :
    Throughout (fun i event older => ∀ key revision next nowMs answer,
      event = .effect (.compareAndSwap key revision (.artifact next) nowMs none) answer →
      Removed i next older) ((uploads service).run initial actions).history := by
  refine (ready service).throughout (verified service) actions ?_ trivial
  rintro i event world hG key revision next nowMs answer rfl
  exact hG.2 rfl

/-! ## Reads -/

omit [ByteString B] in
/-- A storage call that has returned did what it is about. -/
theorem sanitizedStorageCall_path {α : Type} {operation : UploadIo B α} {value : α}
    (h : Program.Path (sanitizedStorageCall operation) effects (.done value)) :
    Program.Path operation effects (.done value) :=
  h.tryCatch_inv fun fault => by cases fault <;> exact ⟨_, rfl⟩

omit [ByteString B] in
/-- What a read of the record of an artifact has found. -/
theorem readArtifactState_path {current : Versioned ArtifactState}
    (h : Program.Path (readArtifactState refId caller) effects (.done current)) :
    ∃ record, effects = [⟨.get (artifactKey refId), some record⟩] ∧
      record.value = .artifact current.state ∧ record.revision = current.revision ∧
      current.state.ownerId = caller.ownerId ∧
      current.state.credentialBinding = caller.credentialBinding := by
  obtain ⟨_, _, found, rfl, hget, hrest⟩ := h.bind_done
  obtain rfl := path_get (sanitizedStorageCall_path hget)
  cases found with
  | none => exact absurd hrest Program.not_path_raise
  | some record =>
    obtain ⟨_, hdecode, hrest⟩ := hrest.check
    obtain ⟨_, hcaller, hend⟩ := hrest.check
    obtain ⟨rfl, heq⟩ := Program.path_done_iff.1 hend
    cases heq
    obtain ⟨hvalue, hrevision⟩ := decodeArtifact_ok hdecode
    exact ⟨record, rfl, hvalue, hrevision, assertArtifactCaller_ok hcaller⟩

/-- The effects of a call that has read an artifact between two sights of its record: both were
active and at the same revision, the artifact was the caller's, and it had not expired. -/
def ReadBetween (refId : String) (caller : DurableUploadCaller) (nowMs maxBytes : Int)
    (read : DurableArtifactRead B)
    (effects : List (Σ op : Op UploadValue B Request, op.Res Answer)) : Prop :=
  ∃ first last state latest,
    effects = [⟨.get (artifactKey refId), some first⟩,
      ⟨.getBlob state.blobKey state.ownerId state.contentHash maxBytes, .ok (some read.bytes)⟩,
      ⟨.get (artifactKey refId), some last⟩] ∧
    first.value = .artifact state ∧ last.value = .artifact latest ∧
    last.revision = first.revision ∧ state.status = .active ∧ latest.status = .active ∧
    nowMs < state.expiresAt ∧
    state.ownerId = caller.ownerId ∧ state.credentialBinding = caller.credentialBinding ∧
    latest.ownerId = caller.ownerId ∧ latest.credentialBinding = caller.credentialBinding ∧
    read.ref = state.artifactRef

omit [ByteString B] in
/-- The effects of a call of `readArtifact` that has returned. -/
theorem readArtifact_path {nowMs maxBytes : Int} {read : DurableArtifactRead B}
    (h : Program.Path (readArtifact service refId caller nowMs maxBytes) effects (.done read)) :
    ReadBetween refId caller nowMs maxBytes read effects := by
  obtain ⟨_, -, h⟩ := h.check
  obtain ⟨_, -, h⟩ := h.check
  obtain ⟨_, -, h⟩ := h.check
  split at h
  · exact absurd h Program.not_path_raise
  obtain ⟨_, _, current, rfl, hfirst, hchecks⟩ := h.bind_done
  obtain ⟨first, rfl, hvalue, hrevision, howner, hcredential⟩ := readArtifactState_path hfirst
  split at hchecks
  · exact absurd hchecks Program.not_path_raise
  rename_i hrevoked
  split at hchecks
  · exact absurd hchecks Program.not_path_raise
  rename_i hexpired
  split at hchecks
  · -- Whatever the swap answers, the call ends with an error.
    obtain ⟨_, _, _, rfl, -, hraise⟩ := hchecks.bind_done
    exact absurd hraise Program.not_path_raise
  rename_i hlive
  split at hchecks
  · exact absurd hchecks Program.not_path_raise
  have hactive : current.state.status = .active := by
    cases hstatus : current.state.status <;> simp_all
  obtain ⟨_, _, found, rfl, hblob, hrecheck⟩ := hchecks.bind_done
  obtain rfl := path_getBlob (sanitizedStorageCall_path hblob)
  cases found with
  | none => exact absurd hrecheck Program.not_path_raise
  | some bytes =>
    obtain ⟨_, _, latest, rfl, hlast, hsame⟩ := hrecheck.bind_done
    obtain ⟨last, rfl, hvalue', hrevision', howner', hcredential'⟩ :=
      readArtifactState_path hlast
    split at hsame
    · exact absurd hsame Program.not_path_raise
    rename_i hlatest
    simp only [ne_eq, not_or, not_not] at hlatest
    obtain ⟨rfl, heq⟩ := Program.path_done_iff.1 hsame
    cases heq
    exact ⟨first, last, current.state, latest.state, rfl, hvalue, hvalue',
      (hrevision'.trans hlatest.1).trans hrevision.symm, hactive, hlatest.2, not_le.1 hlive,
      howner, hcredential, howner', hcredential', rfl⟩

/-- In every run, an artifact that is not active any more stays so, and every call of
`readArtifact` that has returned has found the artifact of its caller active and not expired,
and active at the same revision again after it had read the bytes. -/
theorem access_one_way (service : DurableUploadArtifactService B)
    (actions later : List (Action (Call B) (Oracle Answer))) :
    let before := (uploads service).run initial actions
    let after := (uploads service).run initial (actions ++ later)
    (∀ refId state, storedArtifact refId before.toWorld = some state → state.status ≠ .active →
      ∃ state', storedArtifact refId after.toWorld = some state' ∧ state'.status ≠ .active) ∧
    ∀ i refId caller nowMs maxBytes read,
      (i, .invoke (.readArtifact refId caller nowMs maxBytes)) ∈ after.history →
      (i, .response (.ok (.read read))) ∈ after.history →
      ReadBetween refId caller nowMs maxBytes read (effectsOf i after.history) := by
  intro before after
  constructor
  · intro refId state hstored hrevoked
    obtain ⟨record, hget, hvalue⟩ := storedArtifact_eq.1 hstored
    obtain ⟨current, hcurrent, hlater⟩ := stored_later service actions later hget
    rw [hvalue] at hlater
    generalize hvalue' : current.value = value at hlater
    cases hlater with
    | @artifact _ later hlater =>
        exact ⟨later, storedArtifact_eq.2 ⟨current, hcurrent, hvalue'⟩, hlater.revoked hrevoked⟩
  · intro i refId caller nowMs maxBytes read hcall hreturn
    have hpath := ((ready service).run (verified service) (actions ++ later)).consistent.returned
      hcall hreturn
    obtain ⟨effects, rest, found, heffects, hread, hend⟩ := hpath.bind_done
    obtain ⟨rfl, heq⟩ := Program.path_done_iff.1 hend
    cases heq
    rw [heffects, List.append_nil]
    exact readArtifact_path hread

end Groundlane.Uploads
