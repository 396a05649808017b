import Groundlane.ArtifactLifecycle.Store

/-!
# The artifact lifecycle moves forward

What one call can do to a record is said once (`record_step`); a staging entry has its own such
lemma (`staging_step`). `ArtifactLifecycleStore.moves_forward` is the result over whole runs: when
no call writes a status over a later one, and processing is stopped only where no bytes are left
behind, statuses only move forward, nothing is cleaned up twice, revoked artifacts stay
unreadable, and two sweeps that come late enough remove the bytes of a revoked artifact. The code
makes none of these checks itself: `deleted_after_cleanup` runs it into both defects.
-/

namespace Groundlane.ArtifactLifecycle

open Sequential

/-- How far a status is on the way from active to cleaned. -/
def ArtifactLifecycleStatus.stage : ArtifactLifecycleStatus → Nat
  | active => 0
  | cancelled | failed | logicallyExpired | logicallyDeleted => 1
  | physicalCleanupPending => 2
  | cleaned => 3

def StagingLifecycleStatus.stage : StagingLifecycleStatus → Nat
  | active => 0
  | logicallyExpired | logicallyDeleted => 1
  | physicalCleanupPending => 2
  | cleaned => 3

example : ArtifactLifecycleStatus.failed.stage < ArtifactLifecycleStatus.cleaned.stage := by
  decide +kernel

/-- Whether a call is a sweep at least its window after the call before it. -/
def Call.isLateSweep (call : Call) (earlier : Int) : Bool :=
  match call.operation with
  | .sweepArtifacts windowMs =>
    (validateCleanupWindow (ArtifactLifecycleStore.windowOf windowMs)).isOk &&
      !(call.nowMs - earlier < ArtifactLifecycleStore.windowOf windowMs)
  | _ => false

/-- How many of the calls are such sweeps. -/
def lateSweeps (earlier : Int) : List Call → Nat
  | [] => 0
  | call :: calls => (if call.isLateSweep earlier then 1 else 0) + lateSweeps call.nowMs calls

/-! ## What one call does -/

/-- What a call can do to the record of an artifact. -/
inductive RecordStep (store : ArtifactLifecycleStore) (call : Call) (refId : String) :
    Option ArtifactLifecycleRecord → Option ArtifactLifecycleRecord → Prop
  | kept (record : Option ArtifactLifecycleRecord) : RecordStep store call refId record record
  | registered (new : ArtifactLifecycleRecord) (hactive : new.status = .active)
    (hupdated : new.updatedAt = call.nowMs) : RecordStep store call refId none (some new)
  | expired (record : ArtifactLifecycleRecord) (h : record.status = .active) :
    RecordStep store call refId (some record)
      (some (record.revoke .logicallyExpired call.nowMs nofun))
  | cancelled (record : ArtifactLifecycleRecord) (reason : String)
    (h : call.operation = .cancelProcessing refId reason) :
    RecordStep store call refId (some record) (some (record.revoke .cancelled call.nowMs nofun))
  | failed (record : ArtifactLifecycleRecord) (reason : String)
    (h : call.operation = .failProcessing refId reason) :
    RecordStep store call refId (some record) (some (record.revoke .failed call.nowMs nofun))
  | deleted (record : ArtifactLifecycleRecord)
    (h : call.operation = .deleteExplicit refId record.ref.ownershipScope) :
    RecordStep store call refId (some record)
      (some (record.revoke .logicallyDeleted call.nowMs nofun))
  | pending (record : ArtifactLifecycleRecord)
    (h : record.status = .logicallyExpired ∨ record.status = .logicallyDeleted)
    (hactive : record.status ≠ .active) :
    RecordStep store call refId (some record) (some (record.moveToPending call.nowMs hactive))
  | cleaned (record : ArtifactLifecycleRecord) (h : record.status = .physicalCleanupPending)
    (hswept : refId ∈ store.swept call) :
    RecordStep store call refId (some record) (some (record.revoke .cleaned call.nowMs nofun))

/-- What a call can do to a staging entry. -/
inductive StagingStep (call : Call) (intentId : String) :
    Option StagingLifecycleEntry → Option StagingLifecycleEntry → Prop
  | kept (entry : Option StagingLifecycleEntry) : StagingStep call intentId entry entry
  | tracked (new : StagingLifecycleEntry) : StagingStep call intentId none (some new)
  | expired (entry : StagingLifecycleEntry) (h : call.operation = .expireStaging intentId) :
    StagingStep call intentId (some entry)
      (some { entry with status := .logicallyExpired, updatedAt := call.nowMs })
  | deleted (entry : StagingLifecycleEntry) (h : call.operation = .deleteStagingExplicit intentId) :
    StagingStep call intentId (some entry)
      (some { entry with
        status := .logicallyDeleted, accessRevoked := true, updatedAt := call.nowMs })
  | pending (entry : StagingLifecycleEntry) (h : entry.status.stage ≤ 1) :
    StagingStep call intentId (some entry)
      (some { entry with status := .physicalCleanupPending, updatedAt := call.nowMs })
  | cleaned (entry : StagingLifecycleEntry) (h : entry.status = .physicalCleanupPending) :
    StagingStep call intentId (some entry) none

namespace ArtifactLifecycleStore

variable {store : ArtifactLifecycleStore} {call : Call} {refId : String}
  {record : ArtifactLifecycleRecord} (nowMs : Int) {windowMs : Option Int} {n : Nat}

theorem registerVerifiedArtifact_cases (store : ArtifactLifecycleStore) (ref : ArtifactRef)
    (bytes : Bytes) (nowMs : Int) : (store.registerVerifiedArtifact ref bytes nowMs).2 = store ∨
      store.records.get? ref.refId = none ∧ ∃ record : ArtifactLifecycleRecord,
        record.updatedAt = nowMs ∧ record.status = .active ∧
        (store.registerVerifiedArtifact ref bytes nowMs).2 =
          { store with
            records := store.records.set ref.refId record
            storage := store.storage.set ref.refId ⟨bytes, ref.ownershipScope⟩ } := by
  unfold registerVerifiedArtifact InMemoryArtifactStorage.put OrderedMap.has
  by_cases hverified : ref.verified
  · rw [if_neg (not_not_intro hverified)]
    cases hrefId : assertRefId ref.refId with
    | error fault => exact .inl rfl
    | ok _ =>
      cases hscope : assertOwnershipScope ref.ownershipScope with
      | error fault => exact .inl rfl
      | ok _ =>
        cases hget : store.records.get? ref.refId with
        | some record => exact .inl rfl
        | none => exact .inr ⟨rfl, _, rfl, rfl, rfl⟩
  · rw [if_pos hverified]
    exact .inl rfl

theorem readArtifact_cases (store : ArtifactLifecycleStore) (refId callerScope : String)
    (nowMs : Int) : (store.readArtifact refId callerScope nowMs).2 = store ∨
      ∃ record, store.records.get? refId = some record ∧ record.status = .active ∧
        (store.readArtifact refId callerScope nowMs).2 =
          { store with
            records := store.records.set refId (record.revoke .logicallyExpired nowMs nofun) } := by
  unfold readArtifact
  cases hget : store.records.get? refId with
  | none => exact .inl rfl
  | some record =>
    dsimp only
    by_cases hscope : record.ref.ownershipScope ≠ callerScope
    · rw [if_pos hscope]
      exact .inl rfl
    rw [if_neg hscope]
    by_cases hrevoked : record.accessRevoked = true ∨ record.status = .logicallyDeleted
    · rw [if_pos hrevoked]
      exact .inl rfl
    rw [if_neg hrevoked]
    have hactive : record.status = .active := by
      by_contra hne
      exact hrevoked (.inl (record.revoked_iff.2 hne))
    rw [hactive, if_neg (by decide), if_neg (by decide), if_pos rfl]
    by_cases hdue : nowMs ≥ record.ref.expiresAt
    · rw [if_pos (.inl hdue)]
      exact .inr ⟨record, rfl, hactive, rfl⟩
    · rw [if_neg fun h => h.elim hdue nofun]
      cases store.storage.get refId with
      | none => exact .inl rfl
      | some bytes => exact .inl rfl

theorem processArtifact_store (store : ArtifactLifecycleStore) (refId callerScope : String)
    (nowMs : Int) : (store.processArtifact refId callerScope nowMs).2 =
      (store.readArtifact refId callerScope nowMs).2 := by
  unfold processArtifact
  rcases store.readArtifact refId callerScope nowMs with ⟨_ | _, after⟩
  · rfl
  · dsimp only
    cases after.records.get? refId <;> rfl

theorem stopProcessing_cases (store : ArtifactLifecycleStore) (status : ArtifactLifecycleStatus)
    (hstatus : status ≠ .active) (refId : String) (nowMs : Int) :
    (store.stopProcessing status hstatus refId nowMs).2 = store ∨
      ∃ record, store.records.get? refId = some record ∧
        (store.stopProcessing status hstatus refId nowMs).2 =
          { store with
            records := store.records.set refId (record.revoke status nowMs hstatus) } := by
  unfold stopProcessing
  cases hget : store.records.get? refId with
  | none => exact .inl rfl
  | some record => exact .inr ⟨record, rfl, rfl⟩

theorem deleteExplicit_cases (store : ArtifactLifecycleStore) (refId callerScope : String)
    (nowMs : Int) : (store.deleteExplicit refId callerScope nowMs).2 = store ∨
      ∃ record, store.records.get? refId = some record ∧
        record.ref.ownershipScope = callerScope ∧
        (store.deleteExplicit refId callerScope nowMs).2 =
          { store with
            records := store.records.set refId (record.revoke .logicallyDeleted nowMs nofun) } := by
  unfold deleteExplicit
  cases hget : store.records.get? refId with
  | none => exact .inl rfl
  | some record =>
    dsimp only
    by_cases hscope : record.ref.ownershipScope = callerScope
    · rw [if_neg (not_not_intro hscope)]
      exact .inr ⟨record, rfl, hscope, rfl⟩
    · rw [if_pos hscope]
      exact .inl rfl

theorem markArtifactCleanupPending_cases (store : ArtifactLifecycleStore) (refId : String)
    (nowMs : Int) : (store.markArtifactCleanupPending refId nowMs).2 = store ∨
      ∃ record, store.records.get? refId = some record ∧
        (record.status = .logicallyExpired ∨ record.status = .logicallyDeleted) ∧
        ∃ hactive, (store.markArtifactCleanupPending refId nowMs).2 =
          { store with
            records := store.records.set refId (record.moveToPending nowMs hactive) } := by
  unfold markArtifactCleanupPending
  cases hget : store.records.get? refId with
  | none => exact .inl rfl
  | some record =>
    dsimp only
    by_cases h : record.status = .logicallyExpired ∨ record.status = .logicallyDeleted
    · rw [dif_pos h]
      exact .inr ⟨record, rfl, h, _, rfl⟩
    · rw [dif_neg h]
      exact .inl rfl

/-- What a sweep with an admissible window does. -/
theorem sweepArtifacts_ok (h : validateCleanupWindow (windowOf windowMs) = .ok ())
    (store : ArtifactLifecycleStore) (nowMs : Int) : store.sweepArtifacts nowMs windowMs =
      (.ok (store.records.keysWhere fun record => record.isSwept nowMs (windowOf windowMs)),
        { store with
          records := store.records.mapValues fun _ record => record.sweep nowMs (windowOf windowMs)
          storage := store.storage.eraseAll
            (store.records.keysWhere fun record => record.isSwept nowMs (windowOf windowMs)) }) := by
  unfold sweepArtifacts
  rw [h]

theorem sweepArtifacts_error {fault : Fault}
    (h : validateCleanupWindow (windowOf windowMs) = .error fault) (store : ArtifactLifecycleStore)
    (nowMs : Int) : store.sweepArtifacts nowMs windowMs = (.error fault, store) := by
  unfold sweepArtifacts
  rw [h]

variable {calls : List Call} {earlier : Int} {key : String}

/-- The record that an operation writes makes a step, and no other record changes. -/
theorem record_step_set {new : ArtifactLifecycleRecord}
    (hnew : RecordStep store call key (store.records.get? key) (some new)) (refId : String) :
    RecordStep store call refId (store.records.get? refId)
      ((store.records.set key new).get? refId) := by
  rw [OrderedMap.get?_set]
  by_cases hkey : refId = key
  · rw [if_pos hkey, hkey]
    exact hnew
  · rw [if_neg hkey]
    exact .kept _

/-- What a sweep does to one record. -/
theorem record_step_sweep (h : call.operation = .sweepArtifacts windowMs)
    (hvalid : validateCleanupWindow (windowOf windowMs) = .ok ()) (refId : String) :
    RecordStep store call refId (store.records.get? refId)
      ((store.records.get? refId).map fun record =>
        record.sweep call.nowMs (windowOf windowMs)) := by
  cases hget : store.records.get? refId with
  | none => exact .kept none
  | some record =>
    rw [Option.map_some]
    unfold ArtifactLifecycleRecord.sweep
    by_cases hearly : call.nowMs - record.updatedAt < windowOf windowMs
    · rw [if_pos hearly]
      exact .kept _
    rw [if_neg hearly]
    by_cases hexpired : record.status = .logicallyExpired ∨ record.status = .logicallyDeleted
    · rw [dif_pos hexpired]
      exact .pending record hexpired _
    rw [dif_neg hexpired]
    by_cases hpending : record.status = .physicalCleanupPending
    · rw [if_pos hpending]
      have hdue : record.isSwept call.nowMs (windowOf windowMs) = true :=
        decide_eq_true ⟨hpending, hearly⟩
      have hswept : refId ∈ store.swept call := by
        unfold swept
        simp only [h, sweepArtifacts_ok hvalid]
        exact (OrderedMap.mem_keysWhere
          (fun record => record.isSwept call.nowMs (windowOf windowMs)) _).2 ⟨record, hget, hdue⟩
      exact .cleaned record hpending hswept
    · rw [if_neg hpending]
      exact .kept _

/-- What a call does to the record of an artifact. -/
theorem record_step (store : ArtifactLifecycleStore) (call : Call) (refId : String) :
    RecordStep store call refId (store.records.get? refId)
      ((store.perform call).records.get? refId) := by
  have hkept {other : ArtifactLifecycleStore} (hrecords : other.records = store.records) :
      RecordStep store call refId (store.records.get? refId) (other.records.get? refId) := by
    rw [hrecords]
    exact .kept _
  have hread (key callerScope : String) :
      RecordStep store call refId (store.records.get? refId)
        ((store.readArtifact key callerScope call.nowMs).2.records.get? refId) := by
    rcases store.readArtifact_cases key callerScope call.nowMs with hsame | ⟨old, hold, hactive, heq⟩
    · exact hkept (congrArg records hsame)
    · rw [heq]
      exact record_step_set (hold ▸ .expired old hactive) refId
  unfold perform
  cases hoperation : call.operation with
  | registerVerifiedArtifact ref bytes =>
    rcases store.registerVerifiedArtifact_cases ref bytes call.nowMs with
      hsame | ⟨hnone, new, hupdated, hactive, heq⟩
    · exact hkept (congrArg records hsame)
    · simp only [heq]
      exact record_step_set (hnone ▸ .registered new hactive hupdated) refId
  | readArtifact key callerScope => exact hread key callerScope
  | processArtifact key callerScope =>
    simp only [processArtifact_store]
    exact hread key callerScope
  | cancelProcessing key reason =>
    rcases store.stopProcessing_cases .cancelled nofun key call.nowMs with
      hsame | ⟨old, hold, heq⟩
    · exact hkept (congrArg records hsame)
    · simp only [cancelProcessing, heq]
      exact record_step_set (hold ▸ .cancelled old reason hoperation) refId
  | failProcessing key reason =>
    rcases store.stopProcessing_cases .failed nofun key call.nowMs with
      hsame | ⟨old, hold, heq⟩
    · exact hkept (congrArg records hsame)
    · simp only [failProcessing, heq]
      exact record_step_set (hold ▸ .failed old reason hoperation) refId
  | expireSweep =>
    simp only [expireSweep, OrderedMap.get?_mapValues]
    cases store.records.get? refId with
    | none => exact .kept none
    | some record =>
      rw [Option.map_some]
      unfold ArtifactLifecycleRecord.expireIfDue
      split
      · rename_i hdue
        exact .expired record hdue.1
      · exact .kept _
  | deleteExplicit key callerScope =>
    rcases store.deleteExplicit_cases key callerScope call.nowMs with
      hsame | ⟨old, hold, rfl, heq⟩
    · exact hkept (congrArg records hsame)
    · simp only [heq]
      exact record_step_set (hold ▸ .deleted old hoperation) refId
  | markArtifactCleanupPending key =>
    rcases store.markArtifactCleanupPending_cases key call.nowMs with
      hsame | ⟨old, hold, hstatus, hactive, heq⟩
    · exact hkept (congrArg records hsame)
    · simp only [heq]
      exact record_step_set (hold ▸ .pending old hstatus hactive) refId
  | sweepArtifacts windowMs =>
    cases hvalid : validateCleanupWindow (windowOf windowMs) with
    | error fault =>
      simp only [sweepArtifacts_error hvalid]
      exact .kept _
    | ok _ =>
      simp only [sweepArtifacts_ok hvalid, OrderedMap.get?_mapValues]
      exact record_step_sweep hoperation hvalid refId
  | trackStaging intentId =>
    simp only [trackStaging]
    split
    · exact .kept _
    · split <;> exact .kept _
  | expireStaging intentId =>
    simp only [expireStaging]
    cases store.staging.get? intentId <;> exact .kept _
  | markStagingCleanupPending intentId =>
    simp only [markStagingCleanupPending]
    cases store.staging.get? intentId with
    | none => exact .kept _
    | some entry =>
      dsimp only
      split <;> exact .kept _
  | deleteStagingExplicit intentId =>
    simp only [deleteStagingExplicit]
    cases store.staging.get? intentId <;> exact .kept _
  | sweepStaging windowMs =>
    simp only [sweepStaging]
    cases validateCleanupWindow (windowOf windowMs) <;> exact .kept _
  | getRecord key => exact .kept _
  | cleanupOrphans => exact .kept _
  | getStaging intentId => exact .kept _

/-- The staging entry that an operation writes makes a step, and no other entry changes. -/
theorem staging_step_set {new : StagingLifecycleEntry}
    (hnew : StagingStep call key (store.staging.get? key) (some new)) (intentId : String) :
    StagingStep call intentId (store.staging.get? intentId)
      ((store.staging.set key new).get? intentId) := by
  rw [OrderedMap.get?_set]
  by_cases hkey : intentId = key
  · rw [if_pos hkey, hkey]
    exact hnew
  · rw [if_neg hkey]
    exact .kept _

/-- What a sweep of the staging entries does to one of them: a cleaned one is removed. -/
theorem staging_step_sweep (store : ArtifactLifecycleStore) (call : Call) (windowMs : Int)
    (intentId : String) :
    StagingStep call intentId (store.staging.get? intentId)
      (((store.staging.mapValues fun _ entry => entry.sweep call.nowMs windowMs).eraseAll
        (store.staging.keysWhere fun entry => entry.isSwept call.nowMs windowMs)).get? intentId) := by
  rw [OrderedMap.get?_eraseAll, OrderedMap.get?_mapValues]
  have hkeys : intentId ∈ store.staging.keysWhere (fun entry => entry.isSwept call.nowMs windowMs) ↔
      ∃ entry, store.staging.get? intentId = some entry ∧
        entry.isSwept call.nowMs windowMs = true := OrderedMap.mem_keysWhere _ _
  cases hget : store.staging.get? intentId with
  | none => split <;> exact .kept none
  | some entry =>
    by_cases hswept : entry.isSwept call.nowMs windowMs = true
    · rw [if_pos (hkeys.2 ⟨entry, hget, hswept⟩)]
      exact .cleaned entry (of_decide_eq_true hswept).1
    · have hnot : intentId ∉ store.staging.keysWhere
          fun entry => entry.isSwept call.nowMs windowMs := by
        intro hmem
        obtain ⟨_, hfound, hpass⟩ := hkeys.1 hmem
        rw [Option.some.inj (hfound.symm.trans hget)] at hpass
        exact hswept hpass
      rw [if_neg hnot, Option.map_some]
      unfold StagingLifecycleEntry.sweep
      by_cases hearly : call.nowMs - entry.updatedAt < windowMs
      · rw [if_pos hearly]
        exact .kept _
      rw [if_neg hearly]
      by_cases hexpired : entry.status = .logicallyExpired ∨ entry.status = .logicallyDeleted
      · rw [if_pos hexpired]
        exact .pending entry (by rcases hexpired with h | h <;> rw [h] <;> exact le_refl 1)
      · rw [if_neg hexpired, if_neg fun h => hswept (decide_eq_true ⟨h, hearly⟩)]
        exact .kept _

/-- What a call does to a staging entry. -/
theorem staging_step (store : ArtifactLifecycleStore) (call : Call) (intentId : String) :
    StagingStep call intentId (store.staging.get? intentId)
      ((store.perform call).staging.get? intentId) := by
  have hkept {other : ArtifactLifecycleStore} (hstaging : other.staging = store.staging) :
      StagingStep call intentId (store.staging.get? intentId) (other.staging.get? intentId) := by
    rw [hstaging]
    exact .kept _
  have hread (key callerScope : String) :
      (store.readArtifact key callerScope call.nowMs).2.staging = store.staging := by
    rcases store.readArtifact_cases key callerScope call.nowMs with hsame | ⟨old, -, -, heq⟩
    · rw [hsame]
    · rw [heq]
  have hstop (status : ArtifactLifecycleStatus) (hstatus : status ≠ .active) (key : String) :
      (store.stopProcessing status hstatus key call.nowMs).2.staging = store.staging := by
    rcases store.stopProcessing_cases status hstatus key call.nowMs with hsame | ⟨old, -, heq⟩
    · rw [hsame]
    · rw [heq]
  unfold perform
  cases hoperation : call.operation with
  | registerVerifiedArtifact ref bytes =>
    rcases store.registerVerifiedArtifact_cases ref bytes call.nowMs with
      hsame | ⟨-, _, -, -, heq⟩
    · exact hkept (congrArg staging hsame)
    · simp only [heq]
      exact .kept _
  | readArtifact key callerScope => exact hkept (hread key callerScope)
  | processArtifact key callerScope =>
    simp only [processArtifact_store]
    exact hkept (hread key callerScope)
  | cancelProcessing key reason => exact hkept (hstop _ _ key)
  | failProcessing key reason => exact hkept (hstop _ _ key)
  | deleteExplicit key callerScope =>
    rcases store.deleteExplicit_cases key callerScope call.nowMs with hsame | ⟨old, -, -, heq⟩
    · exact hkept (congrArg staging hsame)
    · simp only [heq]
      exact .kept _
  | markArtifactCleanupPending key =>
    rcases store.markArtifactCleanupPending_cases key call.nowMs with
      hsame | ⟨_, -, -, _, heq⟩
    · exact hkept (congrArg staging hsame)
    · simp only [heq]
      exact .kept _
  | sweepArtifacts windowMs =>
    simp only [sweepArtifacts]
    cases validateCleanupWindow (windowOf windowMs) <;> exact .kept _
  | trackStaging key =>
    simp only [trackStaging]
    split
    · exact .kept _
    · split
      · exact .kept _
      · rename_i huntracked
        have hget : store.staging.get? key = none :=
          Option.not_isSome_iff_eq_none.1 huntracked
        exact staging_step_set (hget ▸ .tracked _) intentId
  | expireStaging key =>
    simp only [expireStaging]
    cases hget : store.staging.get? key with
    | none => exact .kept _
    | some entry => exact staging_step_set (hget ▸ .expired entry hoperation) intentId
  | markStagingCleanupPending key =>
    simp only [markStagingCleanupPending]
    cases hget : store.staging.get? key with
    | none => exact .kept _
    | some entry =>
      dsimp only
      split
      · exact .kept _
      · rename_i hstatus
        have hstage : entry.status.stage ≤ 1 := by
          by_contra hlate
          refine hstatus ⟨?_, ?_, ?_⟩ <;> intro h <;> rw [h] at hlate <;>
            exact hlate (by decide)
        exact staging_step_set (hget ▸ .pending entry hstage) intentId
  | deleteStagingExplicit key =>
    simp only [deleteStagingExplicit]
    cases hget : store.staging.get? key with
    | none => exact .kept _
    | some entry => exact staging_step_set (hget ▸ .deleted entry hoperation) intentId
  | sweepStaging windowMs =>
    simp only [sweepStaging]
    cases validateCleanupWindow (windowOf windowMs) with
    | error fault => exact .kept _
    | ok _ => exact staging_step_sweep store call _ intentId
  | expireSweep => exact .kept _
  | getRecord key => exact .kept _
  | cleanupOrphans => exact .kept _
  | getStaging key => exact .kept _

/-! ## Bytes -/

/-- The bytes of a registered artifact do not come back. -/
theorem absent_stays (h : store.records.get? refId = some record)
    (habsent : store.storage.get refId = none) (call : Call) :
    (store.perform call).storage.get refId = none := by
  have hnone : store.storage.get? refId = none := Option.map_eq_none_iff.1 habsent
  have hkept {other : ArtifactLifecycleStore} (hstorage : other.storage = store.storage) :
      other.storage.get refId = none := by
    rw [hstorage]
    exact habsent
  have herased (ids : List String) : (store.storage.eraseAll ids).get? refId = none := by
    rw [OrderedMap.get?_eraseAll]
    split
    · rfl
    · exact hnone
  have hread (key callerScope : String) :
      (store.readArtifact key callerScope call.nowMs).2.storage = store.storage := by
    rcases store.readArtifact_cases key callerScope call.nowMs with hsame | ⟨old, -, -, heq⟩
    · rw [hsame]
    · rw [heq]
  have hstop (status : ArtifactLifecycleStatus) (hstatus : status ≠ .active) (key : String) :
      (store.stopProcessing status hstatus key call.nowMs).2.storage = store.storage := by
    rcases store.stopProcessing_cases status hstatus key call.nowMs with hsame | ⟨old, -, heq⟩
    · rw [hsame]
    · rw [heq]
  unfold perform
  cases call.operation with
  | registerVerifiedArtifact ref bytes =>
    rcases store.registerVerifiedArtifact_cases ref bytes call.nowMs with
      hsame | ⟨hnew, _, -, -, heq⟩
    · exact hkept (congrArg storage hsame)
    · have hne : refId ≠ ref.refId := by
        rintro rfl
        exact absurd (h.symm.trans hnew) nofun
      simp only [heq]
      exact Option.map_eq_none_iff.2 ((OrderedMap.get?_set_of_ne _ hne _).trans hnone)
  | readArtifact key callerScope => exact hkept (hread key callerScope)
  | processArtifact key callerScope =>
    simp only [processArtifact_store]
    exact hkept (hread key callerScope)
  | cancelProcessing key reason => exact hkept (hstop _ _ key)
  | failProcessing key reason => exact hkept (hstop _ _ key)
  | deleteExplicit key callerScope =>
    rcases store.deleteExplicit_cases key callerScope call.nowMs with hsame | ⟨old, -, -, heq⟩
    · exact hkept (congrArg storage hsame)
    · simp only [heq]
      exact habsent
  | markArtifactCleanupPending key =>
    rcases store.markArtifactCleanupPending_cases key call.nowMs with
      hsame | ⟨_, -, -, _, heq⟩
    · exact hkept (congrArg storage hsame)
    · simp only [heq]
      exact habsent
  | sweepArtifacts windowMs =>
    simp only [sweepArtifacts]
    cases validateCleanupWindow (windowOf windowMs) with
    | error fault => exact habsent
    | ok _ => exact Option.map_eq_none_iff.2 (herased _)
  | cleanupOrphans => exact Option.map_eq_none_iff.2 (herased _)
  | trackStaging key =>
    simp only [trackStaging]
    split
    · exact habsent
    · split <;> exact habsent
  | expireStaging key =>
    simp only [expireStaging]
    cases store.staging.get? key <;> exact habsent
  | markStagingCleanupPending key =>
    simp only [markStagingCleanupPending]
    cases store.staging.get? key with
    | none => exact habsent
    | some entry =>
      dsimp only
      split <;> exact habsent
  | deleteStagingExplicit key =>
    simp only [deleteStagingExplicit]
    cases store.staging.get? key <;> exact habsent
  | sweepStaging windowMs =>
    simp only [sweepStaging]
    cases validateCleanupWindow (windowOf windowMs) with
    | error fault => exact habsent
    | ok _ => exact Option.map_eq_none_iff.2 (herased _)
  | expireSweep => exact habsent
  | getRecord key => exact habsent
  | getStaging key => exact habsent

/-- What an artifact that a call reports as cleaned up was before, and is afterwards. -/
theorem swept_cases (h : refId ∈ store.swept call) :
    ∃ record, store.records.get? refId = some record ∧ record.status = .physicalCleanupPending ∧
      (store.perform call).records.get? refId = some (record.revoke .cleaned call.nowMs nofun) ∧
      (store.perform call).storage.get refId = none := by
  unfold swept at h
  cases hoperation : call.operation with
  | sweepArtifacts windowMs =>
    simp only [hoperation] at h
    cases hvalid : validateCleanupWindow (windowOf windowMs) with
    | error fault =>
      rw [sweepArtifacts_error hvalid] at h
      exact absurd h List.not_mem_nil
    | ok _ =>
      rw [sweepArtifacts_ok hvalid] at h
      have hmem : refId ∈ store.records.keysWhere
          fun record => record.isSwept call.nowMs (windowOf windowMs) := h
      obtain ⟨record, hget, hdue⟩ := (OrderedMap.mem_keysWhere _ _).1 hmem
      obtain ⟨hpending, hlate⟩ := of_decide_eq_true hdue
      refine ⟨record, hget, hpending, ?_, ?_⟩
      · have hsweep : record.sweep call.nowMs (windowOf windowMs) =
            record.revoke .cleaned call.nowMs nofun := by
          unfold ArtifactLifecycleRecord.sweep
          have hnot : ¬ (record.status = .logicallyExpired ∨
              record.status = .logicallyDeleted) := by
            rw [hpending]
            exact nofun
          rw [if_neg hlate, dif_neg hnot, if_pos hpending]
        simp only [perform, hoperation, sweepArtifacts_ok hvalid, OrderedMap.get?_mapValues,
          hget, Option.map_some, hsweep]
      · simp only [perform, hoperation, sweepArtifacts_ok hvalid]
        refine Option.map_eq_none_iff.2 ?_
        rw [OrderedMap.get?_eraseAll, if_pos hmem]
  | _ =>
    simp only [hoperation] at h
    exact absurd h List.not_mem_nil

theorem nodup_swept (store : ArtifactLifecycleStore) (call : Call) : (store.swept call).Nodup := by
  unfold swept
  cases call.operation with
  | sweepArtifacts windowMs =>
    cases hvalid : validateCleanupWindow (windowOf windowMs) with
    | error fault =>
      simp only [sweepArtifacts_error hvalid]
      exact List.nodup_nil
    | ok _ =>
      simp only [sweepArtifacts_ok hvalid]
      exact OrderedMap.nodup_keysWhere
        (fun record => record.isSwept call.nowMs (windowOf windowMs)) store.records
  | _ => exact List.nodup_nil

/-! ## The property -/

/-- One call moves no status back, and takes away no record. -/
structure Forward (store : ArtifactLifecycleStore) (call : Call) : Prop where
  artifact : ∀ refId record, store.getRecord refId = some record →
    ∃ after, (store.perform call).getRecord refId = some after ∧
      record.status.stage ≤ after.status.stage
  staging : ∀ intentId entry, store.getStaging intentId = some entry →
    (store.perform call).getStaging intentId = none ∧ entry.status = .physicalCleanupPending ∨
      ∃ after, (store.perform call).getStaging intentId = some after ∧
        entry.status.stage ≤ after.status.stage

/-- In a run from empty records over some storage: statuses only move forward, nothing is cleaned
up twice, a revoked artifact is never read again, and two late sweeps remove its bytes. -/
structure MovesForward (storage : InMemoryArtifactStorage) (calls : List Call) : Prop where
  forward : Each perform Forward (create storage) calls
  sweptOnce : (collect perform swept (create storage) calls).Nodup
  unreadable : ∀ before after, calls = before ++ after →
    ∀ refId record, (run perform (create storage) before).getRecord refId = some record →
      record.accessRevoked = true → ∀ callerScope nowMs, ∃ fault,
        ((run perform (create storage) calls).readArtifact refId callerScope nowMs).1 =
          .error fault
  removed : ∀ before last after, calls = before ++ last :: after →
    ∀ refId record,
      (run perform (create storage) (before ++ [last])).getRecord refId = some record →
      record.accessRevoked = true → 2 ≤ lateSweeps last.nowMs after →
        (run perform (create storage) calls).storage.get refId = none

/-- The calls that keep the order: processing is stopped only before the cleanup begins and where
no bytes are left behind, and nothing is deleted or expired once its cleanup has begun. -/
def orderly (store : ArtifactLifecycleStore) (call : Call) : Bool :=
  match call.operation with
  | .cancelProcessing refId _ | .failProcessing refId _ =>
    (store.records.get? refId).all fun record =>
      record.status.stage ≤ 1 && (store.storage.get refId).isNone
  | .deleteExplicit refId callerScope =>
    (store.records.get? refId).all fun record =>
      record.ref.ownershipScope ≠ callerScope || record.status.stage ≤ 1
  | .expireStaging intentId | .deleteStagingExplicit intentId =>
    (store.staging.get? intentId).all fun entry => entry.status.stage ≤ 1
  | _ => true

/-! ## One step -/

/-- What `orderly` says of an artifact whose processing is stopped. -/
theorem orderly_stop {reason : String} (horderly : store.orderly call = true)
    (h : store.records.get? refId = some record)
    (hcall : call.operation = .cancelProcessing refId reason ∨
      call.operation = .failProcessing refId reason) :
    record.status.stage ≤ 1 ∧ store.storage.get refId = none := by
  unfold orderly at horderly
  rcases hcall with hcall | hcall <;>
    simpa only [hcall, h, Option.all_some, Bool.and_eq_true, decide_eq_true_eq,
      Option.isNone_iff_eq_none] using horderly

/-- What `orderly` says of an artifact that is deleted. -/
theorem orderly_delete (horderly : store.orderly call = true)
    (h : store.records.get? refId = some record)
    (hcall : call.operation = .deleteExplicit refId record.ref.ownershipScope) :
    record.status.stage ≤ 1 := by
  unfold orderly at horderly
  simpa [hcall, h] using horderly

/-- A step from a record leads to a record: no artifact is forgotten. -/
theorem record_step_some (call : Call) (h : store.records.get? refId = some record) :
    ∃ after, (store.perform call).records.get? refId = some after ∧
      RecordStep store call refId (some record) (some after) := by
  have hstep := store.record_step call refId
  rw [h] at hstep
  generalize (store.perform call).records.get? refId = result at hstep
  cases hstep with
  | kept => exact ⟨record, rfl, .kept _⟩
  | expired _ hactive => exact ⟨_, rfl, .expired record hactive⟩
  | cancelled _ reason hcall => exact ⟨_, rfl, .cancelled record reason hcall⟩
  | failed _ reason hcall => exact ⟨_, rfl, .failed record reason hcall⟩
  | deleted _ hcall => exact ⟨_, rfl, .deleted record hcall⟩
  | pending _ hstatus hactive => exact ⟨_, rfl, .pending record hstatus hactive⟩
  | cleaned _ hpending hswept => exact ⟨_, rfl, .cleaned record hpending hswept⟩

/-- An orderly call moves no status back. -/
theorem forward_of_orderly (horderly : store.orderly call = true) : Forward store call where
  artifact := by
    intro refId record hrecord
    obtain ⟨after, hafter, hstep⟩ := record_step_some call hrecord
    refine ⟨after, hafter, ?_⟩
    cases hstep with
    | kept => exact le_refl _
    | expired _ hactive =>
      rw [hactive]
      exact Nat.zero_le 1
    | cancelled _ reason hcall => exact (orderly_stop horderly hrecord (.inl hcall)).1
    | failed _ reason hcall => exact (orderly_stop horderly hrecord (.inr hcall)).1
    | deleted _ hcall => exact orderly_delete horderly hrecord hcall
    | pending _ hstatus _ =>
      rcases hstatus with hstatus | hstatus <;>
      · rw [hstatus]
        exact Nat.le_succ 1
    | cleaned _ hpending _ =>
      rw [hpending]
      exact Nat.le_succ 2
  staging := by
    intro intentId entry hentry
    have hstep := store.staging_step call intentId
    unfold getStaging at hentry ⊢
    rw [hentry] at hstep
    generalize (store.perform call).staging.get? intentId = result at hstep
    cases hstep with
    | kept => exact .inr ⟨entry, rfl, le_refl _⟩
    | expired _ hcall =>
      have hstage : entry.status.stage ≤ 1 := by
        unfold orderly at horderly
        simpa [hcall, hentry] using horderly
      exact .inr ⟨_, rfl, hstage⟩
    | deleted _ hcall =>
      have hstage : entry.status.stage ≤ 1 := by
        unfold orderly at horderly
        simpa [hcall, hentry] using horderly
      exact .inr ⟨_, rfl, hstage⟩
    | pending _ hstage => exact .inr ⟨_, rfl, Nat.le_succ_of_le hstage⟩
    | cleaned _ hpending => exact .inl ⟨rfl, hpending⟩

/-- An artifact without access stays without access. -/
theorem revoked_stays (h : store.records.get? refId = some record)
    (hrevoked : record.accessRevoked = true) (call : Call) :
    ∃ after, (store.perform call).records.get? refId = some after ∧
      after.accessRevoked = true := by
  obtain ⟨after, hafter, hstep⟩ := record_step_some call h
  refine ⟨after, hafter, ?_⟩
  cases hstep with
  | kept => exact hrevoked
  | pending => exact hrevoked
  | _ => rfl

theorem readArtifact_revoked (h : store.records.get? refId = some record)
    (hrevoked : record.accessRevoked = true) (callerScope : String) (nowMs : Int) :
    ∃ fault, (store.readArtifact refId callerScope nowMs).1 = .error fault := by
  unfold readArtifact
  rw [h]
  dsimp only
  split
  · exact ⟨_, rfl⟩
  · rw [if_pos (.inl hrevoked)]
    exact ⟨_, rfl⟩

/-- The time of the last change is the time of a call. -/
theorem updatedAt_cases (call : Call) {after : ArtifactLifecycleRecord}
    (hafter : (store.perform call).records.get? refId = some after) :
    store.records.get? refId = some after ∨ after.updatedAt = call.nowMs := by
  have hstep := store.record_step call refId
  rw [hafter] at hstep
  generalize store.records.get? refId = before at hstep
  cases hstep with
  | kept => exact .inl rfl
  | registered _ _ hupdated => exact .inr hupdated
  | _ => exact .inr rfl

/-- Bytes are left only behind artifacts that a sweep reaches. -/
def Reached (store : ArtifactLifecycleStore) : Prop :=
  ∀ refId record, store.records.get? refId = some record →
    record.status = .cancelled ∨ record.status = .failed ∨ record.status = .cleaned →
      store.storage.get refId = none

theorem reached_step (h : Reached store) (horderly : store.orderly call = true) :
    Reached (store.perform call) := by
  intro refId after hafter hstatus
  have hstep := store.record_step call refId
  rw [hafter] at hstep
  cases hbefore : store.records.get? refId with
  | none =>
    rw [hbefore] at hstep
    cases hstep with
    | registered _ hactive _ =>
      rw [hactive] at hstatus
      exact absurd hstatus (by decide)
  | some record =>
    rw [hbefore] at hstep
    cases hstep with
    | kept => exact absent_stays hbefore (h refId _ hbefore hstatus) call
    | expired => exact absurd hstatus (by simp [ArtifactLifecycleRecord.revoke])
    | cancelled _ reason hcall =>
      exact absent_stays hbefore (orderly_stop horderly hbefore (.inl hcall)).2 call
    | failed _ reason hcall =>
      exact absent_stays hbefore (orderly_stop horderly hbefore (.inr hcall)).2 call
    | deleted => exact absurd hstatus (by simp [ArtifactLifecycleRecord.revoke])
    | pending => exact absurd hstatus (by simp [ArtifactLifecycleRecord.moveToPending])
    | cleaned _ _ hswept => exact (swept_cases hswept).choose_spec.2.2.2

/-! ## Sweeping -/

/-- At most `n` late sweeps are left until the bytes of the artifact are gone. -/
inductive Remaining (store : ArtifactLifecycleStore) (refId : String)
    (record : ArtifactLifecycleRecord) : Nat → Prop
  | gone (n : Nat) (h : store.storage.get refId = none) : Remaining store refId record n
  | pending (n : Nat) (h : record.status = .physicalCleanupPending) :
    Remaining store refId record (n + 1)
  | revoked (n : Nat) (h : record.status = .logicallyExpired ∨ record.status = .logicallyDeleted) :
    Remaining store refId record (n + 2)

/-- Two late sweeps are enough for a revoked artifact. -/
theorem remaining_of_revoked (hreached : Reached store) (h : store.records.get? refId = some record)
    (hrevoked : record.accessRevoked = true) : Remaining store refId record 2 := by
  have hactive : record.status ≠ .active := record.revoked_iff.1 hrevoked
  cases hstatus : record.status with
  | active => exact absurd hstatus hactive
  | cancelled => exact .gone 2 (hreached refId record h (.inl hstatus))
  | failed => exact .gone 2 (hreached refId record h (.inr (.inl hstatus)))
  | logicallyExpired => exact .revoked 0 (.inl hstatus)
  | logicallyDeleted => exact .revoked 0 (.inr hstatus)
  | physicalCleanupPending => exact .pending 1 hstatus
  | cleaned => exact .gone 2 (hreached refId record h (.inr (.inr hstatus)))

/-- An orderly call does not put the cleanup back. -/
theorem remaining_step (horderly : store.orderly call = true)
    (h : store.records.get? refId = some record) (hremaining : Remaining store refId record n) :
    ∃ after, (store.perform call).records.get? refId = some after ∧
      Remaining (store.perform call) refId after n := by
  obtain ⟨after, hafter, hstep⟩ := record_step_some call h
  refine ⟨after, hafter, ?_⟩
  cases hremaining with
  | gone n hgone => exact .gone n (absent_stays h hgone call)
  | pending n hpending =>
    cases hstep with
    | kept => exact .pending n hpending
    | expired _ hactive => exact absurd (hpending.symm.trans hactive) (by decide)
    | cancelled _ reason hcall =>
      exact .gone _ (absent_stays h (orderly_stop horderly h (.inl hcall)).2 call)
    | failed _ reason hcall =>
      exact .gone _ (absent_stays h (orderly_stop horderly h (.inr hcall)).2 call)
    | deleted _ hcall =>
      have hstage := orderly_delete horderly h hcall
      rw [hpending] at hstage
      exact absurd hstage (by decide)
    | pending => exact .pending n rfl
    | cleaned _ _ hswept => exact .gone _ (swept_cases hswept).choose_spec.2.2.2
  | revoked n hrevoked =>
    cases hstep with
    | kept => exact .revoked n hrevoked
    | expired => exact .revoked n (.inl rfl)
    | cancelled _ reason hcall =>
      exact .gone _ (absent_stays h (orderly_stop horderly h (.inl hcall)).2 call)
    | failed _ reason hcall =>
      exact .gone _ (absent_stays h (orderly_stop horderly h (.inr hcall)).2 call)
    | deleted => exact .revoked n (.inr rfl)
    | pending => exact .pending (n + 1) rfl
    | cleaned _ _ hswept => exact .gone _ (swept_cases hswept).choose_spec.2.2.2

/-- A late sweep brings the cleanup on. -/
theorem remaining_sweep (hlate : call.isLateSweep earlier = true)
    (hupdated : record.updatedAt ≤ earlier) (h : store.records.get? refId = some record)
    (hremaining : Remaining store refId record (n + 1)) :
    ∃ after, (store.perform call).records.get? refId = some after ∧
      Remaining (store.perform call) refId after n := by
  unfold Call.isLateSweep at hlate
  cases hoperation : call.operation with
  | sweepArtifacts windowMs =>
    simp only [hoperation, Bool.and_eq_true, Bool.not_eq_true', decide_eq_false_iff_not] at hlate
    obtain ⟨hok, _⟩ := hlate
    cases hvalid : validateCleanupWindow (windowOf windowMs) with
    | error fault =>
      rw [hvalid] at hok
      exact absurd hok nofun
    | ok _ =>
      have hdue : ¬ call.nowMs - record.updatedAt < windowOf windowMs := by omega
      have hafter : (store.perform call).records.get? refId =
          some (record.sweep call.nowMs (windowOf windowMs)) := by
        simp only [perform, hoperation, sweepArtifacts_ok hvalid, OrderedMap.get?_mapValues, h,
          Option.map_some]
      refine ⟨_, hafter, ?_⟩
      cases hremaining with
      | gone _ hgone => exact .gone n (absent_stays h hgone call)
      | pending _ hpending =>
        have hswept : refId ∈ store.swept call := by
          unfold swept
          simp only [hoperation, sweepArtifacts_ok hvalid]
          exact (OrderedMap.mem_keysWhere
            (fun record => record.isSwept call.nowMs (windowOf windowMs)) _).2
            ⟨record, h, decide_eq_true ⟨hpending, hdue⟩⟩
        exact .gone n (swept_cases hswept).choose_spec.2.2.2
      | revoked m hrevoked =>
        have hsweep : (record.sweep call.nowMs (windowOf windowMs)).status =
            .physicalCleanupPending := by
          unfold ArtifactLifecycleRecord.sweep
          rw [if_neg hdue, dif_pos hrevoked]
          rfl
        exact .pending m hsweep
  | _ =>
    simp only [hoperation] at hlate
    exact absurd hlate (by decide)

/-- Over a run of orderly calls at non-decreasing times, late sweeps remove the bytes. -/
theorem removed_run
    (horderly : Each perform (fun store call => store.orderly call = true) store calls)
    (htimes : (calls.map Call.nowMs).Pairwise (· ≤ ·)) (h : store.records.get? refId = some record)
    (hupdated : record.updatedAt ≤ earlier) (hlater : ∀ call ∈ calls, earlier ≤ call.nowMs)
    (hremaining : Remaining store refId record n) (hsweeps : n ≤ lateSweeps earlier calls) :
    (run perform store calls).storage.get refId = none := by
  induction calls generalizing store record n earlier with
  | nil =>
    obtain rfl : n = 0 := Nat.le_zero.1 hsweeps
    cases hremaining with
    | gone _ hgone => exact hgone
  | cons call calls ih =>
    obtain ⟨hcall, hrest⟩ := horderly
    obtain ⟨hnext, htimes⟩ := List.pairwise_cons.1 htimes
    have hearlier : earlier ≤ call.nowMs := hlater call List.mem_cons_self
    have hlater' : ∀ other ∈ calls, call.nowMs ≤ other.nowMs := fun other hother =>
      hnext _ (List.mem_map_of_mem hother)
    have hupdated' {after : ArtifactLifecycleRecord}
        (hafter : (store.perform call).records.get? refId = some after) :
        after.updatedAt ≤ call.nowMs := by
      rcases updatedAt_cases call hafter with hsame | hnow
      · rw [Option.some.inj (hsame.symm.trans h)]
        exact hupdated.trans hearlier
      · exact hnow.le
    unfold lateSweeps at hsweeps
    by_cases hlate : call.isLateSweep earlier = true
    · rw [if_pos hlate] at hsweeps
      cases n with
      | zero =>
        obtain ⟨after, hafter, hleft⟩ := remaining_step hcall h hremaining
        exact ih hrest htimes hafter (hupdated' hafter) hlater' hleft (Nat.zero_le _)
      | succ n =>
        obtain ⟨after, hafter, hleft⟩ := remaining_sweep hlate hupdated h hremaining
        exact ih hrest htimes hafter (hupdated' hafter) hlater' hleft (by omega)
    · rw [if_neg hlate, Nat.zero_add] at hsweeps
      obtain ⟨_, hafter, hleft⟩ := remaining_step hcall h hremaining
      exact ih hrest htimes hafter (hupdated' hafter) hlater' hleft hsweeps

/-! ## Whole runs -/

theorem updatedAt_run {refId : String} {last : Call}
    (htimes : ((calls ++ [last]).map Call.nowMs).Pairwise (· ≤ ·))
    {storage : InMemoryArtifactStorage}
    (h : (run perform (create storage) (calls ++ [last])).records.get? refId = some record) :
    record.updatedAt ≤ last.nowMs := by
  induction calls using List.reverseRecOn generalizing last record with
  | nil =>
    rcases updatedAt_cases last (h : ((create storage).perform last).records.get? refId = _) with
      hsame | hnow
    · exact absurd hsame nofun
    · exact hnow.le
  | append_singleton calls previous ih =>
    rw [run_append] at h
    rcases updatedAt_cases last h with hsame | hnow
    · rw [List.map_append, List.pairwise_append] at htimes
      have hprevious : record.updatedAt ≤ previous.nowMs := ih htimes.1 hsame
      have hle : previous.nowMs ≤ last.nowMs :=
        htimes.2.2 _ (List.mem_map_of_mem (List.mem_append_right _ List.mem_cons_self)) _
          (List.mem_map_of_mem List.mem_cons_self)
      exact hprevious.trans hle
    · exact hnow.le

theorem revoked_run (h : store.records.get? refId = some record)
    (hrevoked : record.accessRevoked = true) (calls : List Call) :
    ∃ after, (run perform store calls).records.get? refId = some after ∧
      after.accessRevoked = true := by
  induction calls generalizing store record with
  | nil => exact ⟨record, h, hrevoked⟩
  | cons call calls ih =>
    obtain ⟨_, hafter, hafterRevoked⟩ := revoked_stays h hrevoked call
    exact ih hafter hafterRevoked

theorem reached_create (storage : InMemoryArtifactStorage) : Reached (create storage) := by
  intro refId record h
  exact absurd h nofun

/-- In every run of orderly calls at non-decreasing times the lifecycle moves forward and ends in
cleanup. -/
theorem moves_forward (storage : InMemoryArtifactStorage) (calls : List Call)
    (htimes : (calls.map Call.nowMs).Pairwise (· ≤ ·))
    (horderly : Each perform (fun store call => store.orderly call = true) (create storage) calls) :
    MovesForward storage calls where
  forward := horderly.imp fun _ _ hcall => forward_of_orderly hcall
  sweptOnce := by
    -- What is spent is a clean artifact: it was pending when it was swept.
    refine (nodup_collect (fun _ => True)
      (fun store refId => ∃ record, store.records.get? refId = some record ∧
        record.status = .cleaned) (fun _ _ _ _ => trivial) ?_
      (fun store call _ _ => nodup_swept store call) ?_ horderly trivial).1
    · rintro store call refId - hcall ⟨record, hrecord, hcleaned⟩
      obtain ⟨after, hafter, hstage⟩ := (forward_of_orderly hcall).artifact refId record hrecord
      refine ⟨after, hafter, ?_⟩
      rw [hcleaned] at hstage
      revert hstage
      cases after.status <;> simp [ArtifactLifecycleStatus.stage]
    · intro store call refId _ _ hswept
      obtain ⟨record, hrecord, hpending, hafter, -⟩ := swept_cases hswept
      refine ⟨?_, _, hafter, rfl⟩
      rintro ⟨other, hother, hcleaned⟩
      rw [Option.some.inj (hother.symm.trans hrecord), hpending] at hcleaned
      exact absurd hcleaned (by decide)
  unreadable := by
    rintro before after rfl refId record hrecord hrevoked callerScope nowMs
    rw [run_append]
    obtain ⟨final, hfinal, hstill⟩ := revoked_run hrecord hrevoked after
    exact readArtifact_revoked hfinal hstill callerScope nowMs
  removed := by
    rintro before last after rfl refId record hrecord hrevoked hsweeps
    have hsplit : before ++ last :: after = (before ++ [last]) ++ after := by simp
    rw [hsplit] at htimes horderly ⊢
    obtain ⟨hfirst, hsecond⟩ := horderly.append
    rw [List.map_append, List.pairwise_append] at htimes
    have hreached : Reached (run perform (create storage) (before ++ [last])) :=
      hfirst.keeps (fun _ _ hinv hcall => reached_step hinv hcall) (reached_create storage)
    rw [run_append]
    refine removed_run hsecond htimes.2.1 hrecord (updatedAt_run htimes.1 hrecord) ?_
      (remaining_of_revoked hreached hrecord hrevoked) hsweeps
    intro call hcall
    exact htimes.2.2 _ (List.mem_map_of_mem (List.mem_append_right _ List.mem_cons_self)) _
      (List.mem_map_of_mem hcall)

/-- No sweep reaches an artifact whose processing was cancelled or failed. -/
theorem stopped_step (h : store.records.get? refId = some record)
    (hstatus : record.status = .cancelled ∨ record.status = .failed) (windowMs : Option Int)
    (nowMs : Int) :
    (store.perform ⟨.sweepArtifacts windowMs, nowMs⟩).records.get? refId = some record ∧
      (store.perform ⟨.sweepArtifacts windowMs, nowMs⟩).storage.get refId =
        store.storage.get refId := by
  show (store.sweepArtifacts nowMs windowMs).2.records.get? refId = some record ∧
    (store.sweepArtifacts nowMs windowMs).2.storage.get refId = store.storage.get refId
  cases hvalid : validateCleanupWindow (windowOf windowMs) with
  | error fault =>
    rw [sweepArtifacts_error hvalid]
    exact ⟨h, rfl⟩
  | ok _ =>
    have hpending : record.status ≠ .physicalCleanupPending := by
      rcases hstatus with hstatus | hstatus <;> rw [hstatus] <;> decide
    have hexpired : ¬ (record.status = .logicallyExpired ∨
        record.status = .logicallyDeleted) := by
      rcases hstatus with hstatus | hstatus <;> rw [hstatus] <;> decide
    have hsweep : record.sweep nowMs (windowOf windowMs) = record := by
      unfold ArtifactLifecycleRecord.sweep
      rw [dif_neg hexpired, if_neg hpending, ite_self]
    have hmem : refId ∉ store.records.keysWhere
        fun record => record.isSwept nowMs (windowOf windowMs) := by
      intro hmem
      obtain ⟨_, hfound, hdue⟩ := (OrderedMap.mem_keysWhere _ _).1 hmem
      rw [Option.some.inj (hfound.symm.trans h)] at hdue
      exact hpending (of_decide_eq_true hdue).1
    simp only [sweepArtifacts_ok hvalid, OrderedMap.get?_mapValues, h, Option.map_some, hsweep,
      true_and]
    exact congrArg (Option.map Blob.bytes) ((OrderedMap.get?_eraseAll _ _ _).trans (if_neg hmem))

/-- A verified artifact of the scope `"s"`, which expires at the given time. -/
def sampleRef (refId : String) (expiresAt : Int) : ArtifactRef where
  refId := refId
  artifactKind := .source
  ownershipScope := "s"
  contentHash := "h"
  byteSize := 1
  createdAt := 0
  expiresAt := expiresAt
  retentionPolicy := .transient
  verified := true

def sampleCalls : List Call :=
  [⟨.registerVerifiedArtifact (sampleRef "a" 100) [1], 0⟩,
    ⟨.registerVerifiedArtifact (sampleRef "b" 200) [2], 1⟩,
    ⟨.trackStaging "i", 2⟩,
    ⟨.processArtifact "a" "s", 3⟩,
    ⟨.readArtifact "a" "s", 100⟩,
    ⟨.deleteExplicit "b" "s", 101⟩,
    ⟨.expireStaging "i", 102⟩,
    ⟨.sweepArtifacts none, 3600200⟩,
    ⟨.sweepStaging none, 3600200⟩,
    ⟨.sweepArtifacts (some 10), 3600210⟩]

theorem moves_forward_sample : MovesForward .empty sampleCalls :=
  moves_forward .empty sampleCalls (by decide) (by decide +kernel)

/-- An artifact that is deleted, cleaned up, and deleted again by its owner. -/
def deletedTwice : List Call :=
  [⟨.registerVerifiedArtifact (sampleRef "a" 100) [1], 0⟩, ⟨.deleteExplicit "a" "s", 1⟩,
    ⟨.sweepArtifacts (some 1), 2⟩,
    ⟨.sweepArtifacts (some 1), 3⟩,
    ⟨.deleteExplicit "a" "s", 4⟩,
    ⟨.sweepArtifacts (some 1), 5⟩,
    ⟨.sweepArtifacts (some 1), 6⟩]

/-- The second deletion takes the artifact back from cleaned, and it is cleaned up twice. -/
theorem deleted_after_cleanup :
    (deletedTwice.map Call.nowMs).Pairwise (· ≤ ·) ∧ ¬ MovesForward .empty deletedTwice := by
  refine ⟨by decide, fun h => ?_⟩
  have htwice : collect perform swept (create .empty) deletedTwice = ["a", "a"] := by
    decide +kernel
  exact absurd (htwice ▸ h.sweptOnce) (by decide)

end ArtifactLifecycleStore

end Groundlane.ArtifactLifecycle
