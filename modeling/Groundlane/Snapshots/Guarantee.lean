import Groundlane.Snapshots.Repository

/-!
# What every call of the snapshot repository promises

The records of snapshots are published by commits, and a swap only ever revokes what its call has
found (`Guarantee`); `Deletes` lists why a call may delete the bytes of a snapshot. So the record
of a snapshot is stored in the version that a call has found, or revoked (`Kept`).
-/

namespace Groundlane.Snapshots

open Fenced Interleaving Interleaving.System Uploads DocumentAdmission

/-- A world of calls of the repository. -/
abbrev SnapshotWorld (B : Type) : Type :=
  World (Call B) (Query B) Query.Res Fault (Reply B) (Vault B)

/-- An event of a call of the repository. -/
abbrev SnapshotEvent (B : Type) : Type := Event (Call B) (Query B) Query.Res Fault (Reply B)

/-- Everything that happened, newest first. -/
abbrev SnapshotHistory (B : Type) : Type := List (Nat × SnapshotEvent B)

variable {B : Type}

/-- The key of the record of a snapshot. -/
def jobKey (sha256 : Sha256 B) (jobId : String) : String := "snapshot:" ++ sha256.text jobId

@[simp] theorem isIntentKey_intentKey (key : String) : isIntentKey (intentKey key) = true := by
  simp [isIntentKey, intentKey]

@[simp] theorem isIntentKey_jobKey (sha256 : Sha256 B) (jobId : String) :
    isIntentKey (jobKey sha256 jobId) = false := by
  simp [isIntentKey, jobKey, List.isPrefixOf]

theorem snapshotKey_ok {sha256 : Sha256 B} {jobId key : String}
    (h : snapshotKey sha256 jobId = .ok key) : key = jobKey sha256 jobId := by
  simp only [snapshotKey, parsed, bind, Except.bind, pure, Except.pure] at h
  split at h
  · cases h
  · exact (Except.ok.inj h).symm

/-! ## The guarantee -/

/-- The snapshot is one that `prepare` takes of its source. -/
def Taken (sha256 : Sha256 B) (snapshot : Snapshot) : Prop :=
  snapshot.snapshotBlobKey = snapshotBlobKey sha256 (snapshotDigest sha256 snapshot.jobId
    snapshot.source (ownerOf snapshot.source) snapshot.expiresAt) ∧
  snapshot.expiresAt ≤ snapshot.source.expiresAt

/-- What `prepare` returns: a snapshot of an active source under the key of its job. -/
structure Offer (sha256 : Sha256 B) (prepared : PreparedDocumentSourceSnapshot) : Prop where
  taken : Taken sha256 prepared.record.value
  unrevoked : prepared.record.value.revoked = false
  key : prepared.record.key = jobKey sha256 prepared.record.value.jobId
  expiry : prepared.record.expiresAt = prepared.record.value.expiresAt
  sourceKey : prepared.source.key = artifactKey prepared.record.value.source.refId
  source : prepared.source.value = prepared.record.value.source

/-- Call `i` has found the record, by its key or on a page. -/
def Found (i : Nat) (key : String) (record : Record String Snapshot)
    (history : SnapshotHistory B) : Prop :=
  (i, .effect (.get key) (.ok (some record))) ∈ history ∨
    ∃ nowMs cursor limit page,
      (i, .effect (.scanExpired nowMs cursor limit) (.ok page)) ∈ history ∧
        record ∈ page.1 ∧ record.key = key

/-- Call `i` has found the record on a page of expired records. -/
def Scanned (i : Nat) (record : Record String Snapshot) (history : SnapshotHistory B) : Prop :=
  ∃ nowMs cursor limit page,
    (i, .effect (.scanExpired nowMs cursor limit) (.ok page)) ∈ history ∧ record ∈ page.1

/-- Call `i` is a cleanup at this time. -/
def CleansAt (i : Nat) (nowMs : Int) (history : SnapshotHistory B) : Prop :=
  ∃ cursor limit, (i, .invoke (.cleanup nowMs cursor limit)) ∈ history

/-- Call `i` has found the source of a snapshot missing after it had found the snapshot, or it has
found the source changed, not active any more, or past its time. -/
def SourceGone (i : Nat) (key : String) (history : SnapshotHistory B) : Prop :=
  ∃ loaded, Found i key loaded history ∧
    ((∃ newer older, history = newer ++
        (i, .effect (.source (artifactKey loaded.value.source.refId)) (.ok none)) :: older ∧
          Found i key loaded older) ∨
      ∃ found, (i, .effect (.source (artifactKey loaded.value.source.refId))
          (.ok (some found))) ∈ history ∧
        (found.value.status ≠ .active ∨
          found.value.contentHash ≠ loaded.value.source.contentHash ∨
          found.value.byteSize ≠ loaded.value.source.byteSize ∨
          ∃ now, (i, .effect .clock now) ∈ history ∧ found.value.expiresAt ≤ now))

/-- Why call `i` may delete the bytes: it has revoked the snapshot, or it cleans up a record that
it has scanned and that is the snapshot itself, an intent that has just been found without a
snapshot, an intent past the life of its snapshot, or an intent whose source is gone. -/
inductive Deletes (sha256 : Sha256 B) (i : Nat) (blobKey : String) (history : SnapshotHistory B) :
    Prop where
  | revoked (revision : Nat) (value : Snapshot) (nowMs : Int) (expiresAt : Option Int)
    (changed : Record String Snapshot) :
    (i, .effect (.compareAndSwap (jobKey sha256 value.jobId) revision value nowMs expiresAt)
      (.ok (.updated changed))) ∈ history → value.revoked = true →
    value.snapshotBlobKey = blobKey → Deletes sha256 i blobKey history
  | expired (record : Record String Snapshot) : Scanned i record history →
    record.value.snapshotBlobKey = blobKey → isIntentKey record.key = false →
    Deletes sha256 i blobKey history
  | unpublished (record : Record String Snapshot) : Scanned i record history →
    record.value.snapshotBlobKey = blobKey → isIntentKey record.key = true →
    Latest i (.effect (.get (jobKey sha256 record.value.jobId)) (.ok none)) history →
    Deletes sha256 i blobKey history
  | lapsed (record : Record String Snapshot) (nowMs : Int) : Scanned i record history →
    record.value.snapshotBlobKey = blobKey → CleansAt i nowMs history →
    record.value.expiresAt ≤ nowMs → Deletes sha256 i blobKey history
  | sourceGone (record : Record String Snapshot) : Scanned i record history →
    record.value.snapshotBlobKey = blobKey →
    SourceGone i (jobKey sha256 record.value.jobId) history → Deletes sha256 i blobKey history

/-- The record under the key is stored and revoked. -/
def Revoked (key : String) (world : SnapshotWorld B) : Prop :=
  ∃ record, world.state.records.get key = some record ∧ record.value.revoked = true

/-- The circumstances of every event of call `i`. -/
def Guarantee (sha256 : Sha256 B) (i : Nat) (event : SnapshotEvent B) (world : SnapshotWorld B) :
    Prop :=
  match event with
  | .effect (.createIfAbsent key value _ _) _ =>
    Taken sha256 value ∧ key = intentKey (jobKey sha256 value.jobId)
  | .effect (.compareAndSwap key _ value _ _) _ => ∃ record, Found i key record world.history ∧
    (isIntentKey key = true ∧ value = record.value ∨
      isIntentKey key = false ∧ value = record.value.revocation)
  | .effect (.deleteIfRevision key _) _ => isIntentKey key = true
  | .effect (.scanExpired nowMs _ _) _ => CleansAt i nowMs world.history
  | .effect (.putIfAbsent blobKey ownerId digest _) _ => ∃ snapshot, Taken sha256 snapshot ∧
    blobKey = snapshot.snapshotBlobKey ∧ ownerId = snapshot.source.ownerId ∧
    digest = snapshot.source.contentHash
  | .effect (.deleteIfOwner blobKey _) _ => Deletes sha256 i blobKey world.history
  | .effect (.commitAdmission publication) _ => ∃ prepared writes,
    (i, .invoke (.commit prepared writes)) ∈ world.history ∧
      publication.source = prepared.source ∧ publication.record.key = prepared.record.key ∧
      publication.record.value = prepared.record.value ∧
      publication.record.expiresAt = prepared.record.expiresAt
  | .response (.ok (.prepared prepared)) => Offer sha256 prepared
  | .response (.ok (.revoked _)) => ∀ jobId caller,
    (i, .invoke (.revoke jobId caller)) ∈ world.history → Revoked (jobKey sha256 jobId) world
  | _ => True

/-! ### Later worlds -/

variable {record : Record String Snapshot} {key : String} {history later : SnapshotHistory B}
  {older newer : Snapshot} {nowMs : Int}

theorem Found.mono {i : Nat} (hsub : history ⊆ later) (h : Found i key record history) :
    Found i key record later := by
  rcases h with hget | ⟨nowMs, cursor, limit, page, hscan, hrest⟩
  · exact .inl (hsub hget)
  · exact .inr ⟨nowMs, cursor, limit, page, hsub hscan, hrest⟩

theorem Scanned.mono {i : Nat} (hsub : history ⊆ later) (h : Scanned i record history) :
    Scanned i record later := by
  obtain ⟨nowMs, cursor, limit, page, hscan, hmem⟩ := h
  exact ⟨nowMs, cursor, limit, page, hsub hscan, hmem⟩

theorem Scanned.found {i : Nat} {history : SnapshotHistory B} (h : Scanned i record history) :
    Found i record.key record history := by
  obtain ⟨nowMs, cursor, limit, page, hscan, hmem⟩ := h
  exact .inr ⟨nowMs, cursor, limit, page, hscan, hmem, rfl⟩

theorem CleansAt.mono {i : Nat} (hsub : history ⊆ later) (h : CleansAt i nowMs history) :
    CleansAt i nowMs later := by
  obtain ⟨cursor, limit, hcall⟩ := h
  exact ⟨cursor, limit, hsub hcall⟩

theorem SourceGone.mono {i : Nat} (hsuffix : history <:+ later) (h : SourceGone i key history) :
    SourceGone i key later := by
  have hsub := hsuffix.subset
  obtain ⟨loaded, hloaded, hgone⟩ := h
  refine ⟨loaded, hloaded.mono hsub, ?_⟩
  rcases hgone with ⟨newer, older, rfl, hbefore⟩ | ⟨found, hfound, hchanged⟩
  · obtain ⟨newest, rfl⟩ := hsuffix
    exact .inl ⟨newest ++ newer, older, by simp, hbefore⟩
  · refine .inr ⟨found, hsub hfound, ?_⟩
    rcases hchanged with hstatus | hhash | hsize | ⟨now, hnow, hle⟩
    · exact .inl hstatus
    · exact .inr (.inl hhash)
    · exact .inr (.inr (.inl hsize))
    · exact .inr (.inr (.inr ⟨now, hsub hnow, hle⟩))

/-! ## What the steps do -/

section Steps

variable [ByteString B] {sha256 : Sha256 B} {i : Nat} {before after : SnapshotWorld B}

theorem Step.source_answer {found : Option (Record String ArtifactState)}
    (h : (repository sha256).Step i (.effect (.source key) (.ok found)) before after) :
    before.state.sources.get key = found ∧ after.state = before.state := by
  obtain ⟨_, hexec⟩ := h.exec_eq
  obtain ⟨hstate, hanswer⟩ := Prod.mk.inj hexec
  refine ⟨?_, hstate.symm⟩
  split at hanswer <;> cases hanswer
  rfl

theorem Step.get_answer {found : Option (Record String Snapshot)}
    (h : (repository sha256).Step i (.effect (.get key) (.ok found)) before after) :
    before.state.records.get key = found ∧ after.state = before.state := by
  obtain ⟨_, hexec⟩ := h.exec_eq
  obtain ⟨hstate, hanswer⟩ := Prod.mk.inj hexec
  refine ⟨?_, hstate.symm⟩
  split at hanswer <;> cases hanswer
  rfl

/-- Every record of a page is stored and due. -/
theorem Step.scan_answer {cursor : Option String} {limit : Nat}
    {page : List (Record String Snapshot) × Option String}
    (h : (repository sha256).Step i (.effect (.scanExpired nowMs cursor limit) (.ok page)) before
      after) (hrecord : record ∈ page.1) : before.state.records.get record.key = some record ∧
      ∃ expiresAt, record.expiresAt = some expiresAt ∧ expiresAt ≤ nowMs := by
  obtain ⟨_, hexec⟩ := h.exec_eq
  obtain ⟨-, hanswer⟩ := Prod.mk.inj hexec
  split at hanswer <;> cases hanswer
  exact Store.mem_scanExpired hrecord

/-- A swap finds no record, finds another revision, or writes the next one. -/
theorem Step.swap_answer {revision : Nat} {value : Snapshot} {expiresAt : Option Int}
    {answer : CasResult String Snapshot} (h : (repository sha256).Step i
      (.effect (.compareAndSwap key revision value nowMs expiresAt) (.ok answer)) before after) :
    (answer = .missing ∧ before.state.records.get key = none ∧ after.state = before.state) ∨
      (∃ current, answer = .conflict current ∧ before.state.records.get key = some current ∧
        current.revision ≠ revision ∧ after.state = before.state) ∨
      ∃ current next, answer = .updated next ∧ before.state.records.get key = some current ∧
        current.revision = revision ∧ after.state.records.get key = some next ∧
        next.key = key ∧ next.value = value ∧ next.revision = current.revision + 1 := by
  obtain ⟨_, hexec⟩ := h.exec_eq
  simp only [repository, exec] at hexec
  split at hexec
  · obtain ⟨-, hanswer⟩ := Prod.mk.inj hexec
    cases hanswer
  · obtain ⟨hstate, hanswer⟩ := Prod.mk.inj hexec
    rcases before.state.records.compareAndSwap_cases key revision value nowMs expiresAt with
      ⟨hget, heq⟩ | ⟨current, hget, hne, heq⟩ | ⟨current, hget, hrevision, heq⟩
    · rw [heq] at hstate hanswer
      cases hanswer
      exact .inl ⟨rfl, hget, hstate.symm⟩
    · rw [heq] at hstate hanswer
      cases hanswer
      exact .inr (.inl ⟨current, rfl, hget, hne, hstate.symm⟩)
    · rw [heq] at hstate hanswer
      cases hanswer
      exact .inr (.inr ⟨current, _, rfl, hget, hrevision, by simp [← hstate, hget], rfl, rfl,
        rfl⟩)

/-- What a step does to the record of a snapshot: nothing, a commit publishes it, or a call
revokes what it has found. -/
theorem snapshot_cases {event : SnapshotEvent B}
    (hstep : (repository sha256).Step i event before after) (hG : Guarantee sha256 i event before)
    (hkey : isIntentKey key = false) : after.state.records.get key = before.state.records.get key ∨
      (∃ publication, event = .effect (.commitAdmission publication) (.ok .committed) ∧
        publication.record.key = key ∧ before.state.records.get key = none ∧
        publication.admissible before.state = true ∧ after.state.records.get key =
          some ⟨key, publication.record.value, 1, publication.record.nowMs,
            publication.record.nowMs, some publication.record.expiresAt⟩) ∨
      ∃ record current next, Found i key record before.history ∧
        before.state.records.get key = some current ∧ after.state.records.get key = some next ∧
        next.revision = current.revision + 1 ∧ next.value = record.value.revocation := by
  cases event with
  | invoke call => exact .inl (by rw [hstep.invoke_state])
  | response outcome => exact .inl (by rw [hstep.response_state])
  | effect query answer =>
    obtain ⟨_, hexec⟩ := hstep.exec_eq
    cases query with
    | source | get | scanExpired | getBlob | clock | aborted =>
      exact .inl (by rw [← (Prod.mk.inj hexec).1])
    | publishSource | storeSource | dropSource => exact .inl (by rw [← (Prod.mk.inj hexec).1])
    | reviseSource =>
      simp only [repository, exec] at hexec
      split at hexec
      · exact .inl (by rw [← (Prod.mk.inj hexec).1])
      · split at hexec <;> exact .inl (by rw [← (Prod.mk.inj hexec).1])
    | putIfAbsent | deleteIfOwner =>
      simp only [repository, exec] at hexec
      split at hexec <;> exact .inl (by rw [← (Prod.mk.inj hexec).1])
    | createIfAbsent other =>
      have hne : other ≠ key := by
        rintro rfl
        simp [hG.2] at hkey
      simp only [repository, exec] at hexec
      split at hexec
      · exact .inl (by rw [← (Prod.mk.inj hexec).1])
      · exact .inl (by rw [← (Prod.mk.inj hexec).1, Store.get_createIfAbsent_of_ne hne])
    | deleteIfRevision other =>
      have hne : other ≠ key := by
        rintro rfl
        exact absurd (hkey.symm.trans hG) (by simp)
      simp only [repository, exec] at hexec
      split at hexec
      · exact .inl (by rw [← (Prod.mk.inj hexec).1])
      · exact .inl (by rw [← (Prod.mk.inj hexec).1, Store.get_deleteIfRevision_of_ne hne])
    | compareAndSwap other revision value nowMs expiresAt =>
      by_cases hother : other = key
      · subst hother
        cases answer with
        | error fault =>
          simp only [repository, exec] at hexec
          split at hexec
          · exact .inl (by rw [← (Prod.mk.inj hexec).1])
          · cases (Prod.mk.inj hexec).2
        | ok answer =>
          rcases Step.swap_answer hstep with ⟨-, -, hstate⟩ | ⟨_, -, -, -, hstate⟩ |
            ⟨current, next, rfl, hcurrent, -, hnext, -, hvalue, hrevision⟩
          · exact .inl (by rw [hstate])
          · exact .inl (by rw [hstate])
          · obtain ⟨record, hfound, ⟨hintent, -⟩ | ⟨-, hrevoked⟩⟩ := hG
            · exact absurd (hkey.symm.trans hintent) (by simp)
            · exact .inr (.inr ⟨record, current, next, hfound, hcurrent, hnext, hrevision,
                hvalue.trans hrevoked⟩)
      · simp only [repository, exec] at hexec
        split at hexec
        · exact .inl (by rw [← (Prod.mk.inj hexec).1])
        · exact .inl (by rw [← (Prod.mk.inj hexec).1, Store.get_compareAndSwap_of_ne hother])
    | commitAdmission publication =>
      simp only [repository, exec] at hexec
      split at hexec
      · exact .inl (by rw [← (Prod.mk.inj hexec).1])
      split at hexec
      · rename_i hadmissible
        rcases before.state.records.createIfAbsent_cases publication.record.key
            publication.record.value publication.record.nowMs
            (some publication.record.expiresAt) with ⟨_, hget, heq⟩ | ⟨hget, heq⟩
        · rw [heq] at hexec
          exact .inl (by rw [← (Prod.mk.inj hexec).1])
        · rw [heq] at hexec
          obtain ⟨hstate, hanswer⟩ := Prod.mk.inj hexec
          by_cases hother : publication.record.key = key
          · subst hother
            cases hanswer
            exact .inr (.inl ⟨publication, rfl, rfl, hget, (Bool.and_eq_true_iff.1
              hadmissible).1, by simp [← hstate]⟩)
          · exact .inl (by simp [← hstate, hother])
      · exact .inl (by rw [← (Prod.mk.inj hexec).1])

end Steps

/-! ## Records are kept -/

/-- Two versions of one snapshot differ only in whether they are revoked. -/
def Alike (older newer : Snapshot) : Prop :=
  newer = older ∨ newer = older.revocation

theorem Alike.revoked (h : Alike older newer) (hrevoked : older.revoked = true) :
    newer.revoked = true := by
  rcases h with rfl | rfl
  · exact hrevoked
  · rfl

theorem Alike.source_eq (h : Alike older newer) : newer.source = older.source := by
  rcases h with rfl | rfl <;> rfl

theorem Alike.expiresAt_eq (h : Alike older newer) : newer.expiresAt = older.expiresAt := by
  rcases h with rfl | rfl <;> rfl

/-- A revocation of any version is a revocation of every version. -/
theorem Alike.revocation_eq (h : Alike older newer) : newer.revocation = older.revocation := by
  rcases h with rfl | rfl <;> rfl

/-- A found snapshot is stored as it was found, or revoked, and only its first version is not. -/
structure Kept (world : SnapshotWorld B) : Prop where
  found : ∀ i key record, Found i key record world.history → isIntentKey key = false →
    1 ≤ record.revision ∧ ∃ current, world.state.records.get key = some current ∧
      record.revision ≤ current.revision ∧ Alike record.value current.value
  counted : ∀ key record, world.state.records.get key = some record → isIntentKey key = false →
    1 ≤ record.revision ∧ (2 ≤ record.revision → record.value.revoked = true)

variable [ByteString B] {sha256 : Sha256 B} {i : Nat} {event : SnapshotEvent B}
  {before after : SnapshotWorld B}

/-- A stored snapshot is stored after a step, as it was or revoked. -/
theorem Kept.step_alike (h : Kept before) (hstep : (repository sha256).Step i event before after)
    (hG : Guarantee sha256 i event before) {current : Record String Snapshot}
    (hget : before.state.records.get key = some current) (hkey : isIntentKey key = false) :
    ∃ next, after.state.records.get key = some next ∧ current.revision ≤ next.revision ∧
      Alike current.value next.value := by
  rcases snapshot_cases hstep hG hkey with hsame | ⟨_, -, -, hnone, -⟩ |
    ⟨record, _, next, hfound, hold, hnext, _, hvalue⟩
  · exact ⟨current, hsame.trans hget, le_rfl, .inl rfl⟩
  · simp [hget] at hnone
  · obtain rfl := Option.some.inj (hget.symm.trans hold)
    obtain ⟨-, _, hget', -, halike⟩ := h.found i key record hfound hkey
    obtain rfl := Option.some.inj (hget.symm.trans hget')
    exact ⟨next, hnext, by omega, .inr (hvalue.trans halike.revocation_eq.symm)⟩

theorem Alike.trans {first second third : Snapshot} (h : Alike first second)
    (h' : Alike second third) : Alike first third := by
  rcases h' with rfl | rfl
  · exact h
  · exact .inr h.revocation_eq

/-- What a step finds is stored. -/
theorem Step.found_stored {j : Nat} (hstep : (repository sha256).Step i event before after)
    (hfound : Found j key record after.history) : Found j key record before.history ∨
      after.state.records.get key = some record ∧ after.state = before.state := by
  rcases hfound with hget | ⟨nowMs, cursor, limit, page, hscan, hmem, rfl⟩
  · rcases hstep.mem_history.1 hget with heq | hget
    · obtain ⟨rfl, rfl⟩ := Prod.mk.inj heq
      obtain ⟨hstored, hstate⟩ := Step.get_answer hstep
      exact .inr ⟨by rw [hstate, hstored], hstate⟩
    · exact .inl (.inl hget)
  · rcases hstep.mem_history.1 hscan with heq | hscan
    · obtain ⟨rfl, rfl⟩ := Prod.mk.inj heq
      obtain ⟨_, hexec⟩ := hstep.exec_eq
      have hstate : before.state = after.state := (Prod.mk.inj hexec).1
      exact .inr ⟨hstate ▸ (Step.scan_answer hstep hmem).1, hstate.symm⟩
    · exact .inl (.inr ⟨nowMs, cursor, limit, page, hscan, hmem, rfl⟩)

theorem persistent_kept :
    Persistent (repository sha256) (Guarantee sha256) (Kept : SnapshotWorld B → Prop) := by
  intro i event before after hstep hG h
  refine ⟨fun j key record hfound hkey => ?_, fun key record hget hkey => ?_⟩
  · rcases Step.found_stored hstep hfound with hfound | ⟨hstored, hstate⟩
    · obtain ⟨hone, current, hget, hle, halike⟩ := h.found j key record hfound hkey
      obtain ⟨next, hnext, hle', halike'⟩ := h.step_alike hstep hG hget hkey
      exact ⟨hone, next, hnext, hle.trans hle', halike.trans halike'⟩
    · exact ⟨(h.counted key record (hstate ▸ hstored) hkey).1, record, hstored, le_rfl, .inl rfl⟩
  · rcases snapshot_cases hstep hG hkey with hsame | ⟨_, -, -, -, -, hafter⟩ |
      ⟨_, current, _, -, hcurrent, hnext, _, hvalue⟩
    · exact h.counted key record (hsame ▸ hget) hkey
    · obtain rfl := Option.some.inj (hafter.symm.trans hget)
      exact ⟨le_rfl, by simp⟩
    · obtain rfl := Option.some.inj (hnext.symm.trans hget)
      have hone := (h.counted key current hcurrent hkey).1
      exact ⟨by omega, fun _ => by rw [hvalue]; rfl⟩

/-- A revocation is for good, once the records are kept. -/
theorem persistent_revoked (hkey : isIntentKey key = false) :
    Persistent (repository sha256) (Guarantee sha256)
      (fun world : SnapshotWorld B => Kept world ∧ Revoked key world) := by
  intro i event before after hstep hG ⟨h, record, hget, hrevoked⟩
  obtain ⟨next, hnext, -, halike⟩ := h.step_alike hstep hG hget hkey
  exact ⟨persistent_kept i event before after hstep hG h, next, hnext, halike.revoked hrevoked⟩

end Groundlane.Snapshots
