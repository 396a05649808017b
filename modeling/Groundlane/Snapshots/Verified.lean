import Groundlane.Snapshots.Guarantee

/-!
# Every call of the snapshot repository keeps its promise

One lemma for each method says what its call knows when it goes on; `verified` assembles them.
-/

namespace Groundlane.Snapshots

open Fenced Interleaving Interleaving.System Uploads DocumentAdmission

variable {B : Type} [ByteString B] {sha256 : Sha256 B} {i : Nat} {world : SnapshotWorld B}

/-- The program keeps the guarantee in call `i`, and `Q` holds of what it returns. -/
abbrev SnapshotSafe {α : Type} (sha256 : Sha256 B) (i : Nat)
    (Q : α → SnapshotWorld B → Prop) (program : SnapshotIo B α) (world : SnapshotWorld B) : Prop :=
  Safe (repository sha256) (Guarantee sha256) (Rely (repository sha256) (Guarantee sha256) i) i
    (Returning Q) program world

/-- The history of a world grows while calls go on. -/
abbrev Grows (sha256 : Sha256 B) (world now : SnapshotWorld B) : Prop :=
  Evolves (repository sha256) (Guarantee sha256) world now

/-- The rule of sequence, at the types of the repository. -/
theorem SnapshotSafe.andThen {α β : Type} {middle : α → SnapshotWorld B → Prop}
    {Q : β → SnapshotWorld B → Prop} {program : SnapshotIo B α} {rest : α → SnapshotIo B β}
    (h : SnapshotSafe sha256 i middle program world)
    (hrest : ∀ value now, Grows sha256 world now → middle value now →
      SnapshotSafe sha256 i Q (rest value) now) :
    SnapshotSafe sha256 i Q (program.bind rest) world :=
  Safe.andThen (fun _ _ h => h.evolves) h hrest

variable {prepared : PreparedDocumentSourceSnapshot} {changed : Record String Snapshot}
  {expiresAt : Option Int} {writes : List Write} {revision : Nat} {α : Type}

/-- A weaker postcondition. -/
theorem SnapshotSafe.weaken {Q Q' : α → SnapshotWorld B → Prop} {program : SnapshotIo B α}
    (h : SnapshotSafe sha256 i Q program world) (hweaker : ∀ value now, Q value now → Q' value now) :
    SnapshotSafe sha256 i Q' program world :=
  Safe.mono (fun _ now hpost value hvalue => hweaker value now (hpost value hvalue)) h

/-- The rule of an operation that can fail. -/
theorem call_safe {Q : Except Fault α → SnapshotWorld B → Prop}
    {program : SnapshotIo B (Except Fault α)} (h : SnapshotSafe sha256 i Q program world) :
    SnapshotSafe sha256 i (fun value now => Q (.ok value) now) (call program) world := by
  refine h.andThen fun answer now _ hanswer => Safe.ofExcept ?_
  cases answer with
  | ok value =>
    rintro _ ⟨⟩
    exact hanswer
  | error fault => rintro _ ⟨⟩

/-- The rule of a single operation. -/
theorem request_safe (query : Query B)
    (hG : ∀ answer now, Rely (repository sha256) (Guarantee sha256) i world now →
      Guarantee sha256 i (.effect query answer) now) :
    SnapshotSafe sha256 i (fun answer now => ∃ before,
        Rely (repository sha256) (Guarantee sha256) i world before ∧
          (repository sha256).Step i (.effect query answer) before now)
      (Program.request query) world := by
  refine Safe.mono (fun _ now hpost answer hanswer => ?_)
    (Safe.request fun now _ hnow => hG _ now hnow)
  obtain ⟨before, hrely, hstep, -⟩ := hpost answer hanswer
  exact ⟨before, hrely, hstep⟩

/-! ## Operations -/

theorem source_safe (key : String) :
    SnapshotSafe sha256 i (fun found now => ∃ before, Grows sha256 world before ∧
        now.history = (i, .effect (.source key) (.ok found)) :: before.history ∧
          ∀ record, found = some record → record.key = key) (sourceRecord key) world := by
  refine Safe.check fun _ _ =>
    (call_safe (request_safe (Query.source key) fun _ _ _ => trivial)).weaken ?_
  rintro found now ⟨before, hbefore, hstep⟩
  refine ⟨before, hbefore.evolves, hstep.history, ?_⟩
  rintro record rfl
  exact Store.get_key (Step.source_answer hstep).1

theorem get_safe (key : String) :
    SnapshotSafe sha256 i (fun found now => Latest i (.effect (.get key) (.ok found)) now.history)
      (getRecord key) world := by
  refine Safe.check fun _ _ =>
    (call_safe (request_safe (Query.get key) fun _ _ _ => trivial)).weaken ?_
  rintro found now ⟨before, -, hstep⟩
  exact hstep.latest

theorem clock_safe :
    SnapshotSafe sha256 i (fun now later => (i, .effect .clock now) ∈ later.history) clock
      world := by
  refine (request_safe Query.clock fun _ _ _ => trivial).weaken ?_
  rintro now later ⟨before, -, hstep⟩
  exact hstep.latest.mem

theorem throwIfAborted_safe : SnapshotSafe sha256 i (fun _ _ => True) throwIfAborted world := by
  refine (request_safe Query.aborted fun _ _ _ => trivial).andThen fun aborted _ _ _ => ?_
  cases aborted with
  | true => exact Safe.raise
  | false => exact Safe.done trivial

theorem getBlob_safe (blobKey ownerId digest : String) (maxBytes : Int) :
    SnapshotSafe sha256 i (fun _ _ => True) (getBlob sha256 blobKey ownerId digest maxBytes)
      world :=
  Safe.check fun _ _ => Safe.check fun _ _ => Safe.check fun _ _ =>
    (call_safe (request_safe (Query.getBlob blobKey ownerId digest maxBytes)
      fun _ _ _ => trivial)).weaken fun _ _ _ => trivial

variable (caller : DurableUploadCaller) {record : Record String Snapshot} {nowMs : Int}
  (jobId : String) {snapshot : Snapshot} {value : Snapshot} {key : String}

theorem putBlob_safe (htaken : Taken sha256 snapshot) (bytes : B) :
    SnapshotSafe sha256 i (fun _ _ => True)
      (putBlobIfAbsent sha256 snapshot.snapshotBlobKey snapshot.source.ownerId
        snapshot.source.contentHash bytes) world := by
  refine Safe.check fun _ _ => Safe.check fun _ _ => Safe.check fun _ _ => ?_
  split
  · exact Safe.raise
  · exact (call_safe (request_safe (Query.putIfAbsent _ _ _ bytes)
      fun _ _ _ => ⟨snapshot, htaken, rfl, rfl, rfl⟩)).weaken fun _ _ _ => trivial

theorem deleteBlob_safe {blobKey : String} (ownerId : String)
    (hdeletes : ∀ now, Rely (repository sha256) (Guarantee sha256) i world now →
      Deletes sha256 i blobKey now.history) :
    SnapshotSafe sha256 i (fun _ _ => True) (deleteBlobIfOwner sha256 blobKey ownerId) world :=
  Safe.check fun _ _ => (call_safe (request_safe (Query.deleteIfOwner blobKey ownerId)
    fun _ now hnow => hdeletes now hnow)).weaken fun _ _ _ => trivial

theorem create_safe (nowMs : Int) (expiresAt : Option Int) (htaken : Taken sha256 value)
    (hkey : key = intentKey (jobKey sha256 value.jobId)) :
    SnapshotSafe sha256 i (fun _ _ => True) (createRecord key value nowMs expiresAt) world :=
  Safe.check fun _ _ => Safe.check fun _ _ =>
    (call_safe (request_safe (Query.createIfAbsent key value nowMs expiresAt)
      fun _ _ _ => ⟨htaken, hkey⟩)).weaken fun _ _ _ => trivial

theorem swap_safe (hfound : Found i key record world.history)
    (hvalue : isIntentKey key = true ∧ value = record.value ∨
      isIntentKey key = false ∧ value = record.value.revocation) :
    SnapshotSafe sha256 i (fun answer now => ∃ before,
        Rely (repository sha256) (Guarantee sha256) i world before ∧ (repository sha256).Step i
          (.effect (.compareAndSwap key revision value nowMs expiresAt) (.ok answer)) before now)
      (swapRecord key revision value nowMs expiresAt) world :=
  Safe.check fun _ _ => Safe.check fun _ _ => Safe.check fun _ _ =>
    call_safe (request_safe (Query.compareAndSwap key revision value nowMs expiresAt)
      fun _ _ hnow => ⟨record, hfound.mono hnow.evolves.suffix.subset, hvalue⟩)

theorem delete_safe (revision : Nat) (hkey : isIntentKey key = true) :
    SnapshotSafe sha256 i (fun _ _ => True) (deleteRecord key revision) world :=
  Safe.check fun _ _ => Safe.check fun _ _ =>
    (call_safe (request_safe (Query.deleteIfRevision key revision)
      fun _ _ _ => hkey)).weaken fun _ _ _ => trivial

theorem scan_safe (cursor : Option String) (limit : Nat) (hcleans : CleansAt i nowMs world.history) :
    SnapshotSafe sha256 i (fun page now => ∀ record ∈ page.1, Scanned i record now.history)
      (scanRecords nowMs cursor limit) world := by
  refine Safe.check fun _ _ =>
    (call_safe (request_safe (Query.scanExpired nowMs cursor limit)
      fun _ _ hnow => hcleans.mono hnow.evolves.suffix.subset)).weaken ?_
  rintro page now ⟨before, -, hstep⟩ record hrecord
  exact ⟨nowMs, cursor, limit, page, hstep.latest.mem, hrecord⟩

theorem admit_safe {publication : Publication}
    (hcall : (i, .invoke (.commit prepared writes)) ∈ world.history)
    (hsource : publication.source = prepared.source)
    (hkey : publication.record.key = prepared.record.key)
    (hvalue : publication.record.value = prepared.record.value)
    (hexpiry : publication.record.expiresAt = prepared.record.expiresAt) :
    SnapshotSafe sha256 i (fun _ _ => True)
      (call (Program.request (Query.commitAdmission publication)))
      world :=
  (call_safe (request_safe (Query.commitAdmission publication) fun _ _ hnow => ⟨prepared, writes,
    hnow.evolves.suffix.subset hcall, hsource, hkey, hvalue, hexpiry⟩)).weaken
    fun _ _ _ => trivial

/-! ## Methods -/

theorem checkSource_safe (source : ArtifactState) (sourceRefId : String)
    (caller : DurableUploadCaller) (effectiveExpiresAt maxBytes : Int) :
    SnapshotSafe sha256 i (fun _ _ => source.refId = sourceRefId ∧ callerMatches source caller ∧
        effectiveExpiresAt ≤ source.expiresAt)
      (checkSource source sourceRefId caller effectiveExpiresAt maxBytes) world := by
  unfold checkSource
  split
  · exact Safe.raise
  rename_i hsource
  refine clock_safe.andThen fun now _ _ _ => ?_
  split
  · exact Safe.raise
  refine clock_safe.andThen fun later _ _ _ => ?_
  split
  · exact Safe.raise
  rename_i hexpiry
  simp only [ne_eq, not_or, not_not, not_lt] at hsource hexpiry
  exact Safe.done ⟨hsource.1, hsource.2.1, hexpiry.2.1⟩

theorem copyBytes_safe (htaken : Taken sha256 snapshot) (maxBytes : Int) :
    SnapshotSafe sha256 i (fun _ _ => True) (copyBytes sha256 snapshot maxBytes) world := by
  refine throwIfAborted_safe.andThen fun _ _ _ _ => ?_
  refine (getBlob_safe _ _ _ _).andThen fun bytes _ _ _ => ?_
  cases bytes with
  | none => exact Safe.raise
  | some bytes =>
    dsimp only
    split
    · exact Safe.raise
    refine throwIfAborted_safe.andThen fun _ _ _ _ => ?_
    refine (putBlob_safe htaken bytes).andThen fun copied _ _ _ => ?_
    cases copied with
    | conflict => exact Safe.raise
    | created | «exists» =>
      dsimp only
      split
      · exact Safe.raise
      · exact Safe.done trivial

theorem checkUnchanged_safe (found : Record String ArtifactState) (effectiveExpiresAt : Int) :
    SnapshotSafe sha256 i (fun _ _ => True) (checkUnchanged found effectiveExpiresAt) world := by
  refine (source_safe _).andThen fun latest _ _ _ => ?_
  refine throwIfAborted_safe.andThen fun _ _ _ _ => ?_
  cases latest with
  | none => exact Safe.raise
  | some latest =>
    dsimp only
    split
    · exact Safe.raise
    refine clock_safe.andThen fun now _ _ _ => ?_
    split
    · exact Safe.raise
    · exact Safe.done trivial

omit [ByteString B] in
theorem taken_newSnapshot (sha256 : Sha256 B) (jobId : String) {source : ArtifactState}
    {caller : DurableUploadCaller} {effectiveExpiresAt : Int}
    (hcaller : callerMatches source caller = true) (hexpiry : effectiveExpiresAt ≤ source.expiresAt) :
    Taken sha256 (newSnapshot sha256 jobId source caller effectiveExpiresAt) := by
  obtain ⟨howner, hbinding⟩ : source.ownerId = caller.ownerId ∧
      source.credentialBinding = caller.credentialBinding := by
    simpa [callerMatches] using hcaller
  have howner : ownerOf source = caller := by
    rw [ownerOf, howner, hbinding]
  exact ⟨by simp [newSnapshot, howner], hexpiry⟩

theorem prepare_safe (jobId sourceRefId : String) (caller : DurableUploadCaller)
    (effectiveExpiresAt maxBytes : Int) :
    SnapshotSafe sha256 i (fun prepared _ => Offer sha256 prepared)
      (prepare sha256 jobId sourceRefId caller effectiveExpiresAt maxBytes) world := by
  refine Safe.check fun _ _ => Safe.check fun _ _ => ?_
  refine throwIfAborted_safe.andThen fun _ _ _ _ => ?_
  refine (source_safe _).andThen fun found _ _ hfound => ?_
  cases found with
  | none => exact Safe.raise
  | some found =>
    obtain ⟨_, -, -, hsame⟩ := hfound
    have hkey := hsame found rfl
    refine Safe.check fun _ _ => ?_
    refine (checkSource_safe _ _ _ _ _).andThen fun _ _ _ hsource => ?_
    obtain ⟨rfl, hcaller, hexpiry⟩ := hsource
    refine Safe.check fun key hjob => ?_
    obtain rfl := snapshotKey_ok hjob
    have htaken := taken_newSnapshot sha256 jobId hcaller hexpiry
    refine clock_safe.andThen fun now _ _ _ => ?_
    refine (create_safe _ _ htaken rfl).andThen fun intent _ _ _ => ?_
    split
    · exact Safe.raise
    refine (copyBytes_safe htaken maxBytes).andThen fun _ _ _ _ => ?_
    refine (checkUnchanged_safe found effectiveExpiresAt).andThen fun _ _ _ _ => ?_
    exact Safe.done ⟨htaken, rfl, rfl, rfl, hkey, rfl⟩

theorem commit_safe (hcall : (i, .invoke (.commit prepared writes)) ∈ world.history) :
    SnapshotSafe sha256 i (fun _ _ => True) (commit prepared writes) world := by
  refine throwIfAborted_safe.andThen fun _ before hbefore _ => ?_
  refine clock_safe.andThen fun now later hlater _ => ?_
  split
  · exact Safe.done trivial
  · exact admit_safe ((hbefore.trans hlater).suffix.subset hcall) rfl rfl rfl rfl

theorem load_safe (caller : DurableUploadCaller) :
    SnapshotSafe sha256 i (fun snapshot now => snapshot.jobId = jobId ∧ ∃ record,
        Found i (jobKey sha256 jobId) record now.history ∧ record.value = snapshot)
      (load sha256 jobId caller) world := by
  refine Safe.check fun key hkey => ?_
  obtain rfl := snapshotKey_ok hkey
  refine (get_safe _).andThen fun found now _ hfound => ?_
  cases found with
  | none => exact Safe.raise
  | some record =>
    refine Safe.check fun _ _ => ?_
    split
    · exact Safe.raise
    · rename_i hsame
      rw [not_or, not_not] at hsame
      exact Safe.done ⟨hsame.1, record, .inl hfound.mem, rfl⟩

theorem sourceStatus_safe (caller : DurableUploadCaller) :
    SnapshotSafe sha256 i (fun status now => status.isSome →
        SourceGone i (jobKey sha256 jobId) now.history)
      (sourceStatus sha256 jobId caller) world := by
  refine (load_safe jobId caller).andThen fun snapshot first _ hloaded => ?_
  obtain ⟨-, record, hrecord, rfl⟩ := hloaded
  refine (source_safe _).andThen fun found second hsecond hsource => ?_
  obtain ⟨between, hbetween, hhistory, -⟩ := hsource
  have hbefore := hrecord.mono hbetween.suffix.subset
  replace hrecord := hrecord.mono hsecond.suffix.subset
  cases found with
  | none =>
    exact Safe.done fun _ =>
      ⟨record, hrecord, .inl ⟨[], between.history, hhistory, hbefore⟩⟩
  | some found =>
    refine Safe.check fun _ _ => ?_
    split
    · exact Safe.raise
    refine clock_safe.andThen fun now third hthird hnow => ?_
    have hread := hthird.suffix.subset (hhistory ▸ List.mem_cons_self ..)
    replace hrecord := hrecord.mono hthird.suffix.subset
    split
    · rename_i hexpired
      refine Safe.done fun _ => ⟨record, hrecord, .inr ⟨found, hread, ?_⟩⟩
      rcases hexpired with hle | hstatus
      · exact .inr (.inr (.inr ⟨now, hnow, hle⟩))
      · exact .inl (by simp [hstatus])
    split
    · rename_i hchanged
      refine Safe.done fun _ => ⟨record, hrecord, .inr ⟨found, hread, ?_⟩⟩
      rcases hchanged with hstatus | hhash | hsize
      · exact .inl hstatus
      · exact .inr (.inl hhash)
      · exact .inr (.inr (.inl hsize))
    · exact Safe.done nofun

theorem removeBytes_safe (snapshot : Snapshot) (caller : DurableUploadCaller)
    (hswap : (i, .effect (.compareAndSwap (jobKey sha256 value.jobId) revision value nowMs
      expiresAt) (.ok (.updated changed))) ∈ world.history) (hrevoked : value.revoked = true)
    (hblob : value.snapshotBlobKey = snapshot.snapshotBlobKey)
    (hfound : Found i changed.key record world.history) (hkey : isIntentKey changed.key = false)
    (hvalue : changed.value = record.value.revocation) :
    SnapshotSafe sha256 i (fun _ _ => True) (removeBytes sha256 snapshot caller changed)
      world := by
  refine (deleteBlob_safe caller.ownerId fun now hnow => .revoked revision value nowMs expiresAt
    changed (hnow.evolves.suffix.subset hswap) hrevoked hblob).andThen fun removed first hfirst _ =>
      ?_
  split
  · exact Safe.done trivial
  refine clock_safe.andThen fun now second hsecond _ => ?_
  refine (swap_safe (hfound.mono (hfirst.trans hsecond).suffix.subset)
    (.inr ⟨hkey, hvalue⟩)).andThen fun _ _ _ _ => ?_
  exact Safe.done trivial

/-- A revocation goes on when its bytes cannot be removed. -/
theorem removeBytes_attempt_safe {caller : DurableUploadCaller}
    (h : SnapshotSafe sha256 i (fun _ _ => True) (removeBytes sha256 snapshot caller changed)
      world) : SnapshotSafe sha256 i (fun _ _ => True)
      ((removeBytes sha256 snapshot caller changed).tryCatch fun _ => pure true) world := by
  refine SnapshotSafe.andThen (Safe.caught h) fun outcome _ _ _ => ?_
  cases outcome <;> exact Safe.done trivial

theorem revoke_safe (caller : DurableUploadCaller) (hkept : Kept world) :
    SnapshotSafe sha256 i (fun _ now => Kept now ∧ Revoked (jobKey sha256 jobId) now)
      (revoke sha256 jobId caller) world := by
  refine (load_safe jobId caller).andThen fun snapshot first hfirst hloaded => ?_
  obtain ⟨rfl, loaded, hloaded, rfl⟩ := hloaded
  refine Safe.check fun key hkey => ?_
  obtain rfl := snapshotKey_ok hkey
  have hjob := isIntentKey_jobKey sha256 loaded.value.jobId
  refine (get_safe _).andThen fun found second hsecond hfound => ?_
  cases found with
  | none => exact Safe.raise
  | some record =>
    refine clock_safe.andThen fun now third hthird _ => ?_
    refine clock_safe.andThen fun later fourth hfourth _ => ?_
    have hlast := (hsecond.trans hthird).trans hfourth
    refine (swap_safe (hloaded.mono hlast.suffix.subset) (.inr ⟨hjob, rfl⟩)).andThen
      fun changed fifth hfifth hswap => ?_
    obtain ⟨before, hbefore, hstep⟩ := hswap
    have hkept' : Kept before := persistent_kept.evolves
      ((hfirst.trans hlast).trans hbefore.evolves) hkept
    have hkept'' : Kept fifth := persistent_kept.evolves ((hfirst.trans hlast).trans hfifth) hkept
    have hrecord : Found i (jobKey sha256 loaded.value.jobId) record before.history :=
      .inl ((hthird.trans (hfourth.trans hbefore.evolves)).suffix.subset hfound.mem)
    obtain ⟨_, current, hcurrent, _, -⟩ := hkept'.found i _ _ hrecord hjob
    rcases Step.swap_answer hstep with ⟨-, hnone, -⟩ | ⟨_, rfl, hother, _, hstate⟩ |
      ⟨_, next, rfl, -, -, hnext, hkey, hvalue, -⟩
    · simp [hcurrent] at hnone
    · -- Another revocation came first.
      obtain rfl := Option.some.inj (hcurrent.symm.trans hother)
      exact Safe.done ⟨hkept'', current, by rw [hstate, hcurrent],
        (hkept'.counted _ current hcurrent hjob).2 (by omega)⟩
    · have hwritten : (i, .effect (.compareAndSwap
          (jobKey sha256 loaded.value.revocation.jobId) record.revision loaded.value.revocation
          now (some (later + 1))) (.ok (.updated next))) ∈ fifth.history := hstep.latest.mem
      have hremove := removeBytes_attempt_safe (removeBytes_safe loaded.value caller hwritten rfl
        rfl (hkey ▸ hloaded.mono (hlast.trans hfifth).suffix.subset) (hkey ▸ hjob) hvalue)
      refine Safe.mono (fun _ now hpost pending hpending => ?_)
        (Safe.evolving (fun _ _ h => h.evolves) hremove)
      exact (persistent_revoked hjob).evolves hpost.1 ⟨hkept'', next, hnext, by rw [hvalue]; rfl⟩

theorem unavailable_safe (snapshot : Snapshot) (jobId : String) (caller : DurableUploadCaller) :
    SnapshotSafe sha256 i (fun _ _ => True) (unavailable sha256 snapshot jobId caller) world := by
  refine clock_safe.andThen fun now _ _ _ => ?_
  split
  · exact Safe.done trivial
  · exact (sourceStatus_safe jobId caller).andThen fun _ _ _ _ => Safe.done trivial

theorem read_safe (jobId sourceRefId : String) (caller : DurableUploadCaller) (maxBytes : Int) :
    SnapshotSafe sha256 i (fun _ _ => True) (read sha256 jobId sourceRefId caller maxBytes)
      world := by
  refine (load_safe jobId caller).andThen fun snapshot _ _ _ => ?_
  split
  · exact Safe.raise
  refine (unavailable_safe snapshot jobId caller).andThen fun gone _ _ _ => ?_
  split
  · exact Safe.raise
  refine throwIfAborted_safe.andThen fun _ _ _ _ => ?_
  refine (getBlob_safe _ _ _ _).andThen fun bytes _ _ _ => ?_
  refine throwIfAborted_safe.andThen fun _ _ _ _ => ?_
  cases bytes with
  | none => exact Safe.raise
  | some bytes =>
    refine (unavailable_safe snapshot jobId caller).andThen fun gone _ _ _ => ?_
    split
    · exact Safe.raise
    · exact Safe.done trivial

/-! ### Cleanup -/

/-- Why a cleanup removes the bytes of a record that it has scanned. -/
theorem keepsBytes_safe {committed : Option (Record String Snapshot)}
    (hcleans : CleansAt i nowMs world.history) (hscanned : Scanned i record world.history)
    (hcommitted : Latest i (.effect (.get (jobKey sha256 record.value.jobId)) (.ok committed))
      world.history) :
    SnapshotSafe sha256 i (fun kept now => kept = true ∧ isIntentKey record.key = true ∨
        kept = false ∧ ∀ later, Rely (repository sha256) (Guarantee sha256) i now later →
          Deletes sha256 i record.value.snapshotBlobKey later.history)
      (keepsBytes sha256 nowMs record committed) world := by
  unfold keepsBytes
  split
  · rename_i hkept
    refine (sourceStatus_safe record.value.jobId _).andThen fun status now hnow hgone => ?_
    refine Safe.done ?_
    cases status with
    | none => exact .inl ⟨rfl, hkept.1⟩
    | some status =>
      refine .inr ⟨rfl, fun later hlater => ?_⟩
      exact .sourceGone record (hscanned.mono (hnow.trans hlater.evolves).suffix.subset) rfl
        ((hgone rfl).mono hlater.evolves.suffix)
  · rename_i hnotKept
    refine Safe.done (.inr ⟨rfl, fun later hlater => ?_⟩)
    have hscanned' := hscanned.mono hlater.evolves.suffix.subset
    cases hkey : isIntentKey record.key with
    | false => exact .expired record hscanned' rfl hkey
    | true =>
      cases committed with
      | none => exact .unpublished record hscanned' rfl hkey (hlater.latest hcommitted)
      | some committed =>
        refine .lapsed record nowMs hscanned' rfl (hcleans.mono hlater.evolves.suffix.subset) ?_
        simpa [hkey] using hnotKept

theorem sweep_safe (hcleans : CleansAt i nowMs world.history)
    (hscanned : Scanned i record world.history) :
    SnapshotSafe sha256 i (fun _ _ => True) (sweep sha256 nowMs record) world := by
  refine Safe.check fun _ _ => Safe.check fun key hkey => ?_
  obtain rfl := snapshotKey_ok hkey
  refine (get_safe _).andThen fun committed first hfirst hcommitted => ?_
  refine (keepsBytes_safe (hcleans.mono hfirst.suffix.subset)
    (hscanned.mono hfirst.suffix.subset) hcommitted).andThen fun kept second hsecond hkept => ?_
  have hfound := (hscanned.mono (hfirst.trans hsecond).suffix.subset).found
  rcases hkept with ⟨rfl, hintent⟩ | ⟨rfl, hdeletes⟩
  · exact (swap_safe hfound (.inl ⟨hintent, rfl⟩)).andThen fun _ _ _ _ => Safe.done trivial
  · refine (deleteBlob_safe _ hdeletes).andThen fun removed third hthird _ => ?_
    split
    · exact Safe.raise
    split
    · rename_i hintent
      exact (delete_safe _ hintent).andThen fun _ _ _ _ => Safe.done trivial
    · rename_i hsnapshot
      exact (swap_safe (hfound.mono hthird.suffix.subset)
        (.inr ⟨by simpa using hsnapshot, rfl⟩)).andThen fun _ _ _ _ => Safe.done trivial

theorem sweepAll_safe (records : List (Record String Snapshot)) (cleaned pending : Nat)
    (hcleans : CleansAt i nowMs world.history)
    (hscanned : ∀ record ∈ records, Scanned i record world.history) :
    SnapshotSafe sha256 i (fun _ _ => True) (sweepAll sha256 nowMs records cleaned pending)
      world := by
  induction records generalizing cleaned pending world with
  | nil => exact Safe.done trivial
  | cons record records ih =>
    rw [List.forall_mem_cons] at hscanned
    refine SnapshotSafe.andThen (Safe.caught (sweep_safe hcleans hscanned.1))
      fun outcome now hnow _ => ?_
    have hrest (cleaned pending : Nat) := ih cleaned pending (hcleans.mono hnow.suffix.subset)
      fun record hrecord => (hscanned.2 record hrecord).mono hnow.suffix.subset
    cases outcome with
    | error fault => exact hrest _ _
    | ok swept => cases swept <;> exact hrest _ _

theorem cleanup_safe {cursor : Option String} {limit : Nat}
    (hcall : (i, .invoke (.cleanup nowMs cursor limit)) ∈ world.history) :
    SnapshotSafe sha256 i (fun _ _ => True) (cleanup sha256 nowMs cursor limit) world := by
  have hcleans : CleansAt i nowMs world.history := ⟨cursor, limit, hcall⟩
  refine (scan_safe cursor _ hcleans).andThen fun page now hnow hscanned => ?_
  exact (sweepAll_safe page.1 0 0 (hcleans.mono hnow.suffix.subset) hscanned).andThen
    fun _ _ _ _ => Safe.done trivial

/-! ## All calls -/

/-- What a call owes for its reply. -/
def Owed (sha256 : Sha256 B) (i : Nat) (reply : Reply B) (world : SnapshotWorld B) : Prop :=
  match reply with
  | .prepared prepared => Offer sha256 prepared
  | .revoked _ => ∀ jobId caller, (i, .invoke (.revoke jobId caller)) ∈ world.history →
    Kept world ∧ Revoked (jobKey sha256 jobId) world
  | _ => True

/-- What is owed stays owed until the response. -/
theorem Owed.responds {reply : Reply B} {now later : SnapshotWorld B}
    (h : Owed sha256 i reply now)
    (hlater : Rely (repository sha256) (Guarantee sha256) i now later) :
    Guarantee sha256 i (.response (.ok reply)) later := by
  cases reply with
  | prepared prepared => exact h
  | revoked pending =>
    intro jobId caller hcall
    have hrevoked := h jobId caller ((hlater.own_history _).1 hcall)
    exact ((persistent_revoked (isIntentKey_jobKey sha256 jobId)).rely hlater hrevoked).2
  | admission | status | read | cleaned | written => exact trivial

/-- Every call of the repository keeps the guarantee. -/
theorem verified (sha256 : Sha256 B) :
    Verified (repository sha256) (Guarantee sha256) (Kept : SnapshotWorld B → Prop) where
  inv := persistent_kept
  invoke := fun _ _ _ _ => trivial
  main := by
    intro i call world hkept hcalls _
    refine Safe.responds (Q := Owed sha256 i) ?_ (fun _ _ howed _ hlater => howed.responds hlater)
      fun _ _ => trivial
    cases call with
    | prepare jobId sourceRefId caller effectiveExpiresAt maxBytes =>
      exact (prepare_safe _ _ _ _ _).andThen fun _ _ _ hoffer => Safe.done hoffer
    | commit prepared writes =>
      exact (commit_safe hcalls.1).andThen fun _ _ _ _ => Safe.done trivial
    | sourceStatus jobId caller =>
      exact (sourceStatus_safe jobId caller).andThen fun _ _ _ _ => Safe.done trivial
    | revoke jobId caller =>
      refine (revoke_safe jobId caller hkept).andThen fun pending now hnow hrevoked => ?_
      refine Safe.done fun other otherCaller hother => ?_
      have heq := ((persistent_calls i _).evolves hnow hcalls).2 _ hother
      cases heq
      exact hrevoked
    | read jobId sourceRefId caller maxBytes =>
      exact (read_safe jobId sourceRefId caller maxBytes).andThen fun _ _ _ _ => Safe.done trivial
    | cleanup nowMs cursor limit =>
      exact (cleanup_safe hcalls.1).andThen fun _ _ _ _ => Safe.done trivial
    | publishSource state nowMs =>
      exact (request_safe (Query.publishSource state nowMs) fun _ _ _ => trivial).andThen
        fun _ _ _ _ => Safe.done trivial
    | reviseSource refId next nowMs =>
      exact (request_safe (Query.reviseSource refId next nowMs) fun _ _ _ => trivial).andThen
        fun _ _ _ _ => Safe.done trivial
    | storeSource ownerId rest digest bytes =>
      exact (request_safe (Query.storeSource ownerId rest digest bytes)
        fun _ _ _ => trivial).andThen fun _ _ _ _ => Safe.done trivial
    | dropSource ownerId rest =>
      exact (request_safe (Query.dropSource ownerId rest) fun _ _ _ => trivial).andThen
        fun _ _ _ _ => Safe.done trivial

/-- No calls yet, and nothing stored. -/
def initial : Config (Call B) (Query B) Query.Res Fault (Reply B) (Vault B) :=
  Config.initial ⟨.empty, .empty, fun _ => none⟩

omit [ByteString B] in
theorem kept_initial : Kept (initial : Config (Call B) (Query B) _ _ _ _).toWorld where
  found := by simp [Found, initial, Config.initial]
  counted := by simp [initial, Config.initial]

theorem ready (sha256 : Sha256 B) :
    Ready (repository sha256) (Guarantee sha256) Kept initial :=
  ready_initial kept_initial

/-! ## Whole runs -/

/-- The snapshots of the one world are in the other, unchanged but for their revocation, which is
the only revision of a snapshot. -/
def KeepsSnapshots (before after : SnapshotWorld B) : Prop :=
  ∀ key record, before.state.records.get key = some record → isIntentKey key = false →
    ∃ current, after.state.records.get key = some current ∧
      record.revision ≤ current.revision ∧ Alike record.value current.value ∧
      (2 ≤ current.revision → current.value.revoked = true)

/-- A published snapshot is never lost, and only a revocation changes it. -/
theorem snapshots_permanent (sha256 : Sha256 B) (actions later : List (Action (Call B) Outside)) :
    KeepsSnapshots ((repository sha256).run initial actions).toWorld
      ((repository sha256).run initial (actions ++ later)).toWorld := by
  intro key record hget hkey
  have hready := (ready sha256).run (verified sha256) actions
  rw [run_append]
  obtain ⟨current, hcurrent, hle, halike⟩ := hready.persists (verified sha256) later
    (P := fun world => ∃ current, world.state.records.get key = some current ∧
      record.revision ≤ current.revision ∧ Alike record.value current.value)
    (fun i event world after hkept _ hstep hG ⟨current, hget, hle, halike⟩ => by
      obtain ⟨next, hnext, hle', halike'⟩ := hkept.step_alike hstep hG hget hkey
      exact ⟨next, hnext, hle.trans hle', halike.trans halike'⟩)
    ⟨record, hget, le_rfl, .inl rfl⟩
  exact ⟨current, hcurrent, hle, halike,
    ((hready.run (verified sha256) later).inv.counted key current hcurrent hkey).2⟩

/-- In every run, bytes are deleted only for one of the reasons of `Deletes`. -/
theorem deletions_warranted (sha256 : Sha256 B) (actions : List (Action (Call B) Outside)) :
    Throughout (fun i event older => ∀ blobKey ownerId answer,
      event = .effect (.deleteIfOwner blobKey ownerId) answer → Deletes sha256 i blobKey older)
      ((repository sha256).run initial actions).history := by
  refine (ready sha256).throughout (verified sha256) actions ?_ trivial
  rintro i event world hG blobKey ownerId answer rfl
  exact hG

end Groundlane.Snapshots
