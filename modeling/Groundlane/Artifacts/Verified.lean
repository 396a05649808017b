import Groundlane.Artifacts.Guarantee

/-!
# Every call of the artifact repository keeps the guarantee

One lemma for each function of the repository, in the order in which they call each other; the
result is `verified`. The guarantee of a call is about the call's own past, so what the other
calls do meanwhile does not matter: everything a call knows is in the history and stays there.
-/

namespace Groundlane.Artifacts

open Fenced Interleaving

variable {B : Type} [ByteString B] {sha256 : Sha256 B} {i : Nat} {world : ArtifactWorld B}

/-- What the other calls may do meanwhile. -/
abbrev Meanwhile (sha256 : Sha256 B) (i : Nat) : ArtifactWorld B → ArtifactWorld B → Prop :=
  Rely (repository sha256) (Guarantee sha256) i

/-- What all calls may do. -/
abbrev Grows (sha256 : Sha256 B) : ArtifactWorld B → ArtifactWorld B → Prop :=
  Evolves (repository sha256) (Guarantee sha256)

/-- The program keeps the guarantee as a part of call `i`, and `Q` holds of what it returns. -/
abbrev ArtifactSafe {α : Type} (sha256 : Sha256 B) (i : Nat) (Q : α → ArtifactWorld B → Prop)
    (program : ArtifactIo B α) (world : ArtifactWorld B) : Prop :=
  Safe (repository sha256) (Guarantee sha256) (Meanwhile sha256 i) i (Returning Q) program world

theorem meanwhile_grows (world now : ArtifactWorld B) (h : Meanwhile sha256 i world now) :
    Grows sha256 world now :=
  h.evolves

/-- The history grows. -/
theorem Grows.subset {now : ArtifactWorld B} (h : Evolves (repository sha256) (Guarantee sha256) world now) :
    world.history ⊆ now.history :=
  fun entry hentry => (persistent_mem_history entry).evolves h hentry

/-- The rule of sequence, at the types of the repository. -/
theorem ArtifactSafe.andThen {α β : Type} {middle : α → ArtifactWorld B → Prop}
    {Q : β → ArtifactWorld B → Prop} {program : ArtifactIo B α} {rest : α → ArtifactIo B β}
    (h : ArtifactSafe sha256 i middle program world)
    (hrest : ∀ value now, world.history ⊆ now.history → middle value now →
      ArtifactSafe sha256 i Q (rest value) now) :
    ArtifactSafe sha256 i Q (program.bind rest) world :=
  Safe.andThen meanwhile_grows h fun value now hnow => hrest value now (Grows.subset hnow)

/-- An operation that the guarantee allows is in the history after it. -/
theorem ArtifactSafe.did {op : Op ArtifactValue B Request} {program : ArtifactIo B (op.Res Answer)}
    (h : ArtifactSafe sha256 i
      (Performed (repository sha256) (Guarantee sha256) (Meanwhile sha256 i) i world op) program
      world) :
    ArtifactSafe sha256 i (fun answer now => (i, .effect op answer) ∈ now.history) program world :=
  h.mono fun _ _ hpost value hvalue => by
    obtain ⟨_, -, hstep, -⟩ := hpost value hvalue
    exact hstep.mem_history.2 (.inl rfl)

variable {next : StoredDurableArtifactMetadata} {α : Type} {program : ArtifactIo B α}
  {value : ArtifactValue}

/-- A postcondition may be weakened. -/
theorem ArtifactSafe.weaken {Q Q' : α → ArtifactWorld B → Prop}
    (h : ArtifactSafe sha256 i Q program world) (hQ : ∀ value now, Q value now → Q' value now) :
    ArtifactSafe sha256 i Q' program world :=
  h.mono fun _ now hpost value hvalue => hQ value now (hpost value hvalue)

/-! ## The ports -/

/-- A read answers with the record under its key, if there is one. -/
theorem get_safe (key : String) :
    ArtifactSafe sha256 i (fun answer now => (i, .effect (.get key) answer) ∈ now.history ∧
      ∀ record, answer = some record → record.key = key) (get key) world := by
  refine Safe.mono ?_ (Safe.get fun _ _ => trivial)
  intro outcome now hpost answer hanswer
  obtain ⟨_, -, hstep, -⟩ := hpost answer hanswer
  refine ⟨hstep.mem_history.2 (.inl rfl), ?_⟩
  rintro record rfl
  exact Store.get_key (Step.get_answer hstep).1.symm

variable {current : StoredDurableArtifactRecord} {key : String} (refId : String) (nowMs : Int)

theorem createOther_safe (hkey : NotArtifact key) (hvalue : ∀ metadata, value ≠ .metadata metadata)
    (nowMs : Int) (expiresAt : Option Int) :
    ArtifactSafe sha256 i (fun _ _ => True) (createIfAbsent key value nowMs expiresAt) world := by
  refine Safe.mono (fun _ _ _ _ _ => trivial) (Safe.createIfAbsent fun now answer _ _ => ?_)
  cases value with
  | metadata metadata => exact absurd rfl (hvalue metadata)
  | _ => exact hkey

theorem swapOther_safe (hmaintains : Maintains i world.history) (hkey : NotArtifact key)
    (hvalue : ∀ metadata, value ≠ .metadata metadata) (revision : Nat) (nowMs : Int)
    (expiresAt : Option Int) :
    ArtifactSafe sha256 i (fun _ _ => True) (compareAndSwap key revision value nowMs expiresAt)
      world := by
  refine Safe.mono (fun _ _ _ _ _ => trivial) (Safe.compareAndSwap fun now answer hnow _ =>
    ⟨hmaintains.mono (Grows.subset hnow.evolves), ?_⟩)
  cases value with
  | metadata metadata => exact absurd rfl (hvalue metadata)
  | _ => exact hkey

theorem deleteOther_safe (hmaintains : Maintains i world.history) (hkey : NotArtifact key)
    (revision : Nat) :
    ArtifactSafe sha256 i (fun _ _ => True) (deleteIfRevision key revision) world :=
  Safe.mono (fun _ _ _ _ _ => trivial) (Safe.deleteIfRevision fun _ _ hnow =>
    ⟨hmaintains.mono (Grows.subset hnow.evolves), .inl hkey⟩)

/-! ## External sources -/

theorem isExternalSourceRevoked_safe (caller : DurableArtifactCaller) :
    ArtifactSafe sha256 i (fun _ _ => True) (isExternalSourceRevoked sha256 refId caller)
      world := by
  refine Safe.check fun key _ => (get_safe key).andThen fun current now _ _ => ?_
  cases current with
  | none => exact Safe.done trivial
  | some current => exact Safe.check fun state _ => Safe.done trivial

theorem registerEdge_safe (hkey : NotArtifact key) (outputRefId : String) (nowMs : Int)
    (attempts : Nat) : ∀ world : ArtifactWorld B, Maintains i world.history →
      ArtifactSafe sha256 i (fun _ _ => True) (registerEdge key outputRefId nowMs attempts)
        world := by
  induction attempts with
  | zero => exact fun _ _ => Safe.raise
  | succ attempts ih =>
    intro world hmaintains
    refine (get_safe key).andThen fun current first hfirst _ => ?_
    cases current with
    | none => exact Safe.raise
    | some current =>
      refine Safe.check fun state _ => ?_
      split
      · exact Safe.raise
      · refine ArtifactSafe.andThen (Safe.ask fun _ _ _ => trivial) fun uuid second hsecond _ => ?_
        extract_lets edgeKey
        have hedge : NotArtifact edgeKey := notArtifact_edge uuid
        refine (createOther_safe hedge (by simp) nowMs none).andThen fun _ third hthird _ => ?_
        have hthird := List.Subset.trans hfirst (List.Subset.trans hsecond hthird)
        refine (swapOther_safe (hmaintains.mono hthird) hkey (by simp) _ nowMs none).andThen
          fun result fourth hfourth _ => ?_
        have hfourth := List.Subset.trans hthird hfourth
        cases result with
        | updated record => exact Safe.done trivial
        | _ =>
          refine (deleteOther_safe (hmaintains.mono hfourth) hedge 1).andThen
            fun _ fifth hfifth _ => ?_
          exact ih fifth (hmaintains.mono (List.Subset.trans hfourth hfifth))

theorem registerExternalOutput_safe (hmaintains : Maintains i world.history)
    (refId outputRefId : String) (caller : DurableArtifactCaller) (nowMs : Int) :
    ArtifactSafe sha256 i (fun _ _ => True)
      (registerExternalOutput sha256 refId outputRefId caller nowMs) world := by
  refine Safe.check fun _ _ => Safe.check fun key hkey => ?_
  have hkey := externalSourceKey_ok hkey
  refine (createOther_safe hkey (by simp) nowMs none).andThen fun _ now hnow _ => ?_
  exact registerEdge_safe hkey outputRefId nowMs 16 now (hmaintains.mono hnow)

theorem revokeSource_safe (hkey : NotArtifact key) (nowMs : Int) (attempts : Nat) :
    ∀ world : ArtifactWorld B, Maintains i world.history →
      ArtifactSafe sha256 i (fun _ _ => True) (revokeSource key nowMs attempts) world := by
  induction attempts with
  | zero => exact fun _ _ => Safe.raise
  | succ attempts ih =>
    intro world hmaintains
    refine (get_safe key).andThen fun current first hfirst _ => ?_
    cases current with
    | none => exact Safe.raise
    | some current =>
      refine Safe.check fun state _ => ?_
      extract_lets next
      have hnext : ∀ now : ArtifactWorld B,
          ArtifactSafe sha256 i (fun _ _ => True) next now := by
        intro now
        unfold next
        split
        · exact Safe.done trivial
        · refine (get_safe _).andThen fun edge _ _ _ => ?_
          cases edge with
          | none => exact Safe.raise
          | some edge => exact Safe.check fun _ _ => Safe.done trivial
      split
      · exact hnext first
      · refine (swapOther_safe (hmaintains.mono hfirst) hkey (by simp) _ nowMs none).andThen
          fun result second hsecond _ => ?_
        cases result with
        | updated record => exact hnext second
        | _ => exact ih second (hmaintains.mono (List.Subset.trans hfirst hsecond))

theorem nextRevokedExternalOutput_safe (hmaintains : Maintains i world.history) (refId : String)
    (caller : DurableArtifactCaller) (nowMs : Int) :
    ArtifactSafe sha256 i (fun _ _ => True) (nextRevokedExternalOutput sha256 refId caller nowMs)
      world := by
  refine Safe.check fun key hkey => ?_
  have hkey := externalSourceKey_ok hkey
  refine (createOther_safe hkey (by simp) nowMs none).andThen fun _ now hnow _ => ?_
  exact revokeSource_safe hkey nowMs 16 now (hmaintains.mono hnow)

theorem acknowledgeRevokedExternalOutput_safe (hmaintains : Maintains i world.history)
    (refId : String) (caller : DurableArtifactCaller) (edgeKey : String) (nowMs : Int) :
    ArtifactSafe sha256 i (fun _ _ => True)
      (acknowledgeRevokedExternalOutput sha256 refId caller edgeKey nowMs) world := by
  refine Safe.check fun key hkey => (get_safe key).andThen fun current first hfirst _ => ?_
  have hkey := externalSourceKey_ok hkey
  cases current with
  | none => exact Safe.raise
  | some current =>
    refine Safe.check fun state hstate => ?_
    split
    · exact Safe.done trivial
    · rename_i hhead
      have hedge : NotArtifact edgeKey :=
        notArtifact_pointer (decodeOutputSourceHead_ok hstate edgeKey (by
          simp only [not_or, ne_eq, not_not] at hhead
          exact hhead.2))
      refine (get_safe edgeKey).andThen fun edge second hsecond _ => ?_
      have hsecond := List.Subset.trans hfirst hsecond
      cases edge with
      | none => exact Safe.raise
      | some edge =>
        refine Safe.check fun decoded _ => ?_
        refine (swapOther_safe (hmaintains.mono hsecond) hkey (by simp) _ nowMs none).andThen
          fun result third hthird _ => ?_
        have hthird := List.Subset.trans hsecond hthird
        cases result with
        | updated record =>
          exact (deleteOther_safe (hmaintains.mono hthird) hedge _).andThen
            fun _ _ _ _ => Safe.done trivial
        | _ => exact Safe.done trivial

/-! ## Reading and swapping metadata -/

theorem getStored_safe : ArtifactSafe sha256 i (fun found now => ∀ current, found = some current →
        Read i current now.history ∧ current.metadata.refId = refId)
      (getStored sha256 refId) world := by
  refine Safe.check fun key hkey => (get_safe key).andThen ?_
  rintro record now - ⟨hrecord, hrecordKey⟩
  obtain rfl := metadataKey_ok hkey
  cases record with
  | none => exact Safe.done (by rintro _ ⟨⟩)
  | some record =>
    refine Safe.check fun current hdecode => Safe.done ?_
    rintro _ ⟨⟩
    obtain ⟨hvalue, hrevision, hkey⟩ := decode_ok hdecode
    exact ⟨⟨record, .inl ⟨_, hrecord⟩, hkey, hvalue, hrevision⟩,
      artifactKey_inj.1 (hkey.symm.trans (hrecordKey record rfl))⟩

/-- Call `i` has swapped `next` in under `key`, which is at `revision` since. -/
def Swapped (i : Nat) (key : String) (next : StoredDurableArtifactMetadata) (revision : Nat)
    (history : ArtifactHistory B) : Prop :=
  ∃ expected nowMs expiresAt record,
    (i, .effect (.compareAndSwap key expected (.metadata next) nowMs expiresAt)
      (.updated record)) ∈ history ∧ record.revision = revision

theorem swap_safe (hmaintains : Maintains i world.history) (hread : Read i current world.history)
    (htransition : ArtifactTransition current.metadata next) (nowMs : Int) (expiresAt : Option Int)
    : ArtifactSafe sha256 i (fun answer now =>
        (i, .effect (.compareAndSwap (artifactKey current.metadata.refId) current.revision
          (.metadata next) nowMs expiresAt) answer) ∈ now.history)
      (compareAndSwap (artifactKey current.metadata.refId) current.revision
        (ArtifactValue.metadata next) nowMs expiresAt) world := by
  refine ArtifactSafe.did (Safe.compareAndSwap ?_)
  intro now answer hnow _
  exact ⟨hmaintains.mono (Grows.subset hnow.evolves), current,
    hread.mono (Grows.subset hnow.evolves), rfl, rfl, htransition⟩

theorem cas_safe (hmaintains : Maintains i world.history) (hread : Read i current world.history)
    (htransition : ArtifactTransition current.metadata next) (expectedRevision : Nat)
    (expiresAt : Option Int) :
    ArtifactSafe sha256 i (fun result now => ∀ record, result = .updated record →
        Swapped i (artifactKey current.metadata.refId) next record.revision now.history)
      (cas sha256 current expectedRevision next expiresAt) world := by
  unfold cas
  split
  · exact Safe.done (by rintro _ ⟨⟩)
  · rename_i hrevision
    rw [not_not] at hrevision
    subst hrevision
    refine Safe.check fun key hkey => Safe.check fun value hvalue => ?_
    obtain rfl := metadataKey_ok hkey
    obtain rfl := encode_ok hvalue
    rw [htransition.refId_eq]
    refine (swap_safe hmaintains hread htransition _ _).andThen ?_
    intro result now _ hresult
    cases result with
    | missing => exact Safe.done (by rintro _ ⟨⟩)
    | conflict record => exact Safe.check fun stored _ => Safe.done (by rintro _ ⟨⟩)
    | updated record =>
      refine Safe.check fun stored hstored => Safe.done ?_
      rintro _ ⟨⟩
      exact ⟨_, _, _, record, hresult, (decode_ok hstored).2.1⟩

/-! ## `put` -/

section Put

variable {input : PutDurableArtifactInput B}

/-- The `try` block of a put has created its record or met one that is there, or the record does
not pass the checks on it. -/
def Attempted (sha256 : Sha256 B) (i : Nat) (input : PutDurableArtifactInput B)
    (outcome : Except Fault (CreateResult String ArtifactValue)) (now : ArtifactWorld B) : Prop :=
  match outcome with
  | .error _ => writable sha256 input = false
  | .ok answer => ∃ nowMs expiresAt,
    (i, .effect (.createIfAbsent (artifactKey input.refId)
      (.metadata (putMetadata sha256 input)) nowMs expiresAt) answer) ∈ now.history

theorem attempted_error {error : Fault} (h : recordChecks sha256 input = .error error) :
    Attempted sha256 i input (.error error) world := by
  change writable sha256 input = false
  rw [writable, h]
  rfl

theorem createMetadata_safe (hplaced : Placed sha256 i input world.history) :
    Safe (repository sha256) (Guarantee sha256) (Meanwhile sha256 i) i (Attempted sha256 i input)
      (createMetadata sha256 input) world := by
  refine Safe.checked ?_ ?_
  · rintro key (hkey : metadataKey input.refId = _)
    refine Safe.checked ?_ ?_
    · rintro value (hvalue : encode sha256 (putMetadata sha256 input) = _)
      refine Safe.checked ?_ ?_
      · rintro _ (hvalid : validateDurableKey key = _)
        refine Safe.checked ?_ ?_
        · rintro _ (hwrite : validateDurableWrite value input.nowMs (some input.expiresAt) = _)
          obtain rfl := metadataKey_ok hkey
          obtain rfl := encode_ok hvalue
          have hchecks : recordChecks sha256 input = .ok () := by
            simp [recordChecks, hkey, hvalue, hvalid, hwrite, bind, Except.bind]
          refine Safe.requested (Op.createIfAbsent (artifactKey input.refId)
            (ArtifactValue.metadata (putMetadata sha256 input)) input.nowMs
            (some input.expiresAt)) fun now oracle hnow => ⟨⟨input, ?_, rfl, rfl, ?_⟩, ?_⟩
          · exact hplaced.mono (Grows.subset hnow.evolves)
          · rw [writable, hchecks]
            rfl
          · exact ⟨_, _, List.mem_cons_self ..⟩
        · rintro error (herror : validateDurableWrite value input.nowMs (some input.expiresAt) = _)
          exact attempted_error (by
            simp [recordChecks, hkey, hvalue, hvalid, herror, bind, Except.bind])
      · rintro error (herror : validateDurableKey key = _)
        exact attempted_error (by simp [recordChecks, hkey, hvalue, herror, bind, Except.bind])
    · rintro error (herror : encode sha256 (putMetadata sha256 input) = _)
      exact attempted_error (by simp [recordChecks, hkey, herror, bind, Except.bind])
  · rintro error (herror : metadataKey input.refId = _)
    exact attempted_error (by simp [recordChecks, herror, bind, Except.bind])

theorem discardBlob_safe (hrefused : Refused sha256 i input world.history) :
    ArtifactSafe sha256 i (fun _ _ => True) (discardBlob sha256 input) world :=
  Safe.mono (fun _ _ _ _ _ => trivial) (Safe.deleteIfOwner fun _ _ hnow =>
    .inl ⟨input, hrefused.mono (Grows.subset hnow.evolves), rfl, rfl⟩)

theorem reconcilePut_safe (hrefused : Refused sha256 i input world.history) :
    ArtifactSafe sha256 i (fun _ _ => True) (reconcilePut sha256 input) world := by
  refine ArtifactSafe.andThen (Safe.caught (Q := fun _ _ => True) ?_) fun _ _ _ _ =>
    Safe.done trivial
  refine (getStored_safe input.refId).andThen fun committed now hnow _ => ?_
  cases committed with
  | none => exact discardBlob_safe (hrefused.mono hnow)
  | some committed =>
    dsimp only
    split
    · exact discardBlob_safe (hrefused.mono hnow)
    · exact Safe.done trivial

theorem commitPut_safe (hplaced : Placed sha256 i input world.history) (owned : Bool) :
    ArtifactSafe sha256 i (fun _ _ => True) (commitPut sha256 input owned) world := by
  refine (createMetadata_safe hplaced).attempt.bind meanwhile_grows ?_ (by rintro _ _ _ ⟨_, ⟨⟩, _⟩)
  rintro outcome now hnow ⟨result, hresult, hattempted⟩
  obtain rfl := Except.ok.inj hresult
  have hplaced := hplaced.mono (Grows.subset hnow)
  cases outcome with
  | error error =>
    dsimp only
    split
    · exact (reconcilePut_safe ⟨hplaced, .inl hattempted⟩).andThen fun _ _ _ _ =>
        Safe.raise
    · exact Safe.raise
  | ok answer =>
    refine Safe.check fun result hdecode => ?_
    split
    · exact Safe.done trivial
    · rename_i hdifferent
      split
      · obtain ⟨nowMs, expiresAt, hevent⟩ := hattempted
        refine (discardBlob_safe ⟨hplaced, .inr ⟨nowMs, expiresAt, answer, result.metadata,
          hevent, (decode_ok hdecode).1, by simpa using hdifferent⟩⟩).andThen
          fun _ _ _ _ => Safe.raise
      · exact Safe.raise

theorem put_safe (hcall : (i, .invoke (.put input)) ∈ world.history) :
    ArtifactSafe sha256 i (fun _ _ => True) (put sha256 input) world := by
  refine Safe.check fun _ _ => ?_
  refine (ArtifactSafe.did (Safe.putIfAbsent fun now _ hnow =>
    ⟨input, Grows.subset hnow.evolves hcall, rfl, rfl, rfl, rfl⟩)).andThen ?_
  intro answer now hnow hanswer
  have hplaced : ∀ stat, answer = .created stat ∨ answer = .exists stat →
      Placed sha256 i input now.history := fun stat hstat =>
    ⟨hnow hcall, answer, hanswer, by rintro _ rfl; simp at hstat⟩
  cases answer with
  | conflict stat => exact Safe.raise
  | created stat => exact commitPut_safe (hplaced stat (.inl rfl)) true
  | «exists» stat => exact commitPut_safe (hplaced stat (.inr rfl)) false

end Put

/-! ## `get` -/

theorem getArtifact_safe :
    ArtifactSafe sha256 i (fun _ _ => True) (getArtifact sha256 refId) world :=
  (getStored_safe refId).andThen fun _ _ _ _ => Safe.done trivial

theorem getForCaller_safe (caller : DurableArtifactCaller) :
    ArtifactSafe sha256 i (fun _ _ => True) (getForCaller sha256 refId caller) world := by
  refine (getStored_safe refId).andThen fun found _ _ _ => ?_
  cases found with
  | none => exact Safe.done trivial
  | some current => exact Safe.check fun _ _ => Safe.done trivial

/-! ## Transitions -/

theorem stat_safe (key : String) :
    ArtifactSafe sha256 i (fun _ _ => True) (stat sha256 key) world :=
  Safe.mono (fun _ _ _ _ _ => trivial) (Safe.stat fun _ _ _ => trivial)

theorem markVerified_safe (hmaintains : Maintains i world.history) (refId : String)
    (caller : DurableArtifactCaller) (expectedRevision : Nat) (nowMs : Int) :
    ArtifactSafe sha256 i (fun _ _ => True)
      (markVerified sha256 refId caller expectedRevision nowMs) world := by
  refine (getStored_safe refId).andThen fun found first hfirst hfound => ?_
  cases found with
  | none => exact Safe.done trivial
  | some current =>
    obtain ⟨hread, -⟩ := hfound current rfl
    refine Safe.check fun _ _ => ?_
    split
    · exact Safe.raise
    · rename_i hactive
      rw [not_not] at hactive
      refine (stat_safe _).andThen fun stat second hsecond _ => ?_
      split
      · exact Safe.raise
      · exact (cas_safe (hmaintains.mono (List.Subset.trans hfirst hsecond))
          (hread.mono hsecond) (.markedVerified _ nowMs hactive) _ _).weaken fun _ _ _ => trivial

theorem readVerified_safe (hmaintains : Maintains i world.history) (refId : String)
    (caller : DurableArtifactCaller) (nowMs maxBytes : Int) :
    ArtifactSafe sha256 i (fun _ _ => True) (readVerified sha256 refId caller nowMs maxBytes)
      world := by
  refine (getStored_safe refId).andThen fun found first hfirst hfound => ?_
  cases found with
  | none => exact Safe.raise
  | some current =>
    obtain ⟨hread, -⟩ := hfound current rfl
    refine Safe.check fun _ _ => ?_
    split
    · split
      · rename_i hactive
        exact (cas_safe (hmaintains.mono hfirst) hread (.expired _ nowMs hactive) _ _).andThen
          fun _ _ _ _ => Safe.raise
      · exact Safe.raise
    · split
      · exact Safe.raise
      · split
        · exact Safe.raise
        · refine ArtifactSafe.andThen (Safe.getBlob meanwhile_grows fun _ _ _ => trivial)
            fun bytes second _ _ => ?_
          cases bytes with
          | none => exact Safe.raise
          | some bytes =>
            refine (getStored_safe refId).andThen fun latest _ _ _ => ?_
            cases latest with
            | none => exact Safe.raise
            | some latest =>
              refine Safe.check fun _ _ => ?_
              split
              · exact Safe.raise
              · split
                · exact Safe.raise
                · exact Safe.done trivial

theorem deleteExplicit_safe (hmaintains : Maintains i world.history) (refId : String)
    (caller : DurableArtifactCaller) (expectedRevision : Nat) (nowMs : Int) :
    ArtifactSafe sha256 i (fun _ _ => True)
      (deleteExplicit sha256 refId caller expectedRevision nowMs) world := by
  refine (getStored_safe refId).andThen fun found first hfirst hfound => ?_
  cases found with
  | none => exact Safe.done trivial
  | some current =>
    obtain ⟨hread, -⟩ := hfound current rfl
    refine Safe.check fun _ _ => ?_
    split
    · exact Safe.raise
    · rename_i hactive
      rw [not_not] at hactive
      exact (cas_safe (hmaintains.mono hfirst) hread (.deleted _ nowMs hactive) _ _).weaken
        fun _ _ _ => trivial

/-- A scan answers with records that the call has found by it. -/
theorem scanExpired_safe (cursor : Option String) (limit : Nat) :
    ArtifactSafe sha256 i (fun page now => ∀ record ∈ page.1, Found i record now.history)
      (scanExpired nowMs cursor limit) world :=
  (ArtifactSafe.did (Safe.scanExpired fun _ _ _ => trivial)).weaken fun page _ hpage _ hrecord =>
    .inr ⟨nowMs, cursor, limit, page, hpage, hrecord⟩

theorem expireRecords_safe (records : List (Record String ArtifactValue)) :
    ∀ (expired : List DurableArtifactRecord) (conflicts : List String) (world : ArtifactWorld B),
      Maintains i world.history → (∀ record ∈ records, Found i record world.history) →
      ArtifactSafe sha256 i (fun _ _ => True) (expireRecords sha256 nowMs records expired conflicts)
        world := by
  induction records with
  | nil => exact fun _ _ _ _ _ => Safe.done trivial
  | cons raw rest ih =>
    intro expired conflicts world hmaintains hfound
    rw [List.forall_mem_cons] at hfound
    refine Safe.check fun current hdecode => ?_
    split
    · exact ih _ _ _ hmaintains hfound.2
    · rename_i hactive
      rw [not_not] at hactive
      refine (cas_safe hmaintains (decode_read hfound.1 hdecode).1 (.expired _ nowMs hactive) _
        _).andThen fun result now hnow _ => ?_
      have hrest := fun record hrecord => (hfound.2 record hrecord).mono hnow
      cases result <;> exact ih _ _ _ (hmaintains.mono hnow) hrest

theorem expireDue_safe (hmaintains : Maintains i world.history) (nowMs : Int)
    (cursor : Option String) (limit : Nat) :
    ArtifactSafe sha256 i (fun _ _ => True) (expireDue sha256 nowMs cursor limit) world := by
  refine (scanExpired_safe nowMs cursor limit).andThen fun page now hnow hpage => ?_
  exact (expireRecords_safe nowMs page.1 [] [] now (hmaintains.mono hnow) hpage).andThen
    fun _ _ _ _ => Safe.done trivial

theorem markCleanupPending_safe (hmaintains : Maintains i world.history) (refId : String)
    (caller : DurableArtifactCaller) (expectedRevision : Nat) (nowMs : Int) :
    ArtifactSafe sha256 i (fun _ _ => True)
      (markCleanupPending sha256 refId caller expectedRevision nowMs) world := by
  refine (getStored_safe refId).andThen fun found first hfirst hfound => ?_
  cases found with
  | none => exact Safe.done trivial
  | some current =>
    obtain ⟨hread, -⟩ := hfound current rfl
    refine Safe.check fun _ _ => ?_
    split
    · exact Safe.raise
    · rename_i hrevoked
      have hrevoked : current.metadata.status = .logicallyExpired ∨
          current.metadata.status = .logicallyDeleted := by
        by_contra hnot
        exact hrevoked (not_or.1 hnot)
      exact (cas_safe (hmaintains.mono hfirst) hread (.cleanupPending _ nowMs hrevoked) _
        _).weaken fun _ _ _ => trivial

/-! ## Cleanup -/

theorem deleteBlob_safe (hmaintains : Maintains i world.history)
    (hread : Read i current world.history) (hdoomed : Doomed i current world.history) :
    ArtifactSafe sha256 i (fun _ _ => True)
      (deleteIfOwner sha256 current.metadata.blobKey (blobOwnerId sha256 current.metadata))
      world :=
  Safe.mono (fun _ _ _ _ _ => trivial) (Safe.deleteIfOwner fun _ _ hnow =>
    .inr ⟨hmaintains.mono (Grows.subset hnow.evolves), current,
      hread.mono (Grows.subset hnow.evolves), hdoomed.mono (Grows.subset hnow.evolves), rfl, rfl⟩)

theorem deleteRecord_safe (hmaintains : Maintains i world.history)
    (hread : Read i current world.history) (hdoomed : Doomed i current world.history) :
    ArtifactSafe sha256 i (fun _ _ => True)
      (deleteIfRevision (artifactKey current.metadata.refId) current.revision) world :=
  Safe.mono (fun _ _ _ _ _ => trivial) (Safe.deleteIfRevision fun _ _ hnow =>
    ⟨hmaintains.mono (Grows.subset hnow.evolves), .inr ⟨current,
      hread.mono (Grows.subset hnow.evolves), hdoomed.mono (Grows.subset hnow.evolves), rfl, rfl⟩⟩)

theorem cleanupPending_safe (hmaintains : Maintains i world.history) (refId : String)
    (caller : DurableArtifactCaller) (expectedRevision : Nat) :
    ArtifactSafe sha256 i (fun _ _ => True) (cleanupPending sha256 refId caller expectedRevision)
      world := by
  refine (getStored_safe refId).andThen fun found first hfirst hfound => ?_
  cases found with
  | none => exact Safe.done trivial
  | some current =>
    obtain ⟨hread, rfl⟩ := hfound current rfl
    refine Safe.check fun _ _ => ?_
    split
    · exact Safe.raise
    · rename_i hpending
      rw [not_not] at hpending
      split
      · exact Safe.done trivial
      · rename_i hrevision
        rw [not_not] at hrevision
        subst hrevision
        refine (deleteBlob_safe (hmaintains.mono hfirst) hread (.inl hpending)).andThen
          fun status second hsecond _ => ?_
        cases status with
        | ownerMismatch => exact Safe.done trivial
        | _ =>
          refine Safe.check fun key hkey => ?_
          obtain rfl := metadataKey_ok hkey
          exact (deleteRecord_safe (hmaintains.mono (List.Subset.trans hfirst hsecond))
            (hread.mono hsecond) (.inl hpending)).andThen fun _ _ _ _ => Safe.done trivial

theorem deleteOwned_safe (caller : DurableArtifactCaller) (nowMs : Int) (refIds : List String) :
    ∀ (revoked skipped : List String) (world : ArtifactWorld B), Maintains i world.history →
      ArtifactSafe sha256 i (fun _ _ => True)
        (deleteOwned sha256 caller nowMs refIds revoked skipped) world := by
  induction refIds with
  | nil => exact fun _ _ _ _ => Safe.done trivial
  | cons refId rest ih =>
    intro revoked skipped world hmaintains
    refine (getStored_safe refId).andThen fun found first hfirst _ => ?_
    have hfirst := hmaintains.mono hfirst
    cases found with
    | none => exact ih _ _ _ hfirst
    | some current =>
      dsimp only
      split
      · exact ih _ _ _ hfirst
      · refine (deleteExplicit_safe hfirst refId caller _ nowMs).andThen
          fun result second hsecond _ => ?_
        cases result <;> exact ih _ _ _ (hfirst.mono hsecond)

theorem deleteOwnerArtifacts_safe (hmaintains : Maintains i world.history)
    (caller : DurableArtifactCaller) (refIds : List String) (nowMs : Int) :
    ArtifactSafe sha256 i (fun _ _ => True) (deleteOwnerArtifacts sha256 caller refIds nowMs)
      world :=
  Safe.check fun _ _ => deleteOwned_safe caller nowMs _ [] [] world hmaintains

/-! ## Sweeping -/

theorem removePending_safe (hmaintains : Maintains i world.history)
    (hread : Read i current world.history) (hdoomed : Doomed i current world.history) :
    ArtifactSafe sha256 i (fun _ _ => True)
      (removePending sha256 (artifactKey current.metadata.refId) current) world := by
  refine (deleteBlob_safe hmaintains hread hdoomed).andThen fun status now hnow _ => ?_
  cases status with
  | ownerMismatch => exact Safe.done trivial
  | _ =>
    exact (deleteRecord_safe (hmaintains.mono hnow) (hread.mono hnow) (hdoomed.mono hnow)).andThen
      fun _ _ _ _ => Safe.done trivial

theorem sweepUnlinked_safe (hmaintains : Maintains i world.history)
    (hread : Read i current world.history) (nowMs : Int) : ArtifactSafe sha256 i (fun _ _ => True)
      (sweepUnlinked sha256 nowMs (artifactKey current.metadata.refId) current) world := by
  unfold sweepUnlinked
  split
  · rename_i hopen
    refine (cas_safe hmaintains hread (.swept _ nowMs hopen) _ _).andThen
      fun result first hfirst hresult => ?_
    cases result with
    | updated record =>
      obtain ⟨expected, nowMs', expiresAt, swapped, hswap, hrevision⟩ := hresult record rfl
      refine (getStored_safe _).andThen fun found second hsecond hfound => ?_
      cases found with
      | none => exact Safe.done trivial
      | some refreshed =>
        obtain ⟨hrefreshed, hrefId⟩ := hfound refreshed rfl
        dsimp only
        split
        · exact Safe.done trivial
        · rename_i hsame
          rw [not_not] at hsame
          rw [← hrefId]
          refine removePending_safe (hmaintains.mono (List.Subset.trans hfirst hsecond))
            hrefreshed (.inr ⟨expected, current.metadata.swept nowMs, nowMs', expiresAt,
              swapped, ?_, rfl, hrevision.trans hsame.symm⟩)
          rw [hrefId]
          exact hsecond hswap
    | _ => exact Safe.done trivial
  · rename_i hpending
    exact removePending_safe hmaintains hread (.inl (not_not.1 hpending))

theorem sweepLinked_safe (hmaintains : Maintains i world.history)
    (current : StoredDurableArtifactRecord) {source : StoredDurableArtifactRecord}
    (hread : Read i source world.history) (nowMs : Int) :
    ArtifactSafe sha256 i (fun _ _ => True) (sweepLinked sha256 nowMs current source) world := by
  unfold sweepLinked
  split
  · exact Safe.done trivial
  · split
    · rename_i hlinked
      exact (cas_safe hmaintains hread (.deleted _ nowMs hlinked.1) _ _).andThen
        fun _ _ _ _ => Safe.done trivial
    · exact Safe.done trivial

theorem sweepRecord_safe (hmaintains : Maintains i world.history)
    {raw : Record String ArtifactValue} (hfound : Found i raw world.history) (nowMs : Int) :
    ArtifactSafe sha256 i (fun _ _ => True) (sweepRecord sha256 nowMs raw) world := by
  refine Safe.check fun current hdecode => ?_
  obtain ⟨hread, hkey⟩ := decode_read hfound hdecode
  rw [hkey]
  split
  · exact Safe.done trivial
  · split
    · refine (getStored_safe _).andThen fun source now hnow hsource => ?_
      cases source with
      | none => exact sweepUnlinked_safe (hmaintains.mono hnow) (hread.mono hnow) nowMs
      | some source =>
        exact sweepLinked_safe (hmaintains.mono hnow) current (hsource source rfl).1 nowMs
    · exact sweepUnlinked_safe hmaintains hread nowMs

theorem sweepRecords_safe (records : List (Record String ArtifactValue)) :
    ∀ (count : Nat) (world : ArtifactWorld B), Maintains i world.history →
      (∀ record ∈ records, Found i record world.history) →
      ArtifactSafe sha256 i (fun _ _ => True) (sweepRecords sha256 nowMs records count) world := by
  induction records with
  | nil => exact fun _ _ _ _ => Safe.done trivial
  | cons raw rest ih =>
    intro count world hmaintains hfound
    rw [List.forall_mem_cons] at hfound
    refine ArtifactSafe.andThen (Safe.caught (sweepRecord_safe hmaintains hfound.1 nowMs))
      fun swept now hnow _ => ?_
    have hrest := fun record hrecord => (hfound.2 record hrecord).mono hnow
    split <;> exact ih _ _ (hmaintains.mono hnow) hrest

theorem sweepExpired_safe (hmaintains : Maintains i world.history) (nowMs : Int)
    (cursor : Option String) (limit : Nat) :
    ArtifactSafe sha256 i (fun _ _ => True) (sweepExpired sha256 nowMs cursor limit) world := by
  unfold sweepExpired
  split
  · exact Safe.raise
  · refine (scanExpired_safe nowMs cursor limit).andThen fun page now hnow hpage => ?_
    exact (sweepRecords_safe nowMs page.1 0 now (hmaintains.mono hnow) hpage).andThen
      fun _ _ _ _ => Safe.done trivial

/-! ## All calls -/

/-- A program that keeps the guarantee entitles its call to respond. -/
private theorem responds (h : ArtifactSafe sha256 i (fun _ _ => True) program world)
    (reply : α → Reply B) : Safe (repository sha256) (Guarantee sha256) (Meanwhile sha256 i) i
      (Responds (repository sha256) (Guarantee sha256) i)
      (program.bind fun value => .done (reply value)) world :=
  Safe.responds (Q := fun _ _ => True) (h.andThen fun _ _ _ _ => Safe.done trivial)
    (fun _ _ _ _ _ => trivial) fun _ _ => trivial

/-- Every call of the repository keeps the guarantee, whatever the other calls do meanwhile. -/
theorem verified (sha256 : Sha256 B) :
    Verified (repository sha256) (Guarantee sha256) fun _ => True where
  inv _ _ _ _ _ _ _ := trivial
  invoke _ _ _ _ := trivial
  main := by
    intro i call world _ hcalls _
    have hmaintains (h : ∀ input, call ≠ .put input) : Maintains i world.history :=
      ⟨call, hcalls.1, h⟩
    cases call with
    | isExternalSourceRevoked refId caller =>
      exact responds (isExternalSourceRevoked_safe refId caller) .revoked
    | registerExternalOutput refId outputRefId caller nowMs =>
      exact responds (registerExternalOutput_safe (hmaintains (by simp)) refId outputRefId caller
        nowMs) fun _ => .nothing
    | nextRevokedExternalOutput refId caller nowMs =>
      exact responds (nextRevokedExternalOutput_safe (hmaintains (by simp)) refId caller nowMs)
        .edge
    | acknowledgeRevokedExternalOutput refId caller edgeKey nowMs =>
      exact responds (acknowledgeRevokedExternalOutput_safe (hmaintains (by simp)) refId caller
        edgeKey nowMs) fun _ => .nothing
    | get refId => exact responds (getArtifact_safe refId) .record
    | getForCaller refId caller => exact responds (getForCaller_safe refId caller) .record
    | put input => exact responds (put_safe hcalls.1) .put
    | markVerified refId caller expectedRevision nowMs =>
      exact responds (markVerified_safe (hmaintains (by simp)) refId caller expectedRevision
        nowMs) .transition
    | readVerified refId caller nowMs maxBytes =>
      exact responds (readVerified_safe (hmaintains (by simp)) refId caller nowMs maxBytes) .bytes
    | deleteExplicit refId caller expectedRevision nowMs =>
      exact responds (deleteExplicit_safe (hmaintains (by simp)) refId caller expectedRevision
        nowMs) .transition
    | expireDue nowMs cursor limit =>
      exact responds (expireDue_safe (hmaintains (by simp)) nowMs cursor limit) .page
    | markCleanupPending refId caller expectedRevision nowMs =>
      exact responds (markCleanupPending_safe (hmaintains (by simp)) refId caller
        expectedRevision nowMs) .transition
    | cleanupPending refId caller expectedRevision =>
      exact responds (cleanupPending_safe (hmaintains (by simp)) refId caller expectedRevision)
        .cleanup
    | deleteOwnerArtifacts caller refIds nowMs =>
      exact responds (deleteOwnerArtifacts_safe (hmaintains (by simp)) caller refIds nowMs)
        fun results => .owned results.1 results.2
    | sweepExpired nowMs cursor limit =>
      exact responds (sweepExpired_safe (hmaintains (by simp)) nowMs cursor limit)
        fun results => .swept results.1 results.2

end Groundlane.Artifacts
