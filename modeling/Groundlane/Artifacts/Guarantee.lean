import Groundlane.Artifacts.Repository

/-!
# What every call of the artifact repository promises

`ArtifactTransition` lists what the writers of a metadata record make of the record they read,
and `Guarantee` says of every event of a call under which circumstances it happens, in terms of
what the call itself has done and read before: metadata is created by a put that has its blob in
place, swapped along a transition from what the call has read at that revision, and bytes are
deleted by a put that cannot have its record or by a cleanup.

`verified` shows that every call keeps the guarantee, whatever the other calls do meanwhile.
-/

namespace Groundlane.Artifacts

open Fenced Interleaving

/-- A world of calls of the repository. -/
abbrev ArtifactWorld (B : Type) : Type := DiskWorld Answer (Call B) ArtifactValue B (Reply B)

/-- An event of a call of the repository. -/
abbrev ArtifactEvent (B : Type) : Type := DiskEvent Answer (Call B) ArtifactValue B (Reply B)

/-- Everything that happened, newest first. -/
abbrev ArtifactHistory (B : Type) : Type := List (Nat × ArtifactEvent B)

variable {B : Type}

/-! ## Transitions -/

/-- What one writer makes of the metadata it read. -/
inductive ArtifactTransition :
    StoredDurableArtifactMetadata → StoredDurableArtifactMetadata → Prop where
  | markedVerified (metadata nowMs) : metadata.status = .active →
    ArtifactTransition metadata (metadata.markedVerified nowMs)
  | expired (metadata nowMs) : metadata.status = .active →
    ArtifactTransition metadata (metadata.expired nowMs)
  | deleted (metadata nowMs) : metadata.status = .active →
    ArtifactTransition metadata (metadata.deleted nowMs)
  | cleanupPending (metadata nowMs) :
    metadata.status = .logicallyExpired ∨ metadata.status = .logicallyDeleted →
    ArtifactTransition metadata (metadata.cleanupPending nowMs)
  | swept (metadata nowMs) : metadata.status ≠ .physicalCleanupPending →
    ArtifactTransition metadata (metadata.swept nowMs)

/-- No writer changes which artifact a record is about. -/
theorem ArtifactTransition.refId_eq {metadata next : StoredDurableArtifactMetadata}
    (h : ArtifactTransition metadata next) : next.refId = metadata.refId := by
  cases h <;> rfl

/-! ## Keys -/

theorem artifactKey_inj {refId other : String} : artifactKey refId = artifactKey other ↔
    refId = other := by
  simp [artifactKey, String.append_right_inj]

/-- The key is not that of an artifact. -/
def NotArtifact (key : String) : Prop := ∀ refId, key ≠ artifactKey refId

theorem notArtifact_source (digest : String) : NotArtifact ("output-source:" ++ digest) :=
  fun refId => append_ne_append (by decide) digest refId

theorem notArtifact_edge (uuid : String) : NotArtifact ("output-edge:" ++ uuid) :=
  fun refId => append_ne_append (by decide) uuid refId

/-- What an edge pointer points to is not an artifact. -/
theorem notArtifact_pointer {pointer : String} (h : isEdgePointer pointer = true) :
    NotArtifact pointer := by
  simp only [isEdgePointer, Bool.and_eq_true] at h
  obtain ⟨rest, hrest⟩ := List.isPrefixOf_iff_prefix.1 h.1.1
  have : pointer = "output-edge:" ++ String.ofList rest := by
    exact String.toList_inj.1 (hrest.symm.trans (by simp))
  rw [this]
  exact notArtifact_edge _

variable {value : ArtifactValue} {refId key : String}

theorem metadataKey_ok (h : metadataKey refId = .ok key) : key = artifactKey refId := by
  simp only [metadataKey, bind, Except.bind, pure, Except.pure] at h
  split at h
  · cases h
  · exact (Except.ok.inj h).symm

variable {sha256 : Sha256 B}

theorem externalSourceKey_ok {caller : DurableArtifactCaller}
    (h : externalSourceKey sha256 refId caller = .ok key) : NotArtifact key := by
  simp only [externalSourceKey, bind, Except.bind, pure, Except.pure] at h
  split at h
  · cases h
  · split at h
    · cases h
    · split at h
      · cases h
      · obtain rfl := Except.ok.inj h
        exact notArtifact_source _

variable {current : StoredDurableArtifactRecord} {record : Record String ArtifactValue}

theorem decode_ok (h : decode sha256 record = .ok current) :
    record.value = .metadata current.metadata ∧ record.revision = current.revision ∧
      record.key = artifactKey current.metadata.refId := by
  unfold decode at h
  split at h
  · rename_i metadata hvalue
    simp only [bind, Except.bind, pure, Except.pure] at h
    split at h
    · cases h
    · split at h
      · cases h
      · rename_i key hkey
        split at h
        · cases h
        · rename_i hbinding
          obtain rfl := Except.ok.inj h
          simp only [ne_eq, not_or, not_not] at hbinding
          exact ⟨hvalue, rfl, hbinding.1.symm.trans (metadataKey_ok hkey)⟩
  · cases h
  · cases h

theorem encode_ok {metadata : StoredDurableArtifactMetadata}
    (h : encode sha256 metadata = .ok value) : value = .metadata metadata := by
  simp only [encode, bind, Except.bind, pure, Except.pure] at h
  split at h
  · cases h
  · exact (Except.ok.inj h).symm

theorem decodeOutputSourceHead_ok {state : Bool × Option String}
    (h : decodeOutputSourceHead value = .ok state) :
    ∀ pointer, state.2 = some pointer → isEdgePointer pointer = true := by
  unfold decodeOutputSourceHead at h
  split at h
  · split at h
    · cases h
    · rename_i hpointer
      obtain rfl := Except.ok.inj h
      rintro pointer hhead
      obtain rfl : _ = some pointer := hhead
      simpa using hpointer
  · cases h
  · cases h

/-! ## The guarantee -/

/-- Call `i` has read `record`. -/
def Found (i : Nat) (record : Record String ArtifactValue) (history : ArtifactHistory B) : Prop :=
  (∃ key, (i, .effect (.get key) (some record)) ∈ history) ∨
    ∃ nowMs cursor limit page, (i, .effect (.scanExpired nowMs cursor limit) page) ∈ history ∧
      record ∈ page.1

/-- Call `i` has read `current`. -/
def Read (i : Nat) (current : StoredDurableArtifactRecord) (history : ArtifactHistory B) : Prop :=
  ∃ record, Found i record history ∧ record.key = artifactKey current.metadata.refId ∧
    record.value = .metadata current.metadata ∧ record.revision = current.revision

/-- A record that has been found and can be decoded has been read. -/
theorem decode_read {i : Nat} {history : ArtifactHistory B} (hfound : Found i record history)
    (h : decode sha256 record = .ok current) :
    Read i current history ∧ record.key = artifactKey current.metadata.refId := by
  obtain ⟨hvalue, hrevision, hkey⟩ := decode_ok h
  exact ⟨⟨record, hfound, hkey, hvalue, hrevision⟩, hkey⟩

/-- Call `i` is not a put. -/
def Maintains (i : Nat) (history : ArtifactHistory B) : Prop :=
  ∃ call, (i, .invoke call) ∈ history ∧ ∀ input, call ≠ .put input

/-- Call `i` has found the cleanup of `current` pending, or has made it so itself. -/
def Doomed (i : Nat) (current : StoredDurableArtifactRecord) (history : ArtifactHistory B) :
    Prop :=
  current.metadata.status = .physicalCleanupPending ∨
    ∃ revision next nowMs expiresAt record,
      (i, .effect (.compareAndSwap (artifactKey current.metadata.refId) revision (.metadata next)
        nowMs expiresAt) (.updated record)) ∈ history ∧
      next.status = .physicalCleanupPending ∧ record.revision = current.revision

section Put

variable [ByteString B] (sha256 : Sha256 B)

/-- The checks on the record that a put wants to create, those of the store included. -/
def recordChecks (input : PutDurableArtifactInput B) : Except Fault Unit := do
  let key ← metadataKey input.refId
  let value ← encode sha256 (putMetadata sha256 input)
  validateDurableKey key
  validateDurableWrite value input.nowMs (some input.expiresAt)

/-- Whether the record that a put wants to create passes all checks on it. -/
def writable (input : PutDurableArtifactInput B) : Bool :=
  (recordChecks sha256 input).toBool

/-- Call `i` is a put of `input`, and its blob is in place. -/
def Placed (i : Nat) (input : PutDurableArtifactInput B) (history : ArtifactHistory B) : Prop :=
  (i, .invoke (.put input)) ∈ history ∧ ∃ answer,
    (i, .effect (.putIfAbsent (putMetadata sha256 input).blobKey
      (blobOwnerId sha256 (putMetadata sha256 input)) input.contentHash input.bytes) answer) ∈
        history ∧ ∀ stat, answer ≠ .conflict stat

/-- Call `i` is a put of `input` that cannot have its record: the record does not pass the
checks, or a different one is there. -/
def Refused (i : Nat) (input : PutDurableArtifactInput B) (history : ArtifactHistory B) : Prop :=
  Placed sha256 i input history ∧ (writable sha256 input = false ∨
    ∃ nowMs expiresAt answer metadata,
      (i, .effect (.createIfAbsent (artifactKey input.refId) (.metadata (putMetadata sha256 input))
        nowMs expiresAt) answer) ∈ history ∧
      answer.record.value = .metadata metadata ∧
      sameArtifact metadata (putMetadata sha256 input) = false)

/-- The values that call `i` creates, and where. -/
def CreateAllowed (i : Nat) (key : String) (value : ArtifactValue) (history : ArtifactHistory B) :
    Prop :=
  match value with
  | .metadata metadata => ∃ input, Placed sha256 i input history ∧
    metadata = putMetadata sha256 input ∧ key = artifactKey input.refId ∧
    writable sha256 input = true
  | .sourceHead .. | .sourceEdge .. => NotArtifact key

/-- What call `i` swaps in. -/
def SwapAllowed (i : Nat) (key : String) (revision : Nat) (value : ArtifactValue)
    (history : ArtifactHistory B) : Prop :=
  Maintains i history ∧
    match value with
    | .metadata next => ∃ current, Read i current history ∧
      key = artifactKey current.metadata.refId ∧ revision = current.revision ∧
      ArtifactTransition current.metadata next
    | .sourceHead .. | .sourceEdge .. => NotArtifact key

/-- What call `i` deletes from the record store. -/
def DeleteAllowed (i : Nat) (key : String) (revision : Nat) (history : ArtifactHistory B) :
    Prop :=
  Maintains i history ∧ (NotArtifact key ∨ ∃ current, Read i current history ∧
    Doomed i current history ∧ key = artifactKey current.metadata.refId ∧
    revision = current.revision)

/-- What call `i` deletes from the blob store. -/
def DiscardAllowed (i : Nat) (key ownerId : String) (history : ArtifactHistory B) : Prop :=
  (∃ input, Refused sha256 i input history ∧ key = (putMetadata sha256 input).blobKey ∧
      ownerId = blobOwnerId sha256 (putMetadata sha256 input)) ∨
    Maintains i history ∧ ∃ current, Read i current history ∧ Doomed i current history ∧
      key = current.metadata.blobKey ∧ ownerId = blobOwnerId sha256 current.metadata

/-- The circumstances of every event of call `i`. -/
def Guarantee (i : Nat) (event : ArtifactEvent B) (world : ArtifactWorld B) : Prop :=
  match event with
  | .effect (.createIfAbsent key value _ _) _ => CreateAllowed sha256 i key value world.history
  | .effect (.compareAndSwap key revision value _ _) _ =>
    SwapAllowed i key revision value world.history
  | .effect (.deleteIfRevision key revision) _ => DeleteAllowed i key revision world.history
  | .effect (.putIfAbsent key ownerId digest bytes) _ => ∃ input,
    (i, .invoke (.put input)) ∈ world.history ∧ key = (putMetadata sha256 input).blobKey ∧
    ownerId = blobOwnerId sha256 (putMetadata sha256 input) ∧ digest = input.contentHash ∧
    bytes = input.bytes
  | .effect (.deleteIfOwner key ownerId) _ => DiscardAllowed sha256 i key ownerId world.history
  | _ => True

end Put

/-! ### Monotonicity -/

section Monotone

variable {i : Nat} {history later : ArtifactHistory B}

theorem Found.mono (hsub : history ⊆ later) (h : Found i record history) :
    Found i record later := by
  rcases h with ⟨key, h⟩ | ⟨nowMs, cursor, limit, page, h, hmem⟩
  · exact .inl ⟨key, hsub h⟩
  · exact .inr ⟨nowMs, cursor, limit, page, hsub h, hmem⟩

theorem Read.mono (hsub : history ⊆ later) (h : Read i current history) : Read i current later := by
  obtain ⟨record, hfound, hrest⟩ := h
  exact ⟨record, hfound.mono hsub, hrest⟩

theorem Maintains.mono (hsub : history ⊆ later) (h : Maintains i history) :
    Maintains i later := by
  obtain ⟨call, hcall, hput⟩ := h
  exact ⟨call, hsub hcall, hput⟩

theorem Doomed.mono (hsub : history ⊆ later) (h : Doomed i current history) :
    Doomed i current later := by
  rcases h with hstatus | ⟨revision, next, nowMs, expiresAt, record, h, hrest⟩
  · exact .inl hstatus
  · exact .inr ⟨revision, next, nowMs, expiresAt, record, hsub h, hrest⟩

variable {input : PutDurableArtifactInput B}

theorem Placed.mono [ByteString B] (hsub : history ⊆ later) (h : Placed sha256 i input history) :
    Placed sha256 i input later := by
  obtain ⟨hcall, answer, h, hanswer⟩ := h
  exact ⟨hsub hcall, answer, hsub h, hanswer⟩

theorem Refused.mono [ByteString B] (hsub : history ⊆ later) (h : Refused sha256 i input history) :
    Refused sha256 i input later := by
  obtain ⟨hplaced, hwritable | ⟨nowMs, expiresAt, answer, metadata, h, hrest⟩⟩ := h
  · exact ⟨hplaced.mono hsub, .inl hwritable⟩
  · exact ⟨hplaced.mono hsub, .inr ⟨nowMs, expiresAt, answer, metadata, hsub h, hrest⟩⟩

end Monotone

/-- What a step does to the record of an artifact: nothing, or a put creates it, or a call that
is not a put swaps in a transition of what it has read at that revision, or the record is
deleted. -/
theorem artifact_cases [ByteString B] {i : Nat} {event : ArtifactEvent B}
    {before after : ArtifactWorld B} (hstep : (repository sha256).Step i event before after)
    (hG : Guarantee sha256 i event before) (refId : String) :
    after.state.records.get (artifactKey refId) = before.state.records.get (artifactKey refId) ∨
      (∃ input nowMs expiresAt, Placed sha256 i input before.history ∧
        writable sha256 input = true ∧ input.refId = refId ∧
        before.state.records.get (artifactKey refId) = none ∧
        event = .effect (.createIfAbsent (artifactKey refId)
            (.metadata (putMetadata sha256 input)) nowMs expiresAt)
          (.created ⟨artifactKey refId, .metadata (putMetadata sha256 input), 1, nowMs, nowMs,
            expiresAt⟩) ∧
        after.state.records.get (artifactKey refId) = some
          ⟨artifactKey refId, .metadata (putMetadata sha256 input), 1, nowMs, nowMs, expiresAt⟩) ∨
      (∃ current read next nowMs expiresAt, Maintains i before.history ∧
        Read i read before.history ∧ read.metadata.refId = refId ∧
        read.revision = current.revision ∧ ArtifactTransition read.metadata next ∧
        before.state.records.get (artifactKey refId) = some current ∧
        event = .effect (.compareAndSwap (artifactKey refId) current.revision (.metadata next)
            nowMs expiresAt)
          (.updated ⟨artifactKey refId, .metadata next, current.revision + 1, current.createdAt,
            nowMs, expiresAt⟩) ∧
        after.state.records.get (artifactKey refId) = some ⟨artifactKey refId, .metadata next,
          current.revision + 1, current.createdAt, nowMs, expiresAt⟩) ∨
      ∃ current, Maintains i before.history ∧
        event = .effect (.deleteIfRevision (artifactKey refId) current.revision) .deleted ∧
        before.state.records.get (artifactKey refId) = some current ∧
        after.state.records.get (artifactKey refId) = none := by
  rcases Step.record_cases hstep (artifactKey refId) with
    hsame | ⟨value, nowMs, expiresAt, rfl, hnone, hafter⟩ |
    ⟨current, value, nowMs, expiresAt, rfl, hbefore, hafter⟩ | ⟨current, rfl, hbefore, hafter⟩
  · exact .inl hsame
  · refine .inr (.inl ?_)
    cases value with
    | metadata metadata =>
      obtain ⟨input, hplaced, rfl, hkey, hwritable⟩ := hG
      exact ⟨input, nowMs, expiresAt, hplaced, hwritable, (artifactKey_inj.1 hkey).symm, hnone,
        rfl, hafter⟩
    | sourceHead revoked head => exact absurd rfl (hG refId)
    | sourceEdge outputRefId next => exact absurd rfl (hG refId)
  · refine .inr (.inr (.inl ?_))
    obtain ⟨hmaintains, hswap⟩ := hG
    cases value with
    | metadata next =>
      obtain ⟨read, hread, hkey, hrevision, htransition⟩ := hswap
      exact ⟨current, read, next, nowMs, expiresAt, hmaintains, hread,
        (artifactKey_inj.1 hkey).symm, hrevision.symm, htransition, hbefore, rfl, hafter⟩
    | sourceHead revoked head => exact absurd rfl (hswap refId)
    | sourceEdge outputRefId next => exact absurd rfl (hswap refId)
  · exact .inr (.inr (.inr ⟨current, hG.1, rfl, hbefore, hafter⟩))

end Groundlane.Artifacts
