import Groundlane.Cache.Repository

/-!
# What every call of the document cache promises

`Guarantee` says of every event of a call under which circumstances it happens, in terms of what
the call itself has done and read before: a core is written by a commit of its data that has the
payload in place and has neither written a core nor deleted a payload yet; a source index is
created open, and swapped for an open one only by a call that has read it open; and a hit is
returned by a call that has read a core with the same key text and met an open source index.

`verified` shows that every call keeps the guarantee, whatever the other calls do meanwhile.
-/

namespace Groundlane.DocumentCache

open Fenced Interleaving

/-- A world of calls of the repository. -/
abbrev CacheWorld (D B : Type) : Type := DiskWorld (Answer D) (Call D) (CacheValue D) B (Reply D)

/-- An event of a call of the repository. -/
abbrev CacheEvent (D B : Type) : Type := DiskEvent (Answer D) (Call D) (CacheValue D) B (Reply D)

/-- Everything that happened, newest first. -/
abbrev CacheHistory (D B : Type) : Type := List (Nat × CacheEvent D B)

variable {D B : Type}

/-! ## What a call has done -/

/-- Call `i` looks `identity` up. -/
def LooksUp (i : Nat) (identity : DocumentCacheIdentity) (history : CacheHistory D B) : Prop :=
  ∃ config, (i, .invoke (.lookup config identity)) ∈ history ∨
    (i, .invoke (.process config identity)) ∈ history

/-- Call `i` commits the document that was executed for `identity`. -/
def Commits (i : Nat) (identity : DocumentCacheIdentity) (execution : DocumentCacheExecution D)
    (history : CacheHistory D B) : Prop :=
  (∃ config decision, (i, .invoke (.commit config identity execution decision)) ∈ history) ∨
    ∃ config, (i, .invoke (.process config identity)) ∈ history ∧
      (i, .effect (.port .execute) (.ok execution)) ∈ history

/-- Call `i` is a sweep. -/
def Sweeps (i : Nat) (history : CacheHistory D B) : Prop :=
  ∃ nowMs cursor limit, (i, .invoke (.sweepExpiredPage nowMs cursor limit)) ∈ history

/-- Call `i` has put these bytes in place, or found them there. -/
def InPlace (i : Nat) (blobKey ownerId digest : String) (bytes : B)
    (history : CacheHistory D B) : Prop :=
  ∃ answer, (i, .effect (.putIfAbsent blobKey ownerId digest bytes) answer) ∈ history ∧
    ∀ stat, answer ≠ .conflict stat

/-- Whether an event ends what a call may do about the payload that it has in place: it has
written its core, or it deletes a payload, or it responds. -/
def settles : CacheEvent D B → Bool
  | .effect (.createIfAbsent _ (.core _) _ _) (.created _) => true
  | .effect (.compareAndSwap _ _ (.core _) _ _) (.updated _) => true
  | .effect (.deleteIfOwner ..) _ => true
  | .response _ => true
  | _ => false

/-- Call `i` may still write its core. -/
def Unsettled (i : Nat) (history : CacheHistory D B) : Prop :=
  ∀ event, (i, event) ∈ history → settles event = false

/-- Call `i` has read the source index under `key` open, or created it. -/
def SawOpen (i : Nat) (key : String) (history : CacheHistory D B) : Prop :=
  (∃ record index, (i, .effect (.get key) (some record)) ∈ history ∧
      record.value = .sourceIndex index ∧ index.revoked = false) ∨
    ∃ value nowMs expiresAt record,
      (i, .effect (.createIfAbsent key value nowMs expiresAt) (.created record)) ∈ history

/-- Call `i` has read the source index under `key` revoked, or revoked it. -/
def SawRevoked (i : Nat) (key : String) (history : CacheHistory D B) : Prop :=
  (∃ record index, (i, .effect (.get key) (some record)) ∈ history ∧
      record.value = .sourceIndex index ∧ index.revoked = true) ∨
    ∃ revision index nowMs expiresAt record,
      (i, .effect (.compareAndSwap key revision (.sourceIndex index) nowMs expiresAt)
        (.updated record)) ∈ history ∧ index.revoked = true

/-- Call `i` has read the open source index under `key` at `revision`. -/
def ReadOpen (i : Nat) (key : String) (revision : Nat) (history : CacheHistory D B) : Prop :=
  ∃ record index, (i, .effect (.get key) (some record)) ∈ history ∧
    record.value = .sourceIndex index ∧ index.revoked = false ∧ record.revision = revision

/-- The key is one of a source binding. -/
def IsBindingKey (key : String) : Prop := ∃ digest, key = bindingPrefix ++ digest

section Guarantee

variable [CacheData D B] [ByteString B] (repository : DurableDocumentCacheRepository B)

/-- The core holds `data`, or refers to its bytes, which call `i` has in place. -/
def PayloadOf (i : Nat) (data : D) (core : DurableCacheCore D) (history : CacheHistory D B) :
    Prop :=
  match core.payload with
  | .data found => found = data
  | .payloadBlob blobKey digest byteSize =>
    digest = payloadDigest repository.sha256 (CacheData.encode data : B) ∧
      byteSize = ByteString.byteLength (CacheData.encode data : B) ∧
      InPlace i blobKey core.key.ownershipScope digest (CacheData.encode data) history

/-- Call `i` commits the core. -/
def CoreOf (i : Nat) (core : DurableCacheCore D) (history : CacheHistory D B) : Prop :=
  ∃ identity execution, Commits i identity execution history ∧ core.key = identity.key ∧
    PayloadOf repository i execution.data core history

/-- The values that call `i` creates, and where. -/
def CreateAllowed (i : Nat) (key : String) (value : CacheValue D) (history : CacheHistory D B) :
    Prop :=
  match value with
  | .core core => key = coreRecordKey repository.sha256 core.keyString ∧
    CoreOf repository i core history ∧ Unsettled i history
  | .binding _ => IsBindingKey key
  | .sourceIndex index => index.revoked = false ∧
    key = sourceIndexRecordKey repository.sha256 index.ownershipScope index.sourceIdentity
  | .cleanup cleanup => key = cleanupRecordKey repository.sha256 cleanup.blobKey

/-- What call `i` swaps in. -/
def SwapAllowed (i : Nat) (key : String) (revision : Nat) (value : CacheValue D)
    (history : CacheHistory D B) : Prop :=
  match value with
  | .core core => key = coreRecordKey repository.sha256 core.keyString ∧
    CoreOf repository i core history ∧ Unsettled i history
  | .binding _ => IsBindingKey key
  | .sourceIndex index =>
    key = sourceIndexRecordKey repository.sha256 index.ownershipScope index.sourceIdentity ∧
      (index.revoked = true ∨ ReadOpen i key revision history)
  | .cleanup _ => False

/-- Call `i` has loaded the data of a core. -/
def Loaded (i : Nat) (core : DurableCacheCore D) (data : D) (history : CacheHistory D B) : Prop :=
  match core.payload with
  | .data found => found = data
  | .payloadBlob blobKey digest _ => ∃ ownerId maxBytes bytes,
    (i, .effect (.getBlob blobKey ownerId digest maxBytes) (.ok (some bytes))) ∈ history ∧
      CacheData.decode bytes = .ok data

/-- What call `i` has read when it returns `data` as a hit for `identity`. -/
def HitAllowed (i : Nat) (identity : DocumentCacheIdentity) (data : D)
    (history : CacheHistory D B) : Prop :=
  (∃ key record core, (i, .effect (.get key) (some record)) ∈ history ∧
    record.value = .core core ∧
    sameCacheKey core.key identity.key = .ok true ∧ Loaded i core data history) ∧
  SawOpen i (sourceIndexRecordKey repository.sha256 identity.ownershipScope
    identity.sourceIdentity) history

/-- What call `i` has done when it returns. -/
def ReplyAllowed (i : Nat) (reply : Reply D) (history : CacheHistory D B) : Prop :=
  match reply with
  | .lookup (.hit data _) | .processed (.hit data _) =>
    ∀ identity, LooksUp i identity history → HitAllowed repository i identity data history
  | .revocation .revoked => ∀ sourceIdentity ownershipScope nowMs,
    (i, .invoke (.revokeAllSourceBindings sourceIdentity ownershipScope nowMs)) ∈ history →
    SawRevoked i (sourceIndexRecordKey repository.sha256 ownershipScope sourceIdentity) history
  | _ => True

/-- The circumstances of every event of call `i`. -/
def Guarantee (i : Nat) (event : CacheEvent D B) (world : CacheWorld D B) : Prop :=
  match event with
  | .effect (.createIfAbsent key value _ _) _ => CreateAllowed repository i key value world.history
  | .effect (.compareAndSwap key revision value _ _) _ =>
    SwapAllowed repository i key revision value world.history
  | .effect (.deleteIfRevision key _) _ => Sweeps i world.history ∨
    ∃ blobKey, key = cleanupRecordKey repository.sha256 blobKey
  | .response (.ok reply) => ReplyAllowed repository i reply world.history
  | _ => True

end Guarantee

/-! ### Monotonicity -/

section Monotone

variable {i : Nat} {history later : CacheHistory D B} {identity : DocumentCacheIdentity}
  {revision : Nat}

theorem Commits.mono (hsub : history ⊆ later) {execution : DocumentCacheExecution D}
    (h : Commits i identity execution history) : Commits i identity execution later := by
  rcases h with ⟨config, decision, hcall⟩ | ⟨config, hcall, hexecute⟩
  · exact .inl ⟨config, decision, hsub hcall⟩
  · exact .inr ⟨config, hsub hcall, hsub hexecute⟩

theorem Sweeps.mono (hsub : history ⊆ later) (h : Sweeps i history) : Sweeps i later := by
  obtain ⟨nowMs, cursor, limit, hcall⟩ := h
  exact ⟨nowMs, cursor, limit, hsub hcall⟩

theorem InPlace.mono (hsub : history ⊆ later) {blobKey ownerId digest : String} {bytes : B}
    (h : InPlace i blobKey ownerId digest bytes history) :
    InPlace i blobKey ownerId digest bytes later := by
  obtain ⟨answer, hmem, hanswer⟩ := h
  exact ⟨answer, hsub hmem, hanswer⟩

variable {core : DurableCacheCore D} {key : String} {data : D}

theorem SawOpen.mono (hsub : history ⊆ later) (h : SawOpen i key history) :
    SawOpen i key later := by
  rcases h with ⟨record, index, hmem, hrest⟩ | ⟨value, nowMs, expiresAt, record, hmem⟩
  · exact .inl ⟨record, index, hsub hmem, hrest⟩
  · exact .inr ⟨value, nowMs, expiresAt, record, hsub hmem⟩

theorem SawRevoked.mono (hsub : history ⊆ later) (h : SawRevoked i key history) :
    SawRevoked i key later := by
  rcases h with ⟨record, index, hmem, hrest⟩ | ⟨revision, index, nowMs, expiresAt, record, hmem, h⟩
  · exact .inl ⟨record, index, hsub hmem, hrest⟩
  · exact .inr ⟨revision, index, nowMs, expiresAt, record, hsub hmem, h⟩

theorem ReadOpen.mono (hsub : history ⊆ later) (h : ReadOpen i key revision history) :
    ReadOpen i key revision later := by
  obtain ⟨record, index, hmem, hrest⟩ := h
  exact ⟨record, index, hsub hmem, hrest⟩

theorem ReadOpen.sawOpen (h : ReadOpen i key revision history) : SawOpen i key history := by
  obtain ⟨record, index, hmem, hvalue, hopen, -⟩ := h
  exact .inl ⟨record, index, hmem, hvalue, hopen⟩

variable [CacheData D B] [ByteString B] {repository : DurableDocumentCacheRepository B}

theorem PayloadOf.mono (hsub : history ⊆ later) (h : PayloadOf repository i data core history) :
    PayloadOf repository i data core later := by
  unfold PayloadOf at h ⊢
  split at h
  · exact h
  · exact ⟨h.1, h.2.1, h.2.2.mono hsub⟩

theorem CoreOf.mono (hsub : history ⊆ later) (h : CoreOf repository i core history) :
    CoreOf repository i core later := by
  obtain ⟨identity, execution, hcommits, hkey, hpayload⟩ := h
  exact ⟨identity, execution, hcommits.mono hsub, hkey, hpayload.mono hsub⟩

omit [ByteString B] in
theorem Loaded.mono (hsub : history ⊆ later) (h : Loaded i core data history) :
    Loaded i core data later := by
  unfold Loaded at h ⊢
  split at h
  · exact h
  · obtain ⟨ownerId, maxBytes, bytes, hmem, hdecode⟩ := h
    exact ⟨ownerId, maxBytes, bytes, hsub hmem, hdecode⟩

omit [ByteString B] in
theorem HitAllowed.mono (hsub : history ⊆ later) (h : HitAllowed repository i identity data history) :
    HitAllowed repository i identity data later := by
  obtain ⟨⟨key, record, core, hmem, hvalue, hkey, hloaded⟩, hopen⟩ := h
  exact ⟨⟨key, record, core, hsub hmem, hvalue, hkey, hloaded.mono hsub⟩, hopen.mono hsub⟩

end Monotone

end Groundlane.DocumentCache
