import Groundlane.Cache.Guarantee

/-!
# Every call of the document cache keeps the guarantee

One lemma for each function of the repository, in the order in which they call each other; the
result is `verified`. What a call has read and done is in the history and stays there, so most
functions are safe whatever all calls do (`CacheSafe`). Only the part of a commit that writes the
core also relies on what its own call has not done yet (`CommitSafe`).
-/

namespace Groundlane.DocumentCache

open Fenced Interleaving

variable {D B : Type} [CacheData D B] [ByteString B]
  {repository : DurableDocumentCacheRepository B} {i : Nat} {world : CacheWorld D B}

/-- What all calls may do. -/
abbrev Grows (repository : DurableDocumentCacheRepository B) :
    CacheWorld D B → CacheWorld D B → Prop :=
  Evolves repository.system (Guarantee repository)

/-- What the other calls may do meanwhile. -/
abbrev Meanwhile (repository : DurableDocumentCacheRepository B) (i : Nat) :
    CacheWorld D B → CacheWorld D B → Prop :=
  Rely repository.system (Guarantee repository) i

/-- The program keeps the guarantee as a part of call `i`, and `Q` holds of what it returns,
whatever all calls do between its operations. -/
abbrev CacheSafe {α : Type} (repository : DurableDocumentCacheRepository B) (i : Nat)
    (Q : α → CacheWorld D B → Prop) (program : CacheIo D B α) (world : CacheWorld D B) : Prop :=
  Safe repository.system (Guarantee repository) (Grows repository) i (Returning Q) program world

/-- The same, whatever the other calls do between its operations. -/
abbrev CommitSafe {α : Type} (repository : DurableDocumentCacheRepository B) (i : Nat)
    (Q : α → CacheWorld D B → Prop) (program : CacheIo D B α) (world : CacheWorld D B) : Prop :=
  Safe repository.system (Guarantee repository) (Meanwhile repository i) i (Returning Q) program
    world

theorem grows_grows (world now : CacheWorld D B) (h : Grows repository world now) :
    Grows repository world now :=
  h

theorem meanwhile_grows (world now : CacheWorld D B) (h : Meanwhile repository i world now) :
    Grows repository world now :=
  h.evolves

variable {key : String} {α : Type} {program : CacheIo D B α} {Q : α → CacheWorld D B → Prop}
  {now : CacheWorld D B} (attempts : Nat) (nowMs : Int)
  {record : Option (Record String (CacheValue D))}

/-- The history grows. -/
theorem Grows.subset (h : Evolves repository.system (Guarantee repository) world now) :
    world.history ⊆ now.history :=
  fun entry hentry => (persistent_mem_history entry).evolves h hentry

theorem CacheSafe.meanwhile (h : CacheSafe repository i Q program world) :
    CommitSafe repository i Q program world :=
  Safe.anti meanwhile_grows h

/-- The rule of sequence, at the types of the repository. -/
theorem CacheSafe.andThen {α β : Type} {middle : α → CacheWorld D B → Prop}
    {Q : β → CacheWorld D B → Prop} {program : CacheIo D B α} {rest : α → CacheIo D B β}
    (h : CacheSafe repository i middle program world)
    (hrest : ∀ value now, world.history ⊆ now.history → middle value now →
      CacheSafe repository i Q (rest value) now) :
    CacheSafe repository i Q (program.bind rest) world :=
  Safe.andThen grows_grows h fun value now hnow => hrest value now (Grows.subset hnow)

theorem CommitSafe.andThen {α β : Type} {middle : α → CacheWorld D B → Prop}
    {Q : β → CacheWorld D B → Prop} {program : CacheIo D B α} {rest : α → CacheIo D B β}
    (h : CommitSafe repository i middle program world)
    (hrest : ∀ value now, world.history ⊆ now.history → middle value now →
      CommitSafe repository i Q (rest value) now) :
    CommitSafe repository i Q (program.bind rest) world :=
  Safe.andThen meanwhile_grows h fun value now hnow => hrest value now (Grows.subset hnow)

/-- An operation that the guarantee allows is in the history after it. -/
theorem CacheSafe.did {op : Op (CacheValue D) B Request} {program : CacheIo D B (op.Res (Answer D))}
    (h : CacheSafe repository i
      (Performed repository.system (Guarantee repository) (Grows repository) i world op) program
      world) :
    CacheSafe repository i (fun answer now => (i, .effect op answer) ∈ now.history) program world :=
  h.mono fun _ _ hpost value hvalue => by
    obtain ⟨_, -, hstep, -⟩ := hpost value hvalue
    exact hstep.mem_history.2 (.inl rfl)

/-- A postcondition may be weakened. -/
theorem CacheSafe.weaken {Q Q' : α → CacheWorld D B → Prop}
    (h : CacheSafe repository i Q program world) (hQ : ∀ value now, Q value now → Q' value now) :
    CacheSafe repository i Q' program world :=
  h.mono fun _ now hpost value hvalue => hQ value now (hpost value hvalue)

/-! ## The ports -/

theorem get_safe (key : String) :
    CacheSafe repository i (fun answer now => (i, .effect (.get key) answer) ∈ now.history)
      (get key) world :=
  CacheSafe.did (Safe.get fun _ _ => trivial)

theorem createBinding_safe (hkey : IsBindingKey key) (binding : DurableSourceBinding) (nowMs : Int)
    (expiresAt : Option Int) : CacheSafe repository i (fun _ _ => True)
      (createIfAbsent key (CacheValue.binding binding) nowMs expiresAt) world :=
  Safe.mono (fun _ _ _ _ _ => trivial) (Safe.createIfAbsent fun _ _ _ _ => hkey)

theorem swapBinding_safe (hkey : IsBindingKey key) (revision : Nat) (binding : DurableSourceBinding)
    (nowMs : Int) (expiresAt : Option Int) : CacheSafe repository i (fun _ _ => True)
      (compareAndSwap key revision (CacheValue.binding binding) nowMs expiresAt) world :=
  Safe.mono (fun _ _ _ _ _ => trivial) (Safe.compareAndSwap fun _ _ _ _ => hkey)

/-! ## Decoders -/

theorem decodeCore_ok {core : DurableCacheCore D} (h : decodeCore record = .ok (some core)) :
    ∃ found, record = some found ∧ found.value = .core core := by
  cases record with
  | none => cases h
  | some found =>
    refine ⟨found, rfl, ?_⟩
    unfold decodeCore at h
    dsimp only at h
    split at h
    · rename_i stored hstored
      rw [hstored, Option.some.inj (Except.ok.inj h)]
    all_goals cases h

theorem decodeSourceIndex_ok {index : DurableSourceBindingIndex}
    (h : decodeSourceIndex record = .ok (some index)) :
    ∃ found, record = some found ∧ found.value = .sourceIndex index ∧
      ∀ key ∈ index.bindingKeys, IsBindingKey key := by
  cases record with
  | none => cases h
  | some found =>
    refine ⟨found, rfl, ?_⟩
    unfold decodeSourceIndex at h
    dsimp only at h
    split at h
    · rename_i stored hstored
      split at h
      · cases h
      · rename_i hvalid
        obtain rfl := Option.some.inj (Except.ok.inj h)
        refine ⟨hstored, fun key hkey => ?_⟩
        simp only [not_or, Bool.not_eq_false, List.all_eq_true] at hvalid
        obtain ⟨digest, hdigest⟩ := List.isPrefixOf_iff_prefix.1 (hvalid.2 key hkey)
        refine ⟨String.ofList digest, String.toList_inj.1 ?_⟩
        rw [String.toList_append, String.toList_ofList, hdigest]
    all_goals cases h

omit [ByteString B] in
theorem isBindingKey_binding (keyString ownershipScope sourceIdentity : String) :
    IsBindingKey (bindingRecordKey repository.sha256 keyString ownershipScope sourceIdentity) :=
  ⟨_, rfl⟩

/-! ## Payloads -/

theorem discardPayload_safe (blobKey ownerId : String) :
    CacheSafe repository i (fun _ _ => True) (discardPayload (D := D) repository blobKey ownerId)
      world := by
  unfold discardPayload
  split
  · exact Safe.done trivial
  · exact CacheSafe.andThen (Safe.deleteIfOwner fun _ _ _ => trivial) fun _ _ _ _ =>
      Safe.done trivial

theorem deleteUnusedPayload_safe (candidate : Option (DurableCacheCore D))
    (winner : DurableCacheCore D) :
    CacheSafe repository i (fun _ _ => True) (deleteUnusedPayload repository candidate winner)
      world := by
  unfold deleteUnusedPayload
  split
  · exact Safe.done trivial
  · split
    · exact Safe.done trivial
    · split
      · exact (discardPayload_safe _ _).andThen fun _ _ _ _ => Safe.done trivial
      · exact Safe.done trivial

/-- The data that is loaded is that of the core. -/
theorem loadCoreData_safe (core : DurableCacheCore D) :
    CacheSafe repository i (fun data now => Loaded i core data now.history)
      (loadCoreData repository core) world := by
  unfold loadCoreData
  cases hpayload : core.payload with
  | data found => exact Safe.done (by simp [Loaded, hpayload])
  | payloadBlob blobKey digest byteSize =>
    dsimp only
    split
    · exact Safe.raise
    · refine CacheSafe.andThen (Safe.getBlob grows_grows fun _ _ _ => trivial) ?_
      rintro bytes now - ⟨before, -, hstep, -⟩
      cases bytes with
      | none => exact Safe.raise
      | some bytes =>
        dsimp only
        split
        · exact Safe.raise
        · refine Safe.ofExcept fun data hdata => ?_
          simp only [Loaded, hpayload]
          exact ⟨_, _, bytes, hstep.mem_history.2 (.inl rfl), hdata⟩

/-! ## Source indexes and bindings -/

theorem ensureSourceIndexFrom_safe (bindingKey : String) (identity : DocumentCacheIdentity)
    (expiresAt : Int) (attempts : Nat) : ∀ world : CacheWorld D B,
      CacheSafe repository i (fun ensured now => ensured = true →
          SawOpen i (sourceIndexRecordKey repository.sha256 identity.ownershipScope
            identity.sourceIdentity) now.history)
        (ensureSourceIndexFrom (sourceIndexRecordKey repository.sha256 identity.ownershipScope
          identity.sourceIdentity) bindingKey identity expiresAt attempts) world := by
  induction attempts with
  | zero => exact fun _ => Safe.raise
  | succ attempts ih =>
    intro world
    refine (get_safe _).andThen fun current now _ hread => ?_
    cases current with
    | none =>
      refine (CacheSafe.did (Safe.createIfAbsent fun _ _ _ _ => ?_)).andThen
        fun created later _ hcreated => ?_
      · exact ⟨rfl, rfl⟩
      · cases created with
        | created record => exact Safe.done fun _ => .inr ⟨_, _, _, record, hcreated⟩
        | existing record => exact ih later
    | some current =>
      refine Safe.check fun decoded hdecoded => ?_
      cases decoded with
      | none => exact Safe.raise
      | some index =>
        obtain ⟨_, hfound, hvalue, -⟩ := decodeSourceIndex_ok hdecoded
        cases hfound
        dsimp -zeta only
        split
        · exact Safe.raise
        · rename_i hsource
          rw [not_or, not_not, not_not] at hsource
          split
          · exact Safe.done (by simp)
          · rename_i hopen
            rw [Bool.not_eq_true] at hopen
            have hreadOpen : ReadOpen i (sourceIndexRecordKey repository.sha256
                identity.ownershipScope identity.sourceIdentity) current.revision
                now.history := ⟨current, index, hread, hvalue, hopen, rfl⟩
            extract_lets known bindingKeys nextExpiry
            split
            · exact Safe.raise
            · split
              · exact Safe.done fun _ => hreadOpen.sawOpen
              · refine (CacheSafe.did (Safe.compareAndSwap fun later _ hlater _ => ?_)).andThen
                  fun updated later hlater _ => ?_
                · exact ⟨by rw [hsource.1, hsource.2], .inr (hreadOpen.mono (Grows.subset hlater))⟩
                · cases updated with
                  | updated record => exact Safe.done fun _ => hreadOpen.sawOpen.mono hlater
                  | _ => exact ih later

/-- If it returns `true`, the source index was open. -/
theorem ensureSourceIndex_safe (bindingKey : String) (identity : DocumentCacheIdentity)
    (expiresAt : Int) :
    CacheSafe repository i (fun ensured now => ensured = true →
        SawOpen i (sourceIndexRecordKey repository.sha256 identity.ownershipScope
          identity.sourceIdentity) now.history)
      (ensureSourceIndex repository (sourceIndexRecordKey repository.sha256
        identity.ownershipScope identity.sourceIdentity) bindingKey identity expiresAt) world :=
  ensureSourceIndexFrom_safe bindingKey identity expiresAt _ world

theorem upsertRecordFrom_safe (hkey : IsBindingKey key) (binding : DurableSourceBinding)
    (nowMs expiresAt : Int) (attempts : Nat) :
    ∀ world : CacheWorld D B, CacheSafe repository i (fun _ _ => True)
      (upsertRecordFrom key binding nowMs expiresAt attempts) world := by
  induction attempts with
  | zero => exact fun _ => Safe.raise
  | succ attempts ih =>
    intro world
    refine (get_safe key).andThen fun current now _ _ => ?_
    cases current with
    | none =>
      refine (createBinding_safe hkey binding nowMs _).andThen fun created later _ _ => ?_
      cases created with
      | created record => exact Safe.done trivial
      | existing record => exact ih later
    | some current =>
      refine (swapBinding_safe hkey _ binding nowMs _).andThen fun updated later _ _ => ?_
      cases updated with
      | updated record => exact Safe.done trivial
      | _ => exact ih later

theorem upsertRecord_safe (hkey : IsBindingKey key) (binding : DurableSourceBinding)
    (nowMs expiresAt : Int) :
    CacheSafe repository i (fun _ _ => True) (upsertRecord repository key binding nowMs expiresAt)
      world :=
  upsertRecordFrom_safe hkey binding nowMs expiresAt _ world

theorem upsertRecordFenced_safe (hkey : IsBindingKey key) (binding : DurableSourceBinding)
    (nowMs : Int) (expectedRevision : Option Nat) : CacheSafe repository i (fun _ _ => True)
      (upsertRecordFenced key binding nowMs expectedRevision) world := by
  cases expectedRevision with
  | none =>
    refine (createBinding_safe hkey binding nowMs _).andThen fun created _ _ _ => ?_
    cases created with
    | created record => exact Safe.done trivial
    | existing record => exact Safe.ofExcept fun _ _ => trivial
  | some expectedRevision =>
    refine (swapBinding_safe hkey _ binding nowMs _).andThen fun updated _ _ _ => ?_
    cases updated with
    | updated record => exact Safe.done trivial
    | missing => exact Safe.done trivial
    | conflict record => exact Safe.ofExcept fun _ _ => trivial

theorem revokeBindingRecordFrom_safe (hkey : IsBindingKey key) (nowMs : Int) (attempts : Nat) :
    ∀ world : CacheWorld D B, CacheSafe repository i (fun _ _ => True)
      (revokeBindingRecordFrom key nowMs attempts) world := by
  induction attempts with
  | zero => exact fun _ => Safe.raise
  | succ attempts ih =>
    intro world
    refine (get_safe key).andThen fun record now _ _ => ?_
    cases record with
    | none => exact Safe.done trivial
    | some record =>
      refine Safe.check fun decoded _ => ?_
      cases decoded with
      | none => exact Safe.done trivial
      | some binding =>
        dsimp only
        split
        · exact Safe.done trivial
        · refine (swapBinding_safe hkey _ _ nowMs _).andThen fun result later _ _ => ?_
          cases result with
          | updated record => exact Safe.done trivial
          | missing => exact Safe.done trivial
          | conflict record => exact ih later

theorem revokeBindingRecord_safe (hkey : IsBindingKey key) (nowMs : Int) :
    CacheSafe repository i (fun _ _ => True) (revokeBindingRecord repository key nowMs) world :=
  revokeBindingRecordFrom_safe hkey nowMs _ world

/-! ## Lookup -/

/-- A hit of the lookup is one that the guarantee allows. -/
def Answers (repository : DurableDocumentCacheRepository B) (i : Nat)
    (identity : DocumentCacheIdentity) (result : DocumentCacheLookupResult D)
    (now : CacheWorld D B) : Prop :=
  ∀ data hit, result = .hit data hit → HitAllowed repository i identity data now.history

omit [ByteString B] in
theorem answers_miss {identity : DocumentCacheIdentity} {miss : DocumentCacheLookupMiss} :
    Answers repository i identity (.miss miss) world := by
  rintro _ _ ⟨⟩

/-- Call `i` has read the core, whose key has the text of the identity's key. -/
def ReadCore (i : Nat) (identity : DocumentCacheIdentity) (core : DurableCacheCore D)
    (history : CacheHistory D B) : Prop :=
  ∃ key record, (i, .effect (.get key) (some record)) ∈ history ∧ record.value = .core core ∧
    sameCacheKey core.key identity.key = .ok true

omit [CacheData D B] [ByteString B] in
theorem ReadCore.mono {history later : CacheHistory D B} (hsub : history ⊆ later)
    {identity : DocumentCacheIdentity} {core : DurableCacheCore D}
    (h : ReadCore i identity core history) : ReadCore i identity core later := by
  obtain ⟨key, record, hmem, hrest⟩ := h
  exact ⟨key, record, hsub hmem, hrest⟩

omit [ByteString B] in
theorem ReadCore.hit {history : CacheHistory D B} {identity : DocumentCacheIdentity}
    {core : DurableCacheCore D} {data : D} (h : ReadCore i identity core history)
    (hloaded : Loaded i core data history)
    (hopen : SawOpen i (sourceIndexRecordKey repository.sha256 identity.ownershipScope
      identity.sourceIdentity) history) :
    HitAllowed repository i identity data history := by
  obtain ⟨key, record, hmem, hvalue, hkey⟩ := h
  exact ⟨⟨key, record, core, hmem, hvalue, hkey, hloaded⟩, hopen⟩

variable {identity : DocumentCacheIdentity}

theorem serve_safe {core : DurableCacheCore D} (hcore : ReadCore i identity core world.history)
    (hopen : SawOpen i (sourceIndexRecordKey repository.sha256 identity.ownershipScope
      identity.sourceIdentity) world.history) (nowMs : Int) :
    CacheSafe repository i (Answers repository i identity) (serve repository core nowMs) world := by
  refine (loadCoreData_safe core).andThen fun data now hnow hloaded => ?_
  refine Safe.check fun hit _ => Safe.done ?_
  rintro _ _ ⟨⟩
  exact (hcore.mono hnow).hit hloaded (hopen.mono hnow)

theorem rebind_safe {core : DurableCacheCore D} (hcore : ReadCore i identity core world.history)
    (keyString : String) (ttlSeconds : Int) :
    CacheSafe repository i (Answers repository i identity)
      (rebind repository identity (cacheKeys repository identity keyString) core ttlSeconds)
      world := by
  refine (loadCoreData_safe core).andThen fun data first hfirst hloaded => ?_
  refine (ensureSourceIndex_safe _ identity _).andThen fun ensured second hsecond hopen => ?_
  split
  · exact Safe.done answers_miss
  · rename_i hensured
    rw [Bool.not_eq_false] at hensured
    refine (upsertRecord_safe (isBindingKey_binding ..) _ _ _).andThen fun _ third hthird _ => ?_
    refine Safe.check fun hit _ => Safe.done ?_
    rintro _ _ ⟨⟩
    have hlater := List.Subset.trans hsecond hthird
    exact ((hcore.mono hfirst).mono hlater).hit (hloaded.mono hlater) ((hopen hensured).mono hthird)

theorem readRecords_safe (keys : CacheKeys) :
    CacheSafe repository i (fun records now =>
        (i, .effect (.get keys.core) records.1) ∈ now.history ∧
        (i, .effect (.get keys.sourceIndex) records.2.2) ∈ now.history)
      (readRecords keys) world := by
  refine CacheSafe.weaken (Safe.together (fun _ _ => trivial) (get_safe keys.core)
    (Safe.together (fun _ _ => trivial) (get_safe keys.binding) (get_safe keys.sourceIndex))) ?_
  rintro records now ⟨⟨first, hfirst, hcore⟩, second, hsecond, -, third, hthird, hindex⟩
  exact ⟨Grows.subset hfirst hcore, Grows.subset hsecond (Grows.subset hthird hindex)⟩

theorem readCache_safe (effectiveConfig : CacheConfig) (keyString : String) :
    CacheSafe repository i (Answers repository i identity)
      (readCache repository effectiveConfig identity (cacheKeys repository identity keyString))
      world := by
  refine (readRecords_safe _).andThen fun records now _ hread => ?_
  obtain ⟨hreadCore, hreadIndex⟩ := hread
  refine Safe.check fun core hcore => Safe.check fun binding hbinding =>
    Safe.check fun sourceIndex hindex => ?_
  have hsame : ∀ core', core = some core' → sameCacheKey core'.key identity.key = .ok true →
      ReadCore i identity core' now.history := by
    rintro core' rfl hsame
    obtain ⟨record, hrecord, hvalue⟩ := decodeCore_ok hcore
    exact ⟨_, record, hrecord ▸ hreadCore, hvalue, hsame⟩
  split
  · rename_i core' found index
    split
    · rename_i hbound
      refine Safe.check fun same hsameKey => ?_
      split
      · rename_i htrue
        obtain ⟨record, hrecord, hvalue, -⟩ := decodeSourceIndex_ok hindex
        have hopen : index.revoked = false := by
          simp only [isBound, Bool.and_eq_true, Bool.not_eq_true'] at hbound
          tauto
        exact serve_safe (hsame core' rfl (htrue ▸ hsameKey))
          (.inl ⟨record, index, hrecord ▸ hreadIndex, hvalue, hopen⟩) _
      · exact Safe.done answers_miss
    · exact Safe.done answers_miss
  · rename_i core'
    split
    · refine Safe.check fun same hsameKey => ?_
      extract_lets ttlSeconds
      split
      · rename_i htrue
        exact rebind_safe (hsame core' rfl (htrue.1 ▸ hsameKey)) keyString _
      · exact Safe.done answers_miss
    · exact Safe.done answers_miss
  · exact Safe.done answers_miss

theorem lookup_safe (config : CacheConfig) :
    CacheSafe repository i (Answers repository i identity) (lookup repository config identity)
      world := by
  refine Safe.check fun _ _ => ?_
  extract_lets effectiveConfig resolved
  split
  · split
    · exact Safe.done answers_miss
    · exact Safe.done answers_miss
  · exact Safe.done answers_miss
  · refine Safe.check fun keyString _ => ?_
    refine CacheSafe.andThen (Safe.caught (readCache_safe effectiveConfig keyString))
      fun outcome now _ houtcome => ?_
    cases outcome with
    | ok result => exact Safe.done (houtcome result rfl)
    | error error => exact Safe.done answers_miss

/-! ## Writing the core -/

/-- The operations that write a core or delete a payload. -/
def changesPayload : Op (CacheValue D) B Request → Bool
  | .createIfAbsent _ (.core _) _ _ => true
  | .compareAndSwap _ _ (.core _) _ _ => true
  | .deleteIfOwner .. => true
  | _ => false

omit [CacheData D B] [ByteString B] in
theorem settles_of_changesPayload (op : Op (CacheValue D) B Request) (answer : op.Res (Answer D))
    (h : changesPayload op = false) : settles (.effect op answer) = false := by
  cases op with
  | createIfAbsent key value nowMs expiresAt => cases value <;> first | rfl | cases h
  | compareAndSwap key revision value nowMs expiresAt => cases value <;> first | rfl | cases h
  | deleteIfOwner blobKey ownerId => cases h
  | _ => rfl

/-- After an operation that settles nothing a call is as unsettled as before. -/
theorem Unsettled.performed {op : Op (CacheValue D) B Request} {answer : op.Res (Answer D)}
    (h : Unsettled i world.history)
    (hperformed : Performed repository.system (Guarantee repository) (Meanwhile repository i) i
      world op answer now) (hsettles : settles (.effect op answer : CacheEvent D B) = false) :
    Unsettled i now.history := by
  obtain ⟨_, hrely, hstep, -⟩ := hperformed
  intro event hevent
  rcases hstep.mem_history.1 hevent with heq | hevent
  · rw [(Prod.mk.inj heq).2]
    exact hsettles
  · exact h event ((hrely.own_history event).1 hevent)

/-- What the other calls do settles nothing of call `i`. -/
theorem Unsettled.meanwhile (h : Unsettled i world.history)
    (hnow : Rely repository.system (Guarantee repository) i world now) : Unsettled i now.history :=
  fun event hevent => h event ((hnow.own_history event).1 hevent)

/-- A program that neither writes a core nor deletes a payload settles nothing. -/
theorem CommitSafe.unsettled (h : CommitSafe repository i Q program world)
    (hprogram : Program.AtMost changesPayload 0 program) (hworld : Unsettled i world.history) :
    CommitSafe repository i (fun value now => Q value now ∧ Unsettled i now.history) program
      world :=
  (Safe.own (fun _ _ hnow event => (hnow.own_history event).1) settles_of_changesPayload h hprogram
    hworld).mono fun _ _ hpost value hvalue => ⟨hpost.1 value hvalue, hpost.2⟩

/-- The stored payload refers to the bytes of `data`, which call `i` has in place. -/
def PayloadStored (repository : DurableDocumentCacheRepository B) (i : Nat) (ownerId : String)
    (data : D) (stored : Option StoredPayload) (history : CacheHistory D B) : Prop :=
  ∀ payload, stored = some payload →
    payload.digest = payloadDigest repository.sha256 (CacheData.encode data : B) ∧
      payload.byteSize = ByteString.byteLength (CacheData.encode data : B) ∧
      payload.cleanupKey = cleanupRecordKey repository.sha256 payload.blobKey ∧
      InPlace i payload.blobKey ownerId payload.digest (CacheData.encode data) history

theorem storePayload_safe (ownerId keyString coreKey : String) (nowMs : Int) (data : D) :
    CacheSafe repository i (fun stored now =>
        PayloadStored repository i ownerId data stored now.history)
      (storePayload repository ownerId keyString coreKey nowMs data) world := by
  unfold storePayload
  split
  · refine Safe.done ?_
    rintro _ ⟨⟩
  · extract_lets bytes digest blobKey cleanupKey
    split
    · exact Safe.raise
    · refine CacheSafe.andThen (Safe.createIfAbsent fun _ _ _ _ => ?_) fun cleanup now _ _ => ?_
      · exact rfl
      · refine (CacheSafe.did (Safe.putIfAbsent fun _ _ _ => trivial)).andThen
          fun answer later _ hput => ?_
        cases answer with
        | conflict stat => exact Safe.raise
        | created stat =>
          refine Safe.done ?_
          rintro _ ⟨⟩
          exact ⟨rfl, rfl, rfl, _, hput, by simp⟩
        | «exists» stat =>
          refine Safe.done ?_
          rintro _ ⟨⟩
          exact ⟨rfl, rfl, rfl, _, hput, by simp⟩

theorem storePayload_atMost (ownerId keyString coreKey : String) (nowMs : Int) (data : D) :
    Program.AtMost changesPayload 0
      (storePayload repository ownerId keyString coreKey nowMs data) := by
  unfold storePayload
  split
  · exact Program.atMost_done ..
  · extract_lets bytes digest blobKey cleanupKey
    split
    · exact Program.atMost_raise ..
    · refine (atMost_createIfAbsent rfl).andThen fun cleanup => ?_
      refine (atMost_putIfAbsent rfl).andThen fun answer => ?_
      cases answer with
      | conflict stat => exact Program.atMost_raise ..
      | _ => exact Program.atMost_done ..

section Core

variable {core : DurableCacheCore D}

theorem replaceRecordFrom_safe (nowMs expiresAt : Int) (attempts : Nat) :
    ∀ world : CacheWorld D B, CoreOf repository i core world.history → Unsettled i world.history →
      CommitSafe repository i (fun _ _ => True)
        (replaceRecordFrom repository (coreRecordKey repository.sha256 core.keyString) core nowMs
          expiresAt attempts) world := by
  induction attempts with
  | zero => exact fun _ _ _ => Safe.raise
  | succ attempts ih =>
    intro world hcore hunsettled
    refine CommitSafe.andThen (Safe.get fun _ _ => trivial) fun current now hnow hget => ?_
    have hcore := hcore.mono hnow
    have hunsettled := hunsettled.performed hget rfl
    cases current with
    | none =>
      refine CommitSafe.andThen (Safe.createIfAbsent fun later _ hlater _ => ?_)
        fun created later hlater hcreated => ?_
      · exact ⟨rfl, hcore.mono (Grows.subset hlater.evolves), hunsettled.meanwhile hlater⟩
      · cases created with
        | created record =>
          refine Safe.check fun decoded _ => ?_
          cases decoded with
          | none => exact Safe.raise
          | some decoded => exact Safe.done trivial
        | existing record => exact ih later (hcore.mono hlater) (hunsettled.performed hcreated rfl)
    | some current =>
      refine CommitSafe.andThen (Safe.compareAndSwap fun later _ hlater _ => ?_)
        fun updated later hlater hupdated => ?_
      · exact ⟨rfl, hcore.mono (Grows.subset hlater.evolves), hunsettled.meanwhile hlater⟩
      · cases updated with
        | updated record =>
          refine Safe.check fun decoded _ => ?_
          cases decoded with
          | none => exact Safe.raise
          | some decoded =>
            refine Safe.check fun replaced _ => ?_
            exact (deleteUnusedPayload_safe replaced decoded).meanwhile.andThen
              fun _ _ _ _ => Safe.done trivial
        | conflict record => exact ih later (hcore.mono hlater) (hunsettled.performed hupdated rfl)
        | missing => exact ih later (hcore.mono hlater) (hunsettled.performed hupdated rfl)

theorem replaceRecord_safe (hcore : CoreOf repository i core world.history)
    (hunsettled : Unsettled i world.history) (nowMs expiresAt : Int) :
    CommitSafe repository i (fun _ _ => True)
      (replaceRecord repository (coreRecordKey repository.sha256 core.keyString) core nowMs
        expiresAt) world :=
  replaceRecordFrom_safe nowMs expiresAt _ world hcore hunsettled

theorem createCoreIfMissing_safe (hcore : CoreOf repository i core world.history)
    (hunsettled : Unsettled i world.history) (nowMs expiresAt : Int) :
    CommitSafe repository i (fun _ _ => True)
      (createCoreIfMissing repository (coreRecordKey repository.sha256 core.keyString) core nowMs
        expiresAt) world := by
  refine CommitSafe.andThen (Safe.createIfAbsent fun later _ hlater _ => ?_)
    fun result now hnow hresult => ?_
  · exact ⟨rfl, hcore.mono (Grows.subset hlater.evolves), hunsettled.meanwhile hlater⟩
  · cases result with
    | created record => exact Safe.done trivial
    | existing record =>
      refine Safe.check fun existing _ => ?_
      cases existing with
      | none => exact Safe.raise
      | some existing =>
        dsimp only
        split
        · exact (deleteUnusedPayload_safe _ _).meanwhile.andThen fun _ _ _ _ =>
            Safe.done trivial
        · exact (replaceRecord_safe (hcore.mono hnow) (hunsettled.performed hresult rfl) nowMs
            expiresAt).andThen fun _ _ _ _ => Safe.done trivial

end Core

/-! ## Commit -/

omit [CacheData D B] [ByteString B] in
/-- A valid request is for its own ownership scope. -/
theorem validateIdentity_ok {value : Unit} (h : validateIdentity identity = .ok value) :
    identity.ownershipScope = identity.key.ownershipScope := by
  unfold validateIdentity at h
  by_contra hne
  simp only [validateOwnershipScope, hne, ne_eq, not_false_eq_true, if_true, bind, Except.bind,
    throw, throwThe, MonadExceptOf.throw] at h
  repeat' split at h
  all_goals cases h

theorem commitBinding_safe (keyString : String) (decision : DocumentCacheLookupMiss)
    (core storedCore : DurableCacheCore D) (bindingExpiry : Int) :
    CacheSafe repository i (fun _ _ => True)
      (commitBinding repository identity (cacheKeys repository identity keyString) decision core
        storedCore bindingExpiry) world := by
  have hkey : IsBindingKey (cacheKeys repository identity keyString).binding :=
    isBindingKey_binding ..
  refine (ensureSourceIndex_safe _ identity _).andThen fun ensured first _ _ => ?_
  split
  · exact (deleteUnusedPayload_safe _ _).andThen fun _ _ _ _ => Safe.done trivial
  · extract_lets binding
    refine CacheSafe.andThen (?_ : CacheSafe repository i (fun _ _ => True) _ _)
      fun bindingStored second _ _ => ?_
    · split
      · exact (upsertRecord_safe hkey _ _ _).andThen fun _ _ _ _ => Safe.done trivial
      · exact upsertRecordFenced_safe hkey _ _ _
    · split
      · exact Safe.done trivial
      · refine (get_safe _).andThen fun record third _ _ => Safe.check fun sourceIndex _ => ?_
        split
        · exact (revokeBindingRecord_safe hkey _).andThen fun _ _ _ _ => Safe.done trivial
        · exact Safe.done trivial

section Execution

variable {execution : DocumentCacheExecution D}

/-- The core of a commit is one that the call may write. -/
theorem commitCore_coreOf (hcommits : Commits i identity execution world.history)
    (hscope : identity.ownershipScope = identity.key.ownershipScope)
    {storedPayload : Option StoredPayload}
    (hpayload : PayloadStored repository i identity.ownershipScope execution.data storedPayload
      world.history) (keyString : String) (expiresAt : Int) :
    CoreOf repository i (commitCore repository identity keyString execution storedPayload expiresAt)
      world.history := by
  refine ⟨identity, execution, hcommits, rfl, ?_⟩
  cases storedPayload with
  | none => exact rfl
  | some payload =>
    obtain ⟨hdigest, hsize, -, hplace⟩ := hpayload payload rfl
    exact ⟨hdigest, hsize, hscope ▸ hplace⟩

theorem writeCache_safe (hcommits : Commits i identity execution world.history)
    (hunsettled : Unsettled i world.history)
    (hscope : identity.ownershipScope = identity.key.ownershipScope) (keyString : String)
    (decision : DocumentCacheLookupMiss) (expiresAt : Int) :
    CommitSafe repository i (fun _ _ => True)
      (writeCache repository identity (cacheKeys repository identity keyString) execution decision
        expiresAt) world := by
  refine CommitSafe.andThen ((storePayload_safe _ _ _ _ execution.data).meanwhile.unsettled
    (storePayload_atMost ..) hunsettled) fun storedPayload first hfirst hstored => ?_
  obtain ⟨hpayload, hunsettled⟩ := hstored
  have hcore := commitCore_coreOf (hcommits.mono hfirst) hscope hpayload keyString expiresAt
  extract_lets core
  refine CommitSafe.andThen (?_ : CommitSafe repository i (fun _ _ => True) _ _)
    fun storedCore second hsecond _ => ?_
  · split
    · exact replaceRecord_safe hcore hunsettled identity.nowMs expiresAt
    · exact createCoreIfMissing_safe hcore hunsettled identity.nowMs expiresAt
  · extract_lets bindingExpiry
    refine (commitBinding_safe keyString decision core storedCore bindingExpiry).meanwhile.andThen
      fun stored third hthird _ => ?_
    split
    · exact Safe.done trivial
    · cases storedPayload with
      | none => exact Safe.done trivial
      | some payload =>
        obtain ⟨-, -, hcleanup, -⟩ := hpayload payload rfl
        refine CommitSafe.andThen (Safe.deleteIfRevision fun _ _ _ => ?_) fun _ _ _ _ =>
          Safe.done trivial
        exact .inr ⟨payload.blobKey, hcleanup⟩

theorem commit_safe (hcommits : Commits i identity execution world.history)
    (hunsettled : Unsettled i world.history) (config : CacheConfig)
    (decision : DocumentCacheLookupMiss) :
    CommitSafe repository i (fun _ _ => True)
      (commit repository config identity execution decision) world := by
  refine Safe.check fun _ hvalid => Safe.check fun _ _ => ?_
  split
  · exact Safe.done trivial
  · extract_lets ttlSeconds
    split
    · exact Safe.done trivial
    · refine Safe.check fun keyString _ => ?_
      refine CommitSafe.andThen (Safe.caught (writeCache_safe hcommits hunsettled
        (validateIdentity_ok hvalid) keyString decision _)) fun outcome _ _ _ => ?_
      cases outcome with
      | ok result => exact Safe.done trivial
      | error error => exact Safe.done trivial

end Execution

/-! ## Processing -/

theorem loadCoreData_atMost (core : DurableCacheCore D) :
    Program.AtMost changesPayload 0 (loadCoreData repository core) := by
  unfold loadCoreData
  split
  · exact Program.atMost_done ..
  · split
    · exact Program.atMost_raise ..
    · refine (atMost_getBlob rfl).andThen fun bytes => ?_
      cases bytes with
      | none => exact Program.atMost_raise ..
      | some bytes =>
        dsimp only
        split
        · exact Program.atMost_raise ..
        · exact Program.atMost_ofExcept ..

omit [ByteString B] in
theorem ensureSourceIndexFrom_atMost (key bindingKey : String) (identity : DocumentCacheIdentity)
    (expiresAt : Int) (attempts : Nat) : Program.AtMost changesPayload 0
      (ensureSourceIndexFrom key bindingKey identity expiresAt attempts : CacheIo D B Bool) := by
  induction attempts with
  | zero => exact Program.atMost_raise ..
  | succ attempts ih =>
    refine (atMost_get rfl).andThen fun current => ?_
    cases current with
    | none =>
      refine (atMost_createIfAbsent rfl).andThen fun created => ?_
      cases created with
      | created record => exact Program.atMost_done ..
      | existing record => exact ih
    | some current =>
      refine .check fun decoded => ?_
      cases decoded with
      | none => exact Program.atMost_raise ..
      | some index =>
        dsimp -zeta only
        split
        · exact Program.atMost_raise ..
        · split
          · exact Program.atMost_done ..
          · extract_lets known bindingKeys nextExpiry
            split
            · exact Program.atMost_raise ..
            · split
              · exact Program.atMost_done ..
              · refine (atMost_compareAndSwap rfl).andThen fun updated => ?_
                cases updated with
                | updated record => exact Program.atMost_done ..
                | _ => exact ih

omit [ByteString B] in
theorem upsertRecordFrom_atMost (key : String) (binding : DurableSourceBinding)
    (nowMs expiresAt : Int) (attempts : Nat) : Program.AtMost changesPayload 0
      (upsertRecordFrom key binding nowMs expiresAt attempts : CacheIo D B Unit) := by
  induction attempts with
  | zero => exact Program.atMost_raise ..
  | succ attempts ih =>
    refine (atMost_get rfl).andThen fun current => ?_
    cases current with
    | none =>
      refine (atMost_createIfAbsent rfl).andThen fun created => ?_
      cases created with
      | created record => exact Program.atMost_done ..
      | existing record => exact ih
    | some current =>
      refine (atMost_compareAndSwap rfl).andThen fun updated => ?_
      cases updated with
      | updated record => exact Program.atMost_done ..
      | _ => exact ih

theorem rebind_atMost (keys : CacheKeys) (core : DurableCacheCore D) (ttlSeconds : Int) :
    Program.AtMost changesPayload 0 (rebind repository identity keys core ttlSeconds) := by
  refine (loadCoreData_atMost core).andThen fun data => ?_
  refine (ensureSourceIndexFrom_atMost ..).andThen fun ensured => ?_
  split
  · exact Program.atMost_done ..
  · exact (upsertRecordFrom_atMost ..).andThen fun _ => .check fun _ => Program.atMost_done ..

theorem readCache_atMost (effectiveConfig : CacheConfig) (keys : CacheKeys) :
    Program.AtMost changesPayload 0
      (readCache repository effectiveConfig identity keys : CacheIo D B _) := by
  refine (Program.atMost_both rfl (atMost_get rfl) (Program.atMost_both rfl (atMost_get rfl)
    (atMost_get rfl))).andThen fun records => ?_
  refine .check fun core => .check fun binding => .check fun sourceIndex => ?_
  split
  · split
    · refine .check fun same => ?_
      split
      · exact (loadCoreData_atMost _).andThen fun _ => .check fun _ => Program.atMost_done ..
      · exact Program.atMost_done ..
    · exact Program.atMost_done ..
  · split
    · refine .check fun same => ?_
      extract_lets ttlSeconds
      split
      · exact rebind_atMost ..
      · exact Program.atMost_done ..
    · exact Program.atMost_done ..
  · exact Program.atMost_done ..

theorem lookup_atMost (config : CacheConfig) :
    Program.AtMost changesPayload 0 (lookup repository config identity : CacheIo D B _) := by
  refine .check fun _ => ?_
  extract_lets effectiveConfig resolved
  split
  · split
    · exact Program.atMost_done ..
    · exact Program.atMost_done ..
  · exact Program.atMost_done ..
  · refine .check fun keyString => (readCache_atMost ..).attempt.andThen fun outcome => ?_
    cases outcome with
    | ok result => exact Program.atMost_done ..
    | error error => exact Program.atMost_done ..

/-- The reply of a process is one that the guarantee allows. -/
theorem process_safe {config : CacheConfig}
    (hcall : (i, .invoke (.process config identity)) ∈ world.history)
    (hunsettled : Unsettled i world.history) :
    CommitSafe repository i (fun result now => ∀ data hit, result = .hit data hit →
        HitAllowed repository i identity data now.history)
      (process repository config identity) world := by
  refine CommitSafe.andThen ((lookup_safe config).meanwhile.unsettled (lookup_atMost config)
    hunsettled) fun result first hfirst hresult => ?_
  obtain ⟨hanswers, hunsettled⟩ := hresult
  cases result with
  | hit data hit =>
    refine Safe.done ?_
    rintro _ _ ⟨⟩
    exact hanswers data hit rfl
  | miss decision =>
    refine CommitSafe.andThen (Safe.ask fun _ _ _ => trivial) fun answer second hsecond hask => ?_
    refine Safe.check fun execution hexecution => ?_
    have hcommits : Commits i identity execution second.history := by
      obtain ⟨_, -, hstep, -⟩ := hask
      refine .inr ⟨config, hsecond (hfirst hcall), hstep.mem_history.2 (.inl ?_)⟩
      rw [← hexecution]
      rfl
    refine CommitSafe.andThen (commit_safe hcommits (hunsettled.performed hask rfl) config
      decision) fun committed _ _ _ => Safe.done ?_
    rintro _ _ ⟨⟩

/-! ## Revocation -/

/-- Once the index has been found or made revoked, its bindings can be revoked. -/
theorem revokeIndexFrom_safe (sourceIdentity ownershipScope : String) (nowMs : Int) (attempts : Nat) :
    ∀ world : CacheWorld D B,
      CacheSafe repository i (fun result now => ∀ index, result = some index →
          SawRevoked i (sourceIndexRecordKey repository.sha256 ownershipScope sourceIdentity)
            now.history ∧ ∀ key ∈ index.bindingKeys, IsBindingKey key)
        (revokeIndexFrom (sourceIndexRecordKey repository.sha256 ownershipScope sourceIdentity)
          sourceIdentity ownershipScope nowMs attempts) world := by
  induction attempts with
  | zero => exact fun _ => Safe.raise
  | succ attempts ih =>
    intro world
    refine (get_safe _).andThen fun record now _ hread => ?_
    cases record with
    | none =>
      refine Safe.done ?_
      rintro _ ⟨⟩
    | some record =>
      refine Safe.check fun decoded hdecoded => ?_
      cases decoded with
      | none =>
        refine Safe.done ?_
        rintro _ ⟨⟩
      | some index =>
        obtain ⟨_, hfound, hvalue, hkeys⟩ := decodeSourceIndex_ok hdecoded
        cases hfound
        dsimp -zeta only
        split
        · exact Safe.raise
        · rename_i hsource
          rw [not_or, not_not, not_not] at hsource
          split
          · rename_i hrevoked
            refine Safe.done ?_
            rintro _ ⟨⟩
            exact ⟨.inl ⟨record, index, hread, hvalue, hrevoked⟩, hkeys⟩
          · extract_lets expiresAt
            refine (CacheSafe.did (Safe.compareAndSwap fun _ _ _ _ => ?_)).andThen
              fun result later _ hswap => ?_
            · exact ⟨by rw [hsource.1, hsource.2], .inl rfl⟩
            · cases result with
              | updated record =>
                refine Safe.check fun revoked hrevoked => ?_
                cases revoked with
                | none => exact Safe.raise
                | some revoked =>
                  obtain ⟨_, _, -, hkeys⟩ := decodeSourceIndex_ok hrevoked
                  refine Safe.done ?_
                  rintro _ ⟨⟩
                  exact ⟨.inr ⟨_, _, _, _, record, hswap, rfl⟩, hkeys⟩
              | missing =>
                refine Safe.done ?_
                rintro _ ⟨⟩
              | conflict record => exact ih later

theorem revokeAllSourceBindings_safe (sourceIdentity ownershipScope : String) (nowMs : Int) :
    CacheSafe repository i (fun result now => result = .revoked →
        SawRevoked i (sourceIndexRecordKey repository.sha256 ownershipScope sourceIdentity)
          now.history)
      (revokeAllSourceBindings repository sourceIdentity ownershipScope nowMs) world := by
  unfold revokeAllSourceBindings
  split
  · exact Safe.raise
  · split
    · exact Safe.raise
    · refine (revokeIndexFrom_safe sourceIdentity ownershipScope nowMs _ world).andThen
        fun result now _ hresult => ?_
      cases result with
      | none => exact Safe.done (by simp)
      | some index =>
        obtain ⟨hrevoked, hkeys⟩ := hresult index rfl
        refine CacheSafe.andThen (Safe.all (fun _ _ => trivial) ?_) fun _ later hlater _ =>
          Safe.done fun _ => hrevoked.mono hlater
        rw [List.forall_mem_map]
        exact fun key hkey => (revokeBindingRecord_safe (hkeys key hkey) nowMs).weaken
          fun _ _ _ => trivial

theorem revokeSourceBinding_safe (key : ParsedPayloadCacheKey)
    (sourceIdentity ownershipScope : String) (nowMs : Int) :
    CacheSafe repository i (fun _ _ => True)
      (revokeSourceBinding repository key sourceIdentity ownershipScope nowMs) world := by
  refine Safe.check fun _ _ => ?_
  split
  · exact Safe.raise
  · split
    · exact Safe.raise
    · refine (revokeAllSourceBindings_safe sourceIdentity ownershipScope nowMs).andThen
        fun all now _ _ => ?_
      split
      · exact Safe.done trivial
      · exact Safe.check fun keyString _ => revokeBindingRecord_safe (isBindingKey_binding ..) nowMs

/-! ## Sweeping -/

theorem sweepPayload_safe (record : Record String (CacheValue D)) :
    CacheSafe repository i (fun _ _ => True) (sweepPayload repository record) world := by
  unfold sweepPayload
  split
  · refine (get_safe _).andThen fun found now _ _ => Safe.check fun core _ => ?_
    split
    · exact (discardPayload_safe _ _).andThen fun _ _ _ _ => Safe.done trivial
    · exact Safe.done trivial
  · split
    · split
      · exact Safe.done trivial
      · exact (discardPayload_safe _ _).andThen fun _ _ _ _ => Safe.done trivial
    · exact Safe.done trivial

theorem sweepRecords_safe (records : List (Record String (CacheValue D))) :
    ∀ (removed : Nat) (world : CacheWorld D B), Sweeps i world.history →
      CacheSafe repository i (fun _ _ => True) (sweepRecords repository records removed) world := by
  induction records with
  | nil => exact fun _ _ _ => Safe.done trivial
  | cons record rest ih =>
    intro removed world hsweeps
    refine (sweepPayload_safe record).andThen fun cleared first hfirst _ => ?_
    have hsweeps := hsweeps.mono hfirst
    split
    · exact ih removed first hsweeps
    · refine CacheSafe.andThen (Safe.deleteIfRevision fun _ _ hnow => ?_)
        fun outcome second hsecond _ => ih _ second (hsweeps.mono hsecond)
      exact .inl (hsweeps.mono (Grows.subset hnow))

theorem sweepExpiredPage_safe (hsweeps : Sweeps i world.history) (nowMs : Int)
    (cursor : Option String) (limit : Nat) :
    CacheSafe repository i (fun _ _ => True)
      (sweepExpiredPage repository nowMs cursor limit) world := by
  unfold sweepExpiredPage
  split
  · exact Safe.raise
  · refine CacheSafe.andThen (Safe.scanExpired fun _ _ _ => trivial) fun page first hfirst _ => ?_
    exact (sweepRecords_safe page.1 0 first (hsweeps.mono hfirst)).andThen
      fun _ _ _ _ => Safe.done trivial

/-! ## All calls -/

/-- A program that keeps the guarantee and returns what entitles its call to reply. -/
private theorem responds (h : CommitSafe repository i Q program world) (reply : α → Reply D)
    (hreply : ∀ value now later, Grows repository world now → Q value now →
      now.history ⊆ later.history → Grows repository world later →
      ReplyAllowed repository i (reply value) later.history) :
    Safe repository.system (Guarantee repository) (Meanwhile repository i) i
      (Responds repository.system (Guarantee repository) i)
      (program.bind fun value => .done (reply value)) world := by
  refine Safe.responds (Q := fun result now => ∃ value, result = reply value ∧
    Grows repository world now ∧ ∃ before, Q value before ∧ Grows repository world before ∧
      before.history ⊆ now.history)
    (Safe.andThen meanwhile_grows h fun value now hnow hvalue =>
      Safe.done ⟨value, rfl, hnow, now, hvalue, hnow, fun _ h => h⟩) ?_ fun _ _ => trivial
  rintro _ now ⟨value, rfl, hnow, before, hvalue, hbefore, hsub⟩ later hlater
  exact hreply value before later hbefore hvalue
    (List.Subset.trans hsub (Grows.subset hlater.evolves)) (hnow.trans hlater.evolves)

/-- The identity that a call looks up is the one it was made with. -/
theorem LooksUp.unique {call : Call D} {other : DocumentCacheIdentity} (hcalls : Calls i call world)
    (hcall : ∀ config identity', call = .lookup config identity' ∨ call = .process config identity' →
      identity' = identity) (hnow : Grows repository world now) (h : LooksUp i other now.history) :
    other = identity := by
  obtain ⟨-, honly⟩ := (persistent_calls i call).evolves hnow hcalls
  obtain ⟨config, hlookup | hprocess⟩ := h
  · exact hcall config other (.inl (honly _ hlookup).symm)
  · exact hcall config other (.inr (honly _ hprocess).symm)

/-- Every call of the document cache keeps the guarantee, whatever the other calls do
meanwhile. -/
theorem verified (repository : DurableDocumentCacheRepository B) :
    Verified (repository.system (D := D)) (Guarantee repository) fun _ => True where
  inv _ _ _ _ _ _ _ := trivial
  invoke _ _ _ _ := trivial
  main := by
    intro i call world _ hcalls honly
    have hunsettled : Unsettled i world.history := fun event hevent => by
      rw [honly event hevent]
      rfl
    cases call with
    | process config identity =>
      refine responds (process_safe hcalls.1 hunsettled) .processed
        fun value now later _ hvalue hsub hlater => ?_
      cases value with
      | hit data hit =>
        intro other hother
        obtain rfl : other = identity := LooksUp.unique hcalls (by simp) hlater hother
        exact (hvalue data hit rfl).mono hsub
      | committed result => trivial
    | lookup config identity =>
      refine responds (lookup_safe config).meanwhile .lookup
        fun value now later _ hvalue hsub hlater => ?_
      cases value with
      | hit data hit =>
        intro other hother
        obtain rfl : other = identity := LooksUp.unique hcalls (by simp) hlater hother
        exact (hvalue data hit rfl).mono hsub
      | miss miss => trivial
    | commit config identity execution decision =>
      exact responds (commit_safe (.inl ⟨config, decision, hcalls.1⟩) hunsettled config decision)
        .committed fun _ _ _ _ _ _ _ => trivial
    | revokeSourceBinding key sourceIdentity ownershipScope nowMs =>
      refine responds (revokeSourceBinding_safe key sourceIdentity ownershipScope nowMs).meanwhile
        .revocation fun value now later _ _ _ hlater => ?_
      cases value with
      | missing => trivial
      | revoked =>
        intro source scope nowMs' hcall
        cases ((persistent_calls i _).evolves hlater hcalls).2 _ hcall
    | revokeAllSourceBindings sourceIdentity ownershipScope nowMs =>
      refine responds
        (revokeAllSourceBindings_safe sourceIdentity ownershipScope nowMs).meanwhile .revocation
        fun value now later _ hvalue hsub hlater => ?_
      cases value with
      | missing => trivial
      | revoked =>
        intro source scope nowMs' hcall
        cases ((persistent_calls i _).evolves hlater hcalls).2 _ hcall
        exact (hvalue rfl).mono hsub
    | sweepExpiredPage nowMs cursor limit =>
      exact responds (sweepExpiredPage_safe ⟨_, _, _, hcalls.1⟩ nowMs cursor limit).meanwhile
        .swept fun _ _ _ _ _ _ _ => trivial

end Groundlane.DocumentCache
