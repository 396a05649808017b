import Groundlane.Cache.Verified
import Groundlane.Durable.Digest

/-!
# Whose document a lookup returns

The data of a hit was committed for the key of the lookup, provided that every core that a
lookup reads and takes for one of its own key is one (`hit_isolated`). The repository compares
keys by their texts, and the text of a key joins its fields with colons that the fields may
contain themselves, so a core may pass for one of another tenant (`hit_crosses`).
-/

namespace Groundlane.DocumentCache

open Fenced Interleaving

variable {D B : Type}

/-- No calls yet, and nothing stored. -/
def initial : Config (Call D) (Op (CacheValue D) B Request) (Op.Res (Answer D)) Fault (Reply D)
    (Disk (CacheValue D) B) :=
  Config.initial Disk.empty

/-- The data of a hit. -/
def Reply.hit? : Reply D → Option D
  | .lookup (.hit data _) => some data
  | .processed (.hit data _) => some data
  | _ => none

/-- Every hit returns data that was committed before under all fields of its key. -/
def Isolated (world : CacheWorld D B) : Prop :=
  ∀ after before i reply data identity,
    world.history = after ++ (i, .response (.ok reply)) :: before → reply.hit? = some data →
    LooksUp i identity world.history →
    ∃ j other execution, Commits j other execution before ∧ other.key = identity.key ∧
      execution.data = data

/-- What call `i` looks up. -/
def lookedUp (i : Nat) (history : CacheHistory D B) : List DocumentCacheIdentity :=
  history.filterMap fun
    | (j, .invoke (.lookup _ identity)) => if j = i then some identity else none
    | (j, .invoke (.process _ identity)) => if j = i then some identity else none
    | _ => none

/-- A stored core that a lookup takes for one of its own key is one. -/
def separates (i : Nat) (event : CacheEvent D B) (world : CacheWorld D B) : Bool :=
  match event with
  | .effect (.get key) _ =>
    match world.state.records.get key with
    | some ⟨_, .core core, _, _, _, _⟩ => (lookedUp i world.history).all fun identity =>
      match sameCacheKey core.key identity.key with
      | .ok true => decide (core.key = identity.key)
      | _ => true
    | _ => true
  | _ => true

variable {identity : DocumentCacheIdentity} {history : CacheHistory D B}
  {record : Record String (CacheValue D)} {core : DurableCacheCore D} {j : Nat} {key : String}
  {data : D}

theorem LooksUp.mem_lookedUp {i : Nat} (h : LooksUp i identity history) :
    identity ∈ lookedUp i history := by
  obtain ⟨_, hcall | hcall⟩ := h
  · exact List.mem_filterMap.2 ⟨_, hcall, by simp⟩
  · exact List.mem_filterMap.2 ⟨_, hcall, by simp⟩

variable [CacheData D B] [ByteString B] {repository : DurableDocumentCacheRepository B}

theorem ready (repository : DurableDocumentCacheRepository B) :
    Ready repository.system (Guarantee repository) (fun _ => True)
      (initial : Config (Call D) _ _ _ _ _) :=
  ready_initial trivial

/-! ## Steps -/

section Step

variable {i : Nat} {event : CacheEvent D B} {before after : CacheWorld D B}

/-- A call that has done something looks up what it looked up before. -/
theorem LooksUp.of_step {mine : CacheEvent D B}
    (hstep : repository.system.Step j event before after) (hmine : (i, mine) ∈ before.history)
    (h : LooksUp i identity after.history) : LooksUp i identity before.history := by
  obtain ⟨config, hcall⟩ := h
  exact ⟨config, hcall.imp (hstep.mem_of_invoke hmine) (hstep.mem_of_invoke hmine)⟩

/-- An event that does not make a call looks nothing up. -/
theorem LooksUp.of_still (hstep : repository.system.Step j event before after)
    (hstill : ∀ call, event ≠ .invoke call) (h : LooksUp i identity after.history) :
    LooksUp i identity before.history := by
  obtain ⟨config, hcall⟩ := h
  have hold : ∀ call, (i, .invoke call) ∈ after.history → (i, .invoke call) ∈ before.history :=
    fun call hcall => (hstep.mem_history.1 hcall).resolve_left fun heq =>
      hstill call (Prod.mk.inj heq).2.symm
  exact ⟨config, hcall.imp (hold _) (hold _)⟩

omit [ByteString B] in
/-- A call that returns a hit was allowed to. -/
theorem hitAllowed_of_reply {reply : Reply D} (h : ReplyAllowed repository i reply history)
    (hhit : reply.hit? = some data) (hlooksUp : LooksUp i identity history) :
    HitAllowed repository i identity data history := by
  cases reply with
  | lookup result =>
    cases result with
    | hit found hit =>
      cases hhit
      exact h identity hlooksUp
    | miss miss => cases hhit
  | processed result =>
    cases result with
    | hit found hit =>
      cases hhit
      exact h identity hlooksUp
    | committed result => cases hhit
  | committed result => cases hhit
  | revocation result => cases hhit
  | swept page => cases hhit

/-- A stored value was stored before or is one that the call may create or swap in. -/
theorem stored_cases (hstep : repository.system.Step i event before after)
    (hG : Guarantee repository i event before) (hget : after.state.records.get key = some record) :
    before.state.records.get key = some record ∨
      CreateAllowed repository i key record.value before.history ∨
      ∃ revision, SwapAllowed repository i key revision record.value before.history := by
  rcases Step.record_cases hstep key with
    hsame | ⟨_, _, _, rfl, -, hafter⟩ | ⟨_, _, _, _, rfl, -, hafter⟩ | ⟨_, -, -, hafter⟩
  · exact .inl (hsame.symm.trans hget)
  · obtain rfl := Option.some.inj (hafter.symm.trans hget)
    exact .inr (.inl hG)
  · obtain rfl := Option.some.inj (hafter.symm.trans hget)
    exact .inr (.inr ⟨_, hG⟩)
  · simp [hafter] at hget

/-- A stored core was stored before or is written by a call that commits it. -/
theorem stored_core_cases (hstep : repository.system.Step i event before after)
    (hG : Guarantee repository i event before) (hget : after.state.records.get key = some record)
    (hvalue : record.value = .core core) : before.state.records.get key = some record ∨
      (key = coreRecordKey repository.sha256 core.keyString ∧
        CoreOf repository i core before.history ∧ Unsettled i before.history) := by
  rcases stored_cases hstep hG hget with hbefore | hcreate | ⟨_, hswap⟩
  · exact .inl hbefore
  · rw [hvalue] at hcreate
    exact .inr hcreate
  · rw [hvalue] at hswap
    exact .inr hswap

/-- Bytes that were read have the digest that the reader named. -/
theorem getBlob_digest {blobKey ownerId digest : String} {maxBytes : Int} {bytes : B}
    (hstep : repository.system.Step i
      (.effect (.getBlob blobKey ownerId digest maxBytes) (.ok (some bytes))) before after) :
    digest = payloadDigest repository.sha256 bytes := by
  obtain ⟨_, hexec⟩ := hstep.exec_eq
  have hanswer := (Prod.mk.inj hexec).2
  split at hanswer
  · cases hanswer
  · rename_i blob hblob
    unfold Blob.read at hanswer
    split at hanswer
    · cases hanswer
    · rename_i hidentity
      split at hanswer
      · cases hanswer
      · split at hanswer
        · cases hanswer
        · rename_i hdigest
          obtain rfl := Option.some.inj (Except.ok.inj hanswer)
          rw [not_or, not_not, not_not] at hidentity
          rw [not_not] at hdigest
          exact hidentity.2.symm.trans hdigest.symm

end Step

/-! ## Any run -/

/-- Every stored core lies under the key of its fields, and some call has committed its data with
the payload in place. -/
def CoresCommitted (repository : DurableDocumentCacheRepository B) (world : CacheWorld D B) :
    Prop :=
  ∀ key record core, world.state.records.get key = some record → record.value = .core core →
    key = coreRecordKey repository.sha256 core.keyString ∧
      ∃ j, CoreOf repository j core world.history

/-- In every run, a call returns a hit only if it has loaded the data from a core with the text of
the key that it looks up and has met the index of the source open, and reports a source as revoked
only if it has met its index revoked. -/
theorem replies_warranted (repository : DurableDocumentCacheRepository B)
    (actions : List (Action (Call D) (Oracle (Answer D)))) :
    System.Throughout (fun i event older => ∀ reply,
      event = .response (.ok reply) → ReplyAllowed repository i reply older)
      (repository.system.run initial actions).history := by
  refine (ready repository).throughout (verified repository) actions ?_ trivial
  rintro i event world hG reply rfl
  exact hG

omit [CacheData D B] [ByteString B] in
theorem payloadDigest_inj {sha256 : Sha256 B} (hsha : Function.Injective sha256.bytes)
    {left right : B} (h : payloadDigest sha256 left = payloadDigest sha256 right) :
    left = right := by
  have htext := congrArg String.toList h
  rw [payloadDigest, payloadDigest, String.toList_append, String.toList_append] at htext
  exact hsha (String.toList_inj.1 (List.append_cancel_left htext))

/-! ## The invariant -/

/-- What holds throughout a run in which `separates` does. -/
structure IsolationInvariant (repository : DurableDocumentCacheRepository B)
    (world : CacheWorld D B) : Prop where
  stored : ∀ key record core, world.state.records.get key = some record →
    record.value = .core core → ∃ j, CoreOf repository j core world.history
  read : ∀ i key record core, (i, .effect (.get key) (some record)) ∈ world.history →
    record.value = .core core → ∃ j, CoreOf repository j core world.history
  bytes : ∀ i blobKey ownerId digest maxBytes bytes,
    (i, .effect (.getBlob blobKey ownerId digest maxBytes) (.ok (some bytes))) ∈ world.history →
      digest = payloadDigest repository.sha256 bytes
  own : ∀ i identity key record core, LooksUp i identity world.history →
    (i, .effect (.get key) (some record)) ∈ world.history → record.value = .core core →
    sameCacheKey core.key identity.key = .ok true → core.key = identity.key
  isolated : Isolated world

theorem isolationInvariant_initial :
    IsolationInvariant repository (initial : Config (Call D) _ _ _ _ _).toWorld where
  stored := by simp [initial, Config.initial, Disk.empty]
  read := by simp [initial, Config.initial]
  bytes := by simp [initial, Config.initial]
  own := by simp [initial, Config.initial]
  isolated := by simp [Isolated, initial, Config.initial]

/-- The data that a call has loaded from a core is what the core was committed with. -/
theorem CoreOf.loaded {world : CacheWorld D B} (hsha : Function.Injective repository.sha256.bytes)
    (hinv : IsolationInvariant repository world) {i j : Nat}
    (h : CoreOf repository j core world.history) (hloaded : Loaded i core data world.history) :
    ∃ other execution, Commits j other execution world.history ∧ other.key = core.key ∧
      execution.data = data := by
  obtain ⟨other, execution, hcommits, hkey, hpayload⟩ := h
  refine ⟨other, execution, hcommits, hkey.symm, ?_⟩
  unfold PayloadOf at hpayload
  unfold Loaded at hloaded
  cases hcore : core.payload with
  | data found =>
    simp only [hcore] at hpayload hloaded
    rw [← hpayload, hloaded]
  | payloadBlob blobKey digest byteSize =>
    simp only [hcore] at hpayload hloaded
    obtain ⟨_, _, bytes, hmem, hdecode⟩ := hloaded
    have hdigest := (hpayload.1.symm.trans (hinv.bytes _ _ _ _ _ _ hmem))
    obtain rfl := payloadDigest_inj hsha hdigest
    rw [CacheData.decode_encode] at hdecode
    exact Except.ok.inj hdecode

theorem IsolationInvariant.own_step {i : Nat} {event : CacheEvent D B}
    {before after : CacheWorld D B} (h : IsolationInvariant repository before)
    (hstep : repository.system.Step i event before after)
    (hseparates : separates i event before = true) (hlooksUp : LooksUp j identity after.history)
    (hread : (j, .effect (.get key) (some record)) ∈ after.history)
    (hvalue : record.value = .core core) (hsame : sameCacheKey core.key identity.key = .ok true) :
    core.key = identity.key := by
  rcases hstep.mem_history.1 hread with heq | hread
  · obtain ⟨rfl, rfl⟩ := Prod.mk.inj heq
    have hlooksUp := hlooksUp.of_still hstep (by simp)
    obtain ⟨hanswer, -⟩ := Step.get_answer hstep
    obtain ⟨_, _, _, _, _, _⟩ := record
    obtain rfl := hvalue
    simp only [separates, ← hanswer, List.all_eq_true] at hseparates
    simpa [hsame] using hseparates identity hlooksUp.mem_lookedUp
  · exact h.own j identity key record core (hlooksUp.of_step hstep hread) hread hvalue hsame

theorem IsolationInvariant.isolated_step {i : Nat} {event : CacheEvent D B}
    {before after : CacheWorld D B} (hsha : Function.Injective repository.sha256.bytes)
    (h : IsolationInvariant repository before)
    (hstep : repository.system.Step i event before after)
    (hG : Guarantee repository i event before) : Isolated after := by
  intro later earlier j reply data identity hhistory hhit hlooksUp
  rw [hstep.history] at hhistory
  cases later with
  | nil =>
    obtain ⟨heq, rfl⟩ := List.cons.inj hhistory
    obtain ⟨rfl, rfl⟩ := Prod.mk.inj heq
    have hlooksUp := hlooksUp.of_still hstep (by simp)
    obtain ⟨⟨key, record, core, hread, hvalue, hsame, hloaded⟩, -⟩ :=
      hitAllowed_of_reply hG hhit hlooksUp
    obtain ⟨j, hcore⟩ := h.read i key record core hread hvalue
    obtain ⟨other, execution, hcommits, hother, hdata⟩ := hcore.loaded hsha h hloaded
    exact ⟨j, other, execution, hcommits,
      hother.trans (h.own i identity key record core hlooksUp hread hvalue hsame), hdata⟩
  | cons entry later =>
    have hrest : before.history = later ++ (j, .response (.ok reply)) :: earlier :=
      (List.cons.inj hhistory).2
    have hmem : (j, .response (.ok reply)) ∈ before.history := by simp [hrest]
    exact h.isolated later earlier j reply data identity hrest hhit (hlooksUp.of_step hstep hmem)

theorem isolationInvariant_step {i : Nat} {event : CacheEvent D B}
    {before after : CacheWorld D B} (hsha : Function.Injective repository.sha256.bytes)
    (h : IsolationInvariant repository before)
    (hstep : repository.system.Step i event before after)
    (hG : Guarantee repository i event before) (hseparates : separates i event before = true) :
    IsolationInvariant repository after where
  stored := by
    intro key record core hget hvalue
    have hmono : before.history ⊆ after.history := fun _ => hstep.history_mono
    rcases stored_core_cases hstep hG hget hvalue with hbefore | ⟨-, hcore, -⟩
    · obtain ⟨j, hcore⟩ := h.stored key record core hbefore hvalue
      exact ⟨j, hcore.mono hmono⟩
    · exact ⟨i, hcore.mono hmono⟩
  read := by
    intro j key record core hread hvalue
    have hmono : before.history ⊆ after.history := fun _ => hstep.history_mono
    rcases hstep.mem_history.1 hread with heq | hread
    · obtain ⟨rfl, rfl⟩ := Prod.mk.inj heq
      obtain ⟨hanswer, -⟩ := Step.get_answer hstep
      obtain ⟨k, hcore⟩ := h.stored key record core hanswer.symm hvalue
      exact ⟨k, hcore.mono hmono⟩
    · obtain ⟨k, hcore⟩ := h.read j key record core hread hvalue
      exact ⟨k, hcore.mono hmono⟩
  bytes := by
    intro j blobKey ownerId digest maxBytes bytes hmem
    rcases hstep.mem_history.1 hmem with heq | hmem
    · obtain ⟨rfl, rfl⟩ := Prod.mk.inj heq
      exact getBlob_digest hstep
    · exact h.bytes j blobKey ownerId digest maxBytes bytes hmem
  own _ _ _ _ _ hlooksUp hread hvalue hsame :=
    h.own_step hstep hseparates hlooksUp hread hvalue hsame
  isolated := h.isolated_step hsha hstep hG

/-! ## Runs -/

/-- In a run in which every core that a lookup takes for one of its own key is one, every hit
returns data that was committed before under all fields of its key. -/
theorem hit_isolated (repository : DurableDocumentCacheRepository B)
    (hsha : Function.Injective repository.sha256.bytes)
    (actions : List (Action (Call D) (Oracle (Answer D))))
    (hseparates : repository.system.Meets (fun i event world => separates i event world = true)
      initial actions) :
    Isolated (repository.system.run initial actions).toWorld :=
  ((ready repository).preserves (verified repository) hseparates
    (P := IsolationInvariant repository)
    (fun _ _ _ _ _ _ hstep hG hmeets h => isolationInvariant_step hsha h hstep hG hmeets)
    isolationInvariant_initial).isolated

/-! ## A sample repository -/

/-- Documents of the samples are truth values. -/
instance : CacheData Bool String where
  json := .bool
  encode data := if data then "true" else "false"
  decode bytes := if bytes = "true" then .ok true else .ok false
  decode_encode data := by cases data <;> decide

/-- The digests that the samples need. -/
def sampleDigests : DigestTable where
  entries := [
    ("a:b:c:e:1:m:1::1:1", "89c9b227baa93e1cf63072a93b55609499da885661307f8b78f16f1d27206607"),
    ("a:b:c:e:1:m:1::1:1\x00a:b\x00s",
      "f395e4caadbeb08de9577ee8264d37fad8f2ca3d65074e30834c2b0fe2c32d62"),
    ("a:b:c:e:1:m:1::1:1\x00a\x00s",
      "95476ed8c12dadd307d8ff8e75939c28b2de16b4f70b7b6f677cd889c68dce07"),
    ("a:b\x00s", "bec3f66d8473b77d9ca9e38119f4ee95c48cd36eacb405e7c97f1da27606f1db"),
    ("a\x00s", "654100f28cc2af3986ad5f353948c814050bb93b302a408569ad74f14f310a0f"),
    ("true", "b5bea41b6c623f7c09f1bf24dcae58ebab3c0cdd90ad966bc43a45b44867e12b"),
    ("a:b\x00a:b:c:e:1:m:1::1:1\x00" ++
        "sha256-b5bea41b6c623f7c09f1bf24dcae58ebab3c0cdd90ad966bc43a45b44867e12b",
      "82702731bdc8be6507d88c48266f5fbc345819d3b86dfb165049f1fbc9e89de6"),
    ("blobs/82702731bdc8be6507d88c48266f5fbc345819d3b86dfb165049f1fbc9e89de6",
      "ddcc576b93ec4e7f4a554a0a0582f53dfba26b5fd6139f31862e5acaec0b0e52")]
  hex := by decide +kernel
  nodup := by decide +kernel

/-- A repository without a blob store. -/
def sampleRepository : DurableDocumentCacheRepository String :=
  ⟨sampleDigests.sha256, 8, false, by decide⟩

def sampleConfig : CacheConfig := ⟨60, none, true, none⟩

/-- A request for the source `s`. -/
def sampleIdentity (ownershipScope contentHash : String) : DocumentCacheIdentity where
  mode := .use
  key := ⟨ownershipScope, contentHash, "e", "1", "m", "1", "", "1", "1"⟩
  sourceIdentity := "s"
  sourceVersion := "1"
  ownershipScope := ownershipScope
  nowMs := 1000
  sourceExpiresAt := none
  requestedTtlSeconds := none
  toolName := none
  networkPolicyChecked := none

/-- A commit after a miss without a binding. -/
def sampleCommit (identity : DocumentCacheIdentity) : Call Bool :=
  .commit sampleConfig identity ⟨true, true, 1, "e", "m"⟩ ⟨.ordinary, some ⟨none⟩, false, none⟩

/-- Call `i` takes `count` steps. -/
def sampleSteps (i count : Nat) : List (Action (Call Bool) (Oracle (Answer Bool))) :=
  .replicate count (.advance i ⟨fun | .execute => .ok ⟨true, true, 1, "e", "m"⟩, true⟩)

/-- A commit for one identity, and then a lookup for another one. -/
def sampleLookup (committed looked : DocumentCacheIdentity) :
    List (Action (Call Bool) (Oracle (Answer Bool))) :=
  .invoke (sampleCommit committed) :: sampleSteps 0 6 ++
    .invoke (.lookup sampleConfig looked) :: sampleSteps 1 10

/-- Whether call `i` has returned a hit with `data`. -/
def hits [DecidableEq D] (i : Nat) (data : D) (history : CacheHistory D B) : Bool :=
  history.any fun
    | (j, .response (.ok reply)) => j == i && decide (reply.hit? = some data)
    | _ => false

omit [CacheData D B] [ByteString B] in
theorem mem_of_hits [DecidableEq D] {i : Nat} (h : hits i data history = true) :
    ∃ reply, (i, .response (.ok reply)) ∈ history ∧ reply.hit? = some data := by
  obtain ⟨⟨j, event⟩, hmem, htest⟩ := List.any_eq_true.1 h
  cases event with
  | invoke call => cases htest
  | effect op answer => cases htest
  | response outcome =>
    cases outcome with
    | ok reply =>
      obtain ⟨rfl, hhit⟩ : j = i ∧ reply.hit? = some data := by simpa using htest
      exact ⟨reply, hmem, hhit⟩
    | error error => cases htest

/-- The keys for which something may have been committed. -/
def committedKeys (history : CacheHistory D B) : List ParsedPayloadCacheKey :=
  history.filterMap fun
    | (_, .invoke (.commit _ identity _ _)) => some identity.key
    | (_, .invoke (.process _ identity)) => some identity.key
    | _ => none

omit [CacheData D B] [ByteString B] in
theorem Commits.mem_committedKeys {execution : DocumentCacheExecution D}
    (h : Commits j identity execution history) : identity.key ∈ committedKeys history := by
  rcases h with ⟨_, _, hcall⟩ | ⟨_, hcall, -⟩
  · exact List.mem_filterMap.2 ⟨_, hcall, rfl⟩
  · exact List.mem_filterMap.2 ⟨_, hcall, rfl⟩

/-- A document is committed and looked up. -/
theorem hit_isolated_sample :
    ∃ j other execution, Commits j other execution (sampleRepository.system.run initial
        (sampleLookup (sampleIdentity "a:b" "c") (sampleIdentity "a:b" "c"))).history ∧
      other.key = (sampleIdentity "a:b" "c").key ∧ execution.data = true := by
  have hrun : (sampleRepository.system.checks separates initial
        (sampleLookup (sampleIdentity "a:b" "c") (sampleIdentity "a:b" "c")) &&
      hits 1 true (sampleRepository.system.run initial
        (sampleLookup (sampleIdentity "a:b" "c") (sampleIdentity "a:b" "c"))).history &&
      System.called 1 (.lookup sampleConfig (sampleIdentity "a:b" "c"))
        (sampleRepository.system.run initial
          (sampleLookup (sampleIdentity "a:b" "c") (sampleIdentity "a:b" "c"))).history) = true := by
    decide +kernel
  simp only [Bool.and_eq_true] at hrun
  obtain ⟨⟨hchecks, hhits⟩, hcalled⟩ := hrun
  obtain ⟨reply, hmem, hhit⟩ := mem_of_hits hhits
  obtain ⟨after, before, hhistory⟩ := List.append_of_mem hmem
  obtain ⟨j, other, execution, hcommits, hrest⟩ := hit_isolated sampleRepository
    sampleDigests.sha256_injective _ (System.meets_of_checks hchecks) after before 1 reply true
    (sampleIdentity "a:b" "c") hhistory hhit ⟨_, .inl (System.mem_of_called hcalled)⟩
  exact ⟨j, other, execution, hcommits.mono (hhistory ▸ by simp), hrest⟩

/-- A document of the scope `a:b` with the content `c` is returned to the scope `a` for the
content `b:c`. -/
theorem hit_crosses : ¬ ∀ repository : DurableDocumentCacheRepository String,
    Function.Injective repository.sha256.text → Function.Injective repository.sha256.bytes →
    ∀ actions : List (Action (Call Bool) (Oracle (Answer Bool))),
      Isolated (repository.system.run initial actions).toWorld := by
  intro h
  have hrun : (hits 1 true (sampleRepository.system.run initial
        (sampleLookup (sampleIdentity "a:b" "c") (sampleIdentity "a" "b:c"))).history &&
      System.called 1 (.lookup sampleConfig (sampleIdentity "a" "b:c"))
        (sampleRepository.system.run initial
          (sampleLookup (sampleIdentity "a:b" "c") (sampleIdentity "a" "b:c"))).history &&
      (committedKeys (sampleRepository.system.run initial
        (sampleLookup (sampleIdentity "a:b" "c") (sampleIdentity "a" "b:c"))).history).all
        fun key => key.ownershipScope == "a:b") = true := by
    decide +kernel
  simp only [Bool.and_eq_true, List.all_eq_true, beq_iff_eq] at hrun
  obtain ⟨⟨hhits, hcalled⟩, hscope⟩ := hrun
  obtain ⟨reply, hmem, hhit⟩ := mem_of_hits hhits
  obtain ⟨after, before, hhistory⟩ := List.append_of_mem hmem
  obtain ⟨j, other, execution, hcommits, hkey, -⟩ := h sampleRepository
    sampleDigests.sha256_injective sampleDigests.sha256_injective _ after before 1 reply true
    (sampleIdentity "a" "b:c") hhistory hhit ⟨_, .inl (System.mem_of_called hcalled)⟩
  have hcommitted := hscope _ (hcommits.mono (hhistory ▸ by simp)).mem_committedKeys
  rw [hkey] at hcommitted
  exact absurd hcommitted (by decide)

end Groundlane.DocumentCache
