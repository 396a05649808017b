import Groundlane.Jobs.Creation

/-!
# Reused jobs belong to the caller

A request that is given a job which was there before is given one of its own owner and its own
credential binding, made by an earlier request with the same idempotency key
(`creation_isolated`), provided that of the requests with an idempotency key no two differ and
have the same index key, and that those with the same owner and the same idempotency key have
the same credential binding. An index key is the owner, a colon and the idempotency key, which
does not tell where the owner ends, and nobody looks at the binding of a job that is reused
(`reuse_crosses`).
-/

namespace Groundlane.Jobs

/-! ## Runs of requests -/

/-- Who asks for a job. -/
structure Request where
  ownerId : String
  credentialBinding : String
  idempotencyKey : Option String
deriving DecidableEq, Repr

/-- The index key of a request. -/
def Request.indexKey (request : Request) : Option String :=
  request.idempotencyKey.map fun key => request.ownerId ++ ":" ++ key

/-- What a request is told of its job. -/
structure Given where
  jobId : String
  ownerId : String
  reused : Bool
deriving DecidableEq, Repr

/-- A request and what it was given, unless it was refused. -/
structure Creation where
  request : Request
  given : Option Given
deriving DecidableEq, Repr

/-- All requests so far, newest first, and the store that they left. -/
structure Created (S : Type) where
  creations : List Creation
  store : InMemoryJobStore S

def AsyncJobManager.requestOf (input : CreateAsyncJobInput) : Request :=
  ⟨input.ownerId, input.credentialBinding, input.idempotencyKey⟩

def AsyncJobManager.givenOf :
    Except Fault (JobCreateResult PublicAsyncJob) → Option Given
  | .ok result => some ⟨result.job.jobId, result.job.ownerId, result.reused⟩
  | .error _ => none

/-- One request after the other. -/
def AsyncJobManager.run (manager : AsyncJobManager) :
    List (CreateAsyncJobInput × Surroundings) → Created InternalAsyncJobState →
      Created InternalAsyncJobState
  | [], created => created
  | (input, around) :: calls, created =>
    let result := manager.create created.store input around
    manager.run calls ⟨⟨requestOf input, givenOf result.1⟩ :: created.creations, result.2⟩

def CrawlJobManager.requestOf (input : CreateCrawlJobInput) : Request :=
  ⟨input.ownerId, input.credentialBinding, input.idempotencyKey⟩

def CrawlJobManager.givenOf :
    Except Fault (JobCreateResult PublicCrawlJob) → Option Given
  | .ok result => some ⟨result.job.groundlaneJobId, result.job.ownerId, result.reused⟩
  | .error _ => none

/-- One request after the other; the last component is the counter of the manager. -/
def CrawlJobManager.run (manager : CrawlJobManager) :
    List (CreateCrawlJobInput × Surroundings) → Created InternalCrawlJobState → Nat →
      Created InternalCrawlJobState
  | [], created, _ => created
  | (input, around) :: calls, created, nextId =>
    let result := manager.create ⟨created.store, nextId⟩ input around
    manager.run calls ⟨⟨requestOf input, givenOf result.1⟩ :: created.creations, result.2.store⟩
      result.2.nextId

/-! ## Isolation -/

/-- Reused jobs belong to those who are given them, and no two requests that were answered
differ in owner or idempotency key and have the same index key. -/
structure ReuseIsolated {S : Type} [JobState S] (created : Created S) : Prop where
  reused : ∀ newer creation older given, created.creations = newer ++ creation :: older →
    creation.given = some given → given.reused = true →
    given.ownerId = creation.request.ownerId ∧
      (∃ state, created.store.get given.jobId = some state ∧
        JobState.ownerId state = creation.request.ownerId ∧
        JobState.credentialBinding state = creation.request.credentialBinding) ∧
      ∃ earlier ∈ older, earlier.given = some ⟨given.jobId, given.ownerId, false⟩ ∧
        earlier.request.idempotencyKey = creation.request.idempotencyKey
  entries : ∀ first ∈ created.creations, ∀ second ∈ created.creations, first.given.isSome →
    second.given.isSome → first.request.indexKey.isSome →
    first.request.indexKey = second.request.indexKey →
    first.request.ownerId = second.request.ownerId ∧
      first.request.idempotencyKey = second.request.idempotencyKey

/-- Of two requests with idempotency keys, the owner of one is not that of the other, a colon
and the part by which the keys differ; and if they have the same owner and the same key, they
have the same credential binding. -/
def KeysApart (requests : List Request) : Prop :=
  ∀ first ∈ requests, ∀ second ∈ requests, ∀ key key', first.idempotencyKey = some key →
    second.idempotencyKey = some key' →
    (∀ middle, ¬ (second.ownerId = first.ownerId ++ ":" ++ middle ∧
      key = middle ++ ":" ++ key')) ∧
    (first.ownerId = second.ownerId → key = key' →
      first.credentialBinding = second.credentialBinding)

/-- The requests that pass the checks. -/
def AsyncJobManager.checked (manager : AsyncJobManager)
    (calls : List (CreateAsyncJobInput × Surroundings)) : List Request :=
  (calls.filter fun call => (manager.checkInput call.1).isOk).map fun call => requestOf call.1

/-- The requests that pass the checks. -/
def CrawlJobManager.checked (manager : CrawlJobManager)
    (calls : List (CreateCrawlJobInput × Surroundings)) : List Request :=
  (calls.filter fun call => (manager.checkInput call.1).isOk).map fun call => requestOf call.1

/-- Texts that join at a colon to the same text are the same, or one of the first parts goes on
with a colon and what the second parts differ by. -/
theorem join_cases {first key second key' : String}
    (h : first ++ ":" ++ key = second ++ ":" ++ key') :
    (first = second ∧ key = key') ∨
      (∃ middle, second = first ++ ":" ++ middle ∧ key = middle ++ ":" ++ key') ∨
      ∃ middle, first = second ++ ":" ++ middle ∧ key' = middle ++ ":" ++ key := by
  have hcut : ∀ {left right rest rest' : List Char},
      left ++ ':' :: rest = right ++ ':' :: rest' → left.length ≤ right.length →
      (left = right ∧ rest = rest') ∨ ∃ middle, right = left ++ ':' :: middle ∧
        rest = middle ++ ':' :: rest' := by
    intro left right rest rest' heq hle
    rcases List.append_eq_append_iff.1 heq with ⟨middle, rfl, hrest⟩ | ⟨middle, rfl, hrest⟩
    · cases middle with
      | nil => exact .inl ⟨by simp, by simpa using hrest⟩
      | cons c middle =>
        obtain ⟨rfl, htail⟩ := List.cons.inj hrest
        exact .inr ⟨middle, rfl, htail⟩
    · cases middle with
      | nil => exact .inl ⟨by simp, by simpa using hrest.symm⟩
      | cons c middle =>
        rw [List.length_append, List.length_cons] at hle
        omega
  have hlist : first.toList ++ ':' :: key.toList = second.toList ++ ':' :: key'.toList := by
    simpa [String.toList_append] using congrArg String.toList h
  have hofList : ∀ (left right : String) (middle : List Char),
      right.toList = left.toList ++ ':' :: middle →
      right = left ++ ":" ++ String.ofList middle := by
    intro left right middle heq
    rw [← String.toList_inj, heq]
    simp [String.toList_append]
  have hofRest : ∀ (rest rest' : String) (middle : List Char),
      rest.toList = middle ++ ':' :: rest'.toList → rest = String.ofList middle ++ ":" ++ rest' := by
    intro rest rest' middle heq
    rw [← String.toList_inj, heq]
    simp [String.toList_append]
  rcases Nat.le_total first.toList.length second.toList.length with hle | hle
  · rcases hcut hlist hle with ⟨hfirst, hkey⟩ | ⟨middle, hsecond, hkey⟩
    · exact .inl ⟨String.toList_inj.1 hfirst, String.toList_inj.1 hkey⟩
    · exact .inr (.inl ⟨_, hofList _ _ _ hsecond, hofRest _ _ _ hkey⟩)
  · rcases hcut hlist.symm hle with ⟨hsecond, hkey⟩ | ⟨_, hfirst, hkey⟩
    · exact .inl ⟨(String.toList_inj.1 hsecond).symm, (String.toList_inj.1 hkey).symm⟩
    · exact .inr (.inr ⟨_, hofList _ _ _ hfirst, hofRest _ _ _ hkey⟩)

/-- Requests with keys apart and the same index key have the same owner, idempotency key and
credential binding. -/
theorem KeysApart.same {requests : List Request} (h : KeysApart requests) {first second : Request}
    (hfirst : first ∈ requests) (hsecond : second ∈ requests) (hsome : first.indexKey.isSome)
    (heq : first.indexKey = second.indexKey) : first = second := by
  obtain ⟨ownerId, credentialBinding, idempotencyKey⟩ := first
  obtain ⟨ownerId', credentialBinding', idempotencyKey'⟩ := second
  cases idempotencyKey with
  | none => cases hsome
  | some key =>
    cases idempotencyKey' with
    | none => cases heq
    | some key' =>
      have hjoin : ownerId ++ ":" ++ key = ownerId' ++ ":" ++ key' := Option.some.inj heq
      obtain ⟨hapart, hbinding⟩ := h _ hfirst _ hsecond key key' rfl rfl
      obtain ⟨hapart', -⟩ := h _ hsecond _ hfirst key' key rfl rfl
      rcases join_cases hjoin with ⟨rfl, rfl⟩ | ⟨middle, hcut⟩ | ⟨middle, hcut⟩
      · obtain rfl : credentialBinding = credentialBinding' := hbinding rfl rfl
        rfl
      · exact absurd hcut (hapart middle)
      · exact absurd hcut (hapart' middle)

/-! ## What one request does -/

section Steps

variable {S : Type} [JobState S]

/-- What one request does: it is refused, it is given the job that its index key leads to, or it
is given a new job under an id that is not taken. -/
inductive Creates (store : InMemoryJobStore S) : Creation → InMemoryJobStore S → Prop where
  | refuse (request) : Creates store ⟨request, none⟩ store
  | reuse (request key state) : request.indexKey = some key →
    store.getByIdempotencyKey key = some state →
    Creates store ⟨request, some ⟨JobState.jobId state, JobState.ownerId state, true⟩⟩ store
  | create (request state) : JobState.ownerId state = request.ownerId →
    JobState.credentialBinding state = request.credentialBinding →
    JobState.idempotencyKey state = request.indexKey →
    store.get (JobState.jobId state) = none →
    Creates store ⟨request, some ⟨JobState.jobId state, JobState.ownerId state, false⟩⟩
      (store.set state)

/-- The store was left by these requests. -/
inductive Reached : Created S → Prop where
  | start : Reached ⟨[], .empty⟩
  | next {created creation after} : Reached created → Creates created.store creation after →
    Reached ⟨creation :: created.creations, after⟩

@[simp] theorem get_set (store : InMemoryJobStore S) (state : S) (jobId : String) :
    (store.set state).get jobId =
      if JobState.jobId state = jobId then some state else store.get jobId := by
  by_cases h : JobState.jobId state = jobId
  · rw [if_pos h, ← h]
    exact AList.lookup_insert _
  · rw [if_neg h]
    exact AList.lookup_insert_ne (Ne.symm h)

variable {creation : Creation} {created : Created S}

/-- Jobs stay as they are. -/
theorem Creates.get_mono {store after : InMemoryJobStore S} (h : Creates store creation after)
    {jobId : String} {state : S} (hget : store.get jobId = some state) :
    after.get jobId = some state := by
  cases h with
  | refuse request => exact hget
  | reuse request key other hkey hother => exact hget
  | create request other howner hbinding hkey hfresh =>
    have hne : JobState.jobId other ≠ jobId := by
      rintro rfl
      simp [hfresh] at hget
    rw [get_set, if_neg hne]
    exact hget

/-- What the store has is what the requests asked for. -/
structure Kept (created : Created S) : Prop where
  jobs : ∀ jobId state, created.store.get jobId = some state → JobState.jobId state = jobId ∧
    ∃ earlier ∈ created.creations,
      earlier.given = some ⟨jobId, JobState.ownerId state, false⟩ ∧
      earlier.request.ownerId = JobState.ownerId state ∧
      earlier.request.credentialBinding = JobState.credentialBinding state ∧
      earlier.request.indexKey = JobState.idempotencyKey state
  index : ∀ key jobId, created.store.byIdempotency.lookup key = some jobId →
    ∃ state, created.store.get jobId = some state ∧ JobState.idempotencyKey state = some key

theorem Kept.step {after : InMemoryJobStore S} (h : Kept created)
    (hcreates : Creates created.store creation after) :
    Kept ⟨creation :: created.creations, after⟩ := by
  have hold : ∀ {jobId : String} {state : S}, created.store.get jobId = some state →
      JobState.jobId state = jobId ∧ ∃ earlier ∈ creation :: created.creations,
        earlier.given = some ⟨jobId, JobState.ownerId state, false⟩ ∧
        earlier.request.ownerId = JobState.ownerId state ∧
        earlier.request.credentialBinding = JobState.credentialBinding state ∧
        earlier.request.indexKey = JobState.idempotencyKey state := by
    intro jobId state hget
    obtain ⟨hid, earlier, hmem, hrest⟩ := h.jobs jobId state hget
    exact ⟨hid, earlier, List.mem_cons_of_mem _ hmem, hrest⟩
  have hindex : ∀ {key jobId : String}, created.store.byIdempotency.lookup key = some jobId →
      ∃ state, after.get jobId = some state ∧ JobState.idempotencyKey state = some key := by
    intro key jobId hlookup
    obtain ⟨state, hget, hkey⟩ := h.index key jobId hlookup
    exact ⟨state, hcreates.get_mono hget, hkey⟩
  cases hcreates with
  | refuse request => exact ⟨fun _ _ => hold, fun _ _ => hindex⟩
  | reuse request key state hkey hget => exact ⟨fun _ _ => hold, fun _ _ => hindex⟩
  | create request state howner hbinding hkey hfresh =>
    constructor
    · intro jobId found hget
      rw [get_set] at hget
      split at hget
      · rename_i hid
        obtain rfl := Option.some.inj hget
        exact ⟨hid, _, List.mem_cons_self, by rw [hid], howner.symm, hbinding.symm, hkey.symm⟩
      · exact hold hget
    · intro key jobId hlookup
      have hnew : (created.store.set state).get (JobState.jobId state) = some state := by simp
      cases hstate : JobState.idempotencyKey state with
      | none =>
        simp only [InMemoryJobStore.set, hstate] at hlookup
        exact hindex hlookup
      | some stored =>
        simp only [InMemoryJobStore.set, hstate] at hlookup
        by_cases heq : key = stored
        · subst heq
          rw [AList.lookup_insert] at hlookup
          obtain rfl := Option.some.inj hlookup
          exact ⟨state, hnew, hstate⟩
        · rw [AList.lookup_insert_ne heq] at hlookup
          exact hindex hlookup

theorem Reached.kept (h : Reached created) : Kept created := by
  induction h with
  | start => exact ⟨by simp [InMemoryJobStore.get, InMemoryJobStore.empty],
    by simp [InMemoryJobStore.empty]⟩
  | next _ hcreates ih => exact ih.step hcreates

/-- The requests that were answered. -/
def answered (creations : List Creation) : List Request :=
  (creations.filter fun creation => creation.given.isSome).map Creation.request

theorem mem_answered {creations : List Creation} (h : creation ∈ creations)
    (hgiven : creation.given.isSome) : creation.request ∈ answered creations :=
  List.mem_map.2 ⟨creation, List.mem_filter.2 ⟨h, hgiven⟩, rfl⟩

/-- Requests with keys apart are isolated. -/
theorem Reached.isolated (h : Reached created) (hapart : KeysApart (answered created.creations)) :
    ReuseIsolated created where
  reused := by
    induction h with
    | start => simp
    | @next created creation after hreached hcreates ih =>
      have hsub : ∀ request ∈ answered created.creations,
          request ∈ answered (creation :: created.creations) := by
        intro request hmem
        obtain ⟨earlier, hearlier, rfl⟩ := List.mem_map.1 hmem
        obtain ⟨hearlier, hgiven⟩ := List.mem_filter.1 hearlier
        exact mem_answered (List.mem_cons_of_mem _ hearlier) hgiven
      intro newer found older given heq hgiven hreused
      cases newer with
      | nil =>
        obtain ⟨rfl, rfl⟩ := List.cons.inj heq
        cases hcreates with
        | refuse request => cases hgiven
        | create request state howner hbinding hkey hfresh =>
          obtain rfl := Option.some.inj hgiven
          cases hreused
        | reuse request key state hkey hget =>
          obtain rfl := Option.some.inj hgiven
          obtain ⟨jobId, hlookup, hstate⟩ := Option.bind_eq_some_iff.1 hget
          obtain ⟨_, hindexed, hindex⟩ := hreached.kept.index key jobId hlookup
          obtain rfl := Option.some.inj (hstate.symm.trans hindexed)
          obtain ⟨rfl, earlier, hmem, hfirst, howner, hbinding, hearlier⟩ :=
            hreached.kept.jobs jobId state hstate
          have hsame : earlier.request = request :=
            hapart.same (mem_answered (List.mem_cons_of_mem _ hmem) (by simp [hfirst]))
              (mem_answered List.mem_cons_self rfl) (by simp [hearlier, hindex])
              (by rw [hearlier, hindex, hkey])
          rw [hsame] at howner hbinding
          exact ⟨howner.symm, ⟨state, hstate, howner.symm, hbinding.symm⟩, earlier, hmem,
            hfirst, by rw [hsame]⟩
      | cons newest newer =>
        obtain ⟨howner, ⟨state, hget, hstate⟩, hearlier⟩ := ih (fun first hfirst second
          hsecond => hapart first (hsub first hfirst) second (hsub second hsecond)) newer found
          older given (List.cons.inj heq).2 hgiven hreused
        exact ⟨howner, ⟨state, hcreates.get_mono hget, hstate⟩, hearlier⟩
  entries := by
    intro first hfirst second hsecond hgiven hgiven' hsome heq
    have hsame := hapart.same (mem_answered hfirst hgiven) (mem_answered hsecond hgiven') hsome heq
    rw [hsame]
    exact ⟨rfl, rfl⟩

end Steps

/-! ## `AsyncJobManager` -/

variable {key : Option String}

theorem indexKey_ok {stage : String} {request : Request}
    (h : indexKey (buildIdempotencyKey stage request.ownerId) request.idempotencyKey = .ok key) :
    key = request.indexKey := by
  unfold indexKey at h
  split at h
  · rename_i hnone
    rw [Request.indexKey, hnone]
    exact (Except.ok.inj h).symm
  · rename_i given hsome
    rw [Request.indexKey, hsome]
    unfold buildIdempotencyKey at h
    split at h
    · cases h
    · split at h
      · cases h
      · exact (Except.ok.inj h).symm

namespace AsyncJobManager

variable {manager : AsyncJobManager} {input : CreateAsyncJobInput} {around : Surroundings}
  {store : InMemoryJobStore InternalAsyncJobState}

theorem checkInput_ok (h : manager.checkInput input = .ok key) :
    key = (requestOf input).indexKey := by
  simp only [checkInput, bind, Except.bind, throw, throwThe, MonadExceptOf.throw] at h
  repeat' split at h
  all_goals first | exact indexKey_ok h | cases h

/-- A new job has the id of its call and is what the request asked for. -/
theorem newState_ok {state : InternalAsyncJobState}
    (h : manager.newState input key around = .ok state) :
    JobState.jobId state = manager.jobIdPrefix ++ around.uuid ∧
      JobState.ownerId state = input.ownerId ∧
      JobState.credentialBinding state = input.credentialBinding ∧
      JobState.idempotencyKey state = key := by
  simp only [newState, bind, Except.bind, pure, Except.pure] at h
  repeat' split at h
  all_goals cases h <;> exact ⟨rfl, rfl, rfl, rfl⟩

/-- A call is refused, reuses a job or makes one under the id of the call. -/
theorem create_creates (hfresh : store.get (manager.jobIdPrefix ++ around.uuid) = none) :
    Creates store ⟨requestOf input, givenOf (manager.create store input around).1⟩
      (manager.create store input around).2 := by
  unfold create
  split
  · exact .refuse _
  · rename_i key hkey
    obtain rfl := checkInput_ok hkey
    split
    · rename_i existing hexisting
      obtain ⟨key, hindex, hget⟩ := Option.bind_eq_some_iff.1 hexisting
      exact .reuse _ key existing hindex hget
    · split
      · exact .refuse _
      · split
        · exact .refuse _
        · rename_i state hstate
          obtain ⟨hid, howner, hbinding, hindex⟩ := newState_ok hstate
          exact .create _ state howner hbinding hindex (hid ▸ hfresh)

/-- A call leaves what is stored under other ids than its own. -/
theorem get_create {jobId : String} (h : jobId ≠ manager.jobIdPrefix ++ around.uuid) :
    (manager.create store input around).2.get jobId = store.get jobId := by
  unfold create
  repeat' split
  all_goals first
    | rfl
    | (rename_i state hstate
       rw [get_set, (newState_ok hstate).1, if_neg (Ne.symm h)])

/-- A request that is answered has passed the checks. -/
theorem givenOf_create (h : (givenOf (manager.create store input around).1).isSome) :
    (manager.checkInput input).isOk := by
  unfold create at h
  split at h
  · cases h
  · rename_i key hkey
    rw [hkey]
    rfl

/-- A run whose ids are all different is a sequence of requests. -/
theorem run_reached (calls : List (CreateAsyncJobInput × Surroundings)) :
    ∀ created, Reached created →
      (∀ call ∈ calls, created.store.get (manager.jobIdPrefix ++ call.2.uuid) = none) →
      (calls.map fun call => call.2.uuid).Nodup → Reached (manager.run calls created) := by
  induction calls with
  | nil => exact fun created h _ _ => h
  | cons call calls ih =>
    obtain ⟨_, around⟩ := call
    intro created h hfree hnodup
    rw [List.map_cons, List.nodup_cons] at hnodup
    refine ih _ (h.next (create_creates (hfree _ List.mem_cons_self))) ?_ hnodup.2
    intro other hother
    have hne : manager.jobIdPrefix ++ other.2.uuid ≠ manager.jobIdPrefix ++ around.uuid := by
      intro heq
      have huuid : other.2.uuid = around.uuid := by
        simpa [← String.toList_inj, String.toList_append] using heq
      exact hnodup.1 (huuid ▸ List.mem_map_of_mem hother)
    rw [get_create hne]
    exact hfree other (List.mem_cons_of_mem _ hother)

/-- The requests that a run answers have passed the checks. -/
theorem answered_run (calls : List (CreateAsyncJobInput × Surroundings)) :
    ∀ created, ∀ request ∈ answered (manager.run calls created).creations,
      request ∈ answered created.creations ∨ request ∈ manager.checked calls := by
  induction calls with
  | nil => exact fun created request h => .inl h
  | cons call calls ih =>
    obtain ⟨input, around⟩ := call
    intro created request h
    rcases ih _ request h with hmem | hmem
    · obtain ⟨_, hcreation, rfl⟩ := List.mem_map.1 hmem
      obtain ⟨hcreation, hgiven⟩ := List.mem_filter.1 hcreation
      rcases List.mem_cons.1 hcreation with rfl | hcreation
      · exact .inr (List.mem_map.2 ⟨(input, around),
          List.mem_filter.2 ⟨List.mem_cons_self, givenOf_create hgiven⟩, rfl⟩)
      · exact .inl (mem_answered hcreation hgiven)
    · obtain ⟨other, hother, rfl⟩ := List.mem_map.1 hmem
      obtain ⟨hother, hpassed⟩ := List.mem_filter.1 hother
      exact .inr (List.mem_map.2 ⟨other,
        List.mem_filter.2 ⟨List.mem_cons_of_mem _ hother, hpassed⟩, rfl⟩)

end AsyncJobManager

/-! ## `CrawlJobManager` -/

/-- Different numbers are padded to different texts. -/
theorem padStart_inj {width m n : Nat}
    (h : padStart width (toString m) = padStart width (toString n)) : m = n := by
  have hvalue : ∀ k : Nat, Nat.ofDigitChars 10 (padStart width (toString k)).toList 0 = k := by
    intro k
    have hdigits : (toString k).toList = Nat.toDigits 10 k := by
      simp [toString, Nat.repr]
    rw [padStart, String.toList_ofList, Nat.ofDigitChars_append, Nat.ofDigitChars_replicate_zero,
      Nat.mul_zero, hdigits, Nat.ofDigitChars_ten_toDigits]
  rw [← hvalue m, h, hvalue n]

example : padStart 8 (toString 42) = "00000042" := by decide +kernel

namespace CrawlJobManager

variable {manager : CrawlJobManager} {input : CreateCrawlJobInput} {around : Surroundings}
  {jobs : CrawlJobs}

theorem checkInput_ok {seedUrl : String} (h : manager.checkInput input = .ok (seedUrl, key)) :
    key = (requestOf input).indexKey := by
  simp only [checkInput, bind, Except.bind, pure, Except.pure, throw, throwThe,
    MonadExceptOf.throw] at h
  repeat' split at h
  all_goals cases h
  rename_i hfound
  exact indexKey_ok hfound

/-- A new job has the id of its number and is what the request asked for. -/
theorem newState_ok {number : Nat} {state : InternalCrawlJobState}
    (h : manager.newState number input key around = .ok state) :
    JobState.jobId state = manager.jobIdOf number ∧
      JobState.ownerId state = input.ownerId ∧
      JobState.credentialBinding state = input.credentialBinding ∧
      JobState.idempotencyKey state = key := by
  simp only [newState, bind, Except.bind, pure, Except.pure] at h
  repeat' split at h
  all_goals cases h <;> exact ⟨rfl, rfl, rfl, rfl⟩

/-- A call is refused, reuses a job or makes one under the id of the next number. -/
theorem create_creates (hfresh : jobs.store.get (manager.jobIdOf jobs.nextId) = none) :
    Creates jobs.store ⟨requestOf input, givenOf (manager.create jobs input around).1⟩
      (manager.create jobs input around).2.store := by
  unfold create
  split
  · exact .refuse _
  · rename_i seedUrl key hkey
    obtain rfl := checkInput_ok hkey
    split
    · rename_i existing hexisting
      obtain ⟨key, hindex, hget⟩ := Option.bind_eq_some_iff.1 hexisting
      exact .reuse _ key existing hindex hget
    · split
      · exact .refuse _
      · split
        · exact .refuse _
        · rename_i state hstate
          obtain ⟨hid, howner, hbinding, hindex⟩ := newState_ok hstate
          exact .create _ state howner hbinding hindex (hid ▸ hfresh)

/-- Jobs of different numbers have different ids. -/
theorem jobIdOf_inj {m n : Nat} (h : manager.jobIdOf m = manager.jobIdOf n) : m = n := by
  have hpad : padStart 6 (toString m) = padStart 6 (toString n) := by
    simpa [jobIdOf, ← String.toList_inj, String.toList_append] using h
  exact padStart_inj hpad

/-- The counter does not go back. -/
theorem nextId_create : jobs.nextId ≤ (manager.create jobs input around).2.nextId := by
  unfold create
  repeat' split
  all_goals first | exact Nat.le_refl _ | exact Nat.le_succ _

/-- Numbers that the counter has not reached are not taken. -/
def Free (manager : CrawlJobManager) (jobs : CrawlJobs) : Prop :=
  ∀ number, jobs.nextId ≤ number → jobs.store.get (manager.jobIdOf number) = none

theorem free_create (h : Free manager jobs) : Free manager (manager.create jobs input around).2 := by
  intro number hnumber
  have hle : jobs.nextId ≤ number := nextId_create.trans hnumber
  unfold create at hnumber ⊢
  split
  · exact h number hle
  · rename_i seedUrl key hkey
    split
    · exact h number hle
    · rename_i hnone
      split
      · exact h number hle
      · rename_i hroom
        split
        · exact h number hle
        · rename_i state hstate
          have hlt : jobs.nextId < number := by
            simp only [hkey, hnone, if_neg hroom, hstate] at hnumber
            exact hnumber
          have hne : JobState.jobId state ≠ manager.jobIdOf number := by
            rw [(newState_ok hstate).1]
            exact fun heq => absurd (jobIdOf_inj heq) (Nat.ne_of_lt hlt)
          show (jobs.store.set state).get (manager.jobIdOf number) = none
          rw [get_set, if_neg hne]
          exact h number hle

/-- A request that is answered has passed the checks. -/
theorem givenOf_create (h : (givenOf (manager.create jobs input around).1).isSome) :
    (manager.checkInput input).isOk := by
  unfold create at h
  split at h
  · cases h
  · rename_i seedUrl key hkey
    rw [hkey]
    rfl

/-- A run is a sequence of requests. -/
theorem run_reached (calls : List (CreateCrawlJobInput × Surroundings)) :
    ∀ created nextId, Reached created → Free manager ⟨created.store, nextId⟩ →
      Reached (manager.run calls created nextId) := by
  induction calls with
  | nil => exact fun created nextId h _ => h
  | cons call calls ih =>
    obtain ⟨_, _⟩ := call
    intro created nextId h hfree
    exact ih _ _ (h.next (create_creates (hfree nextId (Nat.le_refl _)))) (free_create hfree)

/-- The requests that a run answers have passed the checks. -/
theorem answered_run (calls : List (CreateCrawlJobInput × Surroundings)) :
    ∀ created nextId, ∀ request ∈ answered (manager.run calls created nextId).creations,
      request ∈ answered created.creations ∨ request ∈ manager.checked calls := by
  induction calls with
  | nil => exact fun created nextId request h => .inl h
  | cons call calls ih =>
    obtain ⟨input, around⟩ := call
    intro created nextId request h
    rcases ih _ _ request h with hmem | hmem
    · obtain ⟨_, hcreation, rfl⟩ := List.mem_map.1 hmem
      obtain ⟨hcreation, hgiven⟩ := List.mem_filter.1 hcreation
      rcases List.mem_cons.1 hcreation with rfl | hcreation
      · exact .inr (List.mem_map.2 ⟨(input, around),
          List.mem_filter.2 ⟨List.mem_cons_self, givenOf_create hgiven⟩, rfl⟩)
      · exact .inl (mem_answered hcreation hgiven)
    · obtain ⟨other, hother, rfl⟩ := List.mem_map.1 hmem
      obtain ⟨hother, hpassed⟩ := List.mem_filter.1 hother
      exact .inr (List.mem_map.2 ⟨other,
        List.mem_filter.2 ⟨List.mem_cons_of_mem _ hother, hpassed⟩, rfl⟩)

end CrawlJobManager

/-! ## All requests -/

/-- No requests yet. -/
def initial {S : Type} : Created S := ⟨[], .empty⟩

/-- When the ids that the factory makes are all different and the requests that pass the checks
have keys apart, reused jobs belong to the caller. -/
theorem creation_isolated (asyncJobs : AsyncJobManager) (crawlJobs : CrawlJobManager) :
    (∀ calls, (calls.map fun call => call.2.uuid).Nodup → KeysApart (asyncJobs.checked calls) →
      ReuseIsolated (asyncJobs.run calls initial)) ∧
    ∀ calls, KeysApart (crawlJobs.checked calls) →
      ReuseIsolated (crawlJobs.run calls initial 1) := by
  have hanswered : ∀ {S : Type} {created : Created S} {requests : List Request},
      KeysApart requests → (∀ request ∈ answered created.creations, request ∈ requests) →
      KeysApart (answered created.creations) :=
    fun hapart hsub first hfirst second hsecond =>
      hapart first (hsub first hfirst) second (hsub second hsecond)
  constructor
  · intro calls hnodup hapart
    refine (AsyncJobManager.run_reached calls _ .start (fun _ _ => rfl) hnodup).isolated
      (hanswered hapart fun request hmem => ?_)
    exact (AsyncJobManager.answered_run calls _ request hmem).resolve_left List.not_mem_nil
  · intro calls hapart
    refine (CrawlJobManager.run_reached calls _ 1 .start fun _ _ => rfl).isolated
      (hanswered hapart fun request hmem => ?_)
    exact (CrawlJobManager.answered_run calls _ 1 request hmem).resolve_left List.not_mem_nil

/-! ## Samples -/

/-- The parser knows one URL. -/
def sampleUrl (value : String) : Option Url :=
  if value = "https://a.b/" then some ⟨"https:", "", "", "a.b", value⟩ else none

def sampleAsyncJobs : AsyncJobManager := ⟨sampleUrl, false, 1000, "ajob-"⟩

def sampleCrawlJobs : CrawlJobManager := ⟨sampleUrl, false, 1000, "gl-crawl-"⟩

def sampleAsyncCall (ownerId credentialBinding key uuid : String) :
    CreateAsyncJobInput × Surroundings :=
  (⟨ownerId, credentialBinding, "p", 60, some key, none, none, none⟩, ⟨1000, uuid, .error .other⟩)

def sampleCrawlCall (ownerId credentialBinding key : String) :
    CreateCrawlJobInput × Surroundings :=
  (⟨ownerId, credentialBinding, "https://a.b/", ⟨1, 1, 1⟩, 60, none, some key, none⟩,
    ⟨1000, "", .error .other⟩)

/-- Whether the last request was given a job that was there before and is not its owner's. -/
def crosses : List Creation → Bool
  | [] => false
  | creation :: _ => creation.given.any fun given =>
    given.reused && given.ownerId != creation.request.ownerId

theorem not_isolated {S : Type} [JobState S] {created : Created S}
    (h : crosses created.creations = true) : ¬ ReuseIsolated created := by
  intro hisolated
  unfold crosses at h
  split at h
  · cases h
  · rename_i creation older heq
    obtain ⟨given, hgiven, htest⟩ := (Option.any_eq_true _ _).1 h
    rw [Bool.and_eq_true, bne_iff_ne] at htest
    exact htest.2 (hisolated.reused [] creation older given heq hgiven htest.1).1

/-- Requests that are all the same have keys apart. -/
theorem keysApart_of_same {request : Request} {requests : List Request}
    (h : ∀ other ∈ requests, other = request) : KeysApart requests := by
  intro first hfirst second hsecond key key' _ _
  obtain rfl := h first hfirst
  obtain rfl := h second hsecond
  refine ⟨fun middle hcut => ?_, fun _ _ => rfl⟩
  have hlength := congrArg (fun text => text.toList.length) hcut.1
  simp [String.toList_append] at hlength

/-- The same request twice. -/
theorem creation_isolated_sample :
    (ReuseIsolated (sampleAsyncJobs.run
        [sampleAsyncCall "a" "x" "k" "1", sampleAsyncCall "a" "x" "k" "2"] initial) ∧
      ReuseIsolated (sampleCrawlJobs.run
        [sampleCrawlCall "a" "x" "k", sampleCrawlCall "a" "x" "k"] initial 1)) ∧
      ((sampleCrawlJobs.run [sampleCrawlCall "a" "x" "k", sampleCrawlCall "a" "x" "k"] initial
        1).creations.head?.bind Creation.given) = some ⟨"gl-crawl-000001", "a", true⟩ := by
  have hsame : (∀ request ∈ sampleAsyncJobs.checked
        [sampleAsyncCall "a" "x" "k" "1", sampleAsyncCall "a" "x" "k" "2"],
        request = ⟨"a", "x", some "k"⟩) ∧
      ∀ request ∈ sampleCrawlJobs.checked
        [sampleCrawlCall "a" "x" "k", sampleCrawlCall "a" "x" "k"],
        request = ⟨"a", "x", some "k"⟩ := by
    decide +kernel
  have hisolated := creation_isolated sampleAsyncJobs sampleCrawlJobs
  exact ⟨⟨hisolated.1 _ (by decide) (keysApart_of_same hsame.1),
    hisolated.2 _ (keysApart_of_same hsame.2)⟩, by decide +kernel⟩

/-- Both managers give one owner the job of another one. -/
theorem reuse_crosses : ¬ ∀ (asyncJobs : AsyncJobManager) (crawlJobs : CrawlJobManager),
    (∀ calls, (calls.map fun call => call.2.uuid).Nodup →
      ReuseIsolated (asyncJobs.run calls initial)) ∨
    ∀ calls, ReuseIsolated (crawlJobs.run calls initial 1) := by
  intro h
  have hcrosses : crosses (sampleAsyncJobs.run
        [sampleAsyncCall "a:b" "x" "c" "1", sampleAsyncCall "a" "y" "b:c" "2"] initial).creations =
          true ∧
      crosses (sampleCrawlJobs.run
        [sampleCrawlCall "a:b" "x" "c", sampleCrawlCall "a" "y" "b:c"] initial 1).creations =
          true := by
    decide +kernel
  rcases h sampleAsyncJobs sampleCrawlJobs with hasync | hcrawl
  · exact not_isolated hcrosses.1 (hasync _ (by decide))
  · exact not_isolated hcrosses.2 (hcrawl _)

/-- Owners without a colon keep their jobs. -/
example : crosses (sampleCrawlJobs.run
    [sampleCrawlCall "a" "x" "c", sampleCrawlCall "b" "x" "c"] initial 1).creations = false := by
  decide +kernel

end Groundlane.Jobs
