import Groundlane.Interleaving.Alone
import Groundlane.Tasks.GivingUp
import Groundlane.Tasks.Lifecycle

/-!
# What a poll leaves behind

`DurableMcpTaskRuntime.get` while nobody else moves: the call takes the lease on a task whose
provider is working, polls, and stores what the poll comes to. The handler around the poll does not
cover the storing, and a record is not stored past its limit of 48 KiB: an outcome is stored exactly
if the record that carries it keeps within that limit (`poll_settled_iff`). Otherwise the call
throws and leaves the lease, so that a later poll fetches the same outcome again.
-/

namespace Groundlane.McpTasks

open Fenced Fenced.Store Interleaving Interleaving.Program

/-! ## Swaps without interference -/

/-- The checks in front of the swap of a record. -/
structure Storable (taskId : String) (revision : Nat) (next : DurableTaskState) (nowMs : Int) :
    Prop where
  encode : encode next = .ok (.task next)
  key : validateDurableKey (taskKey taskId) = .ok ()
  write : validateDurableWrite (.task next : TaskValue) nowMs (some next.expiresAt) = .ok ()
  revision : validateExpectedRevision revision = .ok ()

variable (state : DurableTaskState)

theorem encode_eq : encode state = .ok (.task state) ∨ ∃ error, encode state = .error error := by
  unfold encode
  split
  · exact .inr ⟨_, rfl⟩
  · exact .inl rfl

theorem encode_ok_iff :
    encode state = .ok (.task state) ↔ utf8Length state.toJson.render ≤ 48 * 1024 := by
  unfold encode
  split
  · next hlong => exact ⟨nofun, fun hle => absurd hle (Nat.not_le.2 hlong)⟩
  · next hshort => exact ⟨fun _ => Nat.le_of_not_lt hshort, fun _ => rfl⟩

section Swaps

variable {runtime : Runtime} {oracle : Oracle Answer} {disk : Disk TaskValue String}
  {taskId : String} {revision : Nat} {next : DurableTaskState} {nowMs : Int}

/-- A save that passes the checks is one swap. -/
theorem save_settle (h : Storable taskId revision next nowMs) :
    (save taskId revision next nowMs).settle (exec runtime.sha256 oracle) disk =
      (.ok (disk.records.compareAndSwap (taskKey taskId) revision (.task next) nowMs
          (some next.expiresAt)).2,
        { disk with
          records := (disk.records.compareAndSwap (taskKey taskId) revision (.task next) nowMs
            (some next.expiresAt)).1 }) := by
  unfold save compareAndSwap
  simp only [bind_eq, liftM_eq]
  rw [h.encode, Program.ofExcept_ok, done_bind, h.key, Program.ofExcept_ok, done_bind, h.write,
    Program.ofExcept_ok, done_bind, h.revision, Program.ofExcept_ok, done_bind]
  rfl

variable (runtime oracle disk) in
/-- A save that fails a check leaves the stores as they are. -/
theorem save_settle_refused (h : ¬ Storable taskId revision next nowMs) :
    ∃ error, (save taskId revision next nowMs).settle (exec runtime.sha256 oracle) disk =
      (.error error, disk) := by
  unfold save compareAndSwap
  simp only [bind_eq, liftM_eq]
  rw [settle_check]
  rcases encode_eq next with hencode | ⟨error, hencode⟩
  · rw [hencode]
    dsimp only
    rw [settle_check]
    cases hkey : validateDurableKey (taskKey taskId) with
    | error error => exact ⟨error, rfl⟩
    | ok _ =>
      dsimp only
      rw [settle_check]
      cases hwrite : validateDurableWrite (.task next : TaskValue) nowMs (some next.expiresAt) with
      | error error => exact ⟨error, rfl⟩
      | ok _ =>
        dsimp only
        rw [settle_check]
        cases hrevision : validateExpectedRevision revision with
        | error error => exact ⟨error, rfl⟩
        | ok _ => exact absurd ⟨hencode, hkey, hwrite, hrevision⟩ h
  · rw [hencode]
    exact ⟨error, rfl⟩

end Swaps

/-! ## The call -/

/-- The outcome that `get` stores: the provider's own, or a failure with the error that was
thrown. -/
def outcomeOf : Except Fault AsyncTaskPollOutcome → AsyncTaskPollOutcome
  | .ok outcome => outcome
  | .error error => ⟨.failed, none, none, some (sanitizeUpstreamError error), none⟩

/-- What the provider makes of the input and of the task. -/
def polledBy (oracle : Oracle Answer) (state : DurableTaskState) :
    Except Fault AsyncTaskPollOutcome := do
  let input ← oracle.answer (.parseInput state.operationInput)
  oracle.answer (.poll (state.providerTaskId.getD "") input)

def pollOutcome (oracle : Oracle Answer) (state : DurableTaskState) : AsyncTaskPollOutcome :=
  outcomeOf (polledBy oracle state)

/-- A call that polls: it reads a task whose provider is working, and takes the lease on it. -/
structure Polls (runtime : Runtime) (oracle : Oracle Answer) (disk : Disk TaskValue String)
    (taskId : String) (caller : AsyncJobCaller) (nowMs : Int) (current : VersionedTask)
    (lease : Record String TaskValue) : Prop where
  found : ((read taskId caller nowMs).settle (exec runtime.sha256 oracle) disk).1 = .ok current
  status : current.state.status = .working
  provider : current.state.providerTaskId ≠ none
  due : current.state.nextPollAt ≤ nowMs
  locked : ((save taskId current.revision (current.state.leased nowMs) nowMs).settle
    (exec runtime.sha256 oracle) disk).1 = .ok (.updated lease)

/-- The task record that is stored. -/
def storedTask (disk : Disk TaskValue String) (taskId : String) : Option DurableTaskState :=
  match disk.records.get (taskKey taskId) with
  | some ⟨_, .task state, _, _, _, _⟩ => some state
  | _ => none

/-- The outcome is stored with the task, or a failure with a sanitized error is; and the call does
not throw and leave the task working behind an outcome that is not. -/
def OutcomeSettled (state : DurableTaskState) (outcome : AsyncTaskPollOutcome) (nowMs : Int)
    (taskId : String) (reply : Except Fault DetailedMcpTask × Disk TaskValue String) : Prop :=
  (∃ after, storedTask reply.2 taskId = some after ∧
    (after = state.polled nowMs outcome ∨ after.status = .failed ∧
      ∃ fault, after.sanitizedError = some (sanitizeUpstreamError fault))) ∧
  ¬ (outcome.status ≠ .working ∧ (∃ error, reply.1 = .error error) ∧
    ∃ after, storedTask reply.2 taskId = some after ∧ after.status = .working)

section Polling

variable {runtime : Runtime} {oracle : Oracle Answer} {disk leased : Disk TaskValue String}
  {taskId : String} {caller : AsyncJobCaller} {nowMs : Int} {current : VersionedTask}
  {lease : Record String TaskValue}

theorem polled_status_working {state : DurableTaskState} {outcome : AsyncTaskPollOutcome}
    (h : (state.polled nowMs outcome).status = .working) : outcome.status = .working := by
  unfold DurableTaskState.polled at h
  cases hstatus : outcome.status with
  | working => rfl
  | inputRequired => simp [hstatus] at h
  | completed => simp [hstatus] at h
  | failed => simp [hstatus] at h

/-- What a read returns is the stored record, and the stores stay as they are. -/
theorem stored_of_read
    (h : ((read taskId caller nowMs).settle (exec runtime.sha256 oracle) disk).1 = .ok current) :
    (read taskId caller nowMs).settle (exec runtime.sha256 oracle) disk = (.ok current, disk) ∧
      ∃ record, disk.records.get (taskKey taskId) = some record ∧ decode record = .ok current := by
  unfold read get at h ⊢
  simp only [bind_eq, liftM_eq, pure_eq, Program.bind_assoc] at h ⊢
  rw [settle_check] at h ⊢
  split at h
  · rw [settle_check] at h ⊢
    split at h
    · rw [settle_check] at h ⊢
      split at h
      · rw [request_bind, settle_perform] at h ⊢
        dsimp only [exec] at h ⊢
        cases hget : disk.records.get (taskKey taskId) with
        | none =>
          rw [hget] at h
          cases h
        | some record =>
          rw [hget] at h
          dsimp only at h ⊢
          rw [settle_check] at h ⊢
          cases hdecode : decode record with
          | error error =>
            rw [hdecode] at h
            cases h
          | ok found =>
            rw [hdecode] at h
            dsimp only at h ⊢
            rw [settle_check] at h ⊢
            split at h
            · split at h
              · cases h
              · next hlive =>
                  obtain rfl := Except.ok.inj h
                  refine ⟨?_, record, rfl, hdecode⟩
                  rw [if_neg hlive]
                  rfl
            · cases h
      · cases h
    · cases h
  · cases h

/-- A record that decodes holds a task, and another record with the same names and units decodes as
well. -/
theorem decode_next {record other : Record String TaskValue} {next : DurableTaskState}
    (h : decode record = .ok current) (hvalue : other.value = .task next)
    (hnames : next.taskId = current.state.taskId ∧ next.ownerId = current.state.ownerId ∧
      next.credentialBinding = current.state.credentialBinding)
    (hbilling : next.billing = current.state.billing) :
    decode other = .ok ⟨next, other.revision⟩ := by
  obtain ⟨hrecord, -⟩ := decode_ok h
  obtain ⟨htask, howner, hcredential⟩ := hnames
  unfold decode at h ⊢
  rw [hrecord] at h
  rw [hvalue]
  dsimp only at h ⊢
  rw [htask, howner, hcredential, hbilling]
  -- Both run the same checks, the last of which is followed by different results.
  split at h
  · cases h
  · next hunits =>
      rw [if_neg hunits]
      cases hfirst : assertIdentity current.state.taskId "taskId" with
      | error error => rw [hfirst] at h; cases h
      | ok _ =>
        cases hsecond : assertIdentity current.state.ownerId "ownerId" with
        | error error => rw [hfirst, hsecond] at h; cases h
        | ok _ =>
          cases hthird : assertIdentity current.state.credentialBinding "credentialBinding" with
          | error error => rw [hfirst, hsecond, hthird] at h; cases h
          | ok _ => rfl

/-- The lease is the task that was read, one revision later. -/
theorem Polls.lease_eq (h : Polls runtime oracle disk taskId caller nowMs current lease) :
    Storable taskId current.revision (current.state.leased nowMs) nowMs ∧
      ∃ leased, (save taskId current.revision (current.state.leased nowMs) nowMs).settle
          (exec runtime.sha256 oracle) disk = (.ok (.updated lease), leased) ∧
        leased.records.get (taskKey taskId) = some lease ∧
        lease.value = .task (current.state.leased nowMs) ∧
        lease.revision = current.revision + 1 := by
  by_cases hstorable : Storable taskId current.revision (current.state.leased nowMs) nowMs
  · refine ⟨hstorable, _, Prod.ext h.locked rfl, ?_⟩
    have hsave := h.locked
    rw [save_settle hstorable] at hsave ⊢
    have hresult := Except.ok.inj hsave
    rcases compareAndSwap_cases disk.records (taskKey taskId) current.revision
      (.task (current.state.leased nowMs) : TaskValue) nowMs
      (some (current.state.leased nowMs).expiresAt) with
      ⟨-, heq⟩ | ⟨_, -, -, heq⟩ | ⟨_, hget, hrevision, heq⟩
    · rw [heq] at hresult
      cases hresult
    · rw [heq] at hresult
      cases hresult
    · rw [heq] at hresult ⊢
      cases hresult
      refine ⟨?_, rfl, by rw [hrevision]⟩
      rw [Store.get_replace, if_pos rfl, hget]
      rfl
  · obtain ⟨_, hrefused⟩ := save_settle_refused runtime oracle disk hstorable
    have hsave := h.locked
    rw [hrefused] at hsave
    cases hsave

/-! ## What is stored -/

theorem storedTask_of_get {disk : Disk TaskValue String} {record : Record String TaskValue}
    {state : DurableTaskState} (hget : disk.records.get (taskKey taskId) = some record)
    (hvalue : record.value = .task state) : storedTask disk taskId = some state := by
  unfold storedTask
  rw [hget]
  obtain ⟨_, value, _, _, _, _⟩ := record
  obtain rfl : value = .task state := hvalue
  rfl

variable (runtime oracle caller nowMs) in
/-- Storing the outcome: one swap at the lease, if the record passes the checks. -/
theorem persist_settle (versioned : VersionedTask) (outcome : AsyncTaskPollOutcome)
    (hnamed : versioned.state.taskId = taskId)
    (hlease : leased.records.get (taskKey taskId) = some lease)
    (hrevision : versioned.revision = lease.revision) :
    let reply := (persistPollOutcome versioned outcome caller nowMs).settle
      (exec runtime.sha256 oracle) leased
    (Storable taskId lease.revision (versioned.state.polled nowMs outcome) nowMs →
        storedTask reply.2 taskId = some (versioned.state.polled nowMs outcome)) ∧
      (¬ Storable taskId lease.revision (versioned.state.polled nowMs outcome) nowMs →
        (∃ error, reply.1 = .error error) ∧ reply.2 = leased) := by
  intro reply
  have hreply : reply = (persistPollOutcome versioned outcome caller nowMs).settle
      (exec runtime.sha256 oracle) leased := rfl
  unfold persistPollOutcome at hreply
  rw [bind_eq, hnamed, hrevision] at hreply
  constructor
  · intro hstorable
    rw [settle_bind_ok (save_settle hstorable)] at hreply
    rcases compareAndSwap_cases leased.records (taskKey taskId) lease.revision
      (.task (versioned.state.polled nowMs outcome) : TaskValue) nowMs
      (some (versioned.state.polled nowMs outcome).expiresAt) with
      ⟨hnone, -⟩ | ⟨found, hget, hne, -⟩ | ⟨found, hget, _, heq⟩
    · exact absurd (hnone.symm.trans hlease) nofun
    · exact absurd (congrArg Record.revision (Option.some.inj (hget.symm.trans hlease))) hne
    · rw [heq] at hreply
      dsimp only at hreply
      rw [bind_eq, liftM_eq, settle_check] at hreply
      have hstored : storedTask { leased with
          records := leased.records.replace ⟨taskKey taskId,
            .task (versioned.state.polled nowMs outcome), found.revision + 1, found.createdAt,
            nowMs, some (versioned.state.polled nowMs outcome).expiresAt⟩ } taskId =
          some (versioned.state.polled nowMs outcome) := by
        have hreplaced := Store.get_replace leased.records ⟨taskKey taskId,
          .task (versioned.state.polled nowMs outcome), found.revision + 1, found.createdAt,
          nowMs, some (versioned.state.polled nowMs outcome).expiresAt⟩ (taskKey taskId)
        rw [if_pos rfl, hget] at hreplaced
        exact storedTask_of_get hreplaced rfl
      -- Whether or not the record decodes, it is stored.
      split at hreply
      · rw [hreply]
        exact hstored
      · rw [hreply]
        exact hstored
  · intro hrefused
    obtain ⟨error, hsettle⟩ := save_settle_refused runtime oracle leased hrefused
    rw [settle_bind_error hsettle] at hreply
    rw [hreply]
    exact ⟨⟨error, rfl⟩, rfl⟩

/-- Behind the lease, the call stores what the poll comes to. -/
theorem pollProvider_settle {versioned : VersionedTask}
    (hrunning : oracle.answer .aborted = false) :
    (pollProvider versioned caller nowMs).settle (exec runtime.sha256 oracle) leased =
      (persistPollOutcome versioned (pollOutcome oracle versioned.state) caller nowMs).settle
        (exec runtime.sha256 oracle) leased := by
  have hasked : ((do
      let parsed ← ask (Request.parseInput versioned.state.operationInput)
      let input ← parsed
      let answer ← ask (Request.poll (versioned.state.providerTaskId.getD "") input)
      Program.ofExcept answer : TaskIo AsyncTaskPollOutcome)).settle
        (exec runtime.sha256 oracle) leased =
      (polledBy oracle versioned.state, leased) := by
    unfold ask polledBy
    simp only [bind_eq, liftM_eq]
    rw [request_bind, settle_perform]
    refine settle_check_pure fun input => ?_
    rw [request_bind, settle_perform]
    exact settle_ofExcept _
  have hfailed : ∀ error : Fault, (do
      let aborted ← ask Request.aborted
      let failure : AsyncTaskPollOutcome :=
        ⟨.failed, none, none, some (sanitizeUpstreamError error), none⟩
      if aborted then Program.raise error
      else persistPollOutcome versioned failure caller nowMs : TaskIo DetailedMcpTask).settle
        (exec runtime.sha256 oracle) leased =
      (persistPollOutcome versioned ⟨.failed, none, none, some (sanitizeUpstreamError error), none⟩
        caller nowMs).settle (exec runtime.sha256 oracle) leased := by
    intro error
    unfold ask
    rw [bind_eq, request_bind, settle_perform]
    show settle _ (if oracle.answer .aborted = true then _ else _) _ = _
    rw [if_neg (by rw [hrunning]; decide)]
    rfl
  unfold pollProvider
  rw [bind_eq, settle_bind_ok (settle_attempt _), hasked]
  unfold pollOutcome
  cases polledBy oracle versioned.state with
  | error error => exact hfailed error
  | ok outcome => rfl

/-- Behind its reads and the lease, the call is the storing of what the poll comes to. -/
theorem Polls.getTask_settle (h : Polls runtime oracle disk taskId caller nowMs current lease)
    (hrunning : oracle.answer .aborted = false) :
    ∃ leased, leased.records.get (taskKey taskId) = some lease ∧
      (getTask taskId caller nowMs).settle (exec runtime.sha256 oracle) disk =
        (persistPollOutcome ⟨current.state.leased nowMs, lease.revision⟩
          (pollOutcome oracle current.state) caller nowMs).settle
            (exec runtime.sha256 oracle) leased := by
  obtain ⟨hread, _, -, hdecode⟩ := stored_of_read h.found
  obtain ⟨-, leased, hsave, hget, hvalue, -⟩ := h.lease_eq
  refine ⟨leased, hget, ?_⟩
  have hlease := decode_next hdecode hvalue ⟨rfl, rfl, rfl⟩ rfl
  have hdue := h.due
  have hopen : ¬ (current.state.status.terminal ∨ current.state.status = .inputRequired ∨
      nowMs < current.state.nextPollAt) := by
    rw [h.status]
    simp [DurableTaskStatus.terminal, hdue]
  have hknown : ¬ (current.state.status = .creating ∨ current.state.providerTaskId = none) := by
    rw [h.status]
    simp [h.provider]
  have houtcome : pollOutcome oracle (current.state.leased nowMs) =
      pollOutcome oracle current.state := rfl
  unfold getTask
  rw [bind_eq, settle_bind_ok hread, if_neg hopen, if_neg hknown, bind_eq, settle_bind_ok hsave]
  dsimp only
  rw [bind_eq, hlease, liftM_eq, Program.ofExcept_ok, done_bind, pollProvider_settle hrunning,
    houtcome]

end Polling

/-! ## The condition -/

/-- The provider is still working, or the record that carries the outcome keeps within its limit
and the revision of the lease is one that can be swapped. -/
def KeepsWithin (state : DurableTaskState) (outcome : AsyncTaskPollOutcome) (nowMs : Int)
    (revision : Nat) : Prop :=
  outcome.status = .working ∨
    (utf8Length ((state.leased nowMs).polled nowMs outcome).toJson.render ≤ 48 * 1024 ∧
      isSafeInteger (revision + 1 : Nat))

section Condition

variable {runtime : Runtime} {oracle : Oracle Answer} {disk : Disk TaskValue String}
  {taskId : String} {caller : AsyncJobCaller} {nowMs : Int} {current : VersionedTask}
  {lease : Record String TaskValue}

theorem polled_expiresAt (outcome : AsyncTaskPollOutcome) :
    (state.polled nowMs outcome).expiresAt = state.expiresAt := by
  unfold DurableTaskState.polled
  cases outcome.status <;> rfl

theorem validateExpectedRevision_iff {revision : Nat} (h : 1 ≤ revision) :
    validateExpectedRevision revision = .ok () ↔ isSafeInteger revision = true := by
  unfold validateExpectedRevision
  by_cases hsafe : isSafeInteger revision = true
  · rw [if_neg (by simp [hsafe]; omega)]
    simp [hsafe]
  · rw [if_pos (by simp [hsafe])]
    simp [hsafe]

/-- Behind the lease only the size and the revision can fail. -/
theorem Polls.storable_iff (h : Polls runtime oracle disk taskId caller nowMs current lease)
    (outcome : AsyncTaskPollOutcome) :
    Storable taskId lease.revision ((current.state.leased nowMs).polled nowMs outcome) nowMs ↔
      utf8Length ((current.state.leased nowMs).polled nowMs outcome).toJson.render ≤ 48 * 1024 ∧
        isSafeInteger (current.revision + 1 : Nat) := by
  obtain ⟨hstorable, -, -, -, -, hrevision⟩ := h.lease_eq
  rw [hrevision, ← validateExpectedRevision_iff (Nat.le_add_left 1 _), ← encode_ok_iff]
  constructor
  · intro hnext
    exact ⟨hnext.encode, hnext.revision⟩
  · rintro ⟨hencode, hnext⟩
    exact ⟨hencode, hstorable.key, validateDurableWrite_of_encode (current.state.leased nowMs) _
      nowMs hencode (polled_expiresAt _ _) hstorable.write, hnext⟩

/-- While the provider is working, the lease is what there is to store. -/
theorem polled_working {state : DurableTaskState} {outcome : AsyncTaskPollOutcome}
    (hstatus : state.status = .working) (houtcome : outcome.status = .working) :
    (state.leased nowMs).polled nowMs outcome = state.leased nowMs := by
  unfold DurableTaskState.polled DurableTaskState.leased
  rw [houtcome]
  cases state
  obtain rfl := hstatus
  rfl

/-- An outcome that can be stored is settled. -/
theorem Polls.settled (h : Polls runtime oracle disk taskId caller nowMs current lease)
    (hnamed : current.state.taskId = taskId) (hrunning : oracle.answer .aborted = false)
    (hkeeps : KeepsWithin current.state (pollOutcome oracle current.state) nowMs current.revision) :
    OutcomeSettled (current.state.leased nowMs) (pollOutcome oracle current.state) nowMs taskId
      ((getTask taskId caller nowMs).settle (exec runtime.sha256 oracle) disk) := by
  obtain ⟨leased, hget, hcall⟩ := h.getTask_settle hrunning
  obtain ⟨-, -, -, -, hvalue, -⟩ := h.lease_eq
  obtain ⟨hstore, hrefuse⟩ := persist_settle runtime oracle caller nowMs
    ⟨current.state.leased nowMs, lease.revision⟩ (pollOutcome oracle current.state) hnamed hget rfl
  rw [hcall]
  by_cases hstorable : Storable taskId lease.revision
      ((current.state.leased nowMs).polled nowMs (pollOutcome oracle current.state)) nowMs
  · have hafter := hstore hstorable
    refine ⟨⟨_, hafter, .inl rfl⟩, ?_⟩
    rintro ⟨hterminal, -, _, hother, hworking⟩
    obtain rfl := Option.some.inj (hafter.symm.trans hother)
    exact hterminal (polled_status_working hworking)
  · -- What does not pass the checks here is an answer that the provider is still working.
    have houtcome : (pollOutcome oracle current.state).status = .working :=
      hkeeps.resolve_right fun hfits => hstorable ((h.storable_iff _).2 hfits)
    refine ⟨⟨current.state.leased nowMs, ?_, .inl ?_⟩, fun hthrown => hthrown.1 houtcome⟩
    · rw [(hrefuse hstorable).2]
      exact storedTask_of_get hget hvalue
    · have hstatus : (current.state.leased nowMs).status = .working := h.status
      exact (polled_working hstatus houtcome).symm

/-- An outcome that cannot be stored is fetched in vain: the call throws, and the task keeps
working. -/
theorem Polls.not_settled (h : Polls runtime oracle disk taskId caller nowMs current lease)
    (hnamed : current.state.taskId = taskId) (hrunning : oracle.answer .aborted = false)
    (hexceeds : ¬ KeepsWithin current.state (pollOutcome oracle current.state) nowMs
      current.revision) :
    ¬ OutcomeSettled (current.state.leased nowMs) (pollOutcome oracle current.state) nowMs taskId
      ((getTask taskId caller nowMs).settle (exec runtime.sha256 oracle) disk) := by
  obtain ⟨leased, hget, hcall⟩ := h.getTask_settle hrunning
  obtain ⟨-, -, -, -, hvalue, -⟩ := h.lease_eq
  obtain ⟨-, hrefuse⟩ := persist_settle runtime oracle caller nowMs
    ⟨current.state.leased nowMs, lease.revision⟩ (pollOutcome oracle current.state) hnamed hget rfl
  obtain ⟨houtcome, hfits⟩ := not_or.1 hexceeds
  obtain ⟨hthrown, hafter⟩ := hrefuse fun hstorable => hfits ((h.storable_iff _).1 hstorable)
  rw [hcall]
  rintro ⟨-, hleft⟩
  refine hleft ⟨houtcome, hthrown, current.state.leased nowMs, ?_, h.status⟩
  rw [hafter]
  exact storedTask_of_get hget hvalue

end Condition

/-! ## Every poll -/

/-- A poll of a task in a run of the runtime settles its outcome exactly if the record with that
outcome keeps within its limits. -/
theorem poll_settled_iff (runtime : Runtime) (actions : List (Action Call (Oracle Answer)))
    (oracle : Oracle Answer) (taskId : String) (caller : AsyncJobCaller) (nowMs : Int)
    (current : VersionedTask) (lease : Record String TaskValue)
    (h : Polls runtime oracle (runtime.system.run Runtime.initial actions).state taskId caller nowMs
      current lease) (hrunning : oracle.answer .aborted = false) :
    OutcomeSettled (current.state.leased nowMs) (pollOutcome oracle current.state) nowMs taskId
        ((getTask taskId caller nowMs).settle (exec runtime.sha256 oracle)
          (runtime.system.run Runtime.initial actions).state) ↔
      KeepsWithin current.state (pollOutcome oracle current.state) nowMs current.revision := by
  obtain ⟨-, record, hget, hdecode⟩ := stored_of_read h.found
  have hkey := ((invariant_run actions).task hget (decode_ok hdecode).1).1
  have hnamed : current.state.taskId = taskId := (taskKey_inj.1 hkey).symm
  constructor
  · intro hsettled
    by_contra hexceeds
    exact h.not_settled hnamed hrunning hexceeds hsettled
  · exact h.settled hnamed hrunning

/-! ## Samples -/

/-- What the call reads and the lease that it takes, if it polls. -/
def pollsWith (runtime : Runtime) (oracle : Oracle Answer) (disk : Disk TaskValue String)
    (taskId : String) (caller : AsyncJobCaller) (nowMs : Int) :
    Option (VersionedTask × Record String TaskValue) :=
  match ((read taskId caller nowMs).settle (exec runtime.sha256 oracle) disk).1 with
  | .ok current =>
    if current.state.status = .working ∧ current.state.providerTaskId ≠ none ∧
        current.state.nextPollAt ≤ nowMs then
      match ((save taskId current.revision (current.state.leased nowMs) nowMs).settle
        (exec runtime.sha256 oracle) disk).1 with
      | .ok (.updated lease) => some (current, lease)
      | _ => none
    else none
  | .error _ => none

theorem polls_of_pollsWith {runtime : Runtime} {oracle : Oracle Answer}
    {disk : Disk TaskValue String} {taskId : String} {caller : AsyncJobCaller} {nowMs : Int}
    {current : VersionedTask} {lease : Record String TaskValue}
    (h : pollsWith runtime oracle disk taskId caller nowMs = some (current, lease)) :
    Polls runtime oracle disk taskId caller nowMs current lease := by
  unfold pollsWith at h
  split at h
  · next found hfound =>
      split at h
      · next hdue =>
          split at h
          · next locked hlocked =>
              obtain ⟨rfl, rfl⟩ := Prod.mk.inj (Option.some.inj h)
              exact ⟨hfound, hdue.1, hdue.2.1, hdue.2.2, hlocked⟩
          · cases h
      · cases h
  · cases h

/-- The task has been completed, with nothing to show. -/
def sampleCompleted : AsyncTaskPollOutcome := ⟨.completed, none, none, none, none⟩

/-- The stores behind the start of a task. -/
def sampleDisk : Disk TaskValue String :=
  (sampleRuntime.system.run Runtime.initial sampleStart).state

theorem poll_settled_sample : ∃ current : VersionedTask,
    OutcomeSettled (current.state.leased 2000)
      (pollOutcome (sampleOracle sampleCompleted) current.state) 2000 "ajob-0"
      ((getTask "ajob-0" sampleCaller 2000).settle
        (exec sampleRuntime.sha256 (sampleOracle sampleCompleted)) sampleDisk) := by
  have hpolls : ((pollsWith sampleRuntime (sampleOracle sampleCompleted) sampleDisk "ajob-0"
      sampleCaller 2000).any fun found =>
        decide (utf8Length ((found.1.state.leased 2000).polled 2000
          sampleCompleted).toJson.render ≤ 48 * 1024) && found.1.revision == 2) = true := by
    decide +kernel
  obtain ⟨⟨current, lease⟩, hfound, hkeeps⟩ := (Option.any_eq_true _ _).1 hpolls
  rw [Bool.and_eq_true, decide_eq_true_eq, beq_iff_eq] at hkeeps
  obtain ⟨hsize, hrevision⟩ := hkeeps
  refine ⟨current, (poll_settled_iff sampleRuntime sampleStart (sampleOracle sampleCompleted)
    "ajob-0" sampleCaller 2000 current lease (polls_of_pollsWith hfound) rfl).2 (.inr ⟨hsize, ?_⟩)⟩
  rw [hrevision]
  rfl

/-! ## An outcome that is too large -/

theorem length_le_utf8Length (text : List Char) : text.length ≤ utf8Length text := by
  unfold utf8Length
  induction text with
  | nil => exact Nat.le_refl _
  | cons c rest ih =>
    have hsize : 1 ≤ c.utf8Size := Char.utf8Size_pos c
    rw [List.map_cons, List.sum_cons, List.length_cons]
    omega

/-- The text of a value is part of the text of every object that has it. -/
theorem length_render_le {members : List (String × Json)} (key : String) {value : Json}
    (h : (key, value) ∈ members) : value.render.length ≤ (Json.obj members).render.length := by
  have hmore : ∀ members : List (String × Json), (key, value) ∈ members →
      value.render.length ≤ (Json.renderMoreMembers members).length := by
    intro members
    induction members with
    | nil => exact fun h => absurd h List.not_mem_nil
    | cons first rest ih =>
      intro h
      rw [Json.renderMoreMembers.eq_def]
      simp only [List.length_cons, List.length_append]
      rcases List.mem_cons.1 h with heq | h
      · rw [← heq]
        dsimp only
        omega
      · have hrest := ih h
        omega
  cases members with
  | nil => exact absurd h List.not_mem_nil
  | cons first rest =>
    rw [Json.render, Json.renderMembers.eq_def]
    simp only [List.length_cons, List.length_append]
    rcases List.mem_cons.1 h with heq | h
    · rw [← heq]
      dsimp only
      omega
    · have hrest := hmore rest h
      omega

theorem length_render_nulls (count : Nat) :
    5 * count ≤ (Json.renderMoreItems (.replicate count .null)).length := by
  induction count with
  | zero => exact Nat.zero_le _
  | succ count ih =>
    rw [List.replicate_succ, Json.renderMoreItems]
    simp only [List.length_cons, List.length_append, Json.render, List.length_nil]
    omega

example : Json.renderMoreItems (.replicate 2 .null) = ",null,null]".toList := by decide +kernel

theorem length_result_le :
    (Json.ofOption JsonObject.toJson state.result).render.length ≤ state.toJson.render.length := by
  unfold DurableTaskState.toJson
  exact length_render_le "result" (by simp)

/-- The task has been completed, and shows many items. -/
def largeCompleted : AsyncTaskPollOutcome :=
  ⟨.completed, some ⟨[("items", .arr (.replicate 10001 .null))], List.nodup_singleton _⟩, none,
    none, none⟩

theorem largeCompleted_exceeds (nowMs : Int) :
    48 * 1024 < utf8Length (state.polled nowMs largeCompleted).toJson.render := by
  have hitems : 50000 < (Json.arr (.replicate 10001 .null)).render.length := by
    have hnulls := length_render_nulls 10000
    rw [Json.render, List.replicate_succ, Json.renderItems]
    simp only [List.length_cons, List.length_append, Json.render, List.length_nil]
    omega
  have hmember : ("items", Json.arr (.replicate 10001 .null)) ∈
      [("items", Json.arr (.replicate 10001 .null))] := List.mem_cons_self
  have hresult := length_render_le "items" hmember
  have hstate := length_result_le (state.polled nowMs largeCompleted)
  have hbytes := length_le_utf8Length (state.polled nowMs largeCompleted).toJson.render
  have hlarge : Json.ofOption JsonObject.toJson (state.polled nowMs largeCompleted).result =
      .obj [("items", .arr (.replicate 10001 .null))] := rfl
  rw [hlarge] at hstate
  omega

/-- A provider completes a task with a result that the record cannot carry: the poll throws, and
the task keeps working. -/
theorem poll_not_settled : ¬ ∀ (runtime : Runtime) (actions : List (Action Call (Oracle Answer)))
    (oracle : Oracle Answer) (taskId : String) (caller : AsyncJobCaller) (nowMs : Int)
    (current : VersionedTask) (lease : Record String TaskValue),
    Polls runtime oracle (runtime.system.run Runtime.initial actions).state taskId caller nowMs
      current lease → oracle.answer .aborted = false →
    OutcomeSettled (current.state.leased nowMs) (pollOutcome oracle current.state) nowMs taskId
      ((getTask taskId caller nowMs).settle (exec runtime.sha256 oracle)
        (runtime.system.run Runtime.initial actions).state) := by
  intro h
  have hpolls : ((pollsWith sampleRuntime (sampleOracle largeCompleted) sampleDisk "ajob-0"
      sampleCaller 2000).any fun found => found.1.state.taskId == "ajob-0") = true := by
    decide +kernel
  obtain ⟨⟨current, lease⟩, hfound, hnamed⟩ := (Option.any_eq_true _ _).1 hpolls
  have hpolls := polls_of_pollsWith hfound
  refine hpolls.not_settled (eq_of_beq hnamed) rfl ?_ (h sampleRuntime sampleStart
    (sampleOracle largeCompleted) "ajob-0" sampleCaller 2000 current lease hpolls rfl)
  rintro (hworking | ⟨hfits, -⟩)
  · cases hworking
  · exact absurd hfits (Nat.not_le.2 (largeCompleted_exceeds _ _))

end Groundlane.McpTasks
