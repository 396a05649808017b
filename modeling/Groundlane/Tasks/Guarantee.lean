import Groundlane.Tasks.Runtime

/-!
# What every call of the task runtime promises

`TaskTransition` lists what the writers of a task record make of the record they read, and
`Guarantee` says of every event of a call under which circumstances it happens: a record is
created in its initial state, swapped along a transition from what is stored, and never
deleted; the provider is asked to create a task only by the call that created the task record,
and to take answers only by the call that created the effect record of their window.

`Invariant` is what follows for the stored records, and `task_cases` is how the claims about
task records use the guarantee.
-/

namespace Groundlane.McpTasks

open Fenced Interleaving

/-- A world of calls of the runtime. -/
abbrev TaskWorld : Type := DiskWorld Answer Call TaskValue String Reply

/-- An event of a call of the runtime. -/
abbrev TaskEvent : Type := DiskEvent Answer Call TaskValue String Reply

/-- Everything that happened, newest first. -/
abbrev TaskHistory : Type := List (Nat × TaskEvent)

/-! ## Transitions -/

/-- What one writer makes of the task record it read. `Answered` says for which responses the
record's window has been answered, and `Outcome` which poll outcomes the writer has seen. -/
inductive TaskTransition (Answered : DurableTaskState → JsonObject → Prop)
    (Outcome : AsyncTaskPollOutcome → Prop) : DurableTaskState → DurableTaskState → Prop where
  | created (state nowMs providerTaskId) : state.status = .creating →
    TaskTransition Answered Outcome state (state.withProviderTask nowMs providerTaskId)
  | failedUncertain (state nowMs) : state.status = .creating ∨ state.status = .working →
    TaskTransition Answered Outcome state (state.failedUncertain nowMs)
  | leased (state nowMs) : state.status = .working →
    TaskTransition Answered Outcome state (state.leased nowMs)
  | polled (state nowMs outcome) : state.status = .working → Outcome outcome →
    TaskTransition Answered Outcome state (state.polled nowMs outcome)
  | answered (state nowMs accepted) : state.status = .inputRequired → Answered state accepted →
    TaskTransition Answered Outcome state (state.answered nowMs accepted.keys)
  | cancelled (state nowMs) : state.status.terminal = false →
    TaskTransition Answered Outcome state (state.cancelled nowMs)
  | acknowledged (state nowMs) : state.status = .cancelled →
    TaskTransition Answered Outcome state (state.acknowledged nowMs)
  | stoppedWaiting (state nowMs) :
    TaskTransition Answered Outcome state (state.stoppedWaiting nowMs)

namespace TaskTransition

variable {Answered : DurableTaskState → JsonObject → Prop} {Outcome : AsyncTaskPollOutcome → Prop}
  {state next : DurableTaskState}

/-- A poll changes the status, the result, the error, the billing and the requests only. -/
theorem polled_frame (state : DurableTaskState) (nowMs : Int) (outcome : AsyncTaskPollOutcome) :
    (state.polled nowMs outcome).taskId = state.taskId ∧
      (state.polled nowMs outcome).expiresAt = state.expiresAt ∧
      (state.polled nowMs outcome).usedInputKeys = state.usedInputKeys ∧
      (state.polled nowMs outcome).upstreamCancelled = state.upstreamCancelled := by
  unfold DurableTaskState.polled
  split <;> exact ⟨rfl, rfl, rfl, rfl⟩

/-- No writer changes which task a record is about. -/
theorem taskId_eq (h : TaskTransition Answered Outcome state next) :
    next.taskId = state.taskId := by
  cases h with
  | polled nowMs outcome => exact (polled_frame state nowMs outcome).1
  | _ => rfl

/-- No writer moves the expiry. -/
theorem expiresAt_eq (h : TaskTransition Answered Outcome state next) :
    next.expiresAt = state.expiresAt := by
  cases h with
  | polled nowMs outcome => exact (polled_frame state nowMs outcome).2.1
  | _ => rfl

/-- No writer touches the outcome of a task that has come to its end. -/
theorem terminal_eq (h : TaskTransition Answered Outcome state next)
    (hterminal : state.status.terminal = true) :
    next.status = state.status ∧ next.result = state.result ∧
      next.sanitizedError = state.sanitizedError ∧ next.billing = state.billing := by
  cases h with
  | created nowMs providerTaskId hstatus => simp [hstatus, DurableTaskStatus.terminal] at hterminal
  | failedUncertain nowMs hstatus =>
    rcases hstatus with hstatus | hstatus <;>
      simp [hstatus, DurableTaskStatus.terminal] at hterminal
  | leased nowMs hstatus => simp [hstatus, DurableTaskStatus.terminal] at hterminal
  | polled nowMs outcome hstatus => simp [hstatus, DurableTaskStatus.terminal] at hterminal
  | answered nowMs accepted hstatus => simp [hstatus, DurableTaskStatus.terminal] at hterminal
  | cancelled nowMs hstatus => simp [hstatus] at hterminal
  | acknowledged nowMs hstatus => exact ⟨rfl, rfl, rfl, rfl⟩
  | stoppedWaiting nowMs => exact ⟨rfl, rfl, rfl, rfl⟩

/-- Only cancelled tasks are acknowledged as cancelled upstream. -/
theorem upstreamCancelled (h : TaskTransition Answered Outcome state next)
    (hstate : state.upstreamCancelled = true → state.status = .cancelled)
    (hnext : next.upstreamCancelled = true) : next.status = .cancelled := by
  cases h with
  | created nowMs providerTaskId hstatus => simp [hstate hnext] at hstatus
  | failedUncertain nowMs hstatus => simp [hstate hnext] at hstatus
  | leased nowMs hstatus => simp [hstate hnext] at hstatus
  | polled nowMs outcome hstatus =>
    rw [(polled_frame state nowMs outcome).2.2.2] at hnext
    simp [hstate hnext] at hstatus
  | answered nowMs accepted hstatus => simp [hstate hnext] at hstatus
  | cancelled nowMs hstatus => rfl
  | acknowledged nowMs hstatus => exact hstatus
  | stoppedWaiting nowMs => exact hstate hnext

/-- What is asked for has not been answered yet. -/
theorem disjoint (h : TaskTransition Answered Outcome state next)
    (hstate : ∀ key ∈ state.inputRequests.keys, key ∉ state.usedInputKeys) :
    ∀ key ∈ next.inputRequests.keys, key ∉ next.usedInputKeys := by
  cases h with
  | polled nowMs outcome hstatus =>
    rw [(polled_frame state nowMs outcome).2.2.1]
    unfold DurableTaskState.polled
    split
    · exact hstate
    · exact hstate
    · intro key hkey
      simpa using (JsonObject.mem_keys_filterKeys.1 hkey).2
    · exact hstate
  | answered nowMs accepted hstatus =>
    intro key hkey
    obtain ⟨hrequest, hanswer⟩ := JsonObject.mem_keys_filterKeys.1 hkey
    simpa [DurableTaskState.answered] using ⟨hstate key hrequest, by simpa using hanswer⟩
  | _ => exact hstate

end TaskTransition

/-! ## Keys -/

theorem taskKey_inj {taskId other : String} : taskKey taskId = taskKey other ↔ taskId = other := by
  simp [taskKey, String.append_right_inj]

variable {record : Record String TaskValue} {sha256 : String → String} {taskId : String}

theorem taskKey_ne_idempotencyRecordKey {taskId ownerId credentialBinding idempotencyKey : String} :
    taskKey taskId ≠ idempotencyRecordKey sha256 ownerId credentialBinding idempotencyKey :=
  append_ne_append (by decide) _ _

variable {identity : EffectIdentity} {key : String} {j : Nat}

theorem taskKey_ne_key : taskKey taskId ≠ identity.key :=
  append_ne_append (by decide) _ _

theorem idempotencyRecordKey_ne_key {ownerId credentialBinding idempotencyKey : String} :
    idempotencyRecordKey sha256 ownerId credentialBinding idempotencyKey ≠ identity.key :=
  append_ne_append (by decide) _ _

/-- The key of an effect that delivers answers. -/
def IsUpdateKey (sha256 : String → String) (key : String) : Prop :=
  ∃ taskId state, key = (updateIdentity sha256 taskId state).key

/-- Two texts that end alike behind their last colon. -/
private theorem suffix_eq (first second : List Char) {left right : List Char} (hleft : ':' ∉ left)
    (hright : ':' ∉ right) (h : first ++ ':' :: left = second ++ ':' :: right) :
    left = right := by
  have htake : ∀ (front tail : List Char), ':' ∉ tail →
      (front ++ ':' :: tail).reverse.takeWhile (· ≠ ':') = tail.reverse := by
    intro front tail htail
    rw [List.reverse_append, List.reverse_cons, List.append_assoc]
    rw [List.takeWhile_append_of_pos]
    · simp
    · intro c hc
      simpa using fun heq : c = ':' => htail (heq ▸ List.mem_reverse.1 hc)
  have := htake first left hleft
  rw [h, htake second right hright] at this
  exact (List.reverse_injective this).symm

/-- No effect of another kind has the key of a delivery. -/
theorem not_isUpdateKey (sha256 : Sha256 String) (hcolon : ':' ∉ identity.operationKey.toList)
    (hstart : ∀ digest, identity.operationKey ≠ "input-" ++ digest) :
    ¬ IsUpdateKey sha256.text identity.key := by
  rintro ⟨taskId, state, hkey⟩
  have hdigest : ':' ∉ (operationKey sha256.text state).toList := by
    have hhex := sha256.isHex_chars _ (sha256.isHex_text state.windowJson.stringify)
    have hdigest : ':' ∉ (sha256.text state.windowJson.stringify).toList :=
      fun hmem => absurd (List.all_eq_true.1 hhex _ hmem) (by decide)
    simpa [operationKey, inputFingerprint] using hdigest
  have htext := congrArg String.toList hkey
  simp only [EffectIdentity.key, EffectIdentity.path, updateIdentity, String.toList_append] at htext
  have hsuffix := suffix_eq
    ("effect:".toList ++ (identity.jobId.toList ++ ":".toList ++ identity.effectKind.text.toList))
    ("effect:".toList ++
      (taskId.toList ++ ":".toList ++ DurableEffectKind.providerTaskUpdate.text.toList))
    hcolon hdigest (by simpa using htext)
  exact hstart _ (String.toList_inj.1 hsuffix)

theorem not_isUpdateKey_create (sha256 : Sha256 String) (taskId : String) :
    ¬ IsUpdateKey sha256.text (createIdentity taskId).key := by
  refine not_isUpdateKey sha256 (by simp [createIdentity]) fun digest h => ?_
  have := congrArg String.toList h
  simp [createIdentity] at this

theorem not_isUpdateKey_cancel (sha256 : Sha256 String) (taskId : String) :
    ¬ IsUpdateKey sha256.text (cancelIdentity taskId).key := by
  refine not_isUpdateKey sha256 (by simp [cancelIdentity]) fun digest h => ?_
  have := congrArg String.toList h
  simp [cancelIdentity] at this

/-! ## The guarantee -/

/-- Call `i` created the record under `key`. -/
def Created (i : Nat) (key : String) (history : TaskHistory) : Prop :=
  ∃ value nowMs expiresAt record,
    (i, .effect (.createIfAbsent key value nowMs expiresAt) (.created record)) ∈ history

/-- Call `i` gave `accepted` to the provider. -/
def Delivered (i : Nat) (accepted : JsonObject) (history : TaskHistory) : Prop :=
  ∃ providerTaskId answer, (i, .effect (.port (.update providerTaskId accepted)) answer) ∈ history

/-- Call `i` polled the provider and `outcome` was the answer. -/
def Polled (i : Nat) (outcome : AsyncTaskPollOutcome) (history : TaskHistory) : Prop :=
  ∃ providerTaskId input, (i, .effect (.port (.poll providerTaskId input)) (.ok outcome)) ∈ history

/-- `state` is what the record of `taskId` holds. -/
def TaskAt (taskId : String) (state : DurableTaskState) (world : TaskWorld) : Prop :=
  ∃ record, world.state.records.get (taskKey taskId) = some record ∧ record.value = .task state

/-- The record of `taskId` has come to its end. -/
def Terminal (taskId : String) (world : TaskWorld) : Prop :=
  ∃ state, TaskAt taskId state world ∧ state.status.terminal = true

/-- The window of `state` has been answered by `accepted`, and the journal says so. -/
def Answered (sha256 : String → String) (taskId : String) (world : TaskWorld)
    (state : DurableTaskState) (accepted : JsonObject) : Prop :=
  ∃ record effect, world.state.records.get (updateIdentity sha256 taskId state).key = some record ∧
    record.value = .effect effect ∧ effect.status = .succeeded ∧
    effect.receipt = some (responseReceipt sha256 accepted)

/-- The index binds the idempotency key of call `i`, if it has one, to `taskId`. -/
def BoundTo (sha256 : String → String) (i : Nat) (taskId : String) (world : TaskWorld) : Prop :=
  ∀ input caller ttlMs key nowMs,
    (i, .invoke (.start input caller ttlMs (some key) nowMs)) ∈ world.history →
    ∃ record fingerprint, world.state.records.get
        (idempotencyRecordKey sha256 caller.ownerId caller.credentialBinding key) = some record ∧
      record.value = .index taskId fingerprint

/-- The swap with which call `i` wanted to cancel `taskId` met a record that had been changed
but has not come to its end. -/
def LostRace (i : Nat) (taskId : String) (history : TaskHistory) : Prop :=
  ∃ revision next nowMs expiresAt record state,
    (i, .effect (.compareAndSwap (taskKey taskId) revision (.task next) nowMs expiresAt)
      (.conflict record)) ∈ history ∧
    next.status = .cancelled ∧ record.value = .task state ∧ state.status.terminal = false

variable (runtime : Runtime)

/-- The values that are created, and where. -/
def CreateAllowed (key : String) (value : TaskValue) (expiresAt : Option Int) : Prop :=
  match value with
  | .task state =>
    key = taskKey state.taskId ∧ expiresAt = some state.expiresAt ∧
      ∃ input caller idempotencyKey nowMs ttlMs,
        state = initialState runtime state.taskId input caller idempotencyKey nowMs ttlMs
  | .index _ _ =>
    ∃ ownerId credentialBinding idempotencyKey,
      key = idempotencyRecordKey runtime.sha256.text ownerId credentialBinding idempotencyKey
  | .effect effect => (∃ identity : EffectIdentity, key = identity.key) ∧
    effect.status = .claimed

/-- What call `i` may swap in under `key` for the record at `revision`. -/
def SwapAllowed (i : Nat) (key : String) (revision : Nat) (value : TaskValue)
    (expiresAt : Option Int) (world : TaskWorld) : Prop :=
  match value with
  | .task next =>
    ∃ taskId, key = taskKey taskId ∧ expiresAt = some next.expiresAt ∧
      ∀ current, world.state.records.get key = some current → current.revision = revision →
        ∃ state, current.value = .task state ∧
          TaskTransition (Answered runtime.sha256.text taskId world)
            (fun outcome => outcome.status = .inputRequired → Polled i outcome world.history)
            state next
  | .effect next =>
    (∃ identity : EffectIdentity, key = identity.key) ∧
      (IsUpdateKey runtime.sha256.text key →
        Created i key world.history ∧
        (next.status = .succeeded → ∃ accepted, Delivered i accepted world.history ∧
          next.receipt = some (responseReceipt runtime.sha256.text accepted)) ∧
        ∀ current effect, world.state.records.get key = some current →
          current.revision = revision → current.value = .effect effect →
          effect.status ≠ .succeeded)
  | .index _ _ => False

/-- When call `i` asks the provider for something. -/
def RequestAllowed (i : Nat) (request : Request) (world : TaskWorld) : Prop :=
  match request with
  | .create _ =>
    ∃ taskId, Created i (taskKey taskId) world.history ∧
      BoundTo runtime.sha256.text i taskId world
  | .update _ accepted =>
    ∃ taskId inputResponses caller nowMs state,
      (i, .invoke (.update taskId inputResponses caller nowMs)) ∈ world.history ∧
      TaskAt taskId state world ∧
      (state.status = .inputRequired ∨ state.status.terminal = true) ∧
      (∀ key ∈ accepted.keys, key ∈ state.inputRequests.keys) ∧
      Created i (updateIdentity runtime.sha256.text taskId state).key world.history
  | _ => True

/-- What call `i` returns. -/
def ReplyAllowed (i : Nat) (reply : Reply) (world : TaskWorld) : Prop :=
  (∀ task, reply = .task task → BoundTo runtime.sha256.text i task.taskId world) ∧
    ∀ taskId caller nowMs, (i, .invoke (.cancel taskId caller nowMs)) ∈ world.history →
      Terminal taskId world ∨ LostRace i taskId world.history

/-- The circumstances of every event of call `i`. -/
def Guarantee (i : Nat) (event : TaskEvent) (world : TaskWorld) : Prop :=
  match event with
  | .effect (.createIfAbsent key value _ expiresAt) _ => CreateAllowed runtime key value expiresAt
  | .effect (.compareAndSwap key revision value _ expiresAt) _ =>
    SwapAllowed runtime i key revision value expiresAt world
  | .effect (.port request) _ => RequestAllowed runtime i request world
  | .effect (.get _) _ => True
  | .effect _ _ => False
  | .invoke _ => True
  | .response (.ok reply) => ReplyAllowed runtime i reply world
  | .response (.error _) => True

/-! ## The invariant -/

/-- What holds of the stored records after every step that keeps the guarantee. -/
structure Invariant (world : TaskWorld) : Prop where
  task : ∀ {key record state}, world.state.records.get key = some record →
    record.value = .task state →
    key = taskKey state.taskId ∧ record.expiresAt = some state.expiresAt ∧
      (∀ request ∈ state.inputRequests.keys, request ∉ state.usedInputKeys) ∧
      (state.upstreamCancelled = true → state.status = .cancelled)
  index : ∀ {key record taskId fingerprint}, world.state.records.get key = some record →
    record.value = .index taskId fingerprint →
    ∃ ownerId credentialBinding idempotencyKey,
      key = idempotencyRecordKey runtime.sha256.text ownerId credentialBinding idempotencyKey
  effect : ∀ {key record effect}, world.state.records.get key = some record →
    record.value = .effect effect → (∃ identity : EffectIdentity, key = identity.key) ∧
      (IsUpdateKey runtime.sha256.text key → effect.status = .succeeded →
        ∃ i accepted, Created i key world.history ∧ Delivered i accepted world.history ∧
          effect.receipt = some (responseReceipt runtime.sha256.text accepted))
  created : ∀ {i key}, Created i key world.history →
    ∃ record, world.state.records.get key = some record
  creator : ∀ {i j key}, Created i key world.history → Created j key world.history → i = j

variable {runtime} {i : Nat} {event : TaskEvent} {before after : TaskWorld}

theorem Created.mono (hstep : runtime.system.Step i event before after)
    (h : Created j key before.history) : Created j key after.history := by
  obtain ⟨value, nowMs, expiresAt, record, h⟩ := h
  exact ⟨value, nowMs, expiresAt, record, hstep.history_mono h⟩

theorem Delivered.mono {accepted : JsonObject} (hstep : runtime.system.Step i event before after)
    (h : Delivered j accepted before.history) : Delivered j accepted after.history := by
  obtain ⟨providerTaskId, answer, h⟩ := h
  exact ⟨providerTaskId, answer, hstep.history_mono h⟩

/-- What an event that keeps the guarantee does to the record under a key. -/
theorem record_cases (hstep : runtime.system.Step i event before after)
    (hG : Guarantee runtime i event before) (key : String) :
    after.state.records.get key = before.state.records.get key ∨
      (∃ value nowMs expiresAt, before.state.records.get key = none ∧
        after.state.records.get key = some ⟨key, value, 1, nowMs, nowMs, expiresAt⟩ ∧
        CreateAllowed runtime key value expiresAt) ∨
      ∃ current value nowMs expiresAt, before.state.records.get key = some current ∧
        after.state.records.get key =
          some ⟨key, value, current.revision + 1, current.createdAt, nowMs, expiresAt⟩ ∧
        SwapAllowed runtime i key current.revision value expiresAt before := by
  rcases Step.record_cases hstep key with
    heq | ⟨value, nowMs, expiresAt, rfl, hnone, hafter⟩ |
    ⟨current, value, nowMs, expiresAt, rfl, hcurrent, hafter⟩ | ⟨current, rfl, _, _⟩
  · exact .inl heq
  · exact .inr (.inl ⟨value, nowMs, expiresAt, hnone, hafter, hG⟩)
  · exact .inr (.inr ⟨current, value, nowMs, expiresAt, hcurrent, hafter, hG⟩)
  · exact hG.elim

/-- A record that was read is still there, or a later one is. -/
theorem seen_persistent (record : Record String TaskValue) :
    Persistent runtime.system (Guarantee runtime)
      fun world => Store.Seen record world.state.records := by
  intro i event before after hstep hG hseen
  refine Step.seen hstep hseen ?_
  rintro revision rfl
  exact hG.elim

/-- Nothing is ever deleted. -/
theorem get_ne_none (hstep : runtime.system.Step i event before after)
    (hG : Guarantee runtime i event before) (h : before.state.records.get key = some record) :
    ∃ record, after.state.records.get key = some record := by
  rcases record_cases hstep hG key with
    hsame | ⟨_, _, _, hnone, _⟩ | ⟨_, _, _, _, _, hafter, _⟩
  · exact ⟨record, hsame.trans h⟩
  · simp [hnone] at h
  · exact ⟨_, hafter⟩

/-- What an event that keeps the guarantee does to the record of a task: nothing, or it creates
the record in its initial state, or it moves it along a transition. -/
theorem task_cases (hstep : runtime.system.Step i event before after)
    (hG : Guarantee runtime i event before)
    (taskId : String) :
    after.state.records.get (taskKey taskId) = before.state.records.get (taskKey taskId) ∨
      (∃ record state, before.state.records.get (taskKey taskId) = none ∧
        after.state.records.get (taskKey taskId) = some record ∧ record.value = .task state ∧
        record.expiresAt = some state.expiresAt ∧
        ∃ input caller idempotencyKey nowMs ttlMs,
          state = initialState runtime taskId input caller idempotencyKey nowMs ttlMs) ∨
      ∃ current record state next, before.state.records.get (taskKey taskId) = some current ∧
        current.value = .task state ∧
        after.state.records.get (taskKey taskId) = some record ∧ record.value = .task next ∧
        record.expiresAt = some next.expiresAt ∧
        TaskTransition (Answered runtime.sha256.text taskId before)
          (fun outcome => outcome.status = .inputRequired → Polled i outcome before.history)
          state next := by
  rcases record_cases hstep hG (taskKey taskId) with
    hsame | ⟨value, _, _, hnone, hafter, hcreate⟩ |
    ⟨current, value, _, _, hcurrent, hafter, hswap⟩
  · exact .inl hsame
  · cases value with
    | task state =>
      obtain ⟨hkey, hexpiry, input, caller, idempotencyKey, nowMs', ttlMs, hstate⟩ := hcreate
      obtain rfl := taskKey_inj.1 hkey
      exact .inr (.inl ⟨_, state, hnone, hafter, rfl, hexpiry, input, caller, idempotencyKey,
        nowMs', ttlMs, hstate⟩)
    | index taskId' fingerprint =>
      obtain ⟨_, _, _, hkey⟩ := hcreate
      exact absurd hkey taskKey_ne_idempotencyRecordKey
    | effect effect =>
      obtain ⟨⟨_, hkey⟩, _⟩ := hcreate
      exact absurd hkey taskKey_ne_key
  · cases value with
    | task next =>
      obtain ⟨taskId', hkey, hexpiry, htransition⟩ := hswap
      obtain rfl := taskKey_inj.1 hkey
      obtain ⟨state, hstate, htransition⟩ := htransition current hcurrent rfl
      exact .inr (.inr ⟨current, _, state, next, hcurrent, hstate, hafter, rfl, hexpiry,
        htransition⟩)
    | index taskId' fingerprint => exact hswap.elim
    | effect effect =>
      obtain ⟨⟨_, hkey⟩, _⟩ := hswap
      exact absurd hkey taskKey_ne_key

/-- An index record never changes. -/
theorem index_eq (hinv : Invariant runtime before)
    (hstep : runtime.system.Step i event before after) (hG : Guarantee runtime i event before)
    {taskId fingerprint : String} (hget : before.state.records.get key = some record)
    (hvalue : record.value = .index taskId fingerprint) :
    after.state.records.get key = some record := by
  obtain ⟨ownerId, credentialBinding, idempotencyKey, rfl⟩ := hinv.index hget hvalue
  rcases record_cases hstep hG (idempotencyRecordKey _ ownerId credentialBinding idempotencyKey)
    with hsame | ⟨_, _, _, hnone, _⟩ | ⟨_, value, _, _, _, _, hswap⟩
  · exact hsame.trans hget
  · simp [hnone] at hget
  · cases value with
    | task next =>
      obtain ⟨_, hkey, _⟩ := hswap
      exact absurd hkey.symm taskKey_ne_idempotencyRecordKey
    | index taskId fingerprint => exact hswap.elim
    | effect effect =>
      obtain ⟨⟨_, hkey⟩, _⟩ := hswap
      exact absurd hkey idempotencyRecordKey_ne_key

/-- The creation of a record is the only way to a `Created` entry. -/
theorem created_cases (hstep : runtime.system.Step i event before after)
    (h : Created j key after.history) :
    Created j key before.history ∨ j = i ∧ before.state.records.get key = none ∧
      ∃ record, after.state.records.get key = some record := by
  obtain ⟨value, nowMs, expiresAt, record, h⟩ := h
  rcases hstep.mem_history.1 h with heq | hmem
  · obtain ⟨rfl, rfl⟩ := Prod.mk.inj heq
    obtain ⟨hafter, ⟨_, hanswer, _⟩ | ⟨_, hnone⟩⟩ := Step.createIfAbsent_answer hstep
    · cases hanswer
    · exact .inr ⟨rfl, hnone, _, hafter⟩
  · exact .inl ⟨value, nowMs, expiresAt, record, hmem⟩

/-- The invariant is kept by every step that keeps the guarantee. -/
theorem invariant_persistent :
    Persistent runtime.system (Guarantee runtime) (Invariant runtime) := by
  intro i event before after hstep hG hinv
  constructor
  · intro key record state hget hvalue
    rcases record_cases hstep hG key with
      hsame | ⟨value, nowMs, expiresAt, _, hafter, hcreate⟩ |
      ⟨current, value, nowMs, expiresAt, hcurrent, hafter, hswap⟩
    · exact hinv.task (hsame ▸ hget) hvalue
    · obtain rfl := Option.some.inj (hafter.symm.trans hget)
      obtain rfl : value = .task state := hvalue
      obtain ⟨hkey, hexpiry, _, _, _, _, _, hstate⟩ := hcreate
      refine ⟨hkey, hexpiry, ?_, ?_⟩ <;> rw [hstate] <;> simp [initialState]
    · obtain rfl := Option.some.inj (hafter.symm.trans hget)
      obtain rfl : value = .task state := hvalue
      obtain ⟨taskId, -, hexpiry, htransition⟩ := hswap
      obtain ⟨_, hprevious, htransition⟩ := htransition current hcurrent rfl
      obtain ⟨hkey, -, hdisjoint, hupstream⟩ := hinv.task hcurrent hprevious
      exact ⟨by rw [htransition.taskId_eq]; exact hkey, hexpiry, htransition.disjoint hdisjoint,
        htransition.upstreamCancelled hupstream⟩
  · intro key record taskId fingerprint hget hvalue
    rcases record_cases hstep hG key with
      hsame | ⟨value, nowMs, expiresAt, _, hafter, hcreate⟩ |
      ⟨current, value, nowMs, expiresAt, hcurrent, hafter, hswap⟩
    · exact hinv.index (hsame ▸ hget) hvalue
    · obtain rfl := Option.some.inj (hafter.symm.trans hget)
      obtain rfl : value = .index taskId fingerprint := hvalue
      exact hcreate
    · obtain rfl := Option.some.inj (hafter.symm.trans hget)
      obtain rfl : value = .index taskId fingerprint := hvalue
      exact hswap.elim
  · intro key record effect hget hvalue
    rcases record_cases hstep hG key with
      hsame | ⟨value, _, _, _, hafter, hcreate⟩ |
      ⟨_, value, _, _, _, hafter, hswap⟩
    · obtain ⟨hkey, hreceipt⟩ := hinv.effect (hsame ▸ hget) hvalue
      refine ⟨hkey, fun hupdate hstatus => ?_⟩
      obtain ⟨j, accepted, hcreated, hdelivered, hreceipt⟩ := hreceipt hupdate hstatus
      exact ⟨j, accepted, hcreated.mono hstep, hdelivered.mono hstep, hreceipt⟩
    · obtain rfl := Option.some.inj (hafter.symm.trans hget)
      obtain rfl : value = .effect effect := hvalue
      exact ⟨hcreate.1, fun _ hstatus => by simp [hcreate.2] at hstatus⟩
    · obtain rfl := Option.some.inj (hafter.symm.trans hget)
      obtain rfl : value = .effect effect := hvalue
      refine ⟨hswap.1, fun hupdate hstatus => ?_⟩
      obtain ⟨hcreated, hreceipt, -⟩ := hswap.2 hupdate
      obtain ⟨accepted, hdelivered, hreceipt⟩ := hreceipt hstatus
      exact ⟨i, accepted, hcreated.mono hstep, hdelivered.mono hstep, hreceipt⟩
  · intro j key hcreated
    rcases created_cases hstep hcreated with hbefore | ⟨_, _, hafter⟩
    · obtain ⟨record, hget⟩ := hinv.created hbefore
      exact get_ne_none hstep hG hget
    · exact hafter
  · intro j k key hj hk
    rcases created_cases hstep hj with hj | ⟨rfl, hnone, _⟩ <;>
      rcases created_cases hstep hk with hk | ⟨rfl, hnone', _⟩
    · exact hinv.creator hj hk
    · obtain ⟨record, hget⟩ := hinv.created hj
      simp [hnone'] at hget
    · obtain ⟨_, hget⟩ := hinv.created hk
      simp [hnone] at hget
    · rfl

/-- Nothing is stored and nothing has happened at the beginning. -/
theorem invariant_initial :
    Invariant runtime (Config.initial Disk.empty : Config Call (Op TaskValue String Request)
      (Op.Res Answer) Fault Reply (Disk TaskValue String)).toWorld := by
  constructor <;> simp [Config.initial, Disk.empty, Created]

/-- A task that has come to its end stays at its end, with the same status. -/
theorem taskAt_terminal (hstep : runtime.system.Step i event before after)
    (hG : Guarantee runtime i event before) {state : DurableTaskState}
    (h : TaskAt taskId state before) (hterminal : state.status.terminal = true) :
    ∃ next, TaskAt taskId next after ∧ next.status = state.status ∧
      next.result = state.result ∧ next.sanitizedError = state.sanitizedError ∧
      next.billing = state.billing := by
  obtain ⟨record, hget, hvalue⟩ := h
  rcases task_cases hstep hG taskId with
    hsame | ⟨_, _, hnone, _⟩ |
    ⟨_, stored, previous, next, hcurrent, hprevious, hafter, hnext, _, htransition⟩
  · exact ⟨state, ⟨record, hsame.trans hget, hvalue⟩, rfl, rfl, rfl, rfl⟩
  · simp [hnone] at hget
  · obtain rfl := Option.some.inj (hcurrent.symm.trans hget)
    obtain rfl : previous = state := TaskValue.task.inj (hprevious.symm.trans hvalue)
    exact ⟨next, ⟨stored, hafter, hnext⟩, htransition.terminal_eq hterminal⟩

end Groundlane.McpTasks
