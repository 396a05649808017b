import Groundlane.Tasks.Verified

/-!
# The life of a task record

What holds of the stored record of a task over whole runs of the runtime. A record that has come
to its end keeps its outcome (`terminal_stable`). A cancellation that returns has brought the
task to its end, unless its one swap met a record that another writer had just changed
(`cancel_not_lost`). A task that waits for input asks for something that has not been answered,
as long as the provider asks for something new each time it asks (`input_answerable`).
-/

namespace Groundlane.McpTasks

open Fenced Interleaving

/-- No calls yet, and nothing stored. -/
def Runtime.initial : Config Call (Op TaskValue String Request) (Op.Res Answer) Fault Reply
    (Disk TaskValue String) :=
  Config.initial Disk.empty

variable {runtime : Runtime}

theorem ready : Ready runtime.system (Guarantee runtime) (Invariant runtime) Runtime.initial :=
  ready_initial invariant_initial

/-- The invariant holds after every run. -/
theorem invariant_run (actions : List (Action Call (Oracle Answer))) :
    Invariant runtime (runtime.system.run Runtime.initial actions).toWorld :=
  (ready.run (verified runtime) actions).inv

/-! ## A sample runtime -/

/-- A digest function that cannot tell two values apart. -/
def sampleSha256 : Sha256 String where
  text _ := "e3b0c44298fc1c149afbf4c8996fb92427ae41e4649b934ca495991b7852b855"
  bytes _ := "e3b0c44298fc1c149afbf4c8996fb92427ae41e4649b934ca495991b7852b855"
  isHex value := value.toList.length == 64 && value.toList.all isHexChar
  isHex_text _ := by decide +kernel
  isHex_bytes _ := by decide +kernel
  isHex_chars value h := by
    rw [Bool.and_eq_true] at h
    exact h.2

def sampleRuntime : Runtime := ⟨sampleSha256, "provider", true, true, 5000, by decide⟩

def sampleCaller : AsyncJobCaller := ⟨"owner", "binding"⟩

/-- A provider that does what it is asked and answers every poll with `outcome`. -/
def sampleOracle (outcome : AsyncTaskPollOutcome) : Oracle Answer where
  answer
    | .randomUUID => "0"
    | .parseInput value => .ok value
    | .create _ => .ok "provider-task"
    | .poll .. => .ok outcome
    | .update .. => .ok ()
    | .cancel _ => .ok true
    | .aborted => false
  order := true

/-- Call `i` takes `count` steps, and a poll is answered by `outcome`. -/
def polledSteps (outcome : AsyncTaskPollOutcome) (i count : Nat) :
    List (Action Call (Oracle Answer)) :=
  .replicate count (.advance i (sampleOracle outcome))

/-- Call `i` takes `count` steps while the provider is still working. -/
def sampleSteps (i count : Nat) : List (Action Call (Oracle Answer)) :=
  polledSteps ⟨.working, none, none, none, none⟩ i count

/-- A task is started. -/
def sampleStart : List (Action Call (Oracle Answer)) :=
  .invoke (.start .null sampleCaller none none 1000) :: sampleSteps 0 11

/-- A task is started and cancelled, and the provider acknowledges the cancellation. -/
def sampleCancel : List (Action Call (Oracle Answer)) :=
  sampleStart ++ .invoke (.cancel "ajob-0" sampleCaller 2000) :: sampleSteps 1 11

/-- The record of a task as it is stored. -/
def taskRecord (taskId : String) (world : TaskWorld) :
    Option (Record String TaskValue × DurableTaskState) :=
  match world.state.records.get (taskKey taskId) with
  | some record =>
    match record.value with
    | .task state => some (record, state)
    | .index .. | .effect _ => none
  | none => none

variable {taskId : String} {state : DurableTaskState} {before after : TaskWorld} {event : TaskEvent}
  {i : Nat}

theorem taskRecord_eq {world : TaskWorld} {record : Record String TaskValue} :
    taskRecord taskId world = some (record, state) ↔
      world.state.records.get (taskKey taskId) = some record ∧ record.value = .task state := by
  unfold taskRecord
  cases world.state.records.get (taskKey taskId) with
  | none => simp
  | some stored =>
    dsimp only
    split
    · rename_i found hfound
      constructor
      · intro h
        obtain ⟨rfl, rfl⟩ := Prod.mk.inj (Option.some.inj h)
        exact ⟨rfl, hfound⟩
      · rintro ⟨hstored, hvalue⟩
        obtain rfl := Option.some.inj hstored
        rw [TaskValue.task.inj (hfound.symm.trans hvalue)]
    · rename_i hvalue
      simp only [reduceCtorEq, Option.some.injEq, false_iff, not_and]
      rintro rfl
      simp [hvalue]
    · rename_i hvalue
      simp only [reduceCtorEq, Option.some.injEq, false_iff, not_and]
      rintro rfl
      simp [hvalue]

/-- The status that is stored for a task. -/
def taskStatus (taskId : String) (world : TaskWorld) : Option DurableTaskStatus :=
  (taskRecord taskId world).map fun task => task.2.status

theorem taskStatus_eq {status : DurableTaskStatus} {world : TaskWorld} :
    taskStatus taskId world = some status ↔
      ∃ state, TaskAt taskId state world ∧ state.status = status := by
  simp only [taskStatus, Option.map_eq_some_iff, Prod.exists, taskRecord_eq, TaskAt]
  constructor
  · rintro ⟨record, state, hrecord, hstatus⟩
    exact ⟨state, ⟨record, hrecord⟩, hstatus⟩
  · rintro ⟨state, ⟨record, hrecord⟩, hstatus⟩
    exact ⟨record, state, hrecord, hstatus⟩

/-! ## Terminal records -/

/-- `record` is a later version of `first`, with the outcome that `first` had, if any. -/
def Continues (state next : DurableTaskState) (first record : Record String TaskValue) : Prop :=
  record.value = .task next ∧ record.expiresAt = first.expiresAt ∧
    next.expiresAt = state.expiresAt ∧
    (state.status.terminal = true → next.status = state.status ∧ next.result = state.result ∧
      next.sanitizedError = state.sanitizedError ∧ next.billing = state.billing)

/-- One step leads from a version of a record to a later one. -/
theorem continues_step (hinv : Invariant runtime before)
    (hstep : runtime.system.Step i event before after) (hG : Guarantee runtime i event before)
    {first : Record String TaskValue}
    (h : ∃ record next, before.state.records.get (taskKey taskId) = some record ∧
      Continues state next first record) :
    ∃ record next, after.state.records.get (taskKey taskId) = some record ∧
      Continues state next first record := by
  obtain ⟨record, current, hget, hvalue, hexpiry, hstateExpiry, hterminal⟩ := h
  rcases task_cases hstep hG taskId with
    hsame | ⟨_, _, hnone, _⟩ |
    ⟨_, stored, previous, next, hfound, hprevious, hafter, hnext, hstored, htransition⟩
  · exact ⟨record, current, hsame.trans hget, hvalue, hexpiry, hstateExpiry, hterminal⟩
  · simp [hnone] at hget
  · obtain rfl := Option.some.inj (hfound.symm.trans hget)
    obtain rfl : previous = current := TaskValue.task.inj (hprevious.symm.trans hvalue)
    refine ⟨stored, next, hafter, hnext, ?_, htransition.expiresAt_eq.trans hstateExpiry,
      fun hend => ?_⟩
    · rw [hstored, htransition.expiresAt_eq, ← (hinv.task hfound hvalue).2.1, hexpiry]
    · obtain ⟨hstatus, hresult, herror, hbilling⟩ := hterminal hend
      obtain ⟨hstatus', hresult', herror', hbilling'⟩ :=
        htransition.terminal_eq (by rw [hstatus]; exact hend)
      exact ⟨hstatus'.trans hstatus, hresult'.trans hresult, herror'.trans herror,
        hbilling'.trans hbilling⟩

/-- Once a task record is completed, failed or cancelled, its status, result, error and billing
are final; its expiry is final from the start; and only a cancelled record is acknowledged as
cancelled upstream. -/
theorem terminal_stable (runtime : Runtime) (actions later : List (Action Call (Oracle Answer)))
    (taskId : String) (record : Record String TaskValue) (state : DurableTaskState)
    (hget : (runtime.system.run Runtime.initial actions).state.records.get (taskKey taskId) =
      some record)
    (hvalue : record.value = .task state) :
    ∃ record' state', (runtime.system.run Runtime.initial (actions ++ later)).state.records.get
        (taskKey taskId) = some record' ∧ record'.value = .task state' ∧
      state'.expiresAt = state.expiresAt ∧ record'.expiresAt = record.expiresAt ∧
      (state.status.terminal = true → state'.status = state.status ∧
        state'.result = state.result ∧ state'.sanitizedError = state.sanitizedError ∧
        state'.billing = state.billing) ∧
      (state'.upstreamCancelled = true → state'.status = .cancelled) := by
  have hfirst := ready.run (verified runtime) actions
  have hlast := hfirst.persists (verified runtime) later
    (P := fun world => ∃ record' next, world.state.records.get (taskKey taskId) = some record' ∧
      Continues state next record record')
    (fun i event before after hinv _ hstep hG h => continues_step hinv hstep hG h)
    ⟨record, state, hget, hvalue, rfl, rfl, fun _ => ⟨rfl, rfl, rfl, rfl⟩⟩
  obtain ⟨record', next, hget', hvalue', hexpiry, hstateExpiry, hterminal⟩ := hlast
  rw [System.run_append]
  exact ⟨record', next, hget', hvalue', hstateExpiry, hexpiry, hterminal,
    ((hfirst.run (verified runtime) later).inv.task hget' hvalue').2.2.2⟩

/-- A cancelled task of which the owner stops waiting stays cancelled. -/
theorem terminal_stable_sample :
    ∃ state, TaskAt "ajob-0" state (sampleRuntime.system.run Runtime.initial (sampleCancel ++
        .invoke (.stopWaiting "ajob-0" sampleCaller 2000) :: sampleSteps 2 3)).toWorld ∧
      state.status = .cancelled := by
  have hstatus : taskStatus "ajob-0"
      (sampleRuntime.system.run Runtime.initial sampleCancel).toWorld = some .cancelled := by
    decide +kernel
  obtain ⟨state, ⟨record, hget, hvalue⟩, hstatus⟩ := taskStatus_eq.1 hstatus
  obtain ⟨record', state', hget', hvalue', -, -, hstable, -⟩ := terminal_stable sampleRuntime
    sampleCancel (.invoke (.stopWaiting "ajob-0" sampleCaller 2000) :: sampleSteps 2 3) "ajob-0"
    record state hget hvalue
  exact ⟨state', ⟨record', hget', hvalue'⟩,
    (hstable (by rw [hstatus]; rfl)).1.trans hstatus⟩

/-! ## Cancellation -/

/-- A swap that writes a cancelled record meets the record that was read, or one that has come
to its end. -/
def cancelFenced (_ : Nat) (event : TaskEvent) (world : TaskWorld) : Bool :=
  match event with
  | .effect (.compareAndSwap key revision (.task next) _ _) _ =>
    next.status != .cancelled ||
      (world.state.records.get key).all fun record =>
        record.revision == revision ||
          match record.value with
          | .task state => state.status.terminal
          | .index .. | .effect _ => false
  | _ => true

/-- A fenced cancellation loses no race. -/
theorem not_lostRace_step (hstep : runtime.system.Step i event before after)
    (hfenced : cancelFenced i event before = true) {j : Nat}
    (h : ¬ LostRace j taskId before.history) : ¬ LostRace j taskId after.history := by
  rintro ⟨revision, next, nowMs, expiresAt, record, state, hentry, hnext, hvalue, hopen⟩
  rcases hstep.mem_history.1 hentry with heq | hentry
  · obtain ⟨rfl, rfl⟩ := Prod.mk.inj heq
    rcases Step.compareAndSwap_answer hstep with ⟨hanswer, _⟩ |
      ⟨_, hanswer, hget, hrevision, _⟩ | ⟨_, hanswer, _⟩
    · cases hanswer
    · obtain rfl := CasResult.conflict.inj hanswer
      simp [cancelFenced, hnext, hget, hrevision, hvalue, hopen] at hfenced
    · cases hanswer
  · exact h ⟨revision, next, nowMs, expiresAt, record, state, hentry, hnext, hvalue, hopen⟩

/-- A cancellation that has returned found the task at its end or lost its race. -/
theorem cancel_returned (actions : List (Action Call (Oracle Answer))) {caller : AsyncJobCaller}
    {nowMs : Int} {reply : Reply} (hcall : (i, .invoke (.cancel taskId caller nowMs)) ∈
      (runtime.system.run Runtime.initial actions).history) (hreturn : (i, .response (.ok reply)) ∈
      (runtime.system.run Runtime.initial actions).history) :
    Terminal taskId (runtime.system.run Runtime.initial actions).toWorld ∨
      LostRace i taskId (runtime.system.run Runtime.initial actions).history := by
  refine ready.persists (verified runtime) actions
    (P := fun world => (i, .invoke (.cancel taskId caller nowMs)) ∈ world.history →
      (i, .response (.ok reply)) ∈ world.history →
      Terminal taskId world ∨ LostRace i taskId world.history) ?_ (by simp [Runtime.initial,
        Config.initial]) hcall hreturn
  intro j event before after _ _ hstep hG ih hcall hreturn
  have hkeep : Terminal taskId before ∨ LostRace i taskId before.history →
      Terminal taskId after ∨ LostRace i taskId after.history :=
    Or.imp (terminal_persistent taskId _ _ _ _ hstep hG)
      (lostRace_persistent i taskId _ _ _ _ hstep hG)
  rcases hstep.mem_history.1 hcall with heq | hcall
  · obtain ⟨rfl, rfl⟩ := Prod.mk.inj heq
    rcases hstep.mem_history.1 hreturn with heq' | hreturn
    · cases heq'
    · exact absurd hreturn (hstep.fresh _ rfl _)
  · rcases hstep.mem_history.1 hreturn with heq | hreturn
    · obtain ⟨rfl, rfl⟩ := Prod.mk.inj heq
      exact hkeep (hG.2 taskId caller nowMs hcall)
    · exact hkeep (ih hcall hreturn)

/-- When every swap of a cancellation meets the record that was read or one that has come to its
end, a cancellation that has returned leaves the task at its end for good. -/
theorem cancel_not_lost (runtime : Runtime) (actions later : List (Action Call (Oracle Answer)))
    (hfenced : runtime.system.Meets (fun i event world => cancelFenced i event world = true)
      Runtime.initial actions)
    (i : Nat) (taskId : String) (caller : AsyncJobCaller) (nowMs : Int) (reply : Reply)
    (hcall : (i, .invoke (.cancel taskId caller nowMs)) ∈
      (runtime.system.run Runtime.initial actions).history)
    (hreturn : (i, .response (.ok reply)) ∈
      (runtime.system.run Runtime.initial actions).history) :
    Terminal taskId (runtime.system.run Runtime.initial (actions ++ later)).toWorld := by
  have hfair : ¬ LostRace i taskId (runtime.system.run Runtime.initial actions).history :=
    ready.preserves (verified runtime) hfenced
      (P := fun world => ¬ LostRace i taskId world.history)
      (fun j event before after _ _ hstep _ hfenced => not_lostRace_step hstep hfenced)
      (by simp [LostRace, Runtime.initial, Config.initial])
  have hend := (cancel_returned actions hcall hreturn).resolve_right hfair
  rw [System.run_append]
  exact (ready.run (verified runtime) actions).persists (verified runtime) later
    (fun j event before after _ _ hstep hG => terminal_persistent taskId _ _ _ _ hstep hG) hend

/-- A cancellation with no other call in its way brings the task to its end. -/
theorem cancel_not_lost_sample :
    Terminal "ajob-0" (sampleRuntime.system.run Runtime.initial (sampleCancel ++
      .invoke (.stopWaiting "ajob-0" sampleCaller 2000) :: sampleSteps 2 3)).toWorld := by
  have hrun : (sampleRuntime.system.checks cancelFenced Runtime.initial sampleCancel &&
      System.called 1 (.cancel "ajob-0" sampleCaller 2000)
        (sampleRuntime.system.run Runtime.initial sampleCancel).history &&
      System.returned 1 .nothing
        (sampleRuntime.system.run Runtime.initial sampleCancel).history) = true := by
    decide +kernel
  simp only [Bool.and_eq_true] at hrun
  exact cancel_not_lost sampleRuntime sampleCancel _ (System.meets_of_checks hrun.1.1) 1
    "ajob-0" sampleCaller 2000 .nothing (System.mem_of_called hrun.1.2)
    (System.mem_of_returned hrun.2)

/-- A cancellation between whose read and swap the owner stops waiting. -/
def overtakenCancel : List (Action Call (Oracle Answer)) :=
  sampleStart ++ [.invoke (.cancel "ajob-0" sampleCaller 2000)] ++ sampleSteps 1 1 ++
    [.invoke (.stopWaiting "ajob-0" sampleCaller 2000)] ++ sampleSteps 2 3 ++ sampleSteps 1 2

/-- Such a cancellation returns and the task goes on working. -/
theorem cancel_lost :
    ¬ ∀ (runtime : Runtime) (actions : List (Action Call (Oracle Answer))) (i : Nat)
      (taskId : String) (caller : AsyncJobCaller) (nowMs : Int) (reply : Reply),
      (i, .invoke (.cancel taskId caller nowMs)) ∈
        (runtime.system.run Runtime.initial actions).history →
      (i, .response (.ok reply)) ∈ (runtime.system.run Runtime.initial actions).history →
      Terminal taskId (runtime.system.run Runtime.initial actions).toWorld := by
  intro h
  have hrun : (System.called 1 (.cancel "ajob-0" sampleCaller 2000)
        (sampleRuntime.system.run Runtime.initial overtakenCancel).history &&
      System.returned 1 .nothing
        (sampleRuntime.system.run Runtime.initial overtakenCancel).history &&
      taskStatus "ajob-0" (sampleRuntime.system.run Runtime.initial overtakenCancel).toWorld ==
        some .working) = true := by
    decide +kernel
  simp only [Bool.and_eq_true, beq_iff_eq] at hrun
  obtain ⟨state, htask, hterminal⟩ := h sampleRuntime overtakenCancel 1 "ajob-0" sampleCaller 2000
    .nothing (System.mem_of_called hrun.1.1) (System.mem_of_returned hrun.1.2)
  have hstatus := taskStatus_eq.2 ⟨state, htask, rfl⟩
  rw [Option.some.inj (hstatus.symm.trans hrun.2)] at hterminal
  cases hterminal

/-! ## Input -/

/-- When a call that has polled the provider replaces the record of a task, what the provider
asked it for includes something that the task has not been given yet. -/
def asksAnew (i : Nat) (event : TaskEvent) (world : TaskWorld) : Bool :=
  match event with
  | .effect (.compareAndSwap key revision (.task _) _ _) _ =>
    match world.state.records.get key with
    | some ⟨_, .task state, stored, _, _, _⟩ =>
      stored != revision || world.history.all fun
        | (j, .effect (.port (.poll _ _)) (.ok outcome)) =>
          j != i || outcome.status != .inputRequired ||
            (outcome.inputRequests.getD .empty).keys.any fun key =>
              !state.usedInputKeys.contains key
        | _ => true
    | _ => true
  | _ => true

/-- The stored task asks for something if it waits for input. -/
def Answerable (state : DurableTaskState) : Prop :=
  state.status = .inputRequired → ∃ key, key ∈ state.inputRequests.keys

/-- A poll leaves a task that asks for something exactly when the provider asks for something
that has not been given yet. -/
theorem polled_answerable {nowMs : Int} {outcome : AsyncTaskPollOutcome}
    (houtcome : outcome.status = .inputRequired) : Answerable (state.polled nowMs outcome) ↔
      ∃ key ∈ (outcome.inputRequests.getD .empty).keys, key ∉ state.usedInputKeys := by
  simp [Answerable, DurableTaskState.polled, houtcome, JsonObject.mem_keys_filterKeys]

/-- Every writer leaves a task that asks for something if it waits for input; a poll does so if
the provider asks for something new. -/
theorem TaskTransition.answerable {Answered : DurableTaskState → JsonObject → Prop}
    {Outcome : AsyncTaskPollOutcome → Prop} {state next : DurableTaskState}
    (h : TaskTransition Answered Outcome state next) (hstate : Answerable state)
    (hpoll : ∀ outcome, Outcome outcome → outcome.status = .inputRequired →
      ∃ key ∈ (outcome.inputRequests.getD .empty).keys, key ∉ state.usedInputKeys) :
    Answerable next := by
  cases h with
  | created nowMs providerTaskId hstatus => exact fun h => by cases h
  | failedUncertain nowMs hstatus => exact fun h => by cases h
  | leased nowMs hstatus => exact hstate
  | polled nowMs outcome hstatus houtcome =>
    cases hcase : outcome.status with
    | inputRequired => exact (polled_answerable hcase).2 (hpoll outcome houtcome hcase)
    | _ => exact fun h => by simp [DurableTaskState.polled, hcase] at h
  | answered nowMs accepted hstatus haccepted =>
    intro h
    have hstatus : (state.answered nowMs accepted.keys).status =
        if (state.answered nowMs accepted.keys).inputRequests.keys.isEmpty then .working
        else .inputRequired := rfl
    cases hkeys : (state.answered nowMs accepted.keys).inputRequests.keys with
    | nil => simp [hstatus, hkeys] at h
    | cons key rest => exact ⟨key, by simp⟩
  | cancelled nowMs hstatus => exact fun h => by cases h
  | acknowledged nowMs hstatus => exact hstate
  | stoppedWaiting nowMs => exact hstate

/-- One step leaves every task answerable, if the provider asks for something new. -/
theorem answerable_step (hstep : runtime.system.Step i event before after)
    (hG : Guarantee runtime i event before) (hanew : asksAnew i event before = true)
    (h : ∀ taskId state, TaskAt taskId state before → Answerable state)
    (htask : TaskAt taskId state after) : Answerable state := by
  obtain ⟨record, hget, hvalue⟩ := htask
  rcases Step.record_cases hstep (taskKey taskId) with
    hsame | ⟨value, _, _, rfl, _, hafter⟩ |
    ⟨current, value, _, _, rfl, hcurrent, hafter⟩ | ⟨current, rfl, _, _⟩
  · exact h taskId state ⟨record, hsame.symm.trans hget, hvalue⟩
  · obtain rfl := Option.some.inj (hafter.symm.trans hget)
    obtain rfl : value = .task state := hvalue
    obtain ⟨_, _, _, _, _, _, _, hinitial⟩ := hG
    rw [hinitial]
    exact fun h => by cases h
  · obtain rfl := Option.some.inj (hafter.symm.trans hget)
    obtain rfl : value = .task state := hvalue
    obtain ⟨_, _, _, htransition⟩ := hG
    obtain ⟨previous, hprevious, htransition⟩ := htransition current hcurrent rfl
    refine htransition.answerable (h taskId previous ⟨current, hcurrent, hprevious⟩) ?_
    intro outcome houtcome hstatus
    obtain ⟨_, _, hpolled⟩ := houtcome hstatus
    obtain ⟨_, _, _, _, _, _⟩ := current
    obtain rfl : _ = TaskValue.task previous := hprevious
    simp only [asksAnew, hcurrent, bne_self_eq_false, Bool.false_or, List.all_eq_true] at hanew
    simpa [hstatus] using hanew _ hpolled
  · exact hG.elim

/-- What a task asks for has not been given, and when the provider never asks only for what it has
been given, a task that waits for input asks for something: `update` accepts a response to it. -/
theorem input_answerable (runtime : Runtime) (actions : List (Action Call (Oracle Answer)))
    (hanew : runtime.system.Meets (fun i event world => asksAnew i event world = true)
      Runtime.initial actions)
    (taskId : String) (state : DurableTaskState)
    (htask : TaskAt taskId state (runtime.system.run Runtime.initial actions).toWorld) :
    (∀ key ∈ state.inputRequests.keys, key ∉ state.usedInputKeys) ∧
      (state.status = .inputRequired → ∃ key ∈ state.inputRequests.keys,
        ∀ inputResponses : JsonObject, key ∈ inputResponses.keys →
          key ∈ (state.accepted inputResponses).keys) := by
  obtain ⟨record, hget, hvalue⟩ := id htask
  have hdisjoint := ((invariant_run actions).task hget hvalue).2.2.1
  refine ⟨hdisjoint, fun hstatus => ?_⟩
  have hanswerable := ready.preserves (verified runtime) hanew
    (P := fun world => ∀ taskId state, TaskAt taskId state world → Answerable state)
    (fun i event before after _ _ hstep hG hanew h _ _ htask =>
      answerable_step hstep hG hanew h htask)
    (by rintro _ _ ⟨_, hget, _⟩; simp [Runtime.initial, Config.initial, Disk.empty] at hget)
  obtain ⟨key, hkey⟩ := hanswerable taskId state htask hstatus
  refine ⟨key, hkey, fun inputResponses hresponse => ?_⟩
  rw [DurableTaskState.accepted, JsonObject.mem_keys_filterKeys]
  simpa [hresponse, hdisjoint key hkey] using JsonObject.hasOwn_iff.2 hkey

/-- The requests of a provider that asks for `keys`. -/
def askFor (keys : List String) (hkeys : keys.Nodup) : JsonObject :=
  ⟨keys.map fun key => (key, .null), by simpa [Function.comp_def] using hkeys⟩

theorem nodup_name : ["name"].Nodup := by decide

/-- A task is started and polled, and `outcome` is the answer. -/
def samplePoll (outcome : AsyncTaskPollOutcome) : List (Action Call (Oracle Answer)) :=
  sampleStart ++ .invoke (.get "ajob-0" sampleCaller 2000) :: polledSteps outcome 1 8

/-- A provider that asks for something. -/
def asking : AsyncTaskPollOutcome :=
  ⟨.inputRequired, none, some (askFor ["name"] nodup_name), none, none⟩

/-- The provider asks again for what it has been given. -/
def askedAgain : List (Action Call (Oracle Answer)) :=
  samplePoll asking ++
    .invoke (.update "ajob-0" (askFor ["name"] nodup_name) sampleCaller 3000) ::
      polledSteps asking 2 11 ++
    .invoke (.get "ajob-0" sampleCaller 9000) :: polledSteps asking 3 8

/-- A task for which the provider asks for something new can be answered. -/
theorem input_answerable_sample :
    ∃ state, TaskAt "ajob-0" state
        (sampleRuntime.system.run Runtime.initial (samplePoll asking)).toWorld ∧
      ∃ key ∈ state.inputRequests.keys, ∀ inputResponses : JsonObject,
        key ∈ inputResponses.keys → key ∈ (state.accepted inputResponses).keys := by
  have hrun : (sampleRuntime.system.checks asksAnew Runtime.initial (samplePoll asking) &&
      taskStatus "ajob-0" (sampleRuntime.system.run Runtime.initial (samplePoll asking)).toWorld ==
        some .inputRequired) = true := by
    decide +kernel
  simp only [Bool.and_eq_true, beq_iff_eq] at hrun
  obtain ⟨state, htask, hstatus⟩ := taskStatus_eq.1 hrun.2
  exact ⟨state, htask, (input_answerable sampleRuntime (samplePoll asking)
    (System.meets_of_checks hrun.1) "ajob-0" state htask).2 hstatus⟩

/-- Such a task waits for input and asks for nothing. -/
theorem input_unanswerable :
    ¬ ∀ (runtime : Runtime) (actions : List (Action Call (Oracle Answer))) (taskId : String)
      (state : DurableTaskState),
      TaskAt taskId state (runtime.system.run Runtime.initial actions).toWorld →
      state.status = .inputRequired → ∃ key, key ∈ state.inputRequests.keys := by
  intro h
  have hrun : ((taskRecord "ajob-0"
      (sampleRuntime.system.run Runtime.initial askedAgain).toWorld).any fun task =>
        task.2.status == .inputRequired && task.2.inputRequests.keys.isEmpty) = true := by
    decide +kernel
  obtain ⟨⟨record, state⟩, htask, hstuck⟩ := (Option.any_eq_true _ _).1 hrun
  obtain ⟨hget, hvalue⟩ := taskRecord_eq.1 htask
  simp only [Bool.and_eq_true, beq_iff_eq, List.isEmpty_iff] at hstuck
  obtain ⟨key, hkey⟩ := h sampleRuntime askedAgain "ajob-0" state ⟨record, hget, hvalue⟩ hstuck.1
  simp [hstuck.2] at hkey

/-! ## Stored records -/

/-- A task lies under its own key with its own expiry, asks for nothing that has been answered, and
is acknowledged upstream only if it is cancelled; and the receipt of a window is of answers that
the call which claimed the window has delivered. -/
structure Backed (runtime : Runtime) (world : TaskWorld) : Prop where
  task : ∀ key record state, world.state.records.get key = some record →
    record.value = .task state → key = taskKey state.taskId ∧
      record.expiresAt = some state.expiresAt ∧
      (∀ request ∈ state.inputRequests.keys, request ∉ state.usedInputKeys) ∧
      (state.upstreamCancelled = true → state.status = .cancelled)
  receipt : ∀ key record effect, world.state.records.get key = some record →
    record.value = .effect effect → IsUpdateKey runtime.sha256.text key →
    effect.status = .succeeded → ∃ i accepted, Created i key world.history ∧
      Delivered i accepted world.history ∧
      effect.receipt = some (responseReceipt runtime.sha256.text accepted)

/-- In every run the stored records are backed. -/
theorem records_backed (runtime : Runtime) (actions : List (Action Call (Oracle Answer))) :
    Backed runtime (runtime.system.run Runtime.initial actions).toWorld where
  task _ _ _ hget hvalue := (invariant_run actions).task hget hvalue
  receipt _ _ _ hget hvalue := ((invariant_run actions).effect hget hvalue).2

/-- What is bound to an idempotency key in the one world is bound to it in the other. -/
def KeepsBindings (before after : TaskWorld) : Prop :=
  ∀ key record taskId fingerprint, before.state.records.get key = some record →
    record.value = .index taskId fingerprint → after.state.records.get key = some record

/-- No call ever changes what an idempotency key is bound to. -/
theorem bindings_permanent (runtime : Runtime)
    (actions later : List (Action Call (Oracle Answer))) :
    KeepsBindings (runtime.system.run Runtime.initial actions).toWorld
      (runtime.system.run Runtime.initial (actions ++ later)).toWorld := by
  intro key record taskId fingerprint hget hvalue
  rw [System.run_append]
  exact (ready.run (verified runtime) actions).persists (verified runtime) later
    (P := fun world => world.state.records.get key = some record)
    (fun _ _ _ _ hinv _ hstep hG h => index_eq hinv hstep hG h hvalue) hget

/-- In every run, the provider is asked to create a task only by a call that has created a task
record to which its idempotency key is bound, and is given answers only by an update that has
claimed the window of the stored task, for keys that the task asks for. -/
theorem requests_warranted (runtime : Runtime) (actions : List (Action Call (Oracle Answer))) :
    runtime.system.Meets (fun i event world => ∀ request answer,
      event = .effect (.port request) answer → RequestAllowed runtime i request world)
      Runtime.initial actions := by
  refine (ready.meets (verified runtime) actions).mono ?_
  rintro i event world hG request answer rfl
  exact hG

end Groundlane.McpTasks
