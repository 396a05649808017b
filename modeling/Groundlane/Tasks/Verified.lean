import Groundlane.Tasks.Guarantee

/-!
# Every call of the task runtime keeps the guarantee

One lemma for each function of the runtime, in the order in which they call each other; the
result is `verified`. What a call has read stays true in the form of `Seen`: if the record is
still at the revision that was read, it is still the record that was read, so a swap that
succeeds starts from the state it was computed from.
-/

namespace Groundlane.McpTasks

open Fenced Interleaving DurableEffectJournal

variable {runtime : Runtime} {i : Nat} {world : TaskWorld}

/-- What the other calls may do meanwhile. -/
abbrev Meanwhile (runtime : Runtime) (i : Nat) : TaskWorld → TaskWorld → Prop :=
  Rely runtime.system (Guarantee runtime) i

/-- What all calls may do. -/
abbrev Grows (runtime : Runtime) : TaskWorld → TaskWorld → Prop :=
  Evolves runtime.system (Guarantee runtime)

/-- The program keeps the guarantee as a part of call `i`, and `Q` holds of what it returns. -/
abbrev TaskSafe {α : Type} (runtime : Runtime) (i : Nat) (Q : α → TaskWorld → Prop)
    (program : TaskIo α) (world : TaskWorld) : Prop :=
  Safe runtime.system (Guarantee runtime) (Meanwhile runtime i) i (Returning Q) program world

theorem meanwhile_grows (world now : TaskWorld) (h : Meanwhile runtime i world now) :
    Grows runtime world now :=
  h.evolves

/-- The rule of sequence, at the types of the runtime. -/
theorem TaskSafe.andThen {α β : Type} {middle : α → TaskWorld → Prop} {Q : β → TaskWorld → Prop}
    {program : TaskIo α} {rest : α → TaskIo β} (h : TaskSafe runtime i middle program world)
    (hrest : ∀ value now, Grows runtime world now → middle value now →
      TaskSafe runtime i Q (rest value) now) :
    TaskSafe runtime i Q (program.bind rest) world :=
  Safe.andThen meanwhile_grows h hrest

variable {idempotencyKey : Option String} {inputResponses : JsonObject} {identity : EffectIdentity}
  {effect : DurableEffect} {accepted : JsonObject} {α : Type} {program : TaskIo α}
  {ttlMs : Option Int} {input : Json} {key : String}

/-- A postcondition may be weakened. -/
theorem TaskSafe.weaken {Q Q' : α → TaskWorld → Prop} (h : TaskSafe runtime i Q program world)
    (hQ : ∀ value now, Q value now → Q' value now) : TaskSafe runtime i Q' program world :=
  h.mono fun _ now hpost value hvalue => hQ value now (hpost value hvalue)

/-- What an operation of call `i` leads to. -/
abbrev TaskPerformed (runtime : Runtime) (i : Nat) (world : TaskWorld)
    (op : Op TaskValue String Request) (answer : op.Res Answer) (now : TaskWorld) : Prop :=
  Performed runtime.system (Guarantee runtime) (Meanwhile runtime i) i world op answer now

theorem get_safe (key : String) :
    TaskSafe runtime i (TaskPerformed runtime i world (.get key)) (get key) world :=
  Safe.get fun _ _ => trivial

theorem ask_safe (request : Request)
    (h : ∀ now, Meanwhile runtime i world now → RequestAllowed runtime i request now) :
    TaskSafe runtime i (TaskPerformed runtime i world (.port request)) (ask request) world :=
  Safe.ask fun now _ hnow => h now hnow

/-- The invariant holds from now on. -/
theorem Invariant.grows (h : Invariant runtime world) {now : TaskWorld}
    (hnow : Grows runtime world now) : Invariant runtime now :=
  invariant_persistent.evolves hnow h

/-! ## What was read -/

/-- The record of `taskId` is what was read. -/
def Current (taskId : String) (task : VersionedTask) (world : TaskWorld) : Prop :=
  ∃ record, world.state.records.get (taskKey taskId) = some record ∧
    record.revision = task.revision ∧ record.value = .task task.state

/-- The record of `taskId` was what was read at some time. -/
def WasCurrent (taskId : String) (task : VersionedTask) (world : TaskWorld) : Prop :=
  task.state.taskId = taskId ∧
    ∃ record, Store.Seen record world.state.records ∧ record.key = taskKey taskId ∧
      record.revision = task.revision ∧ record.value = .task task.state

variable {task : VersionedTask} {current : VersionedTask} {before after : TaskWorld}
  {caller : AsyncJobCaller} {event : TaskEvent} {state : DurableTaskState} {call : Call}

theorem Current.was {taskId : String} (h : Current taskId task world)
    (hinv : Invariant runtime world) : WasCurrent taskId task world := by
  obtain ⟨record, hget, hrevision, hvalue⟩ := h
  exact ⟨(taskKey_inj.1 (hinv.task hget hvalue).1).symm, record, .of_get hget,
    Store.get_key hget, hrevision, hvalue⟩

theorem Current.taskAt {taskId : String} (h : Current taskId task world) :
    TaskAt taskId task.state world := by
  obtain ⟨record, hget, -, hvalue⟩ := h
  exact ⟨record, hget, hvalue⟩

theorem TaskAt.unique {taskId : String} {state other : DurableTaskState}
    (h : TaskAt taskId state world) (h' : TaskAt taskId other world) : state = other := by
  obtain ⟨_, hget, hvalue⟩ := h
  obtain ⟨_, hget', hvalue'⟩ := h'
  obtain rfl := Option.some.inj (hget.symm.trans hget')
  exact TaskValue.task.inj (hvalue.symm.trans hvalue')

theorem WasCurrent.grows {taskId : String} (h : WasCurrent taskId task world) {now : TaskWorld}
    (hnow : Grows runtime world now) : WasCurrent taskId task now := by
  obtain ⟨htaskId, record, hseen, hrest⟩ := h
  exact ⟨htaskId, record, (seen_persistent record).evolves hnow hseen, hrest⟩

/-- A record that is still at the revision that was read holds the state that was read. -/
theorem WasCurrent.of_revision {taskId : String} (h : WasCurrent taskId task world)
    {current : Record String TaskValue}
    (hget : world.state.records.get (taskKey taskId) = some current)
    (hrevision : current.revision = task.revision) : current.value = .task task.state := by
  obtain ⟨-, _, hseen, hkey, hrecord, hvalue⟩ := h
  rw [← hseen.of_swap (hkey ▸ hget) (hrevision.trans hrecord.symm)] at hvalue
  exact hvalue

/-- The record of `taskId` has been cancelled. -/
def Cancelled (taskId : String) (world : TaskWorld) : Prop :=
  ∃ state, TaskAt taskId state world ∧ state.status = .cancelled

theorem Cancelled.terminal {taskId : String} (h : Cancelled taskId world) :
    Terminal taskId world := by
  obtain ⟨state, htask, hstatus⟩ := h
  exact ⟨state, htask, by rw [hstatus]; rfl⟩

theorem terminal_persistent (taskId : String) :
    Persistent runtime.system (Guarantee runtime) (Terminal taskId) := by
  rintro i event before after hstep hG ⟨state, htask, hterminal⟩
  obtain ⟨next, hnext, hstatus, -⟩ := taskAt_terminal hstep hG htask hterminal
  exact ⟨next, hnext, hstatus ▸ hterminal⟩

theorem cancelled_persistent (taskId : String) :
    Persistent runtime.system (Guarantee runtime) (Cancelled taskId) := by
  rintro i event before after hstep hG ⟨state, htask, hcancelled⟩
  obtain ⟨next, hnext, hstatus, -⟩ := taskAt_terminal hstep hG htask (by rw [hcancelled]; rfl)
  exact ⟨next, hnext, hstatus.trans hcancelled⟩

theorem lostRace_persistent (i : Nat) (taskId : String) :
    Persistent runtime.system (Guarantee runtime) fun world => LostRace i taskId world.history := by
  rintro j event before after hstep hG ⟨revision, next, nowMs, expiresAt, record, state, h, hrest⟩
  exact ⟨revision, next, nowMs, expiresAt, record, state, hstep.history_mono h, hrest⟩

theorem created_persistent (i : Nat) (key : String) :
    Persistent runtime.system (Guarantee runtime) fun world => Created i key world.history :=
  fun _ _ _ _ hstep _ h => h.mono hstep

/-- The binding of an idempotency key is final. -/
theorem BoundTo.step (hinv : Invariant runtime before) {j : Nat}
    (hstep : runtime.system.Step j event before after) (hG : Guarantee runtime j event before)
    (hmade : ∀ call, (i, .invoke call) ∈ after.history → (i, .invoke call) ∈ before.history)
    {taskId : String} (hbound : BoundTo runtime.sha256.text i taskId before) :
    BoundTo runtime.sha256.text i taskId after := by
  intro input caller ttlMs key nowMs hinvoke
  obtain ⟨record, fingerprint, hget, hvalue⟩ :=
    hbound input caller ttlMs key nowMs (hmade _ hinvoke)
  exact ⟨record, fingerprint, index_eq hinv hstep hG hget hvalue, hvalue⟩

theorem boundTo_persistent (i : Nat) (call : Call) (taskId : String) :
    Persistent runtime.system (Guarantee runtime) fun world =>
      Invariant runtime world ∧ Calls i call world ∧
        BoundTo runtime.sha256.text i taskId world :=
  fun _ _ _ _ hstep hG ⟨hinv, hcalls, hbound⟩ =>
    ⟨invariant_persistent _ _ _ _ hstep hG hinv, persistent_calls i call _ _ _ _ hstep hG hcalls,
      hbound.step hinv hstep hG fun _ => hstep.mem_of_invoke hcalls.1⟩

/-! ## Reading and saving a record -/

theorem decode_ok {record : Record String TaskValue} (h : decode record = .ok task) :
    record.value = .task task.state ∧ record.revision = task.revision := by
  unfold decode at h
  split at h
  · rename_i state hvalue
    simp only [bind, Except.bind, pure, Except.pure] at h
    split at h
    · cases h
    · split at h
      · cases h
      · split at h
        · cases h
        · split at h
          · cases h
          · obtain rfl := Except.ok.inj h
            exact ⟨hvalue, rfl⟩
  · cases h
  · cases h

/-- A read returns what the record holds. -/
theorem read_safe (taskId : String) (caller : AsyncJobCaller) (nowMs : Int) :
    TaskSafe runtime i (Current taskId) (read taskId caller nowMs) world := by
  refine Safe.check fun _ _ => Safe.check fun _ _ => ?_
  refine (get_safe (taskKey taskId)).andThen ?_
  rintro record now - ⟨before, -, hstep, -⟩
  obtain ⟨hanswer, hstate⟩ := Step.get_answer hstep
  cases record with
  | none => exact Safe.raise
  | some record =>
    refine Safe.check fun task htask => Safe.check fun _ _ => ?_
    split
    · exact Safe.raise
    · obtain ⟨hvalue, hrevision⟩ := decode_ok htask
      exact Safe.done ⟨record, by rw [hstate]; exact hanswer.symm, hrevision, hvalue⟩

/-- A save along a transition is one compare-and-swap that the guarantee allows. -/
theorem save_safe {taskId : String} {next : DurableTaskState} {nowMs : Int}
    (hwas : WasCurrent taskId task world) (htransition : ∀ now, Meanwhile runtime i world now →
      TaskTransition (Answered runtime.sha256.text taskId now)
        (fun outcome => outcome.status = .inputRequired → Polled i outcome now.history)
        task.state next) : TaskSafe runtime i
      (TaskPerformed runtime i world (.compareAndSwap (taskKey taskId) task.revision (.task next)
        nowMs (some next.expiresAt)))
      (save taskId task.revision next nowMs) world := by
  refine Safe.check fun value hvalue => ?_
  have : value = .task next := by
    change encode next = .ok value at hvalue
    unfold encode at hvalue
    split at hvalue
    · cases hvalue
    · exact (Except.ok.inj hvalue).symm
  subst this
  refine Safe.compareAndSwap fun now answer hnow _ => ⟨taskId, rfl, rfl, ?_⟩
  intro current hget hrevision
  exact ⟨task.state, (hwas.grows hnow.evolves).of_revision hget hrevision, htransition now hnow⟩

section Saved

variable {taskId : String} {revision : Nat} {next : DurableTaskState} {nowMs : Int}
  {expiresAt : Option Int} {now : TaskWorld} {record : Record String TaskValue}

/-- After a successful save the record is what was saved. -/
theorem saved_updated (h : TaskPerformed runtime i world
      (.compareAndSwap (taskKey taskId) revision (.task next) nowMs expiresAt)
      (.updated record) now) (htask : decode record = .ok task) :
    Current taskId task now ∧ task.state = next := by
  obtain ⟨_, -, hstep, -⟩ := h
  obtain ⟨hvalue, hrevision⟩ := decode_ok htask
  rcases Step.compareAndSwap_answer hstep with ⟨hanswer, _⟩ | ⟨_, hanswer, _⟩ |
    ⟨_, hanswer, _, _, hafter⟩
  · cases hanswer
  · cases hanswer
  · obtain rfl := CasResult.updated.inj hanswer
    exact ⟨⟨_, hafter, hrevision, hvalue⟩, TaskValue.task.inj hvalue.symm⟩

/-- After a conflict the record is the one that the save met. -/
theorem saved_conflict (h : TaskPerformed runtime i world
      (.compareAndSwap (taskKey taskId) revision (.task next) nowMs expiresAt)
      (.conflict record) now) (htask : decode record = .ok task) : Current taskId task now := by
  obtain ⟨_, -, hstep, -⟩ := h
  obtain ⟨hvalue, hrevision⟩ := decode_ok htask
  rcases Step.compareAndSwap_answer hstep with ⟨hanswer, _⟩ | ⟨_, hanswer, _, _, hafter⟩ |
    ⟨_, hanswer, _⟩
  · cases hanswer
  · obtain rfl := CasResult.conflict.inj hanswer
    exact ⟨record, hafter, hrevision, hvalue⟩
  · cases hanswer

end Saved

/-- A re-read ends a method that lost a race; it is about the same task. -/
theorem reread_safe (hinv : Invariant runtime world) (taskId : String) (caller : AsyncJobCaller)
    (nowMs : Int) :
    TaskSafe runtime i (fun (task : DetailedMcpTask) _ => task.taskId = taskId)
      ((read taskId caller nowMs).bind fun latest => .done (toDetailed latest.state)) world := by
  refine (read_safe taskId caller nowMs).andThen ?_
  intro latest now hnow hcurrent
  exact Safe.done (hcurrent.was (hinv.grows hnow)).1

theorem failUncertain_safe (hinv : Invariant runtime world)
    (hwas : WasCurrent current.state.taskId current world)
    (hstatus : current.state.status = .creating ∨ current.state.status = .working)
    (caller : AsyncJobCaller) (nowMs : Int) (hasCause : Bool) :
    TaskSafe runtime i (fun task _ => task.taskId = current.state.taskId)
      (failUncertain current caller nowMs hasCause) world := by
  refine (save_safe hwas fun now _ => .failedUncertain _ nowMs hstatus).andThen ?_
  intro answer now hnow hsaved
  cases answer with
  | updated record =>
    refine Safe.check fun task htask => Safe.done ?_
    rw [toDetailed, (saved_updated hsaved htask).2]
    rfl
  | missing =>
    dsimp only
    split
    · exact Safe.raise
    · exact reread_safe (hinv.grows hnow) _ caller nowMs
  | conflict record => exact reread_safe (hinv.grows hnow) _ caller nowMs

theorem persistPollOutcome_safe (hinv : Invariant runtime world)
    (hwas : WasCurrent current.state.taskId current world)
    (hstatus : current.state.status = .working) {outcome : AsyncTaskPollOutcome}
    (houtcome : outcome.status = .inputRequired → Polled i outcome world.history)
    (caller : AsyncJobCaller) (nowMs : Int) :
    TaskSafe runtime i (fun _ _ => True) (persistPollOutcome current outcome caller nowMs)
      world := by
  refine (save_safe hwas fun now hnow => .polled _ nowMs outcome hstatus fun h => ?_).andThen ?_
  · obtain ⟨providerTaskId, input, hpolled⟩ := houtcome h
    exact ⟨providerTaskId, input, (persistent_mem_history _).rely hnow hpolled⟩
  · intro answer now hnow hsaved
    cases answer with
    | updated record => exact Safe.check fun _ _ => Safe.done trivial
    | _ => exact (reread_safe (hinv.grows hnow) _ caller nowMs).weaken fun _ _ _ => trivial

/-! ## The journal -/

theorem claim_other_safe (identity : EffectIdentity) (nowMs : Int) :
    TaskSafe runtime i (fun _ _ => True) (claim identity nowMs) world := by
  refine TaskSafe.weaken (claim_safe meanwhile_grows fun _ _ _ => ?_) fun _ _ _ => trivial
  exact ⟨⟨identity, rfl⟩, rfl⟩

/-- Transitions of effects that deliver no answers need no justification. -/
theorem transition_other_safe (hkey : ¬ IsUpdateKey runtime.sha256.text identity.key)
    (revision : Nat) (status : DurableEffectStatus) (nowMs : Int) (receipt : Option String) :
    TaskSafe runtime i (fun _ _ => True) (transition identity revision status nowMs receipt)
      world := by
  refine TaskSafe.weaken (transition_safe (fun _ => True) meanwhile_grows (fun _ _ _ _ => trivial)
    (fun _ _ _ _ _ => trivial) (fun _ _ => trivial) (fun _ _ _ _ _ _ _ _ _ _ => ?_) trivial)
    fun _ _ _ => trivial
  exact ⟨⟨identity, rfl⟩, fun h => absurd h hkey⟩

theorem retry_cancel_safe (taskId : String) (revision : Nat) (nowMs : Int) :
    TaskSafe runtime i (fun _ _ => True) (retry (cancelIdentity taskId) revision nowMs)
      world := by
  refine retry_safe meanwhile_grows (fun _ _ => trivial) fun _ _ _ _ => ?_
  exact ⟨⟨_, rfl⟩, fun h => absurd h (not_isUpdateKey_cancel runtime.sha256 taskId)⟩

/-! ## `start` -/

theorem decodeIndex_ok {record : Record String TaskValue} {indexed : String × String}
    (h : decodeIndex record = .ok indexed) : record.value = .index indexed.1 indexed.2 := by
  unfold decodeIndex at h
  split at h
  · rename_i taskId fingerprint hvalue
    obtain rfl := Except.ok.inj h
    exact hvalue
  · cases h
  · cases h

/-- The task id that a start reserves is the one its idempotency key is bound to. -/
theorem reserveTaskId_safe {nowMs : Int}
    (hcalls : Calls i (.start input caller ttlMs idempotencyKey nowMs) world) (freshTaskId : String)
    (ttl : Int) : TaskSafe runtime i (BoundTo runtime.sha256.text i)
      (reserveTaskId runtime.sha256.text input caller idempotencyKey freshTaskId nowMs ttl)
      world := by
  cases idempotencyKey with
  | none =>
    refine Safe.done fun input' caller' ttlMs' key' nowMs' hinvoke => ?_
    cases hcalls.2 _ hinvoke
  | some key =>
    refine TaskSafe.andThen (Safe.createIfAbsent fun now _ _ _ => ⟨_, _, _, rfl⟩) ?_
    rintro answer now hnow ⟨before, -, hstep, -⟩
    refine Safe.check fun indexed hindexed => ?_
    split
    · exact Safe.raise
    · refine Safe.done fun input' caller' ttlMs' key' nowMs' hinvoke => ?_
      cases ((persistent_calls i _).evolves hnow hcalls).2 _ hinvoke
      exact ⟨_, _, (Step.createIfAbsent_answer hstep).1, decodeIndex_ok hindexed⟩

theorem recoverStart_safe (hinv : Invariant runtime world) {taskId : String}
    (hwas : WasCurrent taskId current world)
    (hstatus : current.state.status = .creating ∨ current.state.status = .working)
    (inflightRevision : Nat) (caller : AsyncJobCaller) (nowMs : Int) :
    TaskSafe runtime i (fun task _ => task.taskId = taskId)
      (recoverStart taskId current inflightRevision caller nowMs) world := by
  refine TaskSafe.andThen (Safe.caught (transition_other_safe
    (not_isUpdateKey_create runtime.sha256 taskId) _ _ _ _)) ?_
  intro _ now hnow _
  obtain rfl := hwas.1
  exact failUncertain_safe (hinv.grows hnow) (hwas.grows hnow) hstatus caller nowMs true

/-- The provider is asked to create a task only by the call that created the task record. -/
theorem persistProviderTask_safe (hinv : Invariant runtime world) {taskId : String}
    (hwas : WasCurrent taskId current world) (hstatus : current.state.status = .creating)
    (hcreated : Created i (taskKey taskId) world.history) (hcalls : Calls i call world)
    (hbound : BoundTo runtime.sha256.text i taskId world) (input : Json) (nowMs : Int) :
    TaskSafe runtime i (fun working now => Current taskId working now ∧
        working.state.status = .working)
      (persistProviderTask taskId input current nowMs) world := by
  refine TaskSafe.andThen (ask_safe (.create input) fun now hnow => ⟨taskId, ?_, ?_⟩) ?_
  · exact (created_persistent i _).rely hnow hcreated
  · exact ((boundTo_persistent i call taskId).rely hnow ⟨hinv, hcalls, hbound⟩).2.2
  · intro answer now hnow _
    refine Safe.check fun providerTaskId _ => ?_
    refine TaskSafe.andThen (save_safe (hwas.grows hnow) fun later _ =>
      .created _ nowMs providerTaskId hstatus) ?_
    intro answer later _ hsaved
    cases answer with
    | updated record =>
      refine Safe.ofExcept fun working hworking => ?_
      obtain ⟨hcurrent, hstate⟩ := saved_updated hsaved hworking
      exact ⟨hcurrent, by rw [hstate]; rfl⟩
    | _ => exact Safe.raise

theorem createProviderTask_safe (hinv : Invariant runtime world) {taskId : String}
    (hwas : WasCurrent taskId current world) (hstatus : current.state.status = .creating)
    (hcreated : Created i (taskKey taskId) world.history) (hcalls : Calls i call world)
    (hbound : BoundTo runtime.sha256.text i taskId world) (input : Json) (caller : AsyncJobCaller)
    (nowMs : Int) : TaskSafe runtime i (fun task _ => task.taskId = taskId)
      (createProviderTask taskId input current caller nowMs) world := by
  have hkey := not_isUpdateKey_create runtime.sha256 taskId
  refine TaskSafe.andThen (claim_other_safe _ nowMs) ?_
  intro claimed first hfirst _
  cases claimed with
  | existing effect revision =>
    obtain rfl := hwas.1
    exact failUncertain_safe (hinv.grows hfirst) (hwas.grows hfirst) (.inl hstatus) caller nowMs
      false
  | claimed effect revision =>
    refine TaskSafe.andThen (transition_other_safe hkey _ _ _ _) ?_
    intro inflight second hsecond _
    have hgrows := hfirst.trans hsecond
    refine TaskSafe.andThen (Safe.caught (persistProviderTask_safe (hinv.grows hgrows)
      (hwas.grows hgrows) hstatus ((created_persistent i _).evolves hgrows hcreated)
      ((persistent_calls i call).evolves hgrows hcalls)
      ((boundTo_persistent i call taskId).evolves hgrows ⟨hinv, hcalls, hbound⟩).2.2
      input nowMs)) ?_
    intro persisted third hthird hpersisted
    have hthird := hgrows.trans hthird
    cases persisted with
    | error error =>
      exact recoverStart_safe (hinv.grows hthird) (hwas.grows hthird) (.inl hstatus) _ caller nowMs
    | ok working =>
      obtain ⟨hcurrent, hworking⟩ := hpersisted working rfl
      have hwas' := hcurrent.was (hinv.grows hthird)
      refine TaskSafe.andThen (Safe.caught (transition_other_safe hkey _ _ _ _)) ?_
      intro recorded fourth hfourth _
      cases recorded with
      | error error =>
        exact recoverStart_safe (hinv.grows (hthird.trans hfourth)) (hwas'.grows hfourth)
          (.inr hworking) _ caller nowMs
      | ok _ => exact Safe.done hwas'.1

/-- A start that returns reports the task that its idempotency key is bound to. -/
theorem start_safe (hinv : Invariant runtime world) {nowMs : Int}
    (hcalls : Calls i (.start input caller ttlMs idempotencyKey nowMs) world) :
    TaskSafe runtime i (fun task now => BoundTo runtime.sha256.text i task.taskId now)
      (start runtime input caller ttlMs idempotencyKey nowMs) world := by
  -- Whatever the rest returns, it has the reserved task id, and that stays bound.
  have hrest : ∀ taskId now, Invariant runtime now →
      Calls i (.start input caller ttlMs idempotencyKey nowMs) now →
      BoundTo runtime.sha256.text i taskId now →
      ∀ program : TaskIo DetailedMcpTask,
      TaskSafe runtime i (fun task _ => task.taskId = taskId) program now →
      TaskSafe runtime i (fun task now => BoundTo runtime.sha256.text i task.taskId now)
        program now := by
    intro taskId now hinv hcalls hbound program hprogram
    refine (hprogram.evolving meanwhile_grows).mono ?_
    rintro outcome later ⟨hlater, hpost⟩ task htask
    rw [hpost task htask]
    exact ((boundTo_persistent i _ taskId).evolves hlater ⟨hinv, hcalls, hbound⟩).2.2
  refine Safe.check fun _ _ => TaskSafe.andThen (ask_safe .randomUUID fun _ _ => trivial) ?_
  intro uuid first hfirst _
  refine TaskSafe.andThen (reserveTaskId_safe ((persistent_calls i _).evolves hfirst hcalls) _ _) ?_
  intro taskId second hsecond hbound
  have hcalls := (persistent_calls i _).evolves (hfirst.trans hsecond) hcalls
  have hinv := hinv.grows (hfirst.trans hsecond)
  refine hrest taskId second hinv hcalls hbound _ ?_
  refine Safe.check fun value hvalue => ?_
  have : value = .task (initialState runtime taskId input caller idempotencyKey nowMs
      (ttlMs.getD 3600000)) := by
    change encode _ = .ok value at hvalue
    unfold encode at hvalue
    split at hvalue
    · cases hvalue
    · exact (Except.ok.inj hvalue).symm
  subst this
  refine TaskSafe.andThen (Safe.createIfAbsent fun now _ _ _ =>
    ⟨rfl, rfl, input, caller, idempotencyKey, nowMs, ttlMs.getD 3600000, rfl⟩) ?_
  rintro created third hthird ⟨before, -, hstep, -⟩
  obtain ⟨hafter, hanswer⟩ := Step.createIfAbsent_answer hstep
  refine Safe.check fun current hcurrent => Safe.check fun _ _ => ?_
  obtain ⟨hvalue, hrevision⟩ := decode_ok hcurrent
  have hwas : WasCurrent taskId current third :=
    Current.was ⟨_, hafter, hrevision, hvalue⟩ (hinv.grows hthird)
  split
  · exact Safe.raise
  · cases created with
    | existing record =>
      dsimp only
      split
      · rename_i hstatus
        obtain rfl := hwas.1
        exact failUncertain_safe (hinv.grows hthird) hwas (.inl hstatus) caller nowMs false
      · exact Safe.done hwas.1
    | created record =>
      have hstatus : current.state.status = .creating := by
        rcases hanswer with ⟨_, hexisting, _⟩ | ⟨hcreated, _⟩
        · cases hexisting
        · rw [hcreated] at hvalue
          rw [← TaskValue.task.inj hvalue]
          rfl
      have hcreated : Created i (taskKey taskId) third.history :=
        ⟨_, _, _, _, hstep.mem_history.2 (.inl rfl)⟩
      exact createProviderTask_safe (hinv.grows hthird) hwas hstatus hcreated
        ((persistent_calls i _).evolves hthird hcalls)
        ((boundTo_persistent i _ taskId).evolves hthird ⟨hinv, hcalls, hbound⟩).2.2
        input caller nowMs

/-! ## `get` -/

theorem pollProvider_safe (hinv : Invariant runtime world) {lease : VersionedTask}
    (hwas : WasCurrent lease.state.taskId lease world) (hstatus : lease.state.status = .working)
    (caller : AsyncJobCaller) (nowMs : Int) :
    TaskSafe runtime i (fun _ _ => True) (pollProvider lease caller nowMs) world := by
  refine TaskSafe.andThen (Safe.caught (Q := fun outcome now => Polled i outcome now.history) ?_) ?_
  · refine TaskSafe.andThen (ask_safe (.parseInput _) fun _ _ => trivial) ?_
    intro parsed first _ _
    refine Safe.check fun input _ => TaskSafe.andThen (ask_safe (.poll _ _) fun _ _ => trivial) ?_
    rintro answer second - ⟨before, -, hstep, -⟩
    cases answer with
    | error error => exact Safe.raise
    | ok outcome => exact Safe.done ⟨_, _, hstep.mem_history.2 (.inl rfl)⟩
  · intro polled now hnow hpolled
    cases polled with
    | ok outcome =>
      exact persistPollOutcome_safe (hinv.grows hnow) (hwas.grows hnow) hstatus
        (fun _ => hpolled outcome rfl) caller nowMs
    | error error =>
      refine TaskSafe.andThen (ask_safe .aborted fun _ _ => trivial) ?_
      intro aborted later hlater _
      extract_lets failure
      split
      · exact Safe.raise
      · exact persistPollOutcome_safe (hinv.grows (hnow.trans hlater))
          (hwas.grows (hnow.trans hlater)) hstatus (fun h => by cases h) caller nowMs

theorem getTask_safe (hinv : Invariant runtime world) (taskId : String) (caller : AsyncJobCaller)
    (nowMs : Int) :
    TaskSafe runtime i (fun _ _ => True) (getTask taskId caller nowMs) world := by
  refine (read_safe taskId caller nowMs).andThen ?_
  intro current first hfirst hcurrent
  have hinv := hinv.grows hfirst
  have hwas := hcurrent.was hinv
  obtain rfl := hwas.1
  split
  · exact Safe.done trivial
  · rename_i hopen
    simp only [not_or] at hopen
    split
    · rename_i hcreating
      have hstatus : current.state.status = .creating ∨ current.state.status = .working := by
        obtain ⟨hterminal, hinput, -⟩ := hopen
        cases hstatus : current.state.status <;> simp [hstatus, DurableTaskStatus.terminal] at *
      exact (failUncertain_safe hinv hwas hstatus caller nowMs false).weaken fun _ _ _ => trivial
    · rename_i hworking
      have hstatus : current.state.status = .working := by
        obtain ⟨_, _, -⟩ := hopen
        cases hstatus : current.state.status <;> simp [hstatus, DurableTaskStatus.terminal] at *
      refine (save_safe hwas fun now _ => .leased _ nowMs hstatus).andThen ?_
      intro answer second hsecond hsaved
      cases answer with
      | updated record =>
        refine Safe.check fun lease hlease => ?_
        obtain ⟨hleased, hstate⟩ := saved_updated hsaved hlease
        have hwas' := hleased.was (hinv.grows hsecond)
        refine pollProvider_safe (hinv.grows hsecond) ?_ (by rw [hstate]; exact hstatus) caller
          nowMs
        rw [hwas'.1]
        exact hwas'
      | _ => exact (reread_safe (hinv.grows hsecond) _ caller nowMs).weaken fun _ _ _ => trivial

/-! ## `update` -/

/-- Two states show the same window. -/
def SameWindow (state other : DurableTaskState) : Prop :=
  state.inputRequests = other.inputRequests ∧ state.usedInputKeys = other.usedInputKeys

theorem SameWindow.operationKey_eq {sha256 : String → String} {state other : DurableTaskState}
    (h : SameWindow state other) : operationKey sha256 state = operationKey sha256 other := by
  rw [operationKey, operationKey, DurableTaskState.windowJson, DurableTaskState.windowJson, h.1,
    h.2]

/-- The answers to the window of `state` have been delivered. -/
def WindowClosed (sha256 : String → String) (taskId : String) (state : DurableTaskState)
    (world : TaskWorld) : Prop :=
  ∃ record effect, world.state.records.get (updateIdentity sha256 taskId state).key = some record ∧
    record.value = .effect effect ∧ effect.status = .succeeded

/-- The record of `taskId` shows the window of `state`, and will until it is answered. -/
def WindowOpen (taskId : String) (state : DurableTaskState) (world : TaskWorld) : Prop :=
  ∃ current, TaskAt taskId current world ∧ SameWindow current state ∧
    (current.status = .inputRequired ∨ current.status.terminal = true)

/-- A delivery that has succeeded keeps its record. -/
theorem effect_eq_of_succeeded (hstep : runtime.system.Step i event before after)
    (hG : Guarantee runtime i event before) {taskId : String} {record : Record String TaskValue}
    (hget : before.state.records.get (updateIdentity runtime.sha256.text taskId state).key =
      some record) (hvalue : record.value = .effect effect) (hstatus : effect.status = .succeeded) :
    after.state.records.get (updateIdentity runtime.sha256.text taskId state).key =
      some record := by
  rcases record_cases hstep hG (updateIdentity runtime.sha256.text taskId state).key with
    hsame | ⟨_, _, _, hnone, _⟩ | ⟨_, value, _, _, hcurrent, _, hswap⟩
  · exact hsame.trans hget
  · simp [hnone] at hget
  · cases value with
    | task next =>
      obtain ⟨_, hkey, _⟩ := hswap
      exact absurd hkey.symm taskKey_ne_key
    | index taskId fingerprint => exact hswap.elim
    | effect next =>
      obtain rfl := Option.some.inj (hcurrent.symm.trans hget)
      exact absurd hstatus ((hswap.2 ⟨taskId, state, rfl⟩).2.2 _ effect hcurrent rfl hvalue)

theorem answered_persistent (taskId : String) (state : DurableTaskState) (accepted : JsonObject) :
    Persistent runtime.system (Guarantee runtime) fun world =>
      Answered runtime.sha256.text taskId world state accepted := by
  rintro j event before after hstep hG ⟨record, effect, hget, hvalue, hstatus, hreceipt⟩
  exact ⟨record, effect, effect_eq_of_succeeded hstep hG hget hvalue hstatus, hvalue, hstatus,
    hreceipt⟩

/-- A window stays open until the record takes the answers that were delivered. -/
theorem window_step (hstep : runtime.system.Step i event before after)
    (hG : Guarantee runtime i event before) {taskId : String} (h : WindowOpen taskId state before) :
    WindowOpen taskId state after ∨
      ∃ previous nowMs accepted, TaskAt taskId previous before ∧ SameWindow previous state ∧
        TaskAt taskId (previous.answered nowMs accepted.keys) after ∧
        Answered runtime.sha256.text taskId before previous accepted := by
  obtain ⟨current, ⟨record, hget, hvalue⟩, hwindow, hstatus⟩ := h
  rcases task_cases hstep hG taskId with
    hsame | ⟨_, _, hnone, _⟩ |
    ⟨_, stored, previous, _, hfound, hprevious, hafter, hnext, _, htransition⟩
  · exact .inl ⟨current, ⟨record, hsame.trans hget, hvalue⟩, hwindow, hstatus⟩
  · simp [hnone] at hget
  · obtain rfl := Option.some.inj (hfound.symm.trans hget)
    obtain rfl : previous = current := TaskValue.task.inj (hprevious.symm.trans hvalue)
    have hnotRunning : previous.status ≠ .creating ∧ previous.status ≠ .working := by
      rcases hstatus with hstatus | hstatus <;>
        constructor <;> rintro heq <;> simp [heq, DurableTaskStatus.terminal] at hstatus
    cases htransition with
    | created nowMs providerTaskId hcreating => exact absurd hcreating hnotRunning.1
    | failedUncertain nowMs hrunning => exact absurd hrunning (not_or.2 hnotRunning)
    | leased nowMs hworking => exact absurd hworking hnotRunning.2
    | polled nowMs outcome hworking => exact absurd hworking hnotRunning.2
    | answered nowMs accepted hinput hanswered =>
      exact .inr ⟨previous, nowMs, accepted, ⟨_, hget, hvalue⟩, hwindow,
        ⟨stored, hafter, hnext⟩, hanswered⟩
    | cancelled nowMs hopen => exact .inl ⟨_, ⟨stored, hafter, hnext⟩, hwindow, .inr rfl⟩
    | acknowledged nowMs hcancelled => exact .inl ⟨_, ⟨stored, hafter, hnext⟩, hwindow, hstatus⟩
    | stoppedWaiting nowMs => exact .inl ⟨_, ⟨stored, hafter, hnext⟩, hwindow, hstatus⟩

/-- A window stays open until its answers have been delivered. -/
theorem window_persistent (taskId : String) (state : DurableTaskState) :
    Persistent runtime.system (Guarantee runtime) fun world =>
      WindowOpen taskId state world ∨ WindowClosed runtime.sha256.text taskId state world := by
  rintro j event before after hstep hG (hopen | ⟨record, effect, hget, hvalue, hstatus⟩)
  · refine (window_step hstep hG hopen).imp id ?_
    rintro ⟨previous, nowMs, accepted, -, hwindow, -, record, effect, hget, hvalue, hstatus, -⟩
    rw [updateIdentity, hwindow.operationKey_eq] at hget
    exact ⟨record, effect, effect_eq_of_succeeded hstep hG hget hvalue hstatus, hvalue, hstatus⟩
  · exact .inr ⟨record, effect, effect_eq_of_succeeded hstep hG hget hvalue hstatus, hvalue,
      hstatus⟩

/-- Call `i` created the effect record under `key`, and it is `record`. -/
def Owns (i : Nat) (key : String) (record : Record String TaskValue) (world : TaskWorld) : Prop :=
  Created i key world.history ∧ world.state.records.get key = some record

/-- Nobody else touches the effect record of a delivery. -/
theorem Owns.meanwhile (hinv : Invariant runtime world) {record : Record String TaskValue}
    (hkey : IsUpdateKey runtime.sha256.text key) (howns : Owns i key record world) {now : TaskWorld}
    (hnow : Meanwhile runtime i world now) : Owns i key record now := by
  have hboth : Invariant runtime now ∧ Owns i key record now := by
    refine hnow.preserves (P := fun now => Invariant runtime now ∧ Owns i key record now)
      ?_ ⟨hinv, howns⟩
    rintro j event before after hj hstep hG ⟨hinv, hcreated, hget⟩
    refine ⟨invariant_persistent _ _ _ _ hstep hG hinv, hcreated.mono hstep, ?_⟩
    rcases record_cases hstep hG key with
      hsame | ⟨_, _, _, hnone, _⟩ | ⟨_, value, _, _, _, _, hswap⟩
    · exact hsame.trans hget
    · simp [hnone] at hget
    · cases value with
      | task next =>
        obtain ⟨taskId, _, hupdate⟩ := hkey
        obtain ⟨_, htaskKey, _⟩ := hswap
        exact absurd (htaskKey.symm.trans hupdate) taskKey_ne_key
      | index taskId fingerprint => exact hswap.elim
      | effect next => exact absurd (hinv.creator (hswap.2 hkey).1 hcreated) hj
  exact hboth.2

/-- A step of call `i` that only reads or asks leaves its effect record. -/
theorem Owns.still (hstep : runtime.system.Step i event before after)
    (hstate : after.state = before.state) {record : Record String TaskValue}
    (h : Owns i key record before) : Owns i key record after :=
  ⟨h.1.mono hstep, hstate ▸ h.2⟩

/-- The owner of a delivery that has not succeeded moves it on, and stays its owner. -/
theorem transition_owned_safe (hinv : Invariant runtime world)
    (hkey : IsUpdateKey runtime.sha256.text identity.key) {record : Record String TaskValue}
    (howns : Owns i identity.key record world) (hvalue : record.value = .effect effect)
    (heffect : effect.status ≠ .succeeded) (revision : Nat) (status : DurableEffectStatus)
    (nowMs : Int) (receipt : Option String)
    (hreceipt : status = .succeeded → ∃ accepted, Delivered i accepted world.history ∧
      receipt = some (responseReceipt runtime.sha256.text accepted)) :
    TaskSafe runtime i (fun _ now => ∃ record effect, Owns i identity.key record now ∧
        record.value = .effect effect ∧ effect.status = status ∧ effect.receipt = receipt)
      (transition identity revision status nowMs receipt) world := by
  refine TaskSafe.weaken (transition_safe
    (fun now => Invariant runtime now ∧ Owns i identity.key record now ∧
      Grows runtime world now) meanwhile_grows ?_ ?_ (fun _ _ => trivial) ?_
    ⟨hinv, howns, .refl⟩) ?_
  · rintro now later hlater ⟨hinv, howns, hgrows⟩
    exact ⟨hinv.grows hlater.evolves, howns.meanwhile hinv hkey hlater, hgrows.trans hlater.evolves⟩
  · rintro now later answer ⟨hinv, howns, hgrows⟩ hstep
    have hkeeps : Grows runtime now later := .single ⟨i, _, hstep, trivial⟩
    exact ⟨hinv.grows hkeeps, howns.still hstep (Step.get_answer hstep).2, hgrows.trans hkeeps⟩
  · rintro before found previous now answer - - - - ⟨-, howns, hgrows⟩
    refine ⟨⟨identity, rfl⟩, fun _ => ⟨howns.1, fun hstatus => ?_, ?_⟩⟩
    · obtain ⟨accepted, ⟨providerTaskId, answer, hdelivered⟩, hreceipt⟩ := hreceipt hstatus
      exact ⟨accepted, ⟨providerTaskId, answer,
        (persistent_mem_history _).evolves hgrows hdelivered⟩, hreceipt⟩
    · intro current other hget _ hother
      obtain rfl := Option.some.inj (howns.2.symm.trans hget)
      rw [← TaskValue.effect.inj (hvalue.symm.trans hother)]
      exact heffect
  · rintro ⟨next, _⟩ _ ⟨_, _, ⟨-, howns, -⟩, hstep, -, hstatus, hreceipt⟩
    rcases Step.compareAndSwap_answer hstep with ⟨hanswer, _⟩ | ⟨_, hanswer, _⟩ |
      ⟨_, _, _, _, hafter⟩
    · cases hanswer
    · cases hanswer
    · exact ⟨_, next, ⟨howns.1.mono hstep, hafter⟩, rfl, hstatus, hreceipt⟩

/-- Behind a delivery the window it was made for has been answered. -/
theorem deliver_safe (hinv : Invariant runtime world) {taskId : String} {callMs : Int}
    (hcalls : Calls i (.update taskId inputResponses caller callMs) world)
    (hopen : WindowOpen taskId state world)
    (haccepted : ∀ key ∈ accepted.keys, key ∈ state.inputRequests.keys) (providerTaskId : String)
    (nowMs : Int) : TaskSafe runtime i
      (fun _ now => Answered runtime.sha256.text taskId now state accepted)
      (deliver (updateIdentity runtime.sha256.text taskId state)
        (responseReceipt runtime.sha256.text accepted) providerTaskId accepted nowMs) world := by
  have hkey : IsUpdateKey runtime.sha256.text
      (updateIdentity runtime.sha256.text taskId state).key := ⟨taskId, state, rfl⟩
  have hwindow : ∀ now, Grows runtime world now →
      WindowOpen taskId state now ∨ WindowClosed runtime.sha256.text taskId state now :=
    fun now hnow => (window_persistent taskId state).evolves hnow (.inl hopen)
  refine TaskSafe.andThen (claim_safe meanwhile_grows fun _ _ _ => ⟨⟨_, rfl⟩, rfl⟩) ?_
  rintro claimed first hfirst ⟨answer, ⟨before, -, hstep, -⟩, hclaim⟩
  obtain ⟨hafter, hanswer⟩ := Step.createIfAbsent_answer hstep
  rcases hclaim with ⟨record, rfl, rfl⟩ | ⟨record, effect, rfl, heffect, rfl⟩
  · -- The record is this call's own from here on.
    have howns : Owns i (updateIdentity runtime.sha256.text taskId state).key record first :=
      ⟨⟨_, _, _, _, hstep.mem_history.2 (.inl rfl)⟩, hafter⟩
    have hvalue : record.value =
        .effect (claimedEffect (updateIdentity runtime.sha256.text taskId state) nowMs) := by
      rcases hanswer with ⟨_, hexisting, _⟩ | ⟨hcreated, _⟩
      · cases hexisting
      · rw [CreateResult.created.inj hcreated]
        rfl
    refine TaskSafe.andThen (transition_owned_safe (hinv.grows hfirst) hkey howns hvalue
      (by simp [claimedEffect]) _ .inflight nowMs none (by simp)) ?_
    rintro inflight second hsecond ⟨record, effect, howns, hvalue, hinflight, -⟩
    have hsecond := hfirst.trans hsecond
    refine TaskSafe.andThen (ask_safe (.update providerTaskId accepted) fun now hnow => ?_) ?_
    · -- Nothing has been answered yet, so the window is still open.
      have hthird := hsecond.trans hnow.evolves
      have howns := howns.meanwhile (hinv.grows hsecond) hkey hnow
      rcases hwindow now hthird with ⟨current, htask, hsame, hstatus⟩ |
        ⟨_, _, hget, hother, hsucceeded⟩
      · refine ⟨taskId, inputResponses, caller, callMs, current,
          ((persistent_calls i _).evolves hthird hcalls).1, htask, hstatus, ?_, ?_⟩
        · rw [hsame.1]
          exact haccepted
        · rw [updateIdentity, hsame.operationKey_eq]
          exact howns.1
      · obtain rfl := Option.some.inj (howns.2.symm.trans hget)
        obtain rfl := TaskValue.effect.inj (hvalue.symm.trans hother)
        rw [hinflight] at hsucceeded
        cases hsucceeded
    · rintro answer third hthird ⟨before, hbefore, hstep, -⟩
      have howns := (howns.meanwhile (hinv.grows hsecond) hkey hbefore).still hstep
        (Step.port_state hstep)
      have hinv := hinv.grows (hsecond.trans hthird)
      have hdelivered : Delivered i accepted third.history :=
        ⟨providerTaskId, answer, hstep.mem_history.2 (.inl rfl)⟩
      have hnotYet : effect.status ≠ .succeeded := by simp [hinflight]
      cases answer with
      | error error =>
        refine TaskSafe.andThen (Safe.caught (transition_owned_safe hinv hkey howns hvalue
          hnotYet _ .uncertain nowMs none (by simp))) ?_
        exact fun _ _ _ _ => Safe.raise
      | ok _ =>
        refine TaskSafe.andThen (Safe.caught (transition_owned_safe hinv hkey howns hvalue
          hnotYet _ .succeeded nowMs _ fun _ => ⟨accepted, hdelivered, rfl⟩)) ?_
        intro recorded fourth _ hrecorded
        cases recorded with
        | error error => exact Safe.raise
        | ok result =>
          obtain ⟨record, effect, howns, hvalue, hstatus, hreceipt⟩ := hrecorded result rfl
          exact Safe.done ⟨record, effect, howns.2, hvalue, hstatus, hreceipt⟩
  · dsimp only
    split
    · exact Safe.raise
    · rename_i hreceipt
      simp only [ne_eq, not_or, not_not] at hreceipt
      refine Safe.done ⟨record, effect, hafter, ?_, hreceipt.1, hreceipt.2⟩
      cases hvalue : record.value with
      | effect found =>
        rw [hvalue] at heffect
        rw [Option.some.inj heffect]
      | task _ => simp [hvalue, Journaled.toEffect?] at heffect
      | index _ _ => simp [hvalue, Journaled.toEffect?] at heffect

/-- The loop saves the answers for the window they were delivered for, or not at all. -/
theorem saveAnswers_safe {taskId : String} {window : String} (caller : AsyncJobCaller) (nowMs : Int)
    (attempts : Nat) : ∀ (world : TaskWorld) (current : VersionedTask), Invariant runtime world →
      WasCurrent taskId current world → current.state.status = .inputRequired →
      operationKey runtime.sha256.text current.state = window →
      Answered runtime.sha256.text taskId world current.state accepted →
      TaskSafe runtime i (fun _ _ => True)
        (saveAnswers runtime.sha256.text taskId caller accepted.keys window nowMs attempts current)
        world := by
  induction attempts with
  | zero => exact fun _ _ _ _ _ _ _ => Safe.raise
  | succ attempts ih =>
    intro world current hinv hwas hstatus hwindow hanswered
    refine (save_safe hwas fun now hnow => .answered _ nowMs accepted hstatus
      ((answered_persistent _ _ _).rely hnow hanswered)).andThen ?_
    intro answer now hnow hsaved
    cases answer with
    | updated record => exact Safe.done trivial
    | missing => exact Safe.raise
    | conflict record =>
      refine Safe.check fun latest hlatest => Safe.check fun _ _ => ?_
      have hcurrent := saved_conflict hsaved hlatest
      split
      · exact Safe.done trivial
      · split
        · exact Safe.raise
        · rename_i hsame
          simp only [ne_eq, not_or, not_not] at hsame
          refine ih now latest (hinv.grows hnow) (hcurrent.was (hinv.grows hnow)) hsame.1 hsame.2 ?_
          have hanswered := (answered_persistent _ _ _).evolves hnow hanswered
          simpa only [Answered, updateIdentity, hsame.2, hwindow] using hanswered

theorem update_safe (hinv : Invariant runtime world) {taskId : String} {nowMs : Int}
    (hcalls : Calls i (.update taskId inputResponses caller nowMs) world) :
    TaskSafe runtime i (fun _ _ => True) (update runtime taskId inputResponses caller nowMs)
      world := by
  refine (read_safe taskId caller nowMs).andThen ?_
  intro current first hfirst hcurrent
  split
  · exact Safe.raise
  · rename_i hstatus
    rw [not_not] at hstatus
    extract_lets accepted
    split
    · exact Safe.done trivial
    · have haccepted : ∀ key ∈ accepted.keys, key ∈ current.state.inputRequests.keys := by
        intro key hkey
        have htest := (JsonObject.mem_keys_filterKeys.1 hkey).2
        rw [Bool.and_eq_true] at htest
        exact JsonObject.hasOwn_iff.1 htest.1
      split
      · refine TaskSafe.andThen (deliver_safe (hinv.grows hfirst)
          ((persistent_calls i _).evolves hfirst hcalls)
          ⟨current.state, hcurrent.taskAt, ⟨rfl, rfl⟩, .inl hstatus⟩ haccepted _ nowMs) ?_
        intro _ second hsecond hanswered
        have hwas := hcurrent.was (hinv.grows hfirst)
        exact saveAnswers_safe caller nowMs 4 second current (hinv.grows (hfirst.trans hsecond))
          (hwas.grows hsecond) hstatus rfl hanswered
      · exact Safe.raise

/-! ## `cancel` -/

theorem markUpstreamCancelled_safe {taskId : String} (caller : AsyncJobCaller) (nowMs : Int)
    (attempts : Nat) :
    ∀ world : TaskWorld, Invariant runtime world → Cancelled taskId world →
      TaskSafe runtime i (fun _ _ => True) (markUpstreamCancelled taskId caller nowMs attempts)
        world := by
  induction attempts with
  | zero => exact fun _ _ _ => Safe.raise
  | succ attempts ih =>
    intro world hinv hcancelled
    refine (read_safe taskId caller nowMs).andThen ?_
    intro current first hfirst hcurrent
    have hcancelled := (cancelled_persistent taskId).evolves hfirst hcancelled
    have hstatus : current.state.status = .cancelled := by
      obtain ⟨_, htask, hstatus⟩ := hcancelled
      rw [hcurrent.taskAt.unique htask]
      exact hstatus
    split
    · exact Safe.done trivial
    · have hwas := hcurrent.was (hinv.grows hfirst)
      refine (save_safe hwas fun now _ => .acknowledged _ nowMs hstatus).andThen ?_
      intro answer second hsecond _
      cases answer with
      | updated record => exact Safe.done trivial
      | missing => exact Safe.raise
      | conflict record =>
        exact ih second (hinv.grows (hfirst.trans hsecond))
          ((cancelled_persistent taskId).evolves hsecond hcancelled)

theorem sendCancel_safe (hinv : Invariant runtime world) {taskId : String}
    (hcancelled : Cancelled taskId world) (providerTaskId : String) (caller : AsyncJobCaller)
    (nowMs : Int) (claimedRevision : Nat) :
    TaskSafe runtime i (fun _ _ => True)
      (sendCancel taskId providerTaskId caller nowMs claimedRevision) world := by
  have hkey := not_isUpdateKey_cancel runtime.sha256 taskId
  refine TaskSafe.andThen (Safe.caught (transition_other_safe hkey _ _ _ _)) ?_
  intro inflight first hfirst _
  cases inflight with
  | error error => exact Safe.done trivial
  | ok inflight =>
    refine TaskSafe.andThen (ask_safe (.cancel providerTaskId) fun _ _ => trivial) ?_
    intro acknowledged second hsecond _
    have hgrows := hfirst.trans hsecond
    split
    · refine TaskSafe.andThen (Safe.caught (transition_other_safe hkey _ _ _ _)) ?_
      intro recorded third hthird _
      cases recorded with
      | error error => exact Safe.done trivial
      | ok recorded =>
        exact markUpstreamCancelled_safe caller nowMs 4 third (hinv.grows (hgrows.trans hthird))
          ((cancelled_persistent taskId).evolves (hgrows.trans hthird) hcancelled)
    · exact TaskSafe.andThen (Safe.caught (transition_other_safe hkey _ _ _ _))
        fun _ _ _ _ => Safe.done trivial

theorem cancelUpstream_safe (hinv : Invariant runtime world) {taskId : String}
    (hcancelled : Cancelled taskId world) (current : VersionedTask) (caller : AsyncJobCaller)
    (nowMs : Int) :
    TaskSafe runtime i (fun _ _ => True) (cancelUpstream runtime taskId current caller nowMs)
      world := by
  unfold cancelUpstream
  split
  · exact Safe.done trivial
  · split
    · exact Safe.done trivial
    · refine TaskSafe.andThen (claim_other_safe _ nowMs) ?_
      intro claimed first hfirst _
      have hinv := hinv.grows hfirst
      have hcancelled := (cancelled_persistent taskId).evolves hfirst hcancelled
      cases claimed with
      | claimed effect revision => exact sendCancel_safe hinv hcancelled _ caller nowMs revision
      | existing effect revision =>
        dsimp only
        split
        · exact markUpstreamCancelled_safe caller nowMs 4 first hinv hcancelled
        · refine TaskSafe.andThen (retry_cancel_safe taskId revision nowMs) ?_
          intro retried second hsecond _
          cases retried with
          | blocked effect revision => exact Safe.done trivial
          | claimed effect revision =>
            exact sendCancel_safe (hinv.grows hsecond)
              ((cancelled_persistent taskId).evolves hsecond hcancelled) _ caller nowMs
              revision
        · exact Safe.done trivial
        · exact Safe.done trivial

/-- After the swap of a cancellation the record is cancelled, has come to another end, or the
swap met a record that is still open. -/
theorem cancelRecord_safe {taskId : String} (hwas : WasCurrent taskId current world)
    (hopen : current.state.status.terminal = false) (caller : AsyncJobCaller) (nowMs : Int) :
    TaskSafe runtime i
      (fun latest now => (∀ task, latest = some task → Cancelled taskId now) ∧
        (latest = none → Terminal taskId now ∨ LostRace i taskId now.history))
      (cancelRecord taskId current caller nowMs) world := by
  refine (save_safe hwas fun now _ => .cancelled _ nowMs hopen).andThen ?_
  intro answer now hnow hsaved
  cases answer with
  | missing => exact Safe.raise
  | updated record =>
    refine Safe.check fun latest hlatest => Safe.check fun _ _ => Safe.done ?_
    obtain ⟨hcurrent, hstate⟩ := saved_updated hsaved hlatest
    have hstatus : latest.state.status = .cancelled := by rw [hstate]; rfl
    simp only [hstatus, ne_eq, not_true_eq_false, if_false, reduceCtorEq, false_implies, and_true]
    exact fun _ _ => ⟨latest.state, hcurrent.taskAt, hstatus⟩
  | conflict record =>
    refine Safe.check fun latest hlatest => Safe.check fun _ _ => Safe.done ?_
    have hcurrent := saved_conflict hsaved hlatest
    constructor
    · intro task htask
      split at htask
      · cases htask
      · rename_i hstatus
        exact ⟨latest.state, hcurrent.taskAt, not_not.1 hstatus⟩
    · rintro -
      cases hterminal : latest.state.status.terminal with
      | true => exact .inl ⟨latest.state, hcurrent.taskAt, hterminal⟩
      | false =>
        obtain ⟨_, -, hstep, -⟩ := hsaved
        exact .inr ⟨_, _, _, _, record, latest.state, hstep.mem_history.2 (.inl rfl), rfl,
          (decode_ok hlatest).1, hterminal⟩

/-- A cancellation that returns found the task at its end, brought it there, or lost a race. -/
theorem cancel_safe (hinv : Invariant runtime world) (taskId : String) (caller : AsyncJobCaller)
    (nowMs : Int) :
    TaskSafe runtime i (fun _ now => Terminal taskId now ∨ LostRace i taskId now.history)
      (cancel runtime taskId caller nowMs) world := by
  have hend : ∀ (now : TaskWorld) (current : VersionedTask), Invariant runtime now →
      Cancelled taskId now →
      TaskSafe runtime i (fun _ now => Terminal taskId now ∨ LostRace i taskId now.history)
        (cancelUpstream runtime taskId current caller nowMs) now := by
    intro now current hinv hcancelled
    refine ((cancelUpstream_safe hinv hcancelled current caller nowMs).evolving
      meanwhile_grows).mono ?_
    rintro outcome later ⟨hlater, -⟩ value -
    exact .inl ((cancelled_persistent taskId).evolves hlater hcancelled).terminal
  refine (read_safe taskId caller nowMs).andThen ?_
  intro current first hfirst hcurrent
  have hinv := hinv.grows hfirst
  split
  · rename_i hstatus
    exact hend first current hinv ⟨current.state, hcurrent.taskAt, hstatus⟩
  · split
    · exact Safe.raise
    · rename_i hopen
      refine (cancelRecord_safe (hcurrent.was hinv) (by simpa using hopen) caller nowMs).andThen ?_
      rintro latest second hsecond ⟨hsome, hnone⟩
      cases latest with
      | none => exact Safe.done (hnone rfl)
      | some latest => exact hend second latest (hinv.grows hsecond) (hsome latest rfl)

/-! ## The other methods -/

theorem stopWaiting_safe (hinv : Invariant runtime world) (taskId : String)
    (caller : AsyncJobCaller) (nowMs : Int) :
    TaskSafe runtime i (fun _ _ => True) (stopWaiting taskId caller nowMs) world := by
  refine (read_safe taskId caller nowMs).andThen ?_
  intro current first hfirst hcurrent
  split
  · exact Safe.done trivial
  · exact (save_safe (hcurrent.was (hinv.grows hfirst)) fun now _ =>
      .stoppedWaiting _ nowMs).andThen fun _ _ _ _ => Safe.done trivial

theorem describe_safe (hinv : Invariant runtime world) (taskId : String)
    (caller : AsyncJobCaller) (nowMs : Int) :
    TaskSafe runtime i (fun _ _ => True) (describe taskId caller nowMs) world := by
  refine (getTask_safe hinv taskId caller nowMs).andThen fun _ _ _ _ => ?_
  exact (read_safe taskId caller nowMs).andThen fun _ _ _ _ => Safe.done trivial

/-! ## All calls -/

/-- Calls of other methods than `start` and `cancel` may return anything. -/
private theorem replyAllowed_other {reply : Reply} {now : TaskWorld} (hcalls : Calls i call now)
    (hstart : ∀ input caller ttlMs key nowMs, call ≠ .start input caller ttlMs key nowMs)
    (hcancel : ∀ taskId caller nowMs, call ≠ .cancel taskId caller nowMs) :
    ReplyAllowed runtime i reply now :=
  ⟨fun _ _ _ _ _ _ _ hinvoke => absurd (hcalls.2 _ hinvoke).symm (hstart _ _ _ _ _),
    fun _ _ _ hinvoke => absurd (hcalls.2 _ hinvoke).symm (hcancel _ _ _)⟩

/-- A method whose result is not constrained keeps the guarantee when it responds. -/
private theorem responds_other (hcalls : Calls i call world)
    (hstart : ∀ input caller ttlMs key nowMs, call ≠ .start input caller ttlMs key nowMs)
    (hcancel : ∀ taskId caller nowMs, call ≠ .cancel taskId caller nowMs) {Q : α → TaskWorld → Prop}
    (h : TaskSafe runtime i Q program world) (reply : α → Reply) :
    Safe runtime.system (Guarantee runtime) (Meanwhile runtime i) i
      (Responds runtime.system (Guarantee runtime) i)
      (program.bind fun value => .done (reply value)) world := by
  refine Safe.responds (Q := fun _ now => Calls i call now) ?_ ?_ fun _ _ => trivial
  · exact h.andThen fun _ now hnow _ => Safe.done ((persistent_calls i call).evolves hnow hcalls)
  · intro reply now hcalls later hlater
    exact replyAllowed_other ((persistent_calls i call).rely hlater hcalls) hstart hcancel

/-- Every call of the runtime keeps the guarantee, whatever the other calls do meanwhile. -/
theorem verified (runtime : Runtime) :
    Verified runtime.system (Guarantee runtime) (Invariant runtime) where
  inv := invariant_persistent
  invoke _ _ _ _ := trivial
  main := by
    intro i call world hinv hcalls _
    cases call with
    | start input caller ttlMs key nowMs =>
      refine Safe.responds (Q := fun reply now => Invariant runtime now ∧
        Calls i (.start input caller ttlMs key nowMs) now ∧ ∃ task, reply = .task task ∧
          BoundTo runtime.sha256.text i task.taskId now) ?_ ?_ fun _ _ => trivial
      · refine (start_safe hinv hcalls).andThen fun task now hnow hbound => Safe.done ?_
        exact ⟨hinv.grows hnow, (persistent_calls i _).evolves hnow hcalls, task, rfl, hbound⟩
      · rintro reply now ⟨hinv, hcalls, task, rfl, hbound⟩ later hlater
        refine ⟨fun other hother => ?_, fun taskId caller nowMs hinvoke => ?_⟩
        · obtain rfl := Reply.task.inj hother
          exact ((boundTo_persistent i _ _).rely hlater ⟨hinv, hcalls, hbound⟩).2.2
        · cases ((persistent_calls i _).rely hlater hcalls).2 _ hinvoke
    | cancel taskId caller nowMs =>
      refine Safe.responds (Q := fun reply now =>
        Calls i (.cancel taskId caller nowMs) now ∧ reply = .nothing ∧
          (Terminal taskId now ∨ LostRace i taskId now.history)) ?_ ?_ fun _ _ => trivial
      · refine (cancel_safe hinv taskId caller nowMs).andThen fun _ now hnow hend =>
          Safe.done ?_
        exact ⟨(persistent_calls i _).evolves hnow hcalls, rfl, hend⟩
      · rintro reply now ⟨hcalls, rfl, hend⟩ later hlater
        refine ⟨fun _ hother => Reply.noConfusion hother, fun other caller nowMs hinvoke => ?_⟩
        cases ((persistent_calls i _).rely hlater hcalls).2 _ hinvoke
        exact hend.imp ((terminal_persistent taskId).rely hlater)
          ((lostRace_persistent i taskId).rely hlater)
    | get taskId caller nowMs =>
      exact responds_other hcalls (by simp) (by simp) (getTask_safe hinv taskId caller nowMs) .task
    | update taskId inputResponses caller nowMs =>
      exact responds_other hcalls (by simp) (by simp) (update_safe hinv hcalls) fun _ => .nothing
    | stopWaiting taskId caller nowMs =>
      exact responds_other hcalls (by simp) (by simp)
        (stopWaiting_safe hinv taskId caller nowMs) fun _ => .nothing
    | describe taskId caller nowMs =>
      exact responds_other hcalls (by simp) (by simp) (describe_safe hinv taskId caller nowMs)
        .details

end Groundlane.McpTasks
