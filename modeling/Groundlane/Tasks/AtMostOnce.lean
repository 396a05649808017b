import Groundlane.Durable.Digest
import Groundlane.Tasks.Lifecycle

/-!
# What the provider is asked to do at most once

However often and however concurrently `start` is called with one idempotency key, the provider
creates one task and every start that returns reports it (`created_once`). However often and
however concurrently a task is updated, the provider is given each of its inputs at most once,
as long as no two digests collide (`delivered_once`). Both rest on the same argument: the record
that is created before the provider is asked has a single creator, and a call asks once.
-/

namespace Groundlane.McpTasks

open Fenced Interleaving DurableEffectJournal

variable {runtime : Runtime} {test : Request → Bool}

/-! ## How often a call asks -/

variable (caller : AsyncJobCaller) (nowMs : Int) {before after : TaskWorld} (taskId : String)
  {event : TaskEvent} {i : Nat} (current : VersionedTask) {history : TaskHistory}
  {accepted : JsonObject} (input : Json) {key : String}

theorem atMost_read (caller : AsyncJobCaller) (nowMs : Int) :
    Program.AtMost (asks test) 0 (read taskId caller nowMs) := by
  refine .check fun _ => .check fun _ => (atMost_get rfl).andThen fun record => ?_
  cases record with
  | none => exact Program.atMost_raise ..
  | some record =>
    refine .check fun current => .check fun _ => ?_
    split
    · exact Program.atMost_raise ..
    · exact Program.atMost_done ..

theorem atMost_save (revision : Nat) (next : DurableTaskState) (nowMs : Int) :
    Program.AtMost (asks test) 0 (save taskId revision next nowMs) :=
  .check fun _ => atMost_compareAndSwap rfl

theorem atMost_reread (caller : AsyncJobCaller) (nowMs : Int) : Program.AtMost (asks test) 0
      ((read taskId caller nowMs).bind fun latest => .done (toDetailed latest.state)) :=
  (atMost_read ..).andThen fun _ => Program.atMost_done ..

theorem atMost_failUncertain (caller : AsyncJobCaller) (nowMs : Int) (hasCause : Bool) :
    Program.AtMost (asks test) 0 (failUncertain current caller nowMs hasCause) := by
  refine (atMost_save ..).andThen fun saved => ?_
  cases saved with
  | updated record => exact .check fun _ => Program.atMost_done ..
  | missing =>
    dsimp only
    split
    · exact Program.atMost_raise ..
    · exact atMost_reread ..
  | conflict record => exact atMost_reread ..

/-- Whether a request asks for a new task. -/
def isCreate : Request → Bool
  | .create _ => true
  | _ => false

theorem atMost_reserveTaskId (sha256 : String → String) (input : Json) (caller : AsyncJobCaller)
    (idempotencyKey : Option String) (freshTaskId : String) (nowMs ttlMs : Int) :
    Program.AtMost (asks test) 0
      (reserveTaskId sha256 input caller idempotencyKey freshTaskId nowMs ttlMs) := by
  cases idempotencyKey with
  | none => exact Program.atMost_done ..
  | some key =>
    refine (atMost_createIfAbsent rfl).andThen fun index => .check fun indexed => ?_
    split
    · exact Program.atMost_raise ..
    · exact Program.atMost_done ..

theorem atMost_recoverStart (inflightRevision : Nat) (caller : AsyncJobCaller) (nowMs : Int) :
    Program.AtMost (asks test) 0 (recoverStart taskId current inflightRevision caller nowMs) :=
  (atMost_transition ..).attempt.andThen fun _ => atMost_failUncertain ..

theorem atMost_persistProviderTask (current : VersionedTask) (nowMs : Int) :
    Program.AtMost (asks test) 1 (persistProviderTask taskId input current nowMs) := by
  refine (Program.atMost_one _).before fun answer => .check fun providerTaskId => ?_
  refine (atMost_save ..).andThen fun saved => ?_
  cases saved with
  | updated record => exact Program.atMost_ofExcept ..
  | _ => exact Program.atMost_raise ..

theorem atMost_createProviderTask (current : VersionedTask) (caller : AsyncJobCaller) (nowMs : Int) :
    Program.AtMost (asks test) 1 (createProviderTask taskId input current caller nowMs) := by
  refine (atMost_claim ..).andThen fun claimed => ?_
  cases claimed with
  | existing effect revision => exact (atMost_failUncertain ..).mono (Nat.zero_le 1)
  | claimed effect revision =>
    refine (atMost_transition ..).andThen fun inflight => ?_
    refine (atMost_persistProviderTask ..).attempt.before fun persisted => ?_
    cases persisted with
    | error error => exact atMost_recoverStart ..
    | ok working =>
      refine (atMost_transition ..).attempt.andThen fun recorded => ?_
      cases recorded with
      | error error => exact atMost_recoverStart ..
      | ok recorded => exact Program.atMost_done ..

/-- A start asks the provider for one task at most. -/
theorem atMost_start (caller : AsyncJobCaller) (ttlMs : Option Int) (idempotencyKey : Option String)
    (nowMs : Int) : Program.AtMost (asks isCreate) 1
      (start runtime input caller ttlMs idempotencyKey nowMs) := by
  refine .check fun _ => (atMost_ask rfl).andThen fun uuid => ?_
  refine (atMost_reserveTaskId ..).andThen fun taskId => .check fun value => ?_
  refine (atMost_createIfAbsent rfl).andThen fun created => ?_
  refine .check fun current => .check fun _ => ?_
  split
  · exact Program.atMost_raise ..
  · cases created with
    | existing record =>
      dsimp only
      split
      · exact (atMost_failUncertain ..).mono (Nat.zero_le 1)
      · exact Program.atMost_done ..
    | created record => exact atMost_createProviderTask ..

/-- Whether a request gives the provider answers. -/
def isUpdate : Request → Bool
  | .update .. => true
  | _ => false

theorem atMost_deliver (identity : EffectIdentity) (receipt providerTaskId : String)
    (accepted : JsonObject) (nowMs : Int) :
    Program.AtMost (asks test) 1 (deliver identity receipt providerTaskId accepted nowMs) := by
  refine (atMost_claim ..).andThen fun claimed => ?_
  cases claimed with
  | existing effect revision =>
    dsimp only
    split
    · exact Program.atMost_raise ..
    · exact Program.atMost_done ..
  | claimed effect revision =>
    refine (atMost_transition ..).andThen fun inflight => ?_
    refine (Program.atMost_one _).before fun answer => ?_
    cases answer with
    | error error => exact (atMost_transition ..).attempt.andThen fun _ => Program.atMost_raise ..
    | ok answer =>
      refine (atMost_transition ..).attempt.andThen fun recorded => ?_
      cases recorded with
      | error error => exact Program.atMost_raise ..
      | ok recorded => exact Program.atMost_done ..

theorem atMost_saveAnswers (sha256 : String → String) (taskId : String) (caller : AsyncJobCaller)
    (acceptedKeys : List String) (window : String) (nowMs : Int) (attempts : Nat) :
    ∀ current, Program.AtMost (asks test) 0
      (saveAnswers sha256 taskId caller acceptedKeys window nowMs attempts current) := by
  induction attempts with
  | zero => exact fun _ => Program.atMost_raise ..
  | succ attempts ih =>
    intro current
    refine (atMost_save ..).andThen fun saved => ?_
    cases saved with
    | updated record => exact Program.atMost_done ..
    | missing => exact Program.atMost_raise ..
    | conflict record =>
      refine .check fun latest => .check fun _ => ?_
      split
      · exact Program.atMost_done ..
      · split
        · exact Program.atMost_raise ..
        · exact ih latest

/-- An update gives the provider answers at most once. -/
theorem atMost_update (inputResponses : JsonObject) (caller : AsyncJobCaller) (nowMs : Int) :
    Program.AtMost (asks test) 1 (update runtime taskId inputResponses caller nowMs) := by
  refine (atMost_read ..).andThen fun current => ?_
  split
  · exact Program.atMost_raise ..
  · extract_lets accepted
    split
    · exact Program.atMost_done ..
    · split
      · exact (atMost_deliver ..).before fun _ => atMost_saveAnswers ..
      · exact Program.atMost_raise ..

/-! ## Creation -/

/-- Whether call `i` is a start of `caller` with the idempotency key `key`. -/
def startedWith (caller : AsyncJobCaller) (key : String) (history : TaskHistory) (i : Nat) :
    Bool :=
  history.any fun
    | (j, .invoke (.start _ caller' _ key' _)) => j == i && caller' == caller && key' == some key
    | _ => false

theorem startedWith_iff {caller : AsyncJobCaller} : startedWith caller key history i = true ↔
      ∃ input ttlMs nowMs, (i, .invoke (.start input caller ttlMs (some key) nowMs)) ∈ history := by
  constructor
  · intro h
    obtain ⟨⟨j, _⟩, hmem, htest⟩ := List.any_eq_true.1 h
    split at htest
    · rename_i k input caller' ttlMs key' nowMs heq
      obtain ⟨rfl, rfl⟩ := Prod.mk.inj heq
      simp only [Bool.and_eq_true, beq_iff_eq] at htest
      obtain ⟨⟨rfl, rfl⟩, rfl⟩ := htest
      exact ⟨input, ttlMs, nowMs, hmem⟩
    · cases htest
  · rintro ⟨_, _, _, hmem⟩
    exact List.any_eq_true.2 ⟨_, hmem, by simp⟩

/-- Whether an event is that a start of `caller` with `key` asks the provider for a task. -/
def isCreation (caller : AsyncJobCaller) (key : String) (history : TaskHistory) :
    Nat × TaskEvent → Bool
  | (i, .effect (.port (.create _)) _) => startedWith caller key history i
  | _ => false

theorem isCreation_iff {caller : AsyncJobCaller} : isCreation caller key history (i, event) = true ↔
      startedWith caller key history i = true ∧
        ∃ input answer, event = .effect (.port (.create input)) answer := by
  constructor
  · intro h
    unfold isCreation at h
    split at h
    · rename_i heq
      obtain ⟨rfl, rfl⟩ := Prod.mk.inj heq
      exact ⟨h, _, _, rfl⟩
    · cases h
  · rintro ⟨h, _, _, rfl⟩
    exact h

/-- How often the provider was asked for a task by starts of `caller` with `key`. -/
def providerCreations (caller : AsyncJobCaller) (key : String) (history : TaskHistory) : Nat :=
  history.countP (isCreation caller key history)

/-- Who asked the provider for a task had created its record, under the bound task id; and what
a start returned has the bound task id. -/
structure Reserved (runtime : Runtime) (world : TaskWorld) : Prop where
  asked : ∀ i input answer, (i, .effect (.port (.create input)) answer) ∈ world.history →
    ∃ taskId, Created i (taskKey taskId) world.history ∧
      BoundTo runtime.sha256.text i taskId world
  returned : ∀ i task, (i, .response (.ok (.task task))) ∈ world.history →
    BoundTo runtime.sha256.text i task.taskId world

theorem reserved_step (hinv : Invariant runtime before)
    (hstep : runtime.system.Step i event before after) (hG : Guarantee runtime i event before)
    (h : Reserved runtime before) : Reserved runtime after where
  asked := by
    intro j input answer hmem
    have hkeep : ∀ taskId, Created j (taskKey taskId) before.history →
        BoundTo runtime.sha256.text j taskId before →
        Created j (taskKey taskId) after.history ∧
          BoundTo runtime.sha256.text j taskId after := by
      intro taskId hcreated hbound
      obtain ⟨_, _, _, _, hmine⟩ := id hcreated
      exact ⟨hcreated.mono hstep, hbound.step hinv hstep hG fun _ => hstep.mem_of_invoke hmine⟩
    rcases hstep.mem_history.1 hmem with heq | hmem
    · obtain ⟨rfl, rfl⟩ := Prod.mk.inj heq
      obtain ⟨taskId, hcreated, hbound⟩ := hG
      exact ⟨taskId, hkeep taskId hcreated hbound⟩
    · obtain ⟨taskId, hcreated, hbound⟩ := h.asked j input answer hmem
      exact ⟨taskId, hkeep taskId hcreated hbound⟩
  returned := by
    intro j task hmem
    rcases hstep.mem_history.1 hmem with heq | hmem
    · obtain ⟨rfl, rfl⟩ := Prod.mk.inj heq
      refine (hG.1 task rfl).step hinv hstep hG fun call hinvoke => ?_
      simpa [hstep.mem_history] using hinvoke
    · exact (h.returned j task hmem).step hinv hstep hG fun _ => hstep.mem_of_invoke hmem

theorem reserved_run (actions : List (Action Call (Oracle Answer))) :
    Reserved runtime (runtime.system.run Runtime.initial actions).toWorld :=
  ready.persists (verified runtime) actions
    (fun _ _ _ _ hinv _ hstep hG h => reserved_step hinv hstep hG h)
    (by constructor <;> simp [Runtime.initial, Config.initial])

/-- Two calls that start with one idempotency key are bound to the same task. -/
theorem BoundTo.unique {world : TaskWorld} {i j : Nat} {caller : AsyncJobCaller}
    (hi : startedWith caller key world.history i = true)
    (hj : startedWith caller key world.history j = true) {taskId taskId' : String}
    (h : BoundTo runtime.sha256.text i taskId world)
    (h' : BoundTo runtime.sha256.text j taskId' world) : taskId = taskId' := by
  obtain ⟨_, _, _, hi⟩ := startedWith_iff.1 hi
  obtain ⟨_, _, _, hj⟩ := startedWith_iff.1 hj
  obtain ⟨_, _, hget, hvalue⟩ := h _ _ _ _ _ hi
  obtain ⟨_, _, hget', hvalue'⟩ := h' _ _ _ _ _ hj
  obtain rfl := Option.some.inj (hget.symm.trans hget')
  exact (TaskValue.index.inj (hvalue.symm.trans hvalue')).1

/-- However `start` is called with one idempotency key, the provider is asked for one task at
most, and all starts that return have the same task. -/
theorem created_once (runtime : Runtime) (actions : List (Action Call (Oracle Answer)))
    (caller : AsyncJobCaller) (key : String) :
    providerCreations caller key (runtime.system.run Runtime.initial actions).history ≤ 1 ∧
      ∀ i j task task',
        startedWith caller key (runtime.system.run Runtime.initial actions).history i = true →
        startedWith caller key (runtime.system.run Runtime.initial actions).history j = true →
        (i, .response (.ok (.task task))) ∈
          (runtime.system.run Runtime.initial actions).history →
        (j, .response (.ok (.task task'))) ∈
          (runtime.system.run Runtime.initial actions).history →
        task.taskId = task'.taskId := by
  have hready := ready.run (verified runtime) actions
  have hreserved : Reserved runtime (runtime.system.run Runtime.initial actions).toWorld :=
    reserved_run actions
  generalize runtime.system.run Runtime.initial actions = config at *
  constructor
  · have haccounted : runtime.system.Accounted config.toWorld :=
      ⟨config, hready.consistent, rfl⟩
    refine haccounted.countP_le_one (asks isCreate) ?_ ?_
    · intro i event hmem htest
      obtain ⟨hstarted, input, answer, rfl⟩ := isCreation_iff.1 htest
      obtain ⟨input, ttlMs, nowMs, hstart⟩ := startedWith_iff.1 hstarted
      refine ⟨_, _, rfl, rfl, fun call hcall => ?_⟩
      obtain rfl := haccounted.invoke_unique hstart hcall
      exact (atMost_start ..).before fun _ => Program.atMost_done ..
    · intro i event j event' hmem htest hmem' htest'
      obtain ⟨hi, input, answer, rfl⟩ := isCreation_iff.1 htest
      obtain ⟨hj, input', answer', rfl⟩ := isCreation_iff.1 htest'
      obtain ⟨taskId, hcreated, hbound⟩ := hreserved.asked i _ _ hmem
      obtain ⟨taskId', hcreated', hbound'⟩ := hreserved.asked j _ _ hmem'
      obtain rfl := hbound.unique hi hj hbound'
      exact hready.inv.creator hcreated hcreated'
  · intro i j task task' hi hj htask htask'
    exact (hreserved.returned i task htask).unique hi hj (hreserved.returned j task' htask')

/-! ## Delivery -/

/-- Whether call `i` is an update of `taskId`. -/
def updates (taskId : String) (history : TaskHistory) (i : Nat) : Bool :=
  history.any fun
    | (j, .invoke (.update taskId' _ _ _)) => j == i && taskId' == taskId
    | _ => false

theorem updates_iff {taskId : String} :
    updates taskId history i = true ↔ ∃ inputResponses caller nowMs,
      (i, .invoke (.update taskId inputResponses caller nowMs)) ∈ history := by
  constructor
  · intro h
    obtain ⟨⟨j, _⟩, hmem, htest⟩ := List.any_eq_true.1 h
    split at htest
    · rename_i heq
      obtain ⟨rfl, rfl⟩ := Prod.mk.inj heq
      simp only [Bool.and_eq_true, beq_iff_eq] at htest
      obtain ⟨rfl, rfl⟩ := htest
      exact ⟨_, _, _, hmem⟩
    · cases htest
  · rintro ⟨_, _, _, hmem⟩
    exact List.any_eq_true.2 ⟨_, hmem, by simp⟩

/-- Whether an event is that an update of `taskId` gives the provider an entry for `key`. -/
def isDelivery (taskId key : String) (history : TaskHistory) : Nat × TaskEvent → Bool
  | (i, .effect (.port (.update _ accepted)) _) => updates taskId history i && accepted.hasOwn key
  | _ => false

theorem isDelivery_iff {taskId key : String} : isDelivery taskId key history (i, event) = true ↔
      updates taskId history i = true ∧ ∃ providerTaskId accepted answer,
        event = .effect (.port (.update providerTaskId accepted)) answer ∧
          key ∈ accepted.keys := by
  constructor
  · intro h
    unfold isDelivery at h
    split at h
    · rename_i heq
      obtain ⟨rfl, rfl⟩ := Prod.mk.inj heq
      rw [Bool.and_eq_true] at h
      exact ⟨h.1, _, _, _, rfl, JsonObject.hasOwn_iff.1 h.2⟩
    · cases h
  · rintro ⟨h, _, _, _, rfl, hkey⟩
    simpa [isDelivery, h] using JsonObject.hasOwn_iff.2 hkey

/-- How often the provider was given an entry for `key` by updates of `taskId`. -/
def deliveries (taskId key : String) (history : TaskHistory) : Nat :=
  history.countP (isDelivery taskId key history)

/-- Call `i`, having created the effect of the window that it answers, has given `accepted` to
the provider: the window is still open, or its answers are on record. -/
def Settled (sha256 : String → String) (taskId : String) (i : Nat) (accepted : JsonObject)
    (world : TaskWorld) : Prop :=
  ∃ state, Created i (updateIdentity sha256 taskId state).key world.history ∧
    (WindowOpen taskId state world ∨ ∃ current, TaskAt taskId current world ∧
      ∀ key ∈ accepted.keys, key ∈ current.usedInputKeys)

/-- What has been answered stays answered. -/
theorem TaskTransition.usedInputKeys {Answered : DurableTaskState → JsonObject → Prop}
    {Outcome : AsyncTaskPollOutcome → Prop} {state next : DurableTaskState}
    (h : TaskTransition Answered Outcome state next) (hkey : key ∈ state.usedInputKeys) :
    key ∈ next.usedInputKeys := by
  cases h with
  | polled nowMs outcome => rwa [(polled_frame state nowMs outcome).2.2.1]
  | answered nowMs accepted => exact List.mem_append_left _ hkey
  | _ => exact hkey

theorem used_step (hstep : runtime.system.Step i event before after)
    (hG : Guarantee runtime i event before) {taskId : String} {keys : List String}
    (h : ∃ current, TaskAt taskId current before ∧ ∀ key ∈ keys, key ∈ current.usedInputKeys) :
    ∃ current, TaskAt taskId current after ∧ ∀ key ∈ keys, key ∈ current.usedInputKeys := by
  obtain ⟨current, ⟨record, hget, hvalue⟩, hused⟩ := h
  rcases task_cases hstep hG taskId with
    hsame | ⟨_, _, hnone, _⟩ |
    ⟨_, stored, previous, next, hfound, hprevious, hafter, hnext, _, htransition⟩
  · exact ⟨current, ⟨record, hsame.trans hget, hvalue⟩, hused⟩
  · simp [hnone] at hget
  · obtain rfl := Option.some.inj (hfound.symm.trans hget)
    obtain rfl : previous = current := TaskValue.task.inj (hprevious.symm.trans hvalue)
    exact ⟨next, ⟨stored, hafter, hnext⟩, fun key hkey =>
      htransition.usedInputKeys (hused key hkey)⟩

/-- Receipts of different answers differ, when no two digests collide. -/
theorem responseReceipt_inj (hinjective : Function.Injective runtime.sha256.text)
    {accepted accepted' : JsonObject}
    (h : responseReceipt runtime.sha256.text accepted =
      responseReceipt runtime.sha256.text accepted') : accepted = accepted' := by
  have htext := hinjective ((String.append_right_inj "response-").1 h)
  exact JsonObject.toJson_injective (Json.stringify_injective htext)

/-- An update gives answers once. -/
theorem Delivered.unique {world : TaskWorld} (haccounted : runtime.system.Accounted world)
    {taskId : String} (hupdates : updates taskId world.history i = true)
    {accepted accepted' : JsonObject} (h : Delivered i accepted world.history)
    (h' : Delivered i accepted' world.history) : accepted = accepted' := by
  obtain ⟨_, _, h⟩ := h
  obtain ⟨_, _, h'⟩ := h'
  obtain ⟨_, _, _, hinvoke⟩ := updates_iff.1 hupdates
  have hmain : ∀ call, (i, .invoke call) ∈ world.history →
      Program.AtMost (asks isUpdate) 1 (runtime.system.main call) := by
    intro call hcall
    obtain rfl := haccounted.invoke_unique hinvoke hcall
    exact (atMost_update ..).before fun _ => Program.atMost_done ..
  have hsame := congrArg Sigma.fst (haccounted.once hmain rfl rfl h h')
  exact (Request.update.inj (Op.port.inj hsame)).2

/-- A delivery stays settled. -/
theorem settled_step (hinjective : Function.Injective runtime.sha256.text) {i j : Nat}
    (hinv : Invariant runtime before) (haccounted : runtime.system.Accounted after)
    (hstep : runtime.system.Step j event before after) (hG : Guarantee runtime j event before)
    {taskId : String} (hupdates : updates taskId after.history i = true)
    (hdelivered : Delivered i accepted after.history)
    (h : Settled runtime.sha256.text taskId i accepted before) :
    Settled runtime.sha256.text taskId i accepted after := by
  obtain ⟨state, hcreated, hopen | hused⟩ := h
  · refine ⟨state, hcreated.mono hstep, (window_step hstep hG hopen).imp id ?_⟩
    rintro ⟨_, _, _, -, hwindow, hafter, _, effect, hget, hvalue, hstatus,
      hreceipt⟩
    rw [updateIdentity, hwindow.operationKey_eq] at hget
    -- The journal says which answers were given, and only the creator of the effect gave any.
    obtain ⟨creator, _, hcreator, hgiven, hgivenReceipt⟩ :=
      (hinv.effect hget hvalue).2 ⟨taskId, state, rfl⟩ hstatus
    obtain rfl := hinv.creator hcreated hcreator
    obtain rfl := (hgiven.mono hstep).unique haccounted hupdates hdelivered
    obtain rfl := responseReceipt_inj hinjective
      (Option.some.inj (hreceipt.symm.trans hgivenReceipt))
    exact ⟨_, hafter, fun key hkey => List.mem_append_right _ hkey⟩
  · exact ⟨state, hcreated.mono hstep, .inr (used_step hstep hG hused)⟩

/-- Every delivery of an update is settled, and no other update delivers what it did. -/
structure Deliveries (runtime : Runtime) (taskId key : String) (world : TaskWorld) : Prop where
  settled : ∀ i providerTaskId accepted answer, updates taskId world.history i = true →
    (i, .effect (.port (.update providerTaskId accepted)) answer) ∈ world.history →
    Settled runtime.sha256.text taskId i accepted world
  unique : ∀ i event j event',
    (i, event) ∈ world.history → isDelivery taskId key world.history (i, event) = true →
    (j, event') ∈ world.history → isDelivery taskId key world.history (j, event') = true → i = j

/-- An update that is about to deliver `accepted` has its window open. -/
theorem requested_open {before : TaskWorld} (providerTaskId : String) {taskId : String}
    (honly : ∀ call call', (i, .invoke call) ∈ before.history →
      (i, .invoke call') ∈ before.history → call = call')
    (hupdates : updates taskId before.history i = true)
    (hG : RequestAllowed runtime i (.update providerTaskId accepted) before) :
    ∃ state, TaskAt taskId state before ∧ WindowOpen taskId state before ∧
      (∀ key ∈ accepted.keys, key ∈ state.inputRequests.keys) ∧
      Created i (updateIdentity runtime.sha256.text taskId state).key before.history := by
  obtain ⟨_, _, _, _, state, hinvoke, htask, hstatus, hkeys, hcreated⟩ := hG
  obtain ⟨_, _, _, hinvoke'⟩ := updates_iff.1 hupdates
  obtain rfl := (Call.update.inj (honly _ _ hinvoke hinvoke')).1
  exact ⟨state, htask, ⟨state, htask, ⟨rfl, rfl⟩, hstatus⟩, hkeys, hcreated⟩

/-- What is about to be delivered has not been delivered by another call. -/
theorem requested_new {i j : Nat} {before : TaskWorld} (hinv : Invariant runtime before)
    {taskId key : String} {state : DurableTaskState} (htask : TaskAt taskId state before)
    (hkey : key ∈ state.inputRequests.keys)
    (hcreated : Created i (updateIdentity runtime.sha256.text taskId state).key before.history)
    (haccepted : key ∈ accepted.keys)
    (hsettled : Settled runtime.sha256.text taskId j accepted before) : i = j := by
  obtain ⟨_, hcreated', ⟨_, hcurrent, hwindow, -⟩ | ⟨_, hcurrent, hused⟩⟩ :=
    hsettled
  · obtain rfl := htask.unique hcurrent
    rw [updateIdentity, ← hwindow.operationKey_eq] at hcreated'
    exact hinv.creator hcreated hcreated'
  · obtain rfl := htask.unique hcurrent
    obtain ⟨_, hget, hvalue⟩ := htask
    exact absurd (hused key haccepted) ((hinv.task hget hvalue).2.2.1 key hkey)

theorem updates_before {taskId : String}
    (hmade : ∀ call, (i, .invoke call) ∈ after.history → (i, .invoke call) ∈ before.history)
    (h : updates taskId after.history i = true) : updates taskId before.history i = true := by
  obtain ⟨inputResponses, caller, nowMs, hinvoke⟩ := updates_iff.1 h
  exact updates_iff.2 ⟨inputResponses, caller, nowMs, hmade _ hinvoke⟩

/-- What was delivered after a step was delivered by the step or before it. -/
theorem delivery_cases {i j : Nat} {event mine : TaskEvent}
    (hstep : runtime.system.Step j event before after) {taskId : String}
    (hmem : (i, mine) ∈ after.history) (hmine : ∀ call, mine ≠ .invoke call)
    (h : updates taskId after.history i = true) : updates taskId before.history i = true ∧
      (i = j ∧ mine = event ∨ (i, mine) ∈ before.history) := by
  rcases hstep.mem_history.1 hmem with heq | hmem
  · obtain ⟨rfl, rfl⟩ := Prod.mk.inj heq
    refine ⟨updates_before (fun call hcall => ?_) h, .inl ⟨rfl, rfl⟩⟩
    exact (hstep.mem_history.1 hcall).resolve_left fun heq =>
      hmine call (Prod.mk.inj heq).2.symm
  · exact ⟨updates_before (fun _ => hstep.mem_of_invoke hmem) h, .inr hmem⟩

theorem deliveries_step (hinjective : Function.Injective runtime.sha256.text) {j : Nat}
    (hinv : Invariant runtime before) (haccounted : runtime.system.Accounted after)
    (hstep : runtime.system.Step j event before after) (hG : Guarantee runtime j event before)
    {taskId key : String} (h : Deliveries runtime taskId key before) :
    Deliveries runtime taskId key after := by
  have honly : ∀ i call call', (i, .invoke call) ∈ before.history →
      (i, .invoke call') ∈ before.history → call = call' := fun i call call' hcall hcall' =>
    haccounted.invoke_unique (hstep.history_mono hcall) (hstep.history_mono hcall')
  constructor
  · intro i providerTaskId accepted answer hupdates hmem
    refine settled_step hinjective hinv haccounted hstep hG hupdates
      ⟨providerTaskId, answer, hmem⟩ ?_
    obtain ⟨hbefore, ⟨rfl, rfl⟩ | hold⟩ := delivery_cases hstep hmem (by simp) hupdates
    · obtain ⟨state, -, hopen, -, hcreated⟩ := requested_open providerTaskId (honly i) hbefore hG
      exact ⟨state, hcreated, .inl hopen⟩
    · exact h.settled i providerTaskId accepted answer hbefore hold
  · -- A delivery of this step and an earlier one belong to the same call.
    have hnew : ∀ i mine, updates taskId before.history j = true →
        (∃ providerTaskId accepted answer,
          event = .effect (.port (.update providerTaskId accepted)) answer ∧
            key ∈ accepted.keys) →
        (i, mine) ∈ before.history → updates taskId before.history i = true →
        (∃ providerTaskId accepted answer,
          mine = .effect (.port (.update providerTaskId accepted)) answer ∧
            key ∈ accepted.keys) → j = i := by
      rintro i mine hj ⟨providerTaskId, accepted, _, rfl, hkey⟩ hmem hi
        ⟨_, accepted', _, rfl, hkey'⟩
      obtain ⟨_, htask, -, hrequests, hcreated⟩ :=
        requested_open providerTaskId (honly j) hj hG
      exact requested_new hinv htask (hrequests key hkey) hcreated hkey' (h.settled i _ _ _ hi hmem)
    intro i mine i' mine' hmem htest hmem' htest'
    obtain ⟨hupdates, hmine⟩ := isDelivery_iff.1 htest
    obtain ⟨hupdates', hmine'⟩ := isDelivery_iff.1 htest'
    obtain ⟨hbefore, ⟨rfl, rfl⟩ | hold⟩ := delivery_cases hstep hmem
      (by rintro _ rfl; simp at hmine) hupdates <;>
    obtain ⟨hbefore', ⟨rfl, rfl⟩ | hold'⟩ := delivery_cases hstep hmem'
      (by rintro _ rfl; simp at hmine') hupdates'
    · rfl
    · exact hnew i' mine' hbefore hmine hold' hbefore' hmine'
    · exact (hnew i mine hbefore' hmine' hold hbefore hmine).symm
    · exact h.unique i mine i' mine' hold (isDelivery_iff.2 ⟨hbefore, hmine⟩) hold'
        (isDelivery_iff.2 ⟨hbefore', hmine'⟩)

/-- However a task is updated, the provider is given each of its inputs at most once, when no two
digests collide. -/
theorem delivered_once (runtime : Runtime)
    (hinjective : Function.Injective runtime.sha256.text)
    (actions : List (Action Call (Oracle Answer))) (taskId key : String) :
    deliveries taskId key (runtime.system.run Runtime.initial actions).history ≤ 1 := by
  have hready := ready.run (verified runtime) actions
  have hdeliveries := ready.persists (verified runtime) actions
    (P := Deliveries runtime taskId key)
    (fun _ _ _ _ hinv haccounted hstep hG h =>
      deliveries_step hinjective hinv haccounted hstep hG h)
    ⟨by simp [Runtime.initial, Config.initial], by simp [Runtime.initial, Config.initial]⟩
  have haccounted : runtime.system.Accounted
      (runtime.system.run Runtime.initial actions).toWorld := ⟨_, hready.consistent, rfl⟩
  refine haccounted.countP_le_one (asks isUpdate) ?_ hdeliveries.unique
  intro i event hmem htest
  obtain ⟨hupdates, _, _, _, rfl, -⟩ := isDelivery_iff.1 htest
  obtain ⟨_, _, _, hinvoke⟩ := updates_iff.1 hupdates
  refine ⟨_, _, rfl, rfl, fun call hcall => ?_⟩
  obtain rfl := haccounted.invoke_unique hinvoke hcall
  exact (atMost_update ..).before fun _ => Program.atMost_done ..

/-- The digests of the window in which a name is asked for and of an answer to it. -/
def sampleDigests : DigestTable where
  entries := [
    ("\x7b\"inputRequests\":\x7b\"name\":null\x7d,\"usedInputKeys\":[]\x7d",
      "8c42593bbcfc5b666225ed8ccd2955d022eb42c64ea70afacbe9f52195850be6"),
    ("\x7b\"name\":null\x7d", "185333812484e6a5822b3f53ce03b63f5f187b61e896d77be602bf8633c077a0")]
  hex := by decide +kernel
  nodup := by decide +kernel

/-- Two updates answer the same request at the same time. -/
def answeredTwice : List (Action Call (Oracle Answer)) :=
  samplePoll asking ++
    [.invoke (.update "ajob-0" (askFor ["name"] nodup_name) sampleCaller 3000),
      .invoke (.update "ajob-0" (askFor ["name"] nodup_name) sampleCaller 3000)] ++
    polledSteps asking 2 1 ++ polledSteps asking 3 1 ++ polledSteps asking 2 8 ++
    polledSteps asking 3 8

/-- Two updates at the same time deliver an answer once. -/
theorem delivered_once_sample :
    deliveries "ajob-0" "name"
      (({ sampleRuntime with sha256 := sampleDigests.sha256 } : Runtime).system.run
        Runtime.initial answeredTwice).history = 1 :=
  Nat.le_antisymm
    (delivered_once { sampleRuntime with sha256 := sampleDigests.sha256 }
      sampleDigests.sha256_injective answeredTwice "ajob-0" "name")
    (by decide +kernel)

end Groundlane.McpTasks
