import Groundlane.Tasks.GivingUp

/-!
# A creation in flight

A task record in the state `creating` is the trace of an interrupted `start` or of one that is
still waiting for the provider, and a duplicate `start`, `get` or `describe` that comes upon it
takes it for the former. When no such call does, and the provider's task id fits into the record,
the record ends with that id (`creation_survives`); when one does, the record is failed while the
provider creates the task (`creation_destroyed`).
-/

namespace Groundlane.McpTasks

open Fenced Interleaving DurableEffectJournal

/-! ## The condition -/

/-- The task that a record holds while it is being created. -/
def creating (record : Record String TaskValue) : Option DurableTaskState :=
  match record.value with
  | .task state => if state.status = .creating then some state else none
  | .index .. | .effect _ => none

/-- Only `start`, `get` and `describe` are called. A duplicate start does not come upon the record
while the task is being created, nor does a poll of the owner whose clock has reached the time of
the next poll. The provider creates the task, and its id fits into the record. -/
def undisturbed (i : Nat) (event : TaskEvent) (world : TaskWorld) : Bool :=
  match event with
  | .invoke call => call.looks
  | .effect (.get key) _ =>
    ((world.state.records.get key).bind creating).all fun state => world.history.all fun
      | (j, .invoke call) => j != i || !call.due state
      | _ => true
  | .effect (.createIfAbsent key (.task initial) _ _) _ =>
    ((world.state.records.get key).bind creating).all fun state => !sameRequest state initial
  | .effect (.port (.create _)) (.error _) => false
  | .effect (.port (.create _)) (.ok providerTaskId) => world.history.all fun
    | (j, .effect (.createIfAbsent _ (.task state) nowMs _) (.created _)) =>
      j != i || (encode (state.withProviderTask nowMs providerTaskId)).isOk
    | _ => true
  | _ => true

/-! ## The claim -/

/-- The record of `taskId` was failed before it had the id of a provider task. -/
def GivenUp (taskId : String) (history : TaskHistory) : Prop :=
  ∃ i revision next nowMs expiresAt record,
    (i, .effect (.compareAndSwap (taskKey taskId) revision (.task next) nowMs expiresAt)
      (.updated record)) ∈ history ∧ next.status = .failed ∧ next.providerTaskId = none

/-- The record of `taskId`, which call `i` created, was not failed before it had a provider task,
and when the call has come to its end it has the one that the provider created. -/
def Survives (i : Nat) (taskId : String) (world : TaskWorld) : Prop :=
  ¬ GivenUp taskId world.history ∧
    ∀ input answer outcome, (i, .effect (.port (.create input)) answer) ∈ world.history →
      (i, .response outcome) ∈ world.history →
      ∃ state providerTaskId, TaskAt taskId state world ∧ answer = .ok providerTaskId ∧
        state.providerTaskId = some providerTaskId

/-! ## The invariant -/

/-- The record of `taskId` is no longer being created. -/
def Launched (taskId : String) (world : TaskWorld) : Prop :=
  ∃ state, TaskAt taskId state world ∧ state.status ≠ .creating

/-- Call `i` created the record of `taskId`, and the provider created `providerTaskId` for it. -/
def Provided (i : Nat) (taskId providerTaskId : String) (history : TaskHistory) : Prop :=
  (∃ state nowMs, CreatedTask i taskId state nowMs history) ∧
    ∃ input, (i, .effect (.port (.create input)) (.ok providerTaskId)) ∈ history

/-- What holds of the creations of an undisturbed run. -/
structure Creations (world : TaskWorld) : Prop where
  looks : ∀ i call, (i, .invoke call) ∈ world.history → call.looks = true
  keyed : ∀ i, WellKeyed i world.history
  seen : ∀ i record, Reported i record world.history → Store.Seen record world.state.records
  first : ∀ {taskId record state}, world.state.records.get (taskKey taskId) = some record →
    record.value = .task state → state.status = .creating → record.revision = 1
  effect : ∀ {taskId record},
    world.state.records.get (createIdentity taskId).key = some record →
    ∃ i state nowMs, CreatedTask i taskId state nowMs world.history ∧
      ClaimedEffect i taskId world.history
  unique : ∀ {i taskId other state state' nowMs nowMs'},
    CreatedTask i taskId state nowMs world.history →
    CreatedTask i other state' nowMs' world.history → taskId = other
  launched : ∀ {i taskId}, GaveUp i taskId world.history → Launched taskId world
  provided : ∀ {taskId state}, TaskAt taskId state world → state.status ≠ .creating →
    ∃ i providerTaskId, Provided i taskId providerTaskId world.history ∧
      state.providerTaskId = some providerTaskId
  written : ∀ {i taskId value nowMs expiresAt answer},
    (i, .effect (.createIfAbsent (taskKey taskId) value nowMs expiresAt) answer) ∈
      world.history → ∃ state, value = .task state
  ended : ∀ {i outcome input answer}, (i, .response outcome) ∈ world.history →
    (i, .effect (.port (.create input)) answer) ∈ world.history →
    ∃ taskId state nowMs, CreatedTask i taskId state nowMs world.history ∧ Launched taskId world
  kept : ∀ {taskId}, ¬ GivenUp taskId world.history

variable {runtime : Runtime} {i : Nat} {event : TaskEvent} {before after : TaskWorld}

theorem Provided.mono {taskId providerTaskId : String} {history later : TaskHistory}
    (hsub : history ⊆ later) (h : Provided i taskId providerTaskId history) :
    Provided i taskId providerTaskId later := by
  obtain ⟨⟨state, nowMs, hcreated⟩, input, hmem⟩ := h
  exact ⟨⟨state, nowMs, hcreated.mono hsub⟩, input, hsub hmem⟩

theorem createIdentity_key_inj {taskId other : String}
    (h : (createIdentity taskId).key = (createIdentity other).key) : taskId = other := by
  simpa [createIdentity, EffectIdentity.key, EffectIdentity.path, String.append_right_inj,
    String.append_left_inj] using h

/-- A writer that finds a launched record leaves it launched, with the provider task it has. -/
theorem TaskTransition.launched {Answered : DurableTaskState → JsonObject → Prop}
    {Outcome : AsyncTaskPollOutcome → Prop} {state next : DurableTaskState}
    (h : TaskTransition Answered Outcome state next) (hstate : state.status ≠ .creating) :
    next.status ≠ .creating ∧ next.providerTaskId = state.providerTaskId := by
  cases h with
  | created nowMs providerTaskId hstatus => exact absurd hstatus hstate
  | failedUncertain nowMs hstatus => exact ⟨nofun, rfl⟩
  | leased nowMs hstatus => exact ⟨hstate, rfl⟩
  | polled nowMs outcome hstatus =>
    unfold DurableTaskState.polled
    split <;> exact ⟨nofun, rfl⟩
  | answered nowMs accepted hstatus =>
    refine ⟨?_, rfl⟩
    unfold DurableTaskState.answered
    dsimp only
    split <;> exact nofun
  | cancelled nowMs hstatus => exact ⟨nofun, rfl⟩
  | acknowledged nowMs hstatus => exact ⟨hstate, rfl⟩
  | stoppedWaiting nowMs => exact ⟨hstate, rfl⟩

variable {taskId : String} {state : DurableTaskState} {record : Record String TaskValue}

theorem Launched.step (hstep : runtime.system.Step i event before after)
    (hG : Guarantee runtime i event before) (h : Launched taskId before) :
    Launched taskId after := by
  obtain ⟨state, ⟨record, hget, hvalue⟩, hstatus⟩ := h
  rcases task_cases hstep hG taskId with
    hsame | ⟨_, _, hnone, _⟩ |
    ⟨_, stored, previous, next, hfound, hprevious, hafter, hnext, _, htransition⟩
  · exact ⟨state, ⟨record, hsame.trans hget, hvalue⟩, hstatus⟩
  · simp [hnone] at hget
  · obtain rfl := Option.some.inj (hfound.symm.trans hget)
    obtain rfl : previous = state := TaskValue.task.inj (hprevious.symm.trans hvalue)
    exact ⟨next, ⟨stored, hafter, hnext⟩, (htransition.launched hstatus).1⟩

theorem TaskAt.not_launched {world : TaskWorld} (h : TaskAt taskId state world)
    (hstatus : state.status = .creating) : ¬ Launched taskId world := by
  rintro ⟨_, hother, hne⟩
  rw [h.unique hother] at hstatus
  exact hne hstatus

/-- What is stored under the key of a task is a task. -/
theorem task_of_get (hinv : Invariant runtime before)
    (h : before.state.records.get (taskKey taskId) = some record) :
    ∃ state, record.value = .task state := by
  cases hvalue : record.value with
  | task state => exact ⟨state, rfl⟩
  | index other fingerprint =>
    obtain ⟨_, _, _, hkey⟩ := hinv.index h hvalue
    exact absurd hkey taskKey_ne_idempotencyRecordKey
  | effect effect =>
    obtain ⟨⟨_, hkey⟩, -⟩ := hinv.effect h hvalue
    exact absurd hkey taskKey_ne_key

/-! ## One step -/

section Step

variable (hinv : Invariant runtime before) (hstep : runtime.system.Step i event before after)
  (hG : Guarantee runtime i event before) (hwatches : Watches i event before)
  (hcondition : undisturbed i event before = true) (h : Creations before)

include hwatches h in
theorem Creations.evidence : Evidence i event before.history :=
  hwatches (h.looks i) (h.keyed i)

include hstep hcondition h in
theorem Creations.looks_step (j : Nat) (call : Call) (hmem : (j, .invoke call) ∈ after.history) :
    call.looks = true := by
  rcases hstep.mem_history.1 hmem with heq | hmem
  · obtain ⟨rfl, rfl⟩ := Prod.mk.inj heq
    exact hcondition
  · exact h.looks j call hmem

include hinv hstep hG h in
theorem Creations.keyed_step (j : Nat) : WellKeyed j after.history := by
  intro record state hreported hvalue
  rcases reported_after hstep hreported with hreported | ⟨-, hget⟩
  · exact h.keyed j record state hreported hvalue
  · exact ((invariant_persistent _ _ _ _ hstep hG hinv).task hget hvalue).1

include hstep hG h in
theorem Creations.seen_step (j : Nat) (record : Record String TaskValue)
    (hreported : Reported j record after.history) : Store.Seen record after.state.records := by
  rcases reported_after hstep hreported with hreported | ⟨-, hget⟩
  · exact seen_persistent record _ _ _ _ hstep hG (h.seen j record hreported)
  · exact .of_get hget

include hstep hG hwatches h in
theorem Creations.first_step (hget : after.state.records.get (taskKey taskId) = some record)
    (hvalue : record.value = .task state) (hstatus : state.status = .creating) :
    record.revision = 1 := by
  rcases Step.record_cases hstep (taskKey taskId) with
    hsame | ⟨value, _, _, rfl, _, hafter⟩ |
    ⟨_, value, _, _, rfl, _, hafter⟩ | ⟨_, rfl, _, _⟩
  · exact h.first (hsame.symm.trans hget) hvalue hstatus
  · obtain rfl := Option.some.inj (hafter.symm.trans hget)
    rfl
  · obtain rfl := Option.some.inj (hafter.symm.trans hget)
    obtain rfl : value = .task state := hvalue
    obtain ⟨_, _, _, _, hnext, _⟩ := h.evidence hwatches
    exact absurd hstatus hnext
  · exact hG.elim

include hstep hG hwatches h in
theorem Creations.effect_step
    (hget : after.state.records.get (createIdentity taskId).key = some record) :
    ∃ j state nowMs, CreatedTask j taskId state nowMs after.history ∧
      ClaimedEffect j taskId after.history := by
  have hkeep : ∀ {current}, before.state.records.get (createIdentity taskId).key = some current →
      ∃ j state nowMs, CreatedTask j taskId state nowMs after.history ∧
        ClaimedEffect j taskId after.history := by
    intro current hcurrent
    obtain ⟨j, state, nowMs, hcreated, effect, effectMs, expiresAt, stored, hclaimed⟩ :=
      h.effect hcurrent
    exact ⟨j, state, nowMs, hcreated.mono fun _ => hstep.history_mono, effect, effectMs,
      expiresAt, stored, hstep.history_mono hclaimed⟩
  rcases Step.record_cases hstep (createIdentity taskId).key with
    hsame | ⟨value, nowMs, expiresAt, rfl, _, _⟩ |
    ⟨_, value, nowMs, expiresAt, rfl, hcurrent, _⟩ | ⟨_, rfl, _, _⟩
  · exact hkeep (hsame.symm.trans hget)
  · cases value with
    | task state => exact absurd hG.1.symm taskKey_ne_key
    | index other fingerprint =>
      obtain ⟨_, _, _, hkey⟩ := hG
      exact absurd hkey.symm idempotencyRecordKey_ne_key
    | effect effect =>
      obtain ⟨_, state, createdMs, hkey, hcreated, -⟩ := h.evidence hwatches
      obtain rfl := createIdentity_key_inj hkey
      exact ⟨i, state, createdMs, hcreated.mono fun _ => hstep.history_mono, effect, nowMs,
        expiresAt, _, hstep.mem_history.2 (.inl rfl)⟩
  · exact hkeep hcurrent
  · exact hG.elim

variable {j : Nat} {nowMs : Int}

/-- The creation of a task record is an earlier one, or this step. -/
theorem createdTask_cases (hstep : runtime.system.Step i event before after)
    (hcreated : CreatedTask j taskId state nowMs after.history) :
    CreatedTask j taskId state nowMs before.history ∨ j = i ∧ ∃ expiresAt record,
      event = .effect (.createIfAbsent (taskKey taskId) (.task state) nowMs expiresAt)
        (.created record) := by
  obtain ⟨expiresAt, record, hmem⟩ := hcreated
  rcases hstep.mem_history.1 hmem with heq | hmem
  · obtain ⟨rfl, rfl⟩ := Prod.mk.inj heq
    exact .inr ⟨rfl, expiresAt, record, rfl⟩
  · exact .inl ⟨expiresAt, record, hmem⟩

include hstep hwatches h in
theorem Creations.unique_step {taskId other : String} {state state' : DurableTaskState}
    {nowMs nowMs' : Int} (hcreated : CreatedTask j taskId state nowMs after.history)
    (hother : CreatedTask j other state' nowMs' after.history) : taskId = other := by
  rcases createdTask_cases hstep hcreated with hcreated | ⟨rfl, _, _, rfl⟩ <;>
    rcases createdTask_cases hstep hother with hother | ⟨heq, _, _, hevent⟩
  · exact h.unique hcreated hother
  · subst heq hevent
    exact absurd hcreated ((h.evidence hwatches).1 _ _ _)
  · exact absurd hother ((h.evidence hwatches).1 _ _ _)
  · injection hevent with hop
    injection hop with hkey
    exact taskKey_inj.1 hkey

/-- The entry is an earlier one, or this step's. -/
theorem entry_cases (hstep : runtime.system.Step i event before after) {mine : TaskEvent}
    (hmem : (j, mine) ∈ after.history) : (j, mine) ∈ before.history ∨ j = i ∧ mine = event :=
  (hstep.mem_history.1 hmem).symm.imp id Prod.mk.inj

include hinv hwatches h in
/-- A swap of the first version of a task record finds the record launched or launches it. -/
theorem Creations.swapped_step {next : DurableTaskState} {expiresAt : Option Int}
    {answer : CasResult String TaskValue} (hstep : runtime.system.Step i event before after)
    (hevent : event =
      .effect (.compareAndSwap (taskKey taskId) 1 (.task next) nowMs expiresAt) answer) :
    Launched taskId after := by
  subst hevent
  obtain ⟨_, _, _, htold, hnext, -⟩ := h.evidence hwatches
  rcases Step.compareAndSwap_answer hstep with
    ⟨rfl, hnone⟩ | ⟨current, rfl, hget, hrevision, hafter⟩ | ⟨current, rfl, hget, hrevision, hafter⟩
  · obtain ⟨record, hreported, hrecordKey, -⟩ := htold
    obtain ⟨current, hget, -⟩ := h.seen i record hreported
    rw [hrecordKey, hnone] at hget
    cases hget
  · obtain ⟨found, hvalue⟩ := task_of_get hinv hget
    exact ⟨found, ⟨current, hafter, hvalue⟩, fun hstatus => hrevision (h.first hget hvalue hstatus)⟩
  · exact ⟨next, ⟨_, hafter, rfl⟩, hnext⟩

include hinv hstep hG hwatches hcondition h in
/-- Whoever has given a creation up finds it launched: nobody has come upon it in flight. -/
theorem Creations.launched_step (hgaveUp : GaveUp j taskId after.history) :
    Launched taskId after := by
  have hold : GaveUp j taskId before.history → Launched taskId after :=
    fun hbefore => (h.launched hbefore).step hstep hG
  cases hgaveUp with
  | @looked call record state hcall hget hvalue hstatus hdue =>
    rcases entry_cases hstep hget with hget | ⟨rfl, rfl⟩
    · rcases entry_cases hstep hcall with hcall | ⟨rfl, rfl⟩
      · exact hold (.looked hcall hget hvalue hstatus hdue)
      · exact absurd hget (hstep.fresh _ rfl _)
    · -- The condition speaks of all calls with this number, and there is one that is due.
      have hcall := (entry_cases hstep hcall).resolve_right fun hsame => by cases hsame.2
      have hanswer := (Step.get_answer hstep).1
      have hcreating : (before.state.records.get (taskKey taskId)).bind creating = some state := by
        rw [← hanswer]
        simp [creating, hvalue, hstatus]
      simp only [undisturbed, hcreating, Option.all_some, List.all_eq_true] at hcondition
      simpa [hdue] using hcondition _ hcall
  | @found initial nowMs expiresAt record state hcreate hvalue hstatus hsame =>
    rcases entry_cases hstep hcreate with hcreate | ⟨rfl, rfl⟩
    · exact hold (.found hcreate hvalue hstatus hsame)
    · obtain ⟨-, ⟨found, heq, hget⟩ | ⟨heq, -⟩⟩ := Step.createIfAbsent_answer hstep
      · obtain rfl := CreateResult.existing.inj heq
        simp [undisturbed, hget, creating, hvalue, hstatus, hsame] at hcondition
      · cases heq
  | claimed hclaim =>
    rcases entry_cases hstep hclaim with hclaim | ⟨rfl, rfl⟩
    · exact hold (.claimed hclaim)
    · obtain ⟨-, ⟨_, heq, hget⟩ | ⟨heq, -⟩⟩ := Step.createIfAbsent_answer hstep
      · obtain ⟨_, state, nowMs, hkey, hcreated, hnew⟩ := h.evidence hwatches
        obtain rfl := createIdentity_key_inj hkey
        obtain ⟨k, _, _, hcreator, hclaimed⟩ := h.effect hget
        obtain rfl := hinv.creator hcreated.created hcreator.created
        exact absurd hclaimed hnew
      · cases heq
  | refused hcreate =>
    rcases entry_cases hstep hcreate with hcreate | ⟨rfl, rfl⟩
    · exact hold (.refused hcreate)
    · cases hcondition
  | @unfit input providerTaskId state nowMs error hcreate hcreated hencode =>
    rcases entry_cases hstep hcreate with hcreate | ⟨rfl, rfl⟩ <;>
      rcases createdTask_cases hstep hcreated with hcreated | ⟨heq, expiresAt, record, hevent⟩
    · exact hold (.unfit hcreate hcreated hencode)
    · subst heq hevent
      exact ((h.evidence hwatches).2 _ hcreate).elim
    · obtain ⟨_, _, hmem⟩ := hcreated
      have hfits := List.all_eq_true.1 hcondition _ hmem
      simp [hencode, Except.isOk, Except.toBool] at hfits
    · cases hevent
  | swapped hswap =>
    rcases entry_cases hstep hswap with hswap | ⟨rfl, hevent⟩
    · exact hold (.swapped hswap)
    · exact h.swapped_step hinv hwatches hstep hevent.symm

include hstep hG hwatches h in
/-- A record that is launched has the task that the provider created for it. -/
theorem Creations.provided_step (htask : TaskAt taskId state after)
    (hstatus : state.status ≠ .creating) :
    ∃ j providerTaskId, Provided j taskId providerTaskId after.history ∧
      state.providerTaskId = some providerTaskId := by
  obtain ⟨record, hget, hvalue⟩ := htask
  have hsub : before.history ⊆ after.history := fun _ => hstep.history_mono
  rcases Step.record_cases hstep (taskKey taskId) with
    hsame | ⟨value, _, _, rfl, _, hafter⟩ |
    ⟨current, value, _, _, rfl, hcurrent, hafter⟩ | ⟨current, rfl, _, _⟩
  · obtain ⟨j, providerTaskId, hprovided, heq⟩ :=
      h.provided ⟨record, hsame.symm.trans hget, hvalue⟩ hstatus
    exact ⟨j, providerTaskId, hprovided.mono hsub, heq⟩
  · obtain rfl := Option.some.inj (hafter.symm.trans hget)
    obtain rfl : value = .task state := hvalue
    obtain ⟨-, -, _, _, _, _, _, hinitial⟩ := hG
    exact absurd (by rw [hinitial]; rfl) hstatus
  · obtain rfl := Option.some.inj (hafter.symm.trans hget)
    obtain rfl : value = .task state := hvalue
    obtain ⟨_, previous, hkey, ⟨told, hreported, hrecordKey, hprevious, hrevision⟩, -,
      hevidence⟩ := h.evidence hwatches
    obtain rfl := taskKey_inj.1 hkey
    have heq := (h.seen i told hreported).of_swap (hrecordKey ▸ hcurrent) hrevision.symm
    subst heq
    by_cases hcreating : previous.status = .creating
    · have hbefore : TaskAt taskId previous before := ⟨current, hcurrent, hprevious⟩
      rcases hevidence hcreating with hgaveUp | ⟨input, providerTaskId, initial, createdMs, hnext,
        hasked, hcreated⟩
      · exact absurd (h.launched hgaveUp) (hbefore.not_launched hcreating)
      · exact ⟨i, providerTaskId, ⟨⟨initial, createdMs, hcreated.mono hsub⟩, input, hsub hasked⟩,
          hnext⟩
    · obtain ⟨_, _, _, htransition⟩ := hG
      obtain ⟨_, hstored, htransition⟩ := htransition current hcurrent rfl
      obtain rfl := TaskValue.task.inj (hprevious.symm.trans hstored)
      obtain ⟨j, providerTaskId, hprovided, heq⟩ :=
        h.provided ⟨current, hcurrent, hprevious⟩ hcreating
      exact ⟨j, providerTaskId, hprovided.mono hsub, (htransition.launched hcreating).2.trans heq⟩
  · exact hG.elim

include hstep hG hwatches h in
theorem Creations.kept_step : ¬ GivenUp taskId after.history := by
  rintro ⟨j, revision, next, nowMs, expiresAt, record, hmem, hfailed, hnone⟩
  rcases entry_cases hstep hmem with hmem | ⟨rfl, rfl⟩
  · exact h.kept ⟨j, revision, next, nowMs, expiresAt, record, hmem, hfailed, hnone⟩
  · rcases Step.compareAndSwap_answer hstep with ⟨heq, -⟩ | ⟨_, heq, -⟩ | ⟨_, -, -, -, hafter⟩
    · cases heq
    · cases heq
    · obtain ⟨_, _, -, hsome⟩ := h.provided_step hstep hG hwatches ⟨_, hafter, rfl⟩
        (by rw [hfailed]; exact nofun)
      rw [hnone] at hsome
      cases hsome

include hstep hG h in
theorem Creations.written_step {value : TaskValue} {expiresAt : Option Int}
    {answer : CreateResult String TaskValue}
    (hmem : (j, .effect (.createIfAbsent (taskKey taskId) value nowMs expiresAt) answer) ∈
      after.history) : ∃ state, value = .task state := by
  rcases entry_cases hstep hmem with hmem | ⟨rfl, rfl⟩
  · exact h.written hmem
  · cases value with
    | task state => exact ⟨state, rfl⟩
    | index other fingerprint =>
      obtain ⟨_, _, _, hkey⟩ := hG
      exact absurd hkey taskKey_ne_idempotencyRecordKey
    | effect effect =>
      obtain ⟨⟨_, hkey⟩, -⟩ := hG
      exact absurd hkey taskKey_ne_key

include hstep hG hwatches h in
theorem Creations.ended_step {outcome : Except Fault Reply} {input : Json}
    {answer : Except Fault String} (hended : (j, .response outcome) ∈ after.history)
    (hasked : (j, .effect (.port (.create input)) answer) ∈ after.history) :
    ∃ taskId state nowMs, CreatedTask j taskId state nowMs after.history ∧
      Launched taskId after := by
  have hsub : before.history ⊆ after.history := fun _ => hstep.history_mono
  rcases entry_cases hstep hended with hended | ⟨rfl, rfl⟩ <;>
    rcases entry_cases hstep hasked with hasked | ⟨heq, hevent⟩
  · obtain ⟨taskId, state, nowMs, hcreated, hlaunched⟩ := h.ended hended hasked
    exact ⟨taskId, state, nowMs, hcreated.mono hsub, hlaunched.step hstep hG⟩
  · subst heq hevent
    exact absurd hended (h.evidence hwatches outcome)
  · obtain ⟨taskId, state, nowMs, hcreated, hgaveUp⟩ := h.evidence hwatches input answer hasked
    exact ⟨taskId, state, nowMs, hcreated.mono hsub, (h.launched hgaveUp).step hstep hG⟩
  · cases hevent

include hinv hstep hG hwatches hcondition h in
/-- An undisturbed step keeps the invariant. -/
theorem creations_step : Creations after where
  looks := h.looks_step hstep hcondition
  keyed := h.keyed_step hinv hstep hG
  seen := h.seen_step hstep hG
  first := h.first_step hstep hG hwatches
  effect := h.effect_step hstep hG hwatches
  unique := h.unique_step hstep hwatches
  launched := h.launched_step hinv hstep hG hwatches hcondition
  provided := h.provided_step hstep hG hwatches
  written := h.written_step hstep hG
  ended := h.ended_step hstep hG hwatches
  kept := h.kept_step hstep hG hwatches

end Step

/-! ## Whole runs -/

/-- Nothing is stored and nothing has happened at the beginning. -/
theorem creations_initial : Creations Runtime.initial.toWorld where
  looks _ _ h := absurd h List.not_mem_nil
  keyed _ _ _ h := by
    obtain ⟨_, _, hmem, -⟩ := h
    exact absurd hmem List.not_mem_nil
  seen _ _ h := by
    obtain ⟨_, _, hmem, -⟩ := h
    exact absurd hmem List.not_mem_nil
  first h := by cases h
  effect h := by cases h
  unique h := by
    obtain ⟨_, _, hmem⟩ := h
    exact absurd hmem List.not_mem_nil
  launched h := by
    cases h <;> exact absurd ‹_ ∈ _› List.not_mem_nil
  provided h := by
    obtain ⟨_, hget, -⟩ := h
    cases hget
  written h := absurd h List.not_mem_nil
  ended h := absurd h List.not_mem_nil
  kept h := by
    obtain ⟨_, _, _, _, _, _, hmem, -⟩ := h
    exact absurd hmem List.not_mem_nil

/-- An undisturbed run keeps the invariant. -/
theorem creations_run (runtime : Runtime) {actions : List (Action Call (Oracle Answer))}
    (hundisturbed : runtime.system.Meets (fun i event world => undisturbed i event world = true)
      Runtime.initial actions) :
    Creations (runtime.system.run Runtime.initial actions).toWorld := by
  have hwatches : runtime.system.Meets Watches Runtime.initial actions :=
    (ready_initial trivial).meets (watched runtime) actions
  refine ready.preserves (verified runtime) (hundisturbed.and hwatches) ?_ creations_initial
  intro i event before after hinv _ hstep hG ⟨hcondition, hwatches⟩ h
  exact creations_step hinv hstep hG hwatches hcondition h

/-- A call that starts or looks at a task asks the provider for one task at most. -/
theorem atMost_looks {call : Call} (h : call.looks = true) :
    Program.AtMost (asks isCreate) 1 (runtime.system.main call) := by
  cases call with
  | start input caller ttlMs key nowMs => exact (atMost_start ..).before fun _ => Program.atMost_done ..
  | get taskId caller nowMs =>
    exact ((atMost_getTask ..).andThen fun _ => Program.atMost_done ..).mono (Nat.zero_le 1)
  | describe taskId caller nowMs =>
    exact ((atMost_describe ..).andThen fun _ => Program.atMost_done ..).mono (Nat.zero_le 1)
  | update taskId inputResponses caller nowMs => cases h
  | cancel taskId caller nowMs => cases h
  | stopWaiting taskId caller nowMs => cases h

/-- When nobody comes upon a record in flight, and the provider creates a task whose id fits into
the record, then the record is never failed while it is being created, and it ends with that id. -/
theorem creation_survives (runtime : Runtime) (actions : List (Action Call (Oracle Answer)))
    (hundisturbed : runtime.system.Meets (fun i event world => undisturbed i event world = true)
      Runtime.initial actions)
    (i : Nat) (taskId : String)
    (hcreated : Created i (taskKey taskId) (runtime.system.run Runtime.initial actions).history) :
    Survives i taskId (runtime.system.run Runtime.initial actions).toWorld := by
  have hready := ready.run (verified runtime) actions
  have h := creations_run runtime hundisturbed
  refine ⟨h.kept, fun input answer outcome hasked hended => ?_⟩
  obtain ⟨other, _, _, hcreatedTask, state, htask, hstatus⟩ := h.ended hended hasked
  obtain rfl : other = taskId := by
    obtain ⟨value, nowMs, expiresAt, record, hmem⟩ := hcreated
    obtain ⟨initial, rfl⟩ := h.written hmem
    exact h.unique hcreatedTask ⟨expiresAt, record, hmem⟩
  obtain ⟨j, providerTaskId, ⟨⟨_, _, hcreator⟩, input', hasked'⟩, hstate⟩ :=
    h.provided htask hstatus
  obtain rfl := hready.inv.creator hcreated hcreator.created
  refine ⟨state, providerTaskId, htask, ?_, hstate⟩
  -- The call has asked the provider once.
  have haccounted : runtime.system.Accounted
      (runtime.system.run Runtime.initial actions).toWorld := ⟨_, hready.consistent, rfl⟩
  have hmain : ∀ call, (i, .invoke call) ∈ (runtime.system.run Runtime.initial actions).history →
      Program.AtMost (asks isCreate) 1 (runtime.system.main call) :=
    fun call hcall => atMost_looks (h.looks _ call hcall)
  cases haccounted.once hmain rfl rfl hasked hasked'
  rfl

/-! ## Samples -/

/-- Whether call `i` created the record under `key`. -/
def creates (i : Nat) (key : String) (history : TaskHistory) : Bool :=
  history.any fun
    | (j, .effect (.createIfAbsent stored _ _ _) (.created _)) => j == i && stored == key
    | _ => false

theorem created_of_creates {i : Nat} {key : String} {history : TaskHistory}
    (h : creates i key history = true) : Created i key history := by
  obtain ⟨⟨j, _⟩, hmem, htest⟩ := List.any_eq_true.1 h
  split at htest
  · rename_i k stored value nowMs expiresAt record heq
    obtain ⟨rfl, rfl⟩ := Prod.mk.inj heq
    rw [Bool.and_eq_true, beq_iff_eq, beq_iff_eq] at htest
    obtain ⟨rfl, rfl⟩ := htest
    exact ⟨value, nowMs, expiresAt, record, hmem⟩
  · cases htest

/-- Whether the record of `taskId` was failed before it had the id of a provider task. -/
def givesUp (taskId : String) (history : TaskHistory) : Bool :=
  history.any fun
    | (_, .effect (.compareAndSwap key _ (.task next) _ _) (.updated _)) =>
      key == taskKey taskId && next.status == .failed && next.providerTaskId.isNone
    | _ => false

theorem givenUp_of_givesUp {history : TaskHistory} (h : givesUp taskId history = true) :
    GivenUp taskId history := by
  obtain ⟨⟨j, _⟩, hmem, htest⟩ := List.any_eq_true.1 h
  split at htest
  · rename_i k key revision next nowMs expiresAt record heq
    obtain ⟨rfl, rfl⟩ := Prod.mk.inj heq
    simp only [Bool.and_eq_true, beq_iff_eq, Option.isNone_iff_eq_none] at htest
    obtain ⟨⟨rfl, hfailed⟩, hnone⟩ := htest
    exact ⟨j, revision, next, nowMs, expiresAt, record, hmem, hfailed, hnone⟩
  · cases htest

/-- A start with an idempotency key. -/
def keyedStart : Action Call (Oracle Answer) :=
  .invoke (.start .null sampleCaller none (some "k") 1000)

/-- A start, and a duplicate and a poll of it when the task has been created. -/
def startThenDuplicate : List (Action Call (Oracle Answer)) :=
  keyedStart :: sampleSteps 0 11 ++ keyedStart :: sampleSteps 1 4 ++
    .invoke (.get "ajob-0" sampleCaller 1000) :: sampleSteps 2 1

/-- A duplicate and a poll behind the creation leave the record as it is. -/
theorem creation_survives_sample : Survives 0 "ajob-0"
    (sampleRuntime.system.run Runtime.initial startThenDuplicate).toWorld := by
  have hrun : (sampleRuntime.system.checks undisturbed Runtime.initial startThenDuplicate &&
      creates 0 (taskKey "ajob-0")
        (sampleRuntime.system.run Runtime.initial startThenDuplicate).history) = true := by
    decide +kernel
  rw [Bool.and_eq_true] at hrun
  exact creation_survives sampleRuntime startThenDuplicate (System.meets_of_checks hrun.1) 0
    "ajob-0" (created_of_creates hrun.2)

/-- Only starts of `caller` with one input and one key are called, and polls of `taskId`, and the
provider creates the task. -/
def onlyDuplicates (input : Json) (caller : AsyncJobCaller) (key taskId : String) (_ : Nat)
    (event : TaskEvent) (_ : TaskWorld) : Bool :=
  match event with
  | .invoke (.start input' caller' _ key' _) =>
    decide (input' = input) && decide (caller' = caller) && key' == some key
  | .invoke (.get taskId' _ _) | .invoke (.describe taskId' _ _) => taskId' == taskId
  | .invoke _ => false
  | .effect (.port (.create _)) (.error _) => false
  | _ => true

/-- A start, and a duplicate of it before the provider has answered. -/
def duplicateInFlight : List (Action Call (Oracle Answer)) :=
  keyedStart :: sampleSteps 0 5 ++ keyedStart :: sampleSteps 1 5 ++ sampleSteps 0 9

/-- The duplicate fails the record, and the id of the task that the provider creates is lost. -/
theorem creation_destroyed : ¬ ∀ (runtime : Runtime) (actions : List (Action Call (Oracle Answer)))
    (input : Json) (caller : AsyncJobCaller) (key taskId : String) (i : Nat),
    runtime.system.Meets
      (fun i event world => onlyDuplicates input caller key taskId i event world = true)
      Runtime.initial actions →
    Created i (taskKey taskId) (runtime.system.run Runtime.initial actions).history →
    Survives i taskId (runtime.system.run Runtime.initial actions).toWorld := by
  intro h
  have hrun : (sampleRuntime.system.checks (onlyDuplicates .null sampleCaller "k" "ajob-0")
        Runtime.initial duplicateInFlight &&
      creates 0 (taskKey "ajob-0")
        (sampleRuntime.system.run Runtime.initial duplicateInFlight).history &&
      givesUp "ajob-0"
        (sampleRuntime.system.run Runtime.initial duplicateInFlight).history) = true := by
    decide +kernel
  simp only [Bool.and_eq_true] at hrun
  have hsurvives := h sampleRuntime duplicateInFlight .null sampleCaller "k" "ajob-0" 0
    (System.meets_of_checks hrun.1.1) (created_of_creates hrun.1.2)
  exact hsurvives.1 (givenUp_of_givesUp hrun.2)

end Groundlane.McpTasks
