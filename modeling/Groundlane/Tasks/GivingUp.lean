import Groundlane.Durable.Versions
import Groundlane.Tasks.AtMostOnce

/-!
# What a call knows when it gives a task up

`start`, `get` and `describe` give a task up by `failUncertain` when they take its creation to
have been interrupted. `GaveUp` lists what a call has been told before it does so, and `Watches`
says of every event of such a call what the call's own history has to contain; the other calls
play no part in it. `watched` shows it for every call, one lemma for each function.
-/

namespace Groundlane.McpTasks

open Fenced Interleaving DurableEffectJournal

/-! ## Evidence -/

/-- The calls that start a task or look at one. -/
def Call.looks : Call → Bool
  | .start .. | .get .. | .describe .. => true
  | .update .. | .cancel .. | .stopWaiting .. => false

/-- Whether a call polls the task as its owner, at a time between its next poll and its expiry. -/
def Call.due (state : DurableTaskState) : Call → Bool
  | .get _ caller nowMs | .describe _ caller nowMs =>
    (assertCaller state caller).isOk && decide (state.nextPollAt ≤ nowMs) &&
      decide (nowMs < state.expiresAt)
  | .start .. | .update .. | .cancel .. | .stopWaiting .. => false

/-- Whether two records are of the same request of the same caller. -/
def sameRequest (state initial : DurableTaskState) : Bool :=
  (assertCaller state ⟨initial.ownerId, initial.credentialBinding⟩).isOk &&
    state.idempotencyKey == initial.idempotencyKey &&
    state.operationInput.stringify == initial.operationInput.stringify

/-- Call `i` created the record of `taskId` at `nowMs`, with the content `state`. -/
def CreatedTask (i : Nat) (taskId : String) (state : DurableTaskState) (nowMs : Int)
    (history : TaskHistory) : Prop :=
  ∃ expiresAt record, (i, .effect (.createIfAbsent (taskKey taskId) (.task state) nowMs expiresAt)
    (.created record)) ∈ history

/-- Call `i` claimed the effect of creating the provider task of `taskId`. -/
def ClaimedEffect (i : Nat) (taskId : String) (history : TaskHistory) : Prop :=
  ∃ effect nowMs expiresAt record, (i, .effect (.createIfAbsent (createIdentity taskId).key
    (.effect effect) nowMs expiresAt) (.created record)) ∈ history

/-- What tells call `i` that the creation of `taskId` was interrupted, or that it has tried to
bring it to its end itself. -/
inductive GaveUp (i : Nat) (taskId : String) (history : TaskHistory) : Prop where
  | looked {call : Call} {record : Record String TaskValue} {state : DurableTaskState} :
    (i, .invoke call) ∈ history →
    (i, .effect (.get (taskKey taskId)) (some record)) ∈ history →
    record.value = .task state → state.status = .creating → call.due state = true →
    GaveUp i taskId history
  | found {initial : DurableTaskState} {nowMs : Int} {expiresAt : Option Int}
    {record : Record String TaskValue} {state : DurableTaskState} :
    (i, .effect (.createIfAbsent (taskKey taskId) (.task initial) nowMs expiresAt)
      (.existing record)) ∈ history →
    record.value = .task state → state.status = .creating → sameRequest state initial = true →
    GaveUp i taskId history
  | claimed {effect : DurableEffect} {nowMs : Int} {record : Record String TaskValue} :
    (i, .effect (.createIfAbsent (createIdentity taskId).key (.effect effect) nowMs none)
      (.existing record)) ∈ history → GaveUp i taskId history
  | refused {input : Json} {error : Fault} :
    (i, .effect (.port (.create input)) (.error error)) ∈ history → GaveUp i taskId history
  | unfit {input : Json} {providerTaskId : String} {state : DurableTaskState} {nowMs : Int}
    {error : Fault} :
    (i, .effect (.port (.create input)) (.ok providerTaskId)) ∈ history →
    CreatedTask i taskId state nowMs history →
    encode (state.withProviderTask nowMs providerTaskId) = .error error →
    GaveUp i taskId history
  | swapped {next : DurableTaskState} {nowMs : Int} {expiresAt : Option Int}
    {answer : CasResult String TaskValue} :
    (i, .effect (.compareAndSwap (taskKey taskId) 1 (.task next) nowMs expiresAt) answer) ∈
      history → GaveUp i taskId history

/-- The event neither asks the provider for a task nor ends the call. -/
def Unasked : TaskEvent → Prop
  | .effect (.port (.create _)) _ | .response _ => False
  | _ => True

/-- Every task record that call `i` was told of is stored under the key of its task. -/
def WellKeyed (i : Nat) (history : TaskHistory) : Prop :=
  ∀ record state, Reported i record history → record.value = .task state →
    record.key = taskKey state.taskId

/-- What the history of a call that looks at tasks contains when it does something. -/
def Evidence (i : Nat) (event : TaskEvent) (history : TaskHistory) : Prop :=
  match event with
  | .effect (.createIfAbsent key (.effect _) _ _) _ =>
    ∃ taskId state nowMs, key = (createIdentity taskId).key ∧
      CreatedTask i taskId state nowMs history ∧ ¬ ClaimedEffect i taskId history
  | .effect (.createIfAbsent _ (.task _) _ _) _ =>
    (∀ taskId state nowMs, ¬ CreatedTask i taskId state nowMs history) ∧
      ∀ other, (i, other) ∈ history → Unasked other
  | .effect (.compareAndSwap key revision (.task next) _ _) _ =>
    ∃ taskId state, key = taskKey taskId ∧ Told i key (.task state) revision history ∧
      next.status ≠ .creating ∧
      (state.status = .creating → GaveUp i taskId history ∨ ∃ input providerTaskId initial nowMs,
        next.providerTaskId = some providerTaskId ∧
        (i, .effect (.port (.create input)) (.ok providerTaskId)) ∈ history ∧
        CreatedTask i taskId initial nowMs history)
  | .effect (.port (.create _)) _ => ∀ outcome, (i, .response outcome) ∉ history
  | .response _ => ∀ input answer, (i, .effect (.port (.create input)) answer) ∈ history →
    ∃ taskId state nowMs, CreatedTask i taskId state nowMs history ∧ GaveUp i taskId history
  | _ => True

/-- The guarantee of the calls that look at tasks. -/
def Watches (i : Nat) (event : TaskEvent) (world : TaskWorld) : Prop :=
  (∀ call, (i, .invoke call) ∈ world.history → call.looks = true) → WellKeyed i world.history →
    Evidence i event world.history

variable {runtime : Runtime} {i : Nat} {world : TaskWorld} {taskId : String} {nowMs : Int}
  (caller : AsyncJobCaller) {current : VersionedTask} {history : TaskHistory}
  {state : DurableTaskState} {task : VersionedTask} {α : Type} {Q : α → TaskWorld → Prop}
  {initial : DurableTaskState} {post : Except Fault α → TaskWorld → Prop} {program : TaskIo α}
  {value : TaskValue}

theorem CreatedTask.mono {history later : TaskHistory} (hsub : history ⊆ later)
    (h : CreatedTask i taskId state nowMs history) : CreatedTask i taskId state nowMs later := by
  obtain ⟨expiresAt, record, hmem⟩ := h
  exact ⟨expiresAt, record, hsub hmem⟩

theorem CreatedTask.created (h : CreatedTask i taskId state nowMs history) :
    Created i (taskKey taskId) history := by
  obtain ⟨expiresAt, record, hmem⟩ := h
  exact ⟨_, nowMs, expiresAt, record, hmem⟩

theorem GaveUp.mono {history later : TaskHistory} (hsub : history ⊆ later)
    (h : GaveUp i taskId history) : GaveUp i taskId later := by
  cases h with
  | looked hcall hget hvalue hstatus hdue =>
    exact .looked (hsub hcall) (hsub hget) hvalue hstatus hdue
  | found hcreate hvalue hstatus hsame => exact .found (hsub hcreate) hvalue hstatus hsame
  | claimed hclaim => exact .claimed (hsub hclaim)
  | refused hcreate => exact .refused (hsub hcreate)
  | unfit hcreate hcreated hencode => exact .unfit (hsub hcreate) (hcreated.mono hsub) hencode
  | swapped hswap => exact .swapped (hsub hswap)

/-! ## Programs of calls that look -/

/-- What happens meanwhile: anything the other calls do. -/
abbrev Beside (runtime : Runtime) (i : Nat) : TaskWorld → TaskWorld → Prop :=
  Rely runtime.system Watches i

/-- The program has its evidence as a part of call `i`, and `Q` holds of what it returns. -/
abbrev LookSafe {α : Type} (runtime : Runtime) (i : Nat) (Q : α → TaskWorld → Prop)
    (program : TaskIo α) (world : TaskWorld) : Prop :=
  Safe runtime.system Watches (Beside runtime i) i (Returning Q) program world

theorem beside_evolves (world now : TaskWorld) (h : Beside runtime i world now) :
    Evolves runtime.system Watches world now :=
  h.evolves

variable {answer : CreateResult String TaskValue} {record : Record String TaskValue}
  {now : TaskWorld} {call : Call}

theorem history_subset (h : Evolves runtime.system Watches world now) :
    world.history ⊆ now.history :=
  h.suffix.subset

/-- The rule of sequence, at the types of the runtime. -/
theorem LookSafe.andThen {α β : Type} {middle : α → TaskWorld → Prop} {Q : β → TaskWorld → Prop}
    {program : TaskIo α} {rest : α → TaskIo β} (h : LookSafe runtime i middle program world)
    (hrest : ∀ value now, world.history ⊆ now.history → middle value now →
      LookSafe runtime i Q (rest value) now) :
    LookSafe runtime i Q (program.bind rest) world :=
  Safe.andThen beside_evolves h fun value now hnow hmiddle =>
    hrest value now (history_subset hnow) hmiddle

/-- A check that is known to pass. -/
theorem LookSafe.passed {α β : Type} {post : Except Fault β → TaskWorld → Prop}
    {outcome : Except Fault α} {value : α} {rest : α → TaskIo β} (h : outcome = .ok value)
    (hrest : Safe runtime.system Watches (Beside runtime i) i post (rest value) world) :
    Safe runtime.system Watches (Beside runtime i) i post ((Program.ofExcept outcome).bind rest)
      world := by
  subst h
  rw [Program.ofExcept_ok, Program.done_bind]
  exact hrest

/-- An error with what is owed at an error. -/
theorem LookSafe.raised {error : Fault} (h : post (.error error) world) :
    Safe runtime.system Watches (Beside runtime i) i post (.raise error : TaskIo α) world := by
  rw [← Program.ofExcept_error]
  exact Safe.ofExcept h

/-- A value with what is owed at a value. -/
theorem LookSafe.returned {value : α} (h : post (.ok value) world) :
    Safe runtime.system Watches (Beside runtime i) i post (.done value : TaskIo α) world := by
  rw [← Program.ofExcept_ok]
  exact Safe.ofExcept h

theorem ask_looks {request : Request} (h : isCreate request = false) :
    LookSafe runtime i (fun _ _ => True) (ask request) world := by
  refine Safe.mono (fun _ _ _ _ _ => trivial) (Safe.ask fun now answer _ _ _ => ?_)
  cases request with
  | create input => cases h
  | _ => trivial

/-- Call `i` was told that the record of `taskId` is the task that it works on. -/
def Knows (i : Nat) (taskId : String) (task : VersionedTask) (history : TaskHistory) : Prop :=
  Told i (taskKey taskId) (.task task.state) task.revision history

theorem knows_of_decode (hreported : Reported i record history) (hkey : record.key = taskKey taskId)
    (h : decode record = .ok task) : Knows i taskId task history :=
  ⟨record, hreported, hkey, (decode_ok h).1, (decode_ok h).2⟩

theorem Knows.taskId_eq (h : Knows i taskId task history) (hkeyed : WellKeyed i history) :
    task.state.taskId = taskId := by
  obtain ⟨record, hreported, hkey, hvalue, -⟩ := h
  exact taskKey_inj.1 ((hkeyed record task.state hreported hvalue).symm.trans hkey)

theorem Knows.mono {history later : TaskHistory} (hsub : history ⊆ later)
    (h : Knows i taskId task history) : Knows i taskId task later :=
  Told.mono hsub h

/-- A read tells what the record holds, if the caller may see it. -/
theorem read_looks (taskId : String) (caller : AsyncJobCaller) (nowMs : Int) :
    LookSafe runtime i (fun task now => Knows i taskId task now.history ∧
        (assertCaller task.state caller).isOk = true ∧ nowMs < task.state.expiresAt ∧ ∃ record,
          (i, .effect (.get (taskKey taskId)) (some record)) ∈ now.history ∧
            record.value = .task task.state)
      (read taskId caller nowMs) world := by
  refine Safe.check fun _ _ => Safe.check fun _ _ => ?_
  refine LookSafe.andThen (Safe.get fun _ _ _ _ => trivial) ?_
  rintro record now - hperformed
  cases record with
  | none => exact Safe.raise
  | some record =>
    refine Safe.check fun task htask => Safe.check fun _ hcaller => ?_
    split
    · exact Safe.raise
    · rename_i hexpiry
      change assertCaller task.state caller = .ok _ at hcaller
      have hmem : record ∈ @reported TaskValue String Request Answer (.get (taskKey taskId))
          (some record) := by
        simp [reported]
      obtain ⟨_, -, hstep, -⟩ := hperformed
      have hentry := hstep.mem_history.2 (.inl rfl)
      exact Safe.done ⟨knows_of_decode ⟨_, _, hentry, hmem⟩
        (reported_key hstep hmem (.inl rfl)) htask, by rw [hcaller]; rfl, Int.not_le.1 hexpiry,
        record, hentry, (decode_ok htask).1⟩

theorem encode_ok (h : encode state = .ok value) : value = .task state := by
  unfold encode at h
  split at h
  · cases h
  · exact (Except.ok.inj h).symm

/-- A save is one swap of the record that the call was told of. -/
theorem save_looks {taskId saved : String} {next : DurableTaskState}
    (hknows : Knows i taskId task world.history)
    (hsaved : saved = taskId ∨ saved = task.state.taskId) (hnext : next.status ≠ .creating)
    (hevidence : task.state.status = .creating → GaveUp i taskId world.history) :
    LookSafe runtime i (fun answer now => ∀ record, answer = .updated record →
        Reported i record now.history ∧ record.key = taskKey saved ∧ record.value = .task next)
      (save saved task.revision next nowMs) world := by
  refine Safe.check fun value hvalue => ?_
  obtain rfl := encode_ok hvalue
  refine Safe.mono ?_ (Safe.swap fun now answer hnow _ hkeyed => ?_)
  · exact fun outcome now hpost answer hanswer record hrecord =>
      (hpost answer hanswer record).1 hrecord
  · have hsub := history_subset hnow.evolves
    have hknows := hknows.mono hsub
    obtain rfl : saved = taskId := hsaved.elim id fun h => h.trans (hknows.taskId_eq hkeyed)
    exact ⟨saved, task.state, rfl, hknows, hnext, fun hstatus =>
      .inl ((hevidence hstatus).mono hsub)⟩

theorem reread_looks (taskId : String) (caller : AsyncJobCaller) (nowMs : Int) :
    LookSafe runtime i (fun _ _ => True)
      ((read taskId caller nowMs).bind fun latest => .done (toDetailed latest.state)) world :=
  (read_looks taskId caller nowMs).andThen fun _ _ _ _ => Safe.done trivial

theorem failUncertain_looks (hknows : Knows i taskId current world.history)
    (hevidence : current.state.status = .creating → GaveUp i taskId world.history)
    (caller : AsyncJobCaller) (nowMs : Int) (hasCause : Bool) :
    LookSafe runtime i (fun _ _ => True) (failUncertain current caller nowMs hasCause) world := by
  refine (save_looks hknows (.inr rfl) (by simp [DurableTaskState.failedUncertain])
    hevidence).andThen ?_
  intro answer now _ _
  cases answer with
  | updated record => exact Safe.check fun _ _ => Safe.done trivial
  | missing =>
    dsimp only
    split
    · exact Safe.raise
    · exact reread_looks _ caller nowMs
  | conflict record => exact reread_looks _ caller nowMs

theorem persistPollOutcome_looks (hknows : Knows i taskId current world.history)
    (hstatus : current.state.status = .working) (outcome : AsyncTaskPollOutcome)
    (caller : AsyncJobCaller) (nowMs : Int) :
    LookSafe runtime i (fun _ _ => True) (persistPollOutcome current outcome caller nowMs)
      world := by
  have hnext : (current.state.polled nowMs outcome).status ≠ .creating := by
    unfold DurableTaskState.polled
    split <;> simp
  refine (save_looks hknows (.inr rfl) hnext fun h => by simp [hstatus] at h).andThen ?_
  intro answer now _ _
  cases answer with
  | updated record => exact Safe.check fun _ _ => Safe.done trivial
  | _ => exact reread_looks _ caller nowMs

/-! ## `get` and `describe` -/

theorem pollProvider_looks {lease : VersionedTask} (hknows : Knows i taskId lease world.history)
    (hstatus : lease.state.status = .working) (caller : AsyncJobCaller) (nowMs : Int) :
    LookSafe runtime i (fun _ _ => True) (pollProvider lease caller nowMs) world := by
  refine LookSafe.andThen (Safe.caught (Q := fun _ _ => True) ?_) ?_
  · refine LookSafe.andThen (ask_looks rfl) fun parsed first _ _ => ?_
    refine Safe.check fun input _ => ?_
    refine LookSafe.andThen (ask_looks rfl) fun answer second _ _ => ?_
    exact Safe.ofExcept fun _ _ => trivial
  · intro polled now hnow _
    cases polled with
    | ok outcome => exact persistPollOutcome_looks (hknows.mono hnow) hstatus outcome caller nowMs
    | error error =>
      refine LookSafe.andThen (ask_looks rfl) fun aborted later hlater _ => ?_
      extract_lets failure
      split
      · exact Safe.raise
      · exact persistPollOutcome_looks (hknows.mono fun _ h => hlater (hnow h)) hstatus _ caller nowMs

theorem getTask_looks {caller : AsyncJobCaller} (hcall : (i, .invoke call) ∈ world.history)
    (hdue : ∀ state : DurableTaskState, call.due state =
      ((assertCaller state caller).isOk && decide (state.nextPollAt ≤ nowMs) &&
        decide (nowMs < state.expiresAt))) :
    LookSafe runtime i (fun _ _ => True) (getTask taskId caller nowMs) world := by
  refine (read_looks taskId caller nowMs).andThen ?_
  rintro current first hfirst ⟨hknows, hcaller, hexpiry, record, hentry, hvalue⟩
  split
  · exact Safe.done trivial
  · rename_i hopen
    simp only [not_or, Int.not_lt] at hopen
    split
    · have hdue : call.due current.state = true := by
        simp [hdue, hcaller, hopen.2.2, hexpiry]
      exact failUncertain_looks hknows (fun hstatus => .looked (hfirst hcall) hentry hvalue hstatus
        hdue) caller nowMs false
    · rename_i hworking
      have hstatus : current.state.status = .working := by
        obtain ⟨_, _, -⟩ := hopen
        cases hstatus : current.state.status <;> simp [hstatus, DurableTaskStatus.terminal] at *
      refine (save_looks hknows (.inl rfl) (by simp [DurableTaskState.leased, hstatus])
        fun h => by simp [hstatus] at h).andThen ?_
      intro answer second _ hsaved
      cases answer with
      | updated record =>
        obtain ⟨hreported, hkey, hvalue⟩ := hsaved record rfl
        refine Safe.check fun lease hlease => ?_
        refine pollProvider_looks (knows_of_decode hreported hkey hlease) ?_ caller nowMs
        rw [← TaskValue.task.inj (hvalue.symm.trans (decode_ok hlease).1)]
        exact hstatus
      | _ => exact reread_looks taskId caller nowMs

theorem describe_looks {caller : AsyncJobCaller} (hcall : (i, .invoke call) ∈ world.history)
    (hdue : ∀ state : DurableTaskState, call.due state =
      ((assertCaller state caller).isOk && decide (state.nextPollAt ≤ nowMs) &&
        decide (nowMs < state.expiresAt))) :
    LookSafe runtime i (fun _ _ => True) (describe taskId caller nowMs) world :=
  (getTask_looks hcall hdue).andThen fun _ _ _ _ =>
    (read_looks taskId caller nowMs).andThen fun _ _ _ _ => Safe.done trivial

/-! ## `start` -/

/-- What a call that has come to its end owes for having asked the provider for a task. -/
def Explained (i : Nat) (history : TaskHistory) : Prop :=
  ∀ input answer, (i, .effect (.port (.create input)) answer) ∈ history →
    ∃ taskId state nowMs, CreatedTask i taskId state nowMs history ∧ GaveUp i taskId history

/-- Call `i` has not asked the provider for a task, and has not ended. -/
def AllUnasked (i : Nat) (history : TaskHistory) : Prop :=
  ∀ event, (i, event) ∈ history → Unasked event

theorem AllUnasked.explained (h : AllUnasked i history) : Explained i history :=
  fun _ _ hmem => (h _ hmem).elim

theorem explained_of_gaveUp {history later : TaskHistory}
    (hcreated : CreatedTask i taskId state nowMs history) (hgaveUp : GaveUp i taskId history)
    (hsub : history ⊆ later) : Explained i later :=
  fun _ _ _ => ⟨taskId, state, nowMs, hcreated.mono hsub, hgaveUp.mono hsub⟩

/-- A program that does not ask the provider for a task leaves a call that has not asked. -/
theorem LookSafe.unasked (h : LookSafe runtime i Q program world)
    (hprogram : Program.AtMost (asks isCreate) 0 program) (hworld : AllUnasked i world.history) :
    Safe runtime.system Watches (Beside runtime i) i
      (fun outcome now => Returning Q outcome now ∧ AllUnasked i now.history) program world := by
  refine Safe.own (fun _ _ hnow event => (hnow.own_history event).1) (fun op answer hop => ?_) h
    hprogram hworld
  cases op with
  | port request =>
    cases request with
    | create input => cases hop
    | _ => trivial
  | _ => trivial

/-- Once a creation has been given up its call owes nothing more. -/
theorem LookSafe.explained (h : LookSafe runtime i Q program world)
    (hcreated : CreatedTask i taskId state nowMs world.history)
    (hgaveUp : GaveUp i taskId world.history) :
    Safe runtime.system Watches (Beside runtime i) i (fun _ now => Explained i now.history)
      program world :=
  (h.evolving beside_evolves).mono fun _ _ ⟨hnow, _⟩ =>
    explained_of_gaveUp hcreated hgaveUp (history_subset hnow)

theorem claim_looks {createdMs : Int}
    (hcreated : CreatedTask i taskId state createdMs world.history)
    (hnew : ¬ ClaimedEffect i taskId world.history) (nowMs : Int) :
    LookSafe runtime i (fun result now => ∀ effect revision, result = .existing effect revision →
        GaveUp i taskId now.history)
      (claim (createIdentity taskId) nowMs) world := by
  refine Safe.mono ?_ (claim_safe beside_evolves fun now answer hnow _ _ => ?_)
  · intro outcome now hpost result hresult effect revision hexisting
    obtain ⟨_, ⟨_, -, hstep, -⟩, ⟨record, -, hclaimed⟩ | ⟨record, _, rfl, -, -⟩⟩ :=
      hpost result hresult
    · cases hclaimed.symm.trans hexisting
    · exact .claimed (hstep.mem_history.2 (.inl rfl))
  · refine ⟨taskId, state, createdMs, rfl, hcreated.mono (history_subset hnow.evolves), ?_⟩
    rintro ⟨effect, nowMs, expiresAt, record, hmem⟩
    exact hnew ⟨effect, nowMs, expiresAt, record, (hnow.own_history _).1 hmem⟩

theorem transition_looks (identity : EffectIdentity) (revision : Nat)
    (status : DurableEffectStatus) (nowMs : Int) (receipt : Option String) :
    LookSafe runtime i (fun _ _ => True) (transition identity revision status nowMs receipt)
      world :=
  Safe.mono (fun _ _ _ _ _ => trivial)
    (transition_safe (fun _ => True) beside_evolves (fun _ _ _ _ => trivial)
      (fun _ _ _ _ _ => trivial) (fun _ _ _ _ => trivial)
      (fun _ _ _ _ _ _ _ _ _ _ _ _ => trivial) trivial)

theorem recoverStart_looks (hknows : Knows i taskId current world.history)
    (hevidence : current.state.status = .creating → GaveUp i taskId world.history)
    (inflightRevision : Nat) (caller : AsyncJobCaller) (nowMs : Int) :
    LookSafe runtime i (fun _ _ => True)
      (recoverStart taskId current inflightRevision caller nowMs) world :=
  LookSafe.andThen (Safe.caught (transition_looks _ _ _ _ _)) fun _ _ hnow _ =>
    failUncertain_looks (hknows.mono hnow) (fun hstatus => (hevidence hstatus).mono hnow) caller
      nowMs true

/-- What a call knows of the record that it has created: its first version, which could be
written. -/
structure OwnsTask (i : Nat) (taskId : String) (current : VersionedTask) (nowMs : Int)
    (history : TaskHistory) : Prop where
  created : CreatedTask i taskId current.state nowMs history
  knows : Knows i taskId current history
  status : current.state.status = .creating
  revision : current.revision = 1
  key : validateDurableKey (taskKey taskId) = .ok ()
  write : validateDurableWrite (.task current.state : TaskValue) nowMs
    (some current.state.expiresAt) = .ok ()

theorem OwnsTask.mono {history later : TaskHistory} (hsub : history ⊆ later)
    (h : OwnsTask i taskId current nowMs history) : OwnsTask i taskId current nowMs later :=
  { h with created := h.created.mono hsub, knows := h.knows.mono hsub }

/-- A task record within its own limit is within that of the store. -/
theorem validateDurableWrite_of_encode (state next : DurableTaskState) (nowMs : Int)
    (hencode : encode next = .ok value) (hexpiry : next.expiresAt = state.expiresAt)
    (h : validateDurableWrite (.task state : TaskValue) nowMs (some state.expiresAt) = .ok ()) :
    validateDurableWrite value nowMs (some next.expiresAt) = .ok () := by
  obtain rfl := encode_ok hencode
  have hsize : utf8Length next.toJson.render ≤ 64 * 1024 := by
    unfold encode at hencode
    split at hencode
    · cases hencode
    · omega
  have hvalue : validateDurableValue (.task next : TaskValue) = .ok () :=
    if_neg (Nat.not_lt.2 hsize)
  unfold validateDurableWrite at h ⊢
  rw [hvalue, hexpiry]
  cases hstate : validateDurableValue (.task state : TaskValue) with
  | error error => rw [hstate] at h; cases h
  | ok _ => rw [hstate] at h; exact h

/-- An operation is performed and never raises. -/
theorem request_looks (op : Op TaskValue String Request)
    (h : ∀ now answer, Beside runtime i world now → Watches i (.effect op answer) now) :
    Safe runtime.system Watches (Beside runtime i) i (fun outcome now => ∃ answer,
        outcome = .ok answer ∧
          Performed runtime.system Watches (Beside runtime i) i world op answer now)
      (Program.request op) world :=
  Safe.requested op fun now oracle hnow =>
    ⟨h now _ hnow, _, rfl, now, hnow, step_effect i oracle op now, h now _ hnow⟩

/-- What a swap has written is told. -/
theorem swapped_told {key : String} {revision : Nat} {expiresAt : Option Int}
    (h : Performed runtime.system Watches (Beside runtime i) i world
      (.compareAndSwap key revision value nowMs expiresAt) (.updated record) now) :
    Reported i record now.history ∧ record.key = key ∧ record.value = value := by
  obtain ⟨_, -, hstep, -⟩ := h
  refine ⟨⟨_, _, hstep.mem_history.2 (.inl rfl), by simp [reported]⟩, ?_⟩
  rcases Step.compareAndSwap_answer hstep with ⟨heq, -⟩ | ⟨_, heq, -⟩ | ⟨_, heq, -⟩
  · cases heq
  · cases heq
  · cases heq
    exact ⟨rfl, rfl⟩

/-- The save of the provider's task id: only the limit on the record stops it from being tried. -/
theorem saveProviderTask_looks {input : Json} {providerTaskId : String}
    (howns : OwnsTask i taskId current nowMs world.history)
    (hasked : (i, .effect (.port (.create input)) (.ok providerTaskId)) ∈ world.history) :
    Safe runtime.system Watches (Beside runtime i) i (fun outcome now =>
        GaveUp i taskId now.history ∧ ∀ record, outcome = .ok (.updated record) →
          Reported i record now.history ∧ record.key = taskKey taskId ∧
            record.value = .task (current.state.withProviderTask nowMs providerTaskId))
      (save taskId current.revision (current.state.withProviderTask nowMs providerTaskId) nowMs)
      world := by
  refine Safe.checked (fun value hvalue => ?_) fun error herror => ?_
  · change encode (current.state.withProviderTask nowMs providerTaskId) = .ok value at hvalue
    have hwrite := validateDurableWrite_of_encode current.state _ nowMs hvalue rfl howns.write
    obtain rfl := encode_ok hvalue
    have hrevision : validateExpectedRevision current.revision = .ok () := by
      rw [howns.revision]
      rfl
    refine LookSafe.passed howns.key ?_
    refine LookSafe.passed hwrite ?_
    refine LookSafe.passed hrevision ?_
    refine Safe.mono ?_ (request_looks (.compareAndSwap (taskKey taskId) current.revision
      (.task (current.state.withProviderTask nowMs providerTaskId)) nowMs _)
      fun now answer hnow _ _ => ?_)
    · rintro outcome now ⟨answer, rfl, hperformed⟩
      refine ⟨?_, fun record hrecord => ?_⟩
      · obtain ⟨_, -, hstep, -⟩ := hperformed
        have hentry := hstep.mem_history.2 (.inl rfl)
        rw [howns.revision] at hentry
        exact .swapped hentry
      · obtain rfl := Except.ok.inj hrecord
        exact swapped_told hperformed
    · have hsub := history_subset hnow.evolves
      exact ⟨taskId, current.state, rfl, howns.knows.mono hsub, nofun, fun _ => .inr ⟨input,
        providerTaskId, current.state, nowMs, rfl, hsub hasked, howns.created.mono hsub⟩⟩
  · exact ⟨.unfit hasked howns.created herror, fun record hrecord => by cases hrecord⟩

theorem persistProviderTask_looks (howns : OwnsTask i taskId current nowMs world.history)
    (hunasked : AllUnasked i world.history) (input : Json) :
    Safe runtime.system Watches (Beside runtime i) i (fun outcome now =>
        GaveUp i taskId now.history ∧ ∀ working, outcome = .ok working →
          Knows i taskId working now.history ∧ working.state.status = .working)
      (persistProviderTask taskId input current nowMs) world := by
  refine Safe.bind beside_evolves (request_looks (.port (.create input)) fun now _ hnow _ _ => ?_)
    (fun answer now hnow hasked => ?_) fun error now _ hasked => ?_
  · exact fun outcome hresponse => hunasked _ ((hnow.own_history _).1 hresponse)
  · obtain ⟨_, heq, _, -, hstep, -⟩ := hasked
    obtain rfl := Except.ok.inj heq
    have howns := howns.mono (history_subset hnow)
    have hentry := hstep.mem_history.2 (.inl rfl)
    refine Safe.checked (fun providerTaskId hanswer => ?_) fun error hanswer => ?_
    · change answer = .ok providerTaskId at hanswer
      subst hanswer
      refine Safe.bind beside_evolves (saveProviderTask_looks howns hentry) ?_ ?_
      · rintro saved later - ⟨hgaveUp, hupdated⟩
        cases saved with
        | updated record =>
          obtain ⟨hreported, hkey, hvalue⟩ := hupdated record rfl
          refine Safe.ofExcept ⟨hgaveUp, fun working hworking => ?_⟩
          refine ⟨knows_of_decode hreported hkey hworking, ?_⟩
          rw [← TaskValue.task.inj (hvalue.symm.trans (decode_ok hworking).1)]
          rfl
        | missing => exact LookSafe.raised ⟨hgaveUp, fun _ h => by cases h⟩
        | conflict record => exact LookSafe.raised ⟨hgaveUp, fun _ h => by cases h⟩
      · rintro error later - ⟨hgaveUp, -⟩
        exact ⟨hgaveUp, fun _ h => by cases h⟩
    · change answer = .error error at hanswer
      subst hanswer
      exact ⟨.refused hentry, fun _ h => by cases h⟩
  · obtain ⟨_, heq, -⟩ := hasked
    cases heq

theorem createProviderTask_looks (howns : OwnsTask i taskId current nowMs world.history)
    (hunasked : AllUnasked i world.history) (hnew : ¬ ClaimedEffect i taskId world.history)
    (input : Json) (caller : AsyncJobCaller) :
    Safe runtime.system Watches (Beside runtime i) i (fun _ now => Explained i now.history)
      (createProviderTask taskId input current caller nowMs) world := by
  refine Safe.bind beside_evolves ((claim_looks howns.created hnew nowMs).unasked
    (atMost_claim ..) hunasked) ?_ fun _ _ _ ⟨_, hunasked⟩ => hunasked.explained
  rintro claimed first hfirst ⟨hclaimed, hunasked⟩
  have howns := howns.mono (history_subset hfirst)
  cases claimed with
  | existing effect revision =>
    refine Safe.mono (fun _ _ ⟨_, hunasked⟩ => hunasked.explained)
      (LookSafe.unasked (failUncertain_looks howns.knows (fun _ => ?_) caller nowMs false)
        (atMost_failUncertain ..) hunasked)
    exact hclaimed _ rfl effect revision rfl
  | claimed effect revision =>
    refine Safe.bind beside_evolves ((transition_looks _ _ _ _ _).unasked
      (atMost_transition ..) hunasked) ?_ fun _ _ _ ⟨_, hunasked⟩ => hunasked.explained
    rintro inflight second hsecond ⟨-, hunasked⟩
    have howns := howns.mono (history_subset hsecond)
    refine Safe.bind beside_evolves (persistProviderTask_looks howns hunasked input).attempt ?_ ?_
    · rintro persisted third hthird ⟨_, heq, hgaveUp, hworking⟩
      obtain rfl := Except.ok.inj heq
      have howns := howns.mono (history_subset hthird)
      cases persisted with
      | error error =>
        exact (recoverStart_looks howns.knows (fun _ => hgaveUp) _ caller nowMs).explained
          howns.created hgaveUp
      | ok working =>
        obtain ⟨hknows, hstatus⟩ := hworking working rfl
        refine LookSafe.explained (Q := fun _ _ => True) ?_ howns.created hgaveUp
        refine LookSafe.andThen (Safe.caught (transition_looks _ _ _ _ _)) ?_
        intro recorded fourth hfourth _
        cases recorded with
        | error error =>
          exact recoverStart_looks (hknows.mono hfourth)
            (fun h => by simp [hstatus] at h) _ caller nowMs
        | ok _ => exact Safe.done trivial
    · rintro error third - ⟨_, heq, -⟩
      cases heq

/-- The operations that need evidence before a start has created its record. -/
def begins : Op TaskValue String Request → Bool
  | .createIfAbsent _ (.index ..) _ _ => false
  | .createIfAbsent .. => true
  | op => asks isCreate op

/-- The event is no such operation and no end. -/
def Idle : TaskEvent → Prop
  | .effect op _ => begins op = false
  | .response _ => False
  | .invoke _ => True

/-- Call `i` has not begun anything. -/
def AllIdle (i : Nat) (history : TaskHistory) : Prop :=
  ∀ event, (i, event) ∈ history → Idle event

theorem Idle.unasked {event : TaskEvent} (h : Idle event) : Unasked event := by
  cases event with
  | effect op answer =>
    cases op with
    | port request =>
      cases request with
      | create input => cases h
      | _ => trivial
    | _ => trivial
  | response outcome => cases h
  | invoke call => trivial

theorem AllIdle.unasked (h : AllIdle i history) : AllUnasked i history :=
  fun event hmem => (h event hmem).unasked

/-- A program that begins nothing leaves a call that has begun nothing. -/
theorem LookSafe.idle (h : LookSafe runtime i Q program world)
    (hprogram : Program.AtMost begins 0 program) (hworld : AllIdle i world.history) :
    Safe runtime.system Watches (Beside runtime i) i
      (fun outcome now => Returning Q outcome now ∧ AllIdle i now.history) program world :=
  Safe.own (fun _ _ hnow event => (hnow.own_history event).1) (fun _ _ hop => hop) h hprogram hworld

theorem reserveTaskId_looks (input : Json) (caller : AsyncJobCaller)
    (idempotencyKey : Option String) (freshTaskId : String) (nowMs ttlMs : Int) :
    LookSafe runtime i (fun _ _ => True)
      (reserveTaskId runtime.sha256.text input caller idempotencyKey freshTaskId nowMs ttlMs)
      world := by
  cases idempotencyKey with
  | none => exact Safe.done trivial
  | some key =>
    refine LookSafe.andThen (Safe.create fun _ _ _ _ _ => trivial) fun index now _ _ => ?_
    refine Safe.check fun indexed _ => ?_
    split
    · exact Safe.raise
    · exact Safe.done trivial

theorem reserveTaskId_begins (input : Json) (caller : AsyncJobCaller)
    (idempotencyKey : Option String) (freshTaskId : String) (nowMs ttlMs : Int) :
    Program.AtMost begins 0
      (reserveTaskId runtime.sha256.text input caller idempotencyKey freshTaskId nowMs ttlMs) := by
  cases idempotencyKey with
  | none => exact Program.atMost_done ..
  | some key =>
    refine (atMost_createIfAbsent rfl).andThen fun index => .check fun indexed => ?_
    split
    · exact Program.atMost_raise ..
    · exact Program.atMost_done ..

/-- What a start knows after it has tried to create its record. -/
structure Tried (i : Nat) (taskId : String) (initial : DurableTaskState) (nowMs : Int)
    (answer : CreateResult String TaskValue) (history : TaskHistory) : Prop where
  entry : (i, .effect (.createIfAbsent (taskKey taskId) (.task initial) nowMs
    (some initial.expiresAt)) answer) ∈ history
  others : ∀ event, (i, event) ∈ history → event = .effect (.createIfAbsent (taskKey taskId)
    (.task initial) nowMs (some initial.expiresAt)) answer ∨ Idle event
  reported : Reported i answer.record history
  stored : answer.record.key = taskKey taskId
  fresh : ∀ record, answer = .created record → record.value = .task initial ∧ record.revision = 1
  key : validateDurableKey (taskKey taskId) = .ok ()
  write : validateDurableWrite (.task initial : TaskValue) nowMs (some initial.expiresAt) = .ok ()

theorem Tried.unasked (h : Tried i taskId initial nowMs answer history) : AllUnasked i history := by
  intro event hmem
  rcases h.others event hmem with rfl | hidle
  · trivial
  · exact hidle.unasked

theorem Tried.new (h : Tried i taskId initial nowMs answer history) :
    ¬ ClaimedEffect i taskId history := by
  rintro ⟨_, _, _, _, hmem⟩
  rcases h.others _ hmem with heq | hidle
  · injection heq with hop
    injection hop with hkey
    exact absurd hkey.symm taskKey_ne_key
  · cases hidle

/-- A start tries once to create its record. -/
theorem create_looks (hidle : AllIdle i world.history) :
    Safe runtime.system Watches (Beside runtime i) i (fun outcome now =>
        (∀ error, outcome = .error error → AllIdle i now.history) ∧
        ∀ answer, outcome = .ok answer → Tried i taskId initial nowMs answer now.history)
      (createIfAbsent (taskKey taskId) (.task initial : TaskValue) nowMs (some initial.expiresAt))
      world := by
  have hraise : ∀ error : Fault, (∀ given, (.error error : Except Fault
      (CreateResult String TaskValue)) = .error given → AllIdle i world.history) ∧
      ∀ answer, (.error error : Except Fault (CreateResult String TaskValue)) = .ok answer →
        Tried i taskId initial nowMs answer world.history :=
    fun error => ⟨fun _ _ => hidle, fun _ h => by cases h⟩
  refine Safe.checked (fun _ hkey => Safe.checked (fun _ hwrite => ?_) fun error _ => hraise error)
    fun error _ => hraise error
  refine Safe.mono ?_ (request_looks (.createIfAbsent (taskKey taskId) (.task initial) nowMs _)
    fun now answer hnow _ _ => ?_)
  · rintro outcome now ⟨answer, rfl, before, hbefore, hstep, -⟩
    refine ⟨fun _ h => (by cases h), fun given hgiven => ?_⟩
    obtain rfl := Except.ok.inj hgiven
    have hentry := hstep.mem_history.2 (.inl rfl)
    obtain ⟨hafter, hanswer⟩ := Step.createIfAbsent_answer hstep
    refine ⟨hentry, fun event hmem => ?_, ⟨_, _, hentry, by simp [reported]⟩,
      Store.get_key hafter, fun record hrecord => ?_, hkey, hwrite⟩
    · rcases hstep.mem_history.1 hmem with heq | hmem
      · exact .inl (Prod.mk.inj heq).2
      · exact .inr (hidle _ ((hbefore.own_history _).1 hmem))
    · subst hrecord
      rcases hanswer with ⟨_, heq, -⟩ | ⟨heq, -⟩
      · cases heq
      · cases heq
        exact ⟨rfl, rfl⟩
  · refine ⟨fun _ _ _ hasked => ?_, fun other hmem => ?_⟩
    · obtain ⟨_, _, hmem⟩ := hasked
      cases hidle _ ((hnow.own_history _).1 hmem)
    · exact (hidle _ ((hnow.own_history _).1 hmem)).unasked

/-- A start ends with an explanation of what it has asked the provider for. -/
theorem start_looks (hidle : AllIdle i world.history) (input : Json) (caller : AsyncJobCaller)
    (ttlMs : Option Int) (idempotencyKey : Option String) (nowMs : Int) :
    Safe runtime.system Watches (Beside runtime i) i (fun _ now => Explained i now.history)
      (start runtime input caller ttlMs idempotencyKey nowMs) world := by
  refine Safe.checked (fun _ _ => ?_) fun _ _ => hidle.unasked.explained
  refine Safe.bind beside_evolves ((ask_looks rfl).idle (atMost_ask rfl) hidle) ?_
    fun _ _ _ ⟨_, hidle⟩ => hidle.unasked.explained
  rintro uuid first - ⟨-, hidle⟩
  refine Safe.bind beside_evolves ((reserveTaskId_looks ..).idle (reserveTaskId_begins ..) hidle)
    ?_ fun _ _ _ ⟨_, hidle⟩ => hidle.unasked.explained
  rintro taskId second - ⟨-, hidle⟩
  refine Safe.checked (fun value hvalue => ?_) fun _ _ => hidle.unasked.explained
  obtain rfl := encode_ok hvalue
  refine Safe.bind beside_evolves (create_looks hidle) ?_
    fun error _ _ ⟨herror, _⟩ => (herror error rfl).unasked.explained
  rintro created third - ⟨-, htried⟩
  have htried := htried created rfl
  refine Safe.checked (fun current hcurrent => ?_) fun _ _ => htried.unasked.explained
  refine Safe.checked (fun _ hcaller => ?_) fun _ _ => htried.unasked.explained
  change assertCaller current.state caller = .ok _ at hcaller
  have hknows := knows_of_decode htried.reported htried.stored hcurrent
  split
  · exact LookSafe.raised htried.unasked.explained
  · rename_i hsame
    simp only [ne_eq, not_or, not_not] at hsame
    cases created with
    | existing record =>
      dsimp only
      split
      · rename_i hstatus
        refine Safe.mono (fun _ _ ⟨_, hunasked⟩ => hunasked.explained)
          (LookSafe.unasked (failUncertain_looks hknows (fun _ => ?_) caller nowMs false)
            (atMost_failUncertain ..) htried.unasked)
        refine .found htried.entry (decode_ok hcurrent).1 hstatus ?_
        have hallowed : (assertCaller current.state caller).isOk = true := by rw [hcaller]; rfl
        rw [sameRequest, Bool.and_eq_true, Bool.and_eq_true, beq_iff_eq, beq_iff_eq]
        exact ⟨⟨hallowed, hsame.1⟩, hsame.2⟩
      · exact LookSafe.returned htried.unasked.explained
    | created record =>
      obtain ⟨hvalue, hrevision⟩ := htried.fresh record rfl
      obtain ⟨hcurrentValue, hcurrentRevision⟩ := decode_ok hcurrent
      have hstate := TaskValue.task.inj (hcurrentValue.symm.trans hvalue)
      refine createProviderTask_looks ⟨?_, hknows, ?_, ?_, htried.key, ?_⟩ htried.unasked
        htried.new input caller
      · rw [hstate]
        exact ⟨_, record, htried.entry⟩
      · rw [hstate]
        rfl
      · exact hcurrentRevision.symm.trans hrevision
      · rw [hstate]
        exact htried.write

/-! ## All calls -/

theorem atMost_persistPollOutcome (current : VersionedTask) (outcome : AsyncTaskPollOutcome)
    (caller : AsyncJobCaller) (nowMs : Int) :
    Program.AtMost (asks isCreate) 0 (persistPollOutcome current outcome caller nowMs) := by
  refine (atMost_save ..).andThen fun saved => ?_
  cases saved with
  | updated record => exact .check fun _ => Program.atMost_done ..
  | _ => exact atMost_reread ..

theorem atMost_getTask (taskId : String) (caller : AsyncJobCaller) (nowMs : Int) :
    Program.AtMost (asks isCreate) 0 (getTask taskId caller nowMs) := by
  refine (atMost_read ..).andThen fun current => ?_
  split
  · exact Program.atMost_done ..
  · split
    · exact atMost_failUncertain ..
    · refine (atMost_save ..).andThen fun saved => ?_
      cases saved with
      | updated record =>
        refine .check fun lease => Program.AtMost.andThen (Program.AtMost.attempt ?_) ?_
        · exact (atMost_ask rfl).andThen fun _ => .check fun _ =>
            (atMost_ask rfl).andThen fun _ => Program.atMost_ofExcept ..
        · intro polled
          cases polled with
          | ok outcome => exact atMost_persistPollOutcome ..
          | error error =>
            refine (atMost_ask rfl).andThen fun aborted => ?_
            extract_lets failure
            split
            · exact Program.atMost_raise ..
            · exact atMost_persistPollOutcome ..
      | _ => exact atMost_reread ..

theorem atMost_describe (taskId : String) (caller : AsyncJobCaller) (nowMs : Int) :
    Program.AtMost (asks isCreate) 0 (describe taskId caller nowMs) :=
  (atMost_getTask ..).andThen fun _ => (atMost_read ..).andThen fun _ => Program.atMost_done ..

/-- Every call has its evidence, whatever the other calls do meanwhile. -/
theorem watched (runtime : Runtime) : Verified runtime.system Watches (fun _ => True) where
  inv := fun _ _ _ _ _ _ _ => trivial
  invoke := fun _ _ _ _ _ _ => trivial
  main := by
    intro i call world _ hcalls hfirst
    have hidle : AllIdle i world.history := fun event hmem => by
      rw [hfirst event hmem]
      trivial
    have hresponds : ∀ {outcome : Except Fault Reply} {now : TaskWorld},
        Explained i now.history → Responds runtime.system Watches i outcome now := by
      intro outcome now hexplained later hlater _ _ input answer hmem
      obtain ⟨taskId, state, nowMs, hcreated, hgaveUp⟩ :=
        hexplained input answer ((hlater.own_history _).1 hmem)
      have hsub := history_subset hlater.evolves
      exact ⟨taskId, state, nowMs, hcreated.mono hsub, hgaveUp.mono hsub⟩
    have hlook : ∀ {α : Type} {program : TaskIo α} (reply : α → Reply),
        LookSafe runtime i (fun _ _ => True) program world →
        Program.AtMost (asks isCreate) 0 program →
        Safe runtime.system Watches (Beside runtime i) i (Responds runtime.system Watches i)
          (program.bind fun value => .done (reply value)) world := by
      intro α program reply hprogram hasks
      refine Safe.bind beside_evolves (hprogram.unasked hasks hidle.unasked) ?_ ?_
      · exact fun value now _ ⟨_, hunasked⟩ => LookSafe.returned (hresponds hunasked.explained)
      · exact fun error now _ ⟨_, hunasked⟩ => hresponds hunasked.explained
    -- The other methods are bound to nothing.
    have hother : call.looks = false → Safe runtime.system Watches (Beside runtime i) i
        (Responds runtime.system Watches i) (runtime.system.main call) world := by
      intro hlooks
      have hfree : ∀ now, Evolves runtime.system Watches world now → ∀ event,
          Watches i event now := by
        intro now hnow event hall _
        have := hall call ((persistent_calls i call).evolves hnow hcalls).1
        simp [hlooks] at this
      refine Safe.mono ?_ (Safe.unconstrained beside_evolves hfree)
      exact fun outcome now hnow later hlater => hfree later (hnow.trans hlater.evolves) _
    cases call with
    | start input caller ttlMs key nowMs =>
      refine Safe.bind beside_evolves (start_looks hidle input caller ttlMs key nowMs) ?_ ?_
      · exact fun value now _ hexplained => LookSafe.returned (hresponds hexplained)
      · exact fun error now _ hexplained => hresponds hexplained
    | get taskId caller nowMs =>
      exact hlook .task (getTask_looks hcalls.1 fun state => rfl) (atMost_getTask ..)
    | describe taskId caller nowMs =>
      exact hlook .details (describe_looks hcalls.1 fun state => rfl) (atMost_describe ..)
    | update taskId inputResponses caller nowMs => exact hother rfl
    | cancel taskId caller nowMs => exact hother rfl
    | stopWaiting taskId caller nowMs => exact hother rfl

end Groundlane.McpTasks
