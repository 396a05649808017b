import Groundlane.DocumentJobs.Repository

/-!
# The lifecycle of a document job is monotone

Any number of calls create, read, resume, cancel and move on document jobs (`repository`), each
with a clock of its own. A read writes when the job is past its expiry, so expiry races with
transitions and with the revocation of sources. Every version of a job is nevertheless replaced
along `Moves` only, and a read past the expiry returns an expired or cancelled job
(`document_jobs_monotone`).
-/

namespace Groundlane.DocumentJobs.Repository

open Fenced Interleaving Interleaving.System Relation

/-- The methods with their arguments. -/
inductive Call where
  | createIfAbsent (input : CreateDurableDocumentJobInput)
  | get (jobId : String) (caller : DurableDocumentJobCaller) (nowMs : Int)
  | resume (jobId : String) (caller : DurableDocumentJobCaller) (nowMs : Int)
  | revokeSource (jobId : String) (caller : DurableDocumentJobCaller) (nowMs : Int)
  | transition (jobId : String) (caller : DurableDocumentJobCaller) (expectedRevision : Nat)
    (status : DurableDocumentJobStatus) (nowMs : Int)
    (patch : DurableDocumentJobTransitionPatch)
deriving DecidableEq, Repr

/-- The clock of the call. -/
def Call.nowMs : Call → Int
  | createIfAbsent input => input.nowMs
  | get _ _ nowMs => nowMs
  | resume _ _ nowMs => nowMs
  | revokeSource _ _ nowMs => nowMs
  | transition _ _ _ _ nowMs _ => nowMs

/-- Whether the call reads a job. -/
def Call.reads : Call → Bool
  | get .. | resume .. => true
  | _ => false

/-- What the methods return. -/
inductive Reply where
  | created (result : CreateDurableDocumentJobResult)
  | job (value : VersionedDurableDocumentJob)
  | transition (result : DurableDocumentJobTransitionResult)
deriving DecidableEq, Repr

/-- The repository asks nobody else. -/
abbrev Answer : Empty → Type := nofun

/-- A record store that holds nothing but jobs. -/
instance : HoldsJobs DurableDocumentJob := ⟨id, some, fun _ _ => Option.some_inj⟩

instance : Stored DurableDocumentJob := ⟨fun job => job.toJson.render⟩

/-- The program of each call. -/
def main (sha256 : Sha256 String) (rounds : Nat) :
    Call → Io Answer DurableDocumentJob String Reply
  | .createIfAbsent input => do
    let result ← DurableDocumentJobRepository.createIfAbsent sha256 input
    pure (.created result)
  | .get jobId caller nowMs => do
    let value ← DurableDocumentJobRepository.get rounds jobId caller nowMs
    pure (.job value)
  | .resume jobId caller nowMs => do
    let value ← DurableDocumentJobRepository.resume rounds jobId caller nowMs
    pure (.job value)
  | .revokeSource jobId caller nowMs => do
    let value ← DurableDocumentJobRepository.revokeSource jobId caller nowMs
    pure (.job value)
  | .transition jobId caller expectedRevision status nowMs patch => do
    let result ← DurableDocumentJobRepository.transition rounds jobId caller expectedRevision
      status nowMs patch
    pure (.transition result)

/-- All calls of repositories over one record store. -/
def repository (sha256 : Sha256 String) (rounds : Nat) :
    System Call (Op DurableDocumentJob String Empty) (Op.Res Answer) Fault Reply
      (Disk DurableDocumentJob String) (Oracle Answer) :=
  system sha256 (main sha256 rounds)

/-- A world of calls of the repository. -/
abbrev JobWorld : Type := DiskWorld Answer Call DurableDocumentJob String Reply

/-- An event of a call of the repository. -/
abbrev JobEvent : Type := DiskEvent Answer Call DurableDocumentJob String Reply

/-- No calls yet, and nothing stored. -/
def initial : Config Call (Op DurableDocumentJob String Empty) (Op.Res Answer) Fault Reply
    (Disk DurableDocumentJob String) :=
  Config.initial Disk.empty

/-! ## What is claimed -/

/-- How a call whose clock shows `nowMs` may replace a job. -/
structure Moves (nowMs : Int) (previous next : DurableDocumentJob) : Prop where
  identity : next.toJobIdentity = previous.toJobIdentity
  left : previous.status ≠ .cancelled ∧ previous.status ≠ .expired
  forward : previous.status.order < next.status.order ∨
    (previous.status = .completed ∨ previous.status = .failed) ∧ next.status = .expired ∧
      previous.expiresAt ≤ nowMs
  outcome : previous.status.terminal = true →
    next.resultArtifactRef = previous.resultArtifactRef ∧
      next.sanitizedError = previous.sanitizedError

/-- What a job is at some time and at any later time. -/
structure Later (previous next : DurableDocumentJob) : Prop where
  identity : next.toJobIdentity = previous.toJobIdentity
  order : previous.status.order ≤ next.status.order
  final : previous.status = .cancelled ∨ previous.status = .expired → next = previous
  terminal : previous.status.terminal = true →
    (next.status = previous.status ∨ next.status = .expired) ∧
      next.resultArtifactRef = previous.resultArtifactRef ∧
      next.sanitizedError = previous.sanitizedError

/-- The lifecycle is monotone in every run. -/
structure MonotoneJobs (sha256 : Sha256 String) (rounds : Nat) : Prop where
  step : ∀ actions action key previous,
    ((repository sha256 rounds).run initial actions).state.records.get key = some previous →
    ∃ next, ((repository sha256 rounds).run initial
        (actions ++ [action])).state.records.get key = some next ∧
      (next = previous ∨ ∃ i event call,
        ((repository sha256 rounds).run initial (actions ++ [action])).history =
          (i, event) :: ((repository sha256 rounds).run initial actions).history ∧
        (i, .invoke call) ∈ ((repository sha256 rounds).run initial actions).history ∧
        Moves call.nowMs previous.value next.value)
  later : ∀ actions more key previous,
    ((repository sha256 rounds).run initial actions).state.records.get key = some previous →
    ∃ next, ((repository sha256 rounds).run initial
        (actions ++ more)).state.records.get key = some next ∧
      Later previous.value next.value
  expiry : ∀ actions i call value,
    (i, .invoke call) ∈ ((repository sha256 rounds).run initial actions).history →
    call.reads = true →
    (i, .response (.ok (.job value))) ∈
      ((repository sha256 rounds).run initial actions).history →
    value.job.expiresAt ≤ call.nowMs →
    value.job.status = .expired ∨ value.job.status = .cancelled

/-! ## Moves -/

section Moves

variable {job previous next : DurableDocumentJob} {nowMs : Int}

theorem moves_expire (h : ¬ job.current nowMs) : Moves nowMs job (job.expire nowMs) := by
  unfold DurableDocumentJob.current at h
  rw [not_or, not_or, not_lt] at h
  obtain ⟨hpast, hexpired, hcancelled⟩ := h
  refine ⟨rfl, ⟨hcancelled, hexpired⟩, ?_, fun _ => ⟨rfl, rfl⟩⟩
  show job.status.order < 3 ∨ _
  cases hstatus : job.status with
  | created => exact .inl (by decide)
  | pending => exact .inl (by decide)
  | running => exact .inl (by decide)
  | completed => exact .inr ⟨.inl rfl, rfl, hpast⟩
  | failed => exact .inr ⟨.inr rfl, rfl, hpast⟩
  | cancelled => exact absurd hstatus hcancelled
  | expired => exact absurd hstatus hexpired

/-- A job that is not terminal may be replaced by one with a later status. -/
theorem moves_of_open (hopen : job.status.terminal = false)
    (hidentity : next.toJobIdentity = job.toJobIdentity)
    (horder : job.status.order < next.status.order) : Moves nowMs job next where
  identity := hidentity
  left := by
    constructor <;> intro hstatus <;> rw [hstatus] at hopen <;> cases hopen
  forward := .inl horder
  outcome := fun hterminal => by
    rw [hopen] at hterminal
    cases hterminal

variable {status : DurableDocumentJobStatus}

theorem order_of_open (h : status.terminal = false) : status.order < 3 := by
  cases status with
  | created => decide
  | pending => decide
  | running => decide
  | completed => cases h
  | failed => cases h
  | cancelled => cases h
  | expired => cases h

theorem Later.refl : Later job job :=
  ⟨rfl, Nat.le_refl _, fun _ => rfl, fun _ => ⟨.inl rfl, rfl, rfl⟩⟩

theorem terminal_order : status.terminal = true ↔ status.order = 3 := by
  cases status <;> decide

theorem order_le (status : DurableDocumentJobStatus) : status.order ≤ 3 := by
  cases status <;> decide

/-- One more replacement. -/
theorem Later.move (h : Later job previous) (hmove : Moves nowMs previous next) :
    Later job next where
  identity := hmove.identity.trans h.identity
  order := by
    rcases hmove.forward with hlt | ⟨-, hexpired, -⟩
    · exact Nat.le_of_lt (Nat.lt_of_le_of_lt h.order hlt)
    · rw [hexpired]
      exact order_le _
  final := fun hfinal => by
    obtain rfl := h.final hfinal
    rcases hfinal with hcancelled | hexpired
    · exact absurd hcancelled hmove.left.1
    · exact absurd hexpired hmove.left.2
  terminal := fun hterminal => by
    obtain ⟨-, href, herror⟩ := h.terminal hterminal
    have hprevious : previous.status.terminal = true := by
      rw [terminal_order] at hterminal ⊢
      have hle := h.order
      have := order_le previous.status
      omega
    obtain ⟨href', herror'⟩ := hmove.outcome hprevious
    refine ⟨.inr ?_, href'.trans href, herror'.trans herror⟩
    rcases hmove.forward with hlt | ⟨-, hexpired, -⟩
    · rw [terminal_order.1 hprevious] at hlt
      exact absurd hlt (Nat.not_lt.2 (order_le _))
    · exact hexpired

end Moves

/-! ## The guarantee -/

/-- How jobs begin and how they are replaced; a job keeps the time of its last replacement. -/
def jobCycle : Lifecycle DurableDocumentJob where
  initial := fun _ job => job.status = .created
  next := fun previous next => Moves next.updatedAt previous next

/-- The clock that the event of call `i` goes by is the one of the call. -/
def Timed (i : Nat) (event : JobEvent) (history : List (Nat × JobEvent)) : Prop :=
  match event with
  | .effect (.compareAndSwap _ _ job _ _) _ => ∃ call, (i, .invoke call) ∈ history ∧
    job.updatedAt = call.nowMs
  | .response (.ok (.job value)) => ∃ call, (i, .invoke call) ∈ history ∧
    (call.reads = true → value.job.current call.nowMs)
  | _ => True

/-- The circumstances of every event of call `i`. -/
def Guarantee (i : Nat) (event : JobEvent) (world : JobWorld) : Prop :=
  Revises jobCycle i event world.history ∧ Timed i event world.history

variable {call : Call} {value : VersionedDurableDocumentJob}

section Verified

variable {sha256 : Sha256 String} {rounds i : Nat} {world : JobWorld}

/-- The program keeps the guarantee in call `i`, and `Q` holds of what it returns. -/
abbrev JobSafe {α : Type} (sha256 : Sha256 String) (rounds i : Nat) (Q : α → JobWorld → Prop)
    (program : Io Answer DurableDocumentJob String α) (world : JobWorld) : Prop :=
  Safe (repository sha256 rounds) Guarantee (Rely (repository sha256 rounds) Guarantee i) i
    (Returning Q) program world

/-- The rule of sequence, at the types of the repository. -/
theorem JobSafe.andThen {α β : Type} {middle : α → JobWorld → Prop} {Q : β → JobWorld → Prop}
    {program : Io Answer DurableDocumentJob String α}
    {rest : α → Io Answer DurableDocumentJob String β}
    (h : JobSafe sha256 rounds i middle program world)
    (hrest : ∀ value now, Evolves (repository sha256 rounds) Guarantee world now →
      middle value now → JobSafe sha256 rounds i Q (rest value) now) :
    JobSafe sha256 rounds i Q (program.bind rest) world :=
  Safe.andThen (fun _ _ h => h.evolves) h hrest

variable {jobId : String}

/-- A call may replace a version that it was told of along a move at its own time. -/
theorem replaces {next : DurableDocumentJob} {expiresAt : Option Int}
    {answer : CasResult String DurableDocumentJob} (hcall : (i, .invoke call) ∈ world.history)
    (htold : ToldOf i jobId value world.history) (htime : next.updatedAt = call.nowMs)
    (hmoves : Moves call.nowMs value.job next) :
    Guarantee i (.effect (.compareAndSwap (recordKey jobId) value.revision
      (HoldsJobs.ofJob next) call.nowMs expiresAt) answer) world := by
  refine ⟨htold.revises ?_ _ _ _, call, hcall, htime⟩
  show Moves next.updatedAt value.job next
  rw [htime]
  exact hmoves

theorem get_keeps {caller : DurableDocumentJobCaller} (hcall : (i, .invoke call) ∈ world.history) :
    JobSafe sha256 rounds i (fun value _ => value.job.current call.nowMs)
      (DurableDocumentJobRepository.get rounds jobId caller call.nowMs) world := by
  refine Safe.mono ?_ (get_safe (fun _ _ h => h.evolves) (fun _ _ _ => ⟨trivial, trivial⟩) ?_)
  · exact fun _ _ hpost value hvalue => (hpost value hvalue).2.2
  · intro now value answer hnow htold hstale
    exact replaces (hnow.suffix.subset hcall) htold rfl (moves_expire hstale)

/-- Every call of the repository keeps the guarantee. -/
theorem verified (sha256 : Sha256 String) (rounds : Nat) :
    Verified (repository sha256 rounds) Guarantee (Versions jobCycle) where
  inv := fun _ _ _ _ hstep hG h => versions_step hstep hG.1 h
  invoke := fun _ _ _ _ => ⟨trivial, trivial⟩
  main := by
    intro i call world _ hcalls _
    refine Safe.responds (Q := fun reply now => (i, .invoke call) ∈ now.history ∧
      ∀ value, reply = .job value → call.reads = true → value.job.current call.nowMs) ?_ ?_
      fun _ _ => ⟨trivial, trivial⟩
    · have hcall := hcalls.1
      cases call with
      | createIfAbsent input =>
        refine JobSafe.andThen (createIfAbsent_safe (fun _ _ h => h.evolves) fun _ _ _ =>
          ⟨rfl, trivial⟩) fun result now hnow _ => Safe.done ⟨hnow.suffix.subset hcall, ?_⟩
        intro other _ hreads
        cases hreads
      | get jobId caller nowMs =>
        refine (get_keeps hcall).andThen fun value now hnow hcurrent =>
          Safe.done ⟨hnow.suffix.subset hcall, ?_⟩
        intro other heq _
        cases heq
        exact hcurrent
      | resume jobId caller nowMs =>
        refine (get_keeps hcall).andThen fun value now hnow hcurrent =>
          Safe.done ⟨hnow.suffix.subset hcall, ?_⟩
        intro other heq _
        cases heq
        exact hcurrent
      | revokeSource jobId caller nowMs =>
        refine JobSafe.andThen (revokeSource_safe (fun _ _ h => h.evolves)
          (fun _ _ _ => ⟨trivial, trivial⟩) ?_) fun value now hnow _ =>
            Safe.done ⟨hnow.suffix.subset hcall, ?_⟩
        · intro now value answer hnow htold hopen
          have hstatus := Bool.eq_false_iff.2 hopen
          exact replaces (hnow.suffix.subset hcall) htold rfl
            (moves_of_open hstatus rfl (order_of_open hstatus))
        · intro other _ hreads
          cases hreads
      | transition jobId caller expectedRevision status nowMs patch =>
        refine JobSafe.andThen (transition_safe (fun _ _ h => h.evolves)
          (fun _ _ _ => ⟨trivial, trivial⟩) ?_ ?_) fun value now hnow _ =>
            Safe.done ⟨hnow.suffix.subset hcall, ?_⟩
        · intro now value answer hnow htold hstale
          exact replaces (hnow.suffix.subset hcall) htold rfl (moves_expire hstale)
        · intro now value answer hnow htold hopen horder
          exact replaces (hnow.suffix.subset hcall) htold rfl (moves_of_open hopen rfl horder)
        · intro other _ hreads
          cases hreads
    · intro reply now hreply later hlater
      refine ⟨trivial, ?_⟩
      cases reply with
      | created result => trivial
      | transition result => trivial
      | job value => exact ⟨call, hlater.evolves.suffix.subset hreply.1, hreply.2 value rfl⟩

end Verified

/-! ## Runs -/

section Runs

variable {sha256 : Sha256 String} {rounds : Nat}

theorem ready (sha256 : Sha256 String) (rounds : Nat)
    (actions : List (Action Call (Oracle Answer))) :
    Ready (repository sha256 rounds) Guarantee (Versions jobCycle)
      ((repository sha256 rounds).run initial actions) :=
  (ready_initial versions_initial).run (verified sha256 rounds) actions

variable {previous : Record String DurableDocumentJob} {key : String}

/-- What one action does to a stored job. -/
theorem action_moves (actions : List (Action Call (Oracle Answer)))
    (action : Action Call (Oracle Answer))
    (hget : ((repository sha256 rounds).run initial actions).state.records.get key =
      some previous) : ∃ next, ((repository sha256 rounds).run initial
        (actions ++ [action])).state.records.get key = some next ∧
      (next = previous ∨ ∃ i event call,
        ((repository sha256 rounds).run initial (actions ++ [action])).history =
          (i, event) :: ((repository sha256 rounds).run initial actions).history ∧
        (i, .invoke call) ∈ ((repository sha256 rounds).run initial actions).history ∧
        Moves call.nowMs previous.value next.value) := by
  have hready := ready sha256 rounds actions
  rw [run_append, run_cons, run_nil]
  generalize (repository sha256 rounds).run initial actions = before at hget hready
  obtain ⟨-, hsame | ⟨i, _, hstep, hG⟩⟩ := hready.acts (verified sha256 rounds)
    (acts_act before action)
  · rw [hsame]
    exact ⟨previous, hget, .inl rfl⟩
  · rcases version_cases hstep hG.1 hready.inv key with
      hafter | ⟨_, _, _, -, -, hnone, -⟩ |
      ⟨_, _, _, _, hnext, -, rfl, hbefore, hafter⟩
    · exact ⟨previous, hafter.trans hget, .inl rfl⟩
    · rw [hnone] at hget
      cases hget
    · obtain rfl := Option.some.inj (hbefore.symm.trans hget)
      obtain ⟨call, hcall, htime⟩ := hG.2
      refine ⟨_, hafter, .inr ⟨i, _, call, hstep.history, hcall, ?_⟩⟩
      rw [← htime]
      exact hnext

/-- What any number of actions do to a stored job. -/
theorem actions_later (actions more : List (Action Call (Oracle Answer)))
    (hget : ((repository sha256 rounds).run initial actions).state.records.get key =
      some previous) : ∃ next, ((repository sha256 rounds).run initial
        (actions ++ more)).state.records.get key = some next ∧
      Later previous.value next.value := by
  induction more using List.reverseRecOn with
  | nil => exact ⟨previous, by rwa [List.append_nil], .refl⟩
  | append_singleton more action ih =>
    obtain ⟨_, hmiddle, hlater⟩ := ih
    obtain ⟨next, hnext, hcases⟩ := action_moves (actions ++ more) action hmiddle
    rw [List.append_assoc] at hnext
    refine ⟨next, hnext, ?_⟩
    rcases hcases with rfl | ⟨_, _, _, -, -, hmoves⟩
    · exact hlater
    · exact hlater.move hmoves

/-- Every read returns a job that is current at the time of the read. -/
theorem read_current (actions : List (Action Call (Oracle Answer))) {i : Nat}
    (hcall : (i, .invoke call) ∈ ((repository sha256 rounds).run initial actions).history)
    (hreads : call.reads = true) (hreply : (i, .response (.ok (.job value))) ∈
      ((repository sha256 rounds).run initial actions).history) : value.job.current call.nowMs := by
  revert i call value
  refine (ready_initial versions_initial).persists (verified sha256 rounds) actions
    (P := fun world => ∀ {i : Nat} {call : Call} {value : VersionedDurableDocumentJob},
      (i, .invoke call) ∈ world.history → call.reads = true →
        (i, .response (.ok (.job value))) ∈ world.history → value.job.current call.nowMs) ?_ ?_
  · intro j event before after _ haccounted hstep hG ih i call value hcall hreads hreply
    rcases hstep.mem_history.1 hreply with heq | hreply
    · obtain ⟨rfl, rfl⟩ := Prod.mk.inj heq
      obtain ⟨_, hother, hcurrent⟩ := hG.2
      obtain rfl := haccounted.invoke_unique hcall (hstep.history_mono hother)
      exact hcurrent hreads
    · exact ih (hstep.mem_of_invoke hreply hcall) hreads hreply
  · intro i call value hcall
    cases hcall

/-- In every run the lifecycle of every job is monotone. -/
theorem document_jobs_monotone (sha256 : Sha256 String) (rounds : Nat) :
    MonotoneJobs sha256 rounds where
  step := fun actions action _ _ hget => action_moves actions action hget
  later := fun actions more _ _ hget => actions_later actions more hget
  expiry := fun actions _ call value hcall hreads hreply hexpired => by
    rcases read_current actions hcall hreads hreply with hlt | hstatus
    · exact absurd hexpired (not_le.2 hlt)
    · exact hstatus

end Runs

end Groundlane.DocumentJobs.Repository
