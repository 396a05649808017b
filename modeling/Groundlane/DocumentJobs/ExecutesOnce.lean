import Groundlane.DocumentJobs.Executor

/-!
# A document job is executed once

Any number of executions of a job run at once, among calls that create jobs, read, expire and
cancel them. The port of each effect is asked only by the call that created the effect record,
with the receipt of the effect before it on record, and a receipt that is recorded is what the
port has answered. So each port is asked at most once for a job, in order, and every completed
job and every execution that returns has the receipt of the one result that was written
(`executes_once`).
-/

namespace Groundlane.DocumentJobs

open Fenced Interleaving Interleaving.System

/-! ## What is claimed -/

/-- The port has answered for the job with the receipt. -/
def Answered (jobId : String) (port : ExecutionPort) (receipt : String) (history : JobHistory) :
    Prop :=
  ∃ i, (i, .effect (.port (.perform jobId port)) (.ok receipt)) ∈ history

/-- The effect record of the port has been written with the receipt. -/
def Recorded (jobId : String) (port : ExecutionPort) (receipt : String) (history : JobHistory) :
    Prop :=
  ∃ i revision effect nowMs expiresAt record,
    (i, .effect (.compareAndSwap (port.identity jobId).key revision (.effect effect) nowMs
      expiresAt) (.updated record)) ∈ history ∧
    effect.status = .succeeded ∧ effect.receipt = some receipt

/-- The port whose receipt has to be there first. -/
def ExecutionPort.before : ExecutionPort → Option ExecutionPort
  | createProviderTask => none
  | performPaidCall => some createProviderTask
  | writeResultArtifact => some performPaidCall

/-- Whether an entry asks the port for the job. -/
def performs (jobId : String) (port : ExecutionPort) : Nat × JobEvent → Bool
  | (_, .effect (.port request) _) => request == .perform jobId port
  | _ => false

/-- What is claimed of a job. -/
structure ExecutesOnce (jobId : String) (world : JobWorld) : Prop where
  once : ∀ port, world.history.countP (performs jobId port) ≤ 1
  ordered : ∀ port earlier, port.before = some earlier → ∀ newer i answer older,
    world.history = newer ++ (i, .effect (.port (.perform jobId port)) answer) :: older →
    ∃ receipt, Answered jobId earlier receipt older ∧ Recorded jobId earlier receipt older
  receipt : ∀ port receipt other, Answered jobId port receipt world.history →
    Answered jobId port other world.history → receipt = other
  completed : ∀ record job, world.state.records.get (recordKey jobId) = some record →
    record.value = .job job → job.status = .completed →
    ∃ receipt, job.resultArtifactRef = some receipt ∧
      Answered jobId .writeResultArtifact receipt world.history
  returned : ∀ i input caller artifactRef, input.jobId = jobId →
    (i, .invoke (.execute input caller)) ∈ world.history →
    (i, .response (.ok (.executed artifactRef))) ∈ world.history →
    Answered jobId .writeResultArtifact artifactRef world.history

/-! ## Keys -/

theorem recordKey_inj {jobId other : String} : recordKey jobId = recordKey other ↔ jobId = other :=
  String.append_right_inj _

/-- How the key of the effect record of a port ends. -/
def ExecutionPort.ending (port : ExecutionPort) : List Char :=
  ":".toList ++ ((port.identity "").effectKind.text.toList ++
    (":".toList ++ (port.identity "").operationKey.toList))

theorem identity_key (port : ExecutionPort) (jobId : String) :
    (port.identity jobId).key.toList = "effect:".toList ++ (jobId.toList ++ port.ending) := by
  unfold EffectIdentity.key EffectIdentity.path ExecutionPort.ending
  simp only [String.toList_append, List.append_assoc]
  cases port with
  | createProviderTask => rfl
  | performPaidCall => rfl
  | writeResultArtifact => rfl

theorem ending_ne_nil (port : ExecutionPort) : port.ending ≠ [] := by
  unfold ExecutionPort.ending
  exact List.append_ne_nil_of_left_ne_nil (by decide) _

/-- The last characters differ. -/
theorem port_eq_of_last {port other : ExecutionPort}
    (h : port.ending.getLast? = other.ending.getLast?) : port = other := by
  revert h
  cases port <;> cases other <;> decide +kernel

/-- The key of an effect record tells the job and the port. -/
theorem identity_key_inj {port other : ExecutionPort} {jobId otherId : String}
    (h : (port.identity jobId).key = (other.identity otherId).key) :
    jobId = otherId ∧ port = other := by
  have htext := congrArg String.toList h
  rw [identity_key, identity_key] at htext
  have hpaths := List.append_cancel_left htext
  have hlast := congrArg List.getLast? hpaths
  rw [List.getLast?_append_of_ne_nil _ (ending_ne_nil port),
    List.getLast?_append_of_ne_nil _ (ending_ne_nil other)] at hlast
  obtain rfl := port_eq_of_last hlast
  exact ⟨String.toList_inj.1 (List.append_cancel_right hpaths), rfl⟩

/-! ## The guarantee -/

/-- The evidence for a completed job and for a succeeded effect. -/
def evidence (key : String) (value : Value) (history : JobHistory) : Prop :=
  match value with
  | .job job => ∀ jobId, key = recordKey jobId → job.status = .completed →
    ∃ receipt, job.resultArtifactRef = some receipt ∧
      Answered jobId .writeResultArtifact receipt history
  | .effect effect => ∀ jobId port, key = (ExecutionPort.identity jobId port).key →
    effect.status = .succeeded →
    ∃ receipt, effect.receipt = some receipt ∧ Answered jobId port receipt history ∧
      Recorded jobId port receipt history

/-- When call `i` asks a port, and what it returns. -/
def Asks (i : Nat) (event : JobEvent) (history : JobHistory) : Prop :=
  match event with
  | .effect (.port (.perform jobId port)) _ =>
    Creates i (port.identity jobId).key history ∧
      ∀ earlier, port.before = some earlier → ∃ receipt,
        Answered jobId earlier receipt history ∧ Recorded jobId earlier receipt history
  | .response (.ok (.executed artifactRef)) => ∃ input caller,
    (i, .invoke (.execute input caller)) ∈ history ∧
      Answered input.jobId .writeResultArtifact artifactRef history
  | _ => True

/-- The circumstances of every event of call `i`. -/
def Guarantee (i : Nat) (event : JobEvent) (world : JobWorld) : Prop :=
  Keeping event ∧ Writes evidence i event world.history ∧ Asks i event world.history

/-- What holds of the stored records after every step that keeps the guarantee. -/
structure Invariant (world : JobWorld) : Prop where
  creators : SoleCreators world
  backed : Backed evidence world

variable {port : ExecutionPort} {answer : CasResult String Value} {expiresAt : Option Int}
  {expectedRevision : Nat} {receipt : String} {revision : Nat}
  {current : VersionedDurableDocumentJob} {status : DurableEffectStatus}
  {history later : JobHistory} {job : DurableDocumentJob} {inflightRevision : Nat}
  {artifactRef : String} {key : String}

theorem Answered.mono {jobId : String} (hsub : history ⊆ later)
    (h : Answered jobId port receipt history) : Answered jobId port receipt later := by
  obtain ⟨i, hmem⟩ := h
  exact ⟨i, hsub hmem⟩

theorem Recorded.mono {jobId : String} (hsub : history ⊆ later)
    (h : Recorded jobId port receipt history) : Recorded jobId port receipt later := by
  obtain ⟨i, revision, effect, nowMs, expiresAt, record, hmem, hrest⟩ := h
  exact ⟨i, revision, effect, nowMs, expiresAt, record, hsub hmem, hrest⟩

theorem evidence_mono {value : Value} {history : JobHistory} (entry : Nat × JobEvent)
    (h : evidence key value history) : evidence key value (entry :: history) := by
  have hsub := List.subset_cons_self entry history
  cases value with
  | job job =>
    intro jobId hkey hstatus
    obtain ⟨receipt, href, hanswered⟩ := h jobId hkey hstatus
    exact ⟨receipt, href, hanswered.mono hsub⟩
  | effect effect =>
    intro jobId port hkey hstatus
    obtain ⟨receipt, hreceipt, hanswered, hrecorded⟩ := h jobId port hkey hstatus
    exact ⟨receipt, hreceipt, hanswered.mono hsub, hrecorded.mono hsub⟩

variable {sha256 : Sha256 String} {rounds i : Nat} {world : JobWorld}

theorem invariant_persistent :
    Persistent (executor sha256 rounds) Guarantee Invariant :=
  fun _ _ _ _ hstep hG h =>
    ⟨soleCreators_step hstep hG.1 h.creators, backed_step evidence_mono hstep hG.2.1 h.backed⟩

/-! ### Writing values that need no evidence -/

/-- A job that is not completed needs no evidence. -/
theorem guarantee_job {nowMs : Int} (h : job.status ≠ .completed) :
    Guarantee i (.effect (.compareAndSwap key revision (.job job) nowMs expiresAt) answer)
      world := by
  refine ⟨trivial, ?_, trivial⟩
  cases answer with
  | updated record => exact fun _ _ hstatus => absurd hstatus h
  | conflict record => trivial
  | missing => trivial

/-- A job may be completed with the receipt of the result that was written for it. -/
theorem guarantee_completed {jobId : String} {nowMs : Int}
    (href : job.resultArtifactRef = some receipt)
    (hanswered : Answered jobId .writeResultArtifact receipt world.history) :
    Guarantee i (.effect (.compareAndSwap (recordKey jobId) revision (.job job) nowMs expiresAt)
      answer) world := by
  refine ⟨trivial, ?_, trivial⟩
  cases answer with
  | updated record =>
    intro other hkey _
    obtain rfl := recordKey_inj.1 hkey
    exact ⟨receipt, href, hanswered.mono (List.subset_cons_self ..)⟩
  | conflict record => trivial
  | missing => trivial

/-- An effect may be moved on, to success with what the port has answered. -/
theorem guarantee_effect {jobId : String} {effect : DurableEffect} {nowMs : Int}
    (h : effect.status = .succeeded → ∃ receipt, effect.receipt = some receipt ∧
      Answered jobId port receipt world.history) :
    Guarantee i (.effect (.compareAndSwap (port.identity jobId).key revision (.effect effect) nowMs
      expiresAt) answer) world := by
  refine ⟨trivial, ?_, trivial⟩
  cases answer with
  | updated record =>
    intro otherId other hkey hstatus
    obtain ⟨rfl, rfl⟩ := identity_key_inj hkey
    obtain ⟨receipt, hreceipt, hanswered⟩ := h hstatus
    exact ⟨receipt, hreceipt, hanswered.mono (List.subset_cons_self ..), i, revision, effect,
      nowMs, expiresAt, record, List.mem_cons_self .., hstatus, hreceipt⟩
  | conflict record => trivial
  | missing => trivial

/-! ## Every call keeps the guarantee -/

open DurableDocumentJobRepository DurableDocumentExecutor

/-- The program keeps the guarantee in call `i`, and `Q` holds of what it returns. -/
abbrev JobSafe {α : Type} (sha256 : Sha256 String) (rounds i : Nat) (Q : α → JobWorld → Prop)
    (program : JobIo α) (world : JobWorld) : Prop :=
  Safe (executor sha256 rounds) Guarantee (Rely (executor sha256 rounds) Guarantee i) i
    (Returning Q) program world

/-- The rule of sequence, at the types of the executor. -/
theorem JobSafe.andThen {α β : Type} {middle : α → JobWorld → Prop} {Q : β → JobWorld → Prop}
    {program : JobIo α} {rest : α → JobIo β} (h : JobSafe sha256 rounds i middle program world)
    (hrest : ∀ value now, Evolves (executor sha256 rounds) Guarantee world now →
      middle value now → JobSafe sha256 rounds i Q (rest value) now) :
    JobSafe sha256 rounds i Q (program.bind rest) world :=
  Safe.andThen (fun _ _ h => h.evolves) h hrest

theorem JobSafe.weaken {α : Type} {Q Q' : α → JobWorld → Prop} {program : JobIo α}
    (h : JobSafe sha256 rounds i Q program world) (hQ : ∀ value now, Q value now → Q' value now) :
    JobSafe sha256 rounds i Q' program world :=
  h.mono fun _ now hpost value hvalue => hQ value now (hpost value hvalue)

/-- What was answered is in the history. -/
theorem ask_safe (request : Request)
    (h : ∀ now answer, Rely (executor sha256 rounds) Guarantee i world now →
      Guarantee i (.effect (.port request) answer) now) :
    JobSafe sha256 rounds i (fun answer now => (i, .effect (.port request) answer) ∈ now.history)
      (ask request) world := by
  refine Safe.mono (fun _ now hpost answer hanswer => ?_) (Safe.ask h)
  obtain ⟨_, _, hstep, _⟩ := hpost answer hanswer
  exact hstep.mem_history.2 (.inl rfl)

theorem assertDispatchActive_safe :
    JobSafe sha256 rounds i (fun _ _ => True) assertDispatchActive world := by
  refine (ask_safe .aborted fun _ _ _ => ⟨trivial, trivial, trivial⟩).andThen
    fun aborted later _ _ => ?_
  split
  · exact Safe.raise
  · exact Safe.done trivial

theorem now_safe (lastNowMs : Int) :
    JobSafe sha256 rounds i (fun _ _ => True) (now lastNowMs) world :=
  (ask_safe .clock fun _ _ _ => ⟨trivial, trivial, trivial⟩).andThen fun _ _ _ _ =>
    Safe.done trivial

theorem get_keeps {jobId : String} {caller : DurableDocumentJobCaller} {nowMs : Int} :
    JobSafe sha256 rounds i (fun value now => ToldOf i jobId value now.history)
      (DurableDocumentJobRepository.get rounds jobId caller nowMs) world := by
  refine JobSafe.weaken (get_safe (fun _ _ h => h.evolves)
    (fun _ _ _ => ⟨trivial, trivial, trivial⟩) ?_) fun _ _ hvalue => hvalue.1
  exact fun _ _ _ _ _ _ => guarantee_job fun hstatus => by cases hstatus

/-- What a call was told of a completed job. -/
theorem ToldOf.answered {jobId : String} {value : VersionedDurableDocumentJob}
    (hinv : Invariant world) (h : ToldOf i jobId value world.history)
    (hstatus : value.job.status = .completed) :
    ∃ receipt, value.job.resultArtifactRef = some receipt ∧
      Answered jobId .writeResultArtifact receipt world.history := by
  obtain ⟨record, hreported, hkey, hvalue, -⟩ := h
  have hevidence := hinv.backed.told i record hreported
  rw [hvalue] at hevidence
  exact hevidence jobId hkey hstatus

/-- What is known when an effect has begun: the call has claimed it, or has its receipt. -/
theorem beginEffect_safe {jobId : String} {caller : DurableDocumentJobCaller} {nowMs : Int}
    (hinv : Invariant world) : JobSafe sha256 rounds i (fun result now => match result with
        | .execute _ _ => Creates i (port.identity jobId).key now.history
        | .replay _ _ receipt => Answered jobId port receipt now.history ∧
          Recorded jobId port receipt now.history
        | .blocked _ _ => True)
      (beginEffect rounds (port.identity jobId) caller nowMs) world := by
  refine get_keeps.andThen fun current now hnow _ => ?_
  split
  · exact Safe.raise
  · refine JobSafe.andThen (claim_safe (fun _ _ h => h.evolves) fun later answer _ => ?_) ?_
    · refine ⟨trivial, ?_, trivial⟩
      cases answer with
      | created record => exact fun _ _ _ hstatus => by cases hstatus
      | existing record => trivial
    · rintro result later hlater ⟨answer, hperformed, hanswer⟩
      have ⟨_, _, hstep, _⟩ := hperformed
      rcases hanswer with ⟨record, rfl, rfl⟩ | ⟨record, effect, rfl, heffect, rfl⟩
      · exact Safe.done ⟨_, _, _, record, hstep.mem_history.2 (.inl rfl)⟩
      · have hreported : Reported i record later.history :=
          ⟨_, _, hstep.mem_history.2 (.inl rfl), List.mem_singleton_self record⟩
        have hevidence :=
          (invariant_persistent.evolves (hnow.trans hlater) hinv).backed.told i record hreported
        have hkey : record.key = (port.identity jobId).key :=
          Store.get_key (Step.createIfAbsent_answer hstep).1
        have hvalue : record.value = .effect effect := by
          cases hrecord : record.value with
          | job job =>
            rw [hrecord] at heffect
            cases heffect
          | effect found =>
            rw [hrecord] at heffect
            rw [Option.some.inj heffect]
        rw [hvalue] at hevidence
        dsimp only
        split
        · rename_i hstatus
          obtain ⟨_, hreceipt, hanswered, hrecorded⟩ :=
            hevidence jobId port hkey hstatus
          rw [hreceipt]
          exact Safe.done ⟨hanswered, hrecorded⟩
        · exact Safe.done trivial

/-- A transition of an effect has recorded the receipt when it was one to success. -/
theorem transitionEffect_safe {jobId : String} {caller : DurableDocumentJobCaller} {nowMs : Int}
    {receipt : Option String} (h : status = .succeeded → ∃ text, receipt = some text ∧
      Answered jobId port text world.history) :
    JobSafe sha256 rounds i (fun _ now => status = .succeeded → ∃ text, receipt = some text ∧
        Recorded jobId port text now.history)
      (transitionEffect rounds (port.identity jobId) caller expectedRevision status nowMs receipt)
      world := by
  refine get_keeps.andThen fun current now hnow _ => ?_
  split
  · exact Safe.raise
  · have hallowed : status = .succeeded → ∃ text, receipt = some text ∧
        Answered jobId port text now.history := by
      intro hstatus
      obtain ⟨text, hreceipt, hanswered⟩ := h hstatus
      exact ⟨text, hreceipt, hanswered.mono hnow.suffix.subset⟩
    refine JobSafe.weaken (Groundlane.transition_safe
      (fun world => status = .succeeded → ∃ text, receipt = some text ∧
        Answered jobId port text world.history)
      (fun _ _ h => h.evolves) ?_ ?_ (fun _ _ => ⟨trivial, trivial, trivial⟩) ?_ hallowed) ?_
    · intro first second hrely hfirst hstatus
      obtain ⟨text, hreceipt, hanswered⟩ := hfirst hstatus
      exact ⟨text, hreceipt, hanswered.mono hrely.evolves.suffix.subset⟩
    · intro first second answer hfirst hstep hstatus
      obtain ⟨text, hreceipt, hanswered⟩ := hfirst hstatus
      exact ⟨text, hreceipt, hanswered.mono fun _ hentry => hstep.history_mono hentry⟩
    · exact fun _ _ _ later _ _ _ _ _ hlater => guarantee_effect hlater
    · rintro result later ⟨before, stored, hbefore, hstep, -, hstatus, hreceipt⟩ hsucceeded
      obtain ⟨text, rfl, -⟩ := hbefore hsucceeded
      exact ⟨text, rfl, i, _, _, _, _, stored, hstep.mem_history.2 (.inl rfl),
        hstatus.trans hsucceeded, hreceipt⟩

/-- An effect that is given up returns nothing. -/
theorem giveUp_safe {Q : String × Int → JobWorld → Prop} {jobId : String}
    {caller : DurableDocumentJobCaller} {lastNowMs : Int} : JobSafe sha256 rounds i Q
      (giveUp rounds (port.identity jobId) caller inflightRevision lastNowMs) world := by
  refine (now_safe lastNowMs).andThen fun uncertainAt now _ _ => ?_
  refine JobSafe.andThen (Safe.caught (transitionEffect_safe fun hstatus => by cases hstatus)) ?_
  exact fun _ _ _ _ => Safe.raise

/-- The receipt of an effect is what its port has answered, and it is on record. -/
theorem runEffect_safe {jobId : String} {caller : DurableDocumentJobCaller} {lastNowMs : Int}
    (hinv : Invariant world) (hearlier : ∀ earlier, port.before = some earlier → ∃ receipt,
      Answered jobId earlier receipt world.history ∧
        Recorded jobId earlier receipt world.history) :
    JobSafe sha256 rounds i (fun result now => Answered jobId port result.1 now.history ∧
        Recorded jobId port result.1 now.history)
      (runEffect rounds jobId caller lastNowMs port) world := by
  refine assertDispatchActive_safe.andThen fun _ first hfirst _ => ?_
  refine (now_safe lastNowMs).andThen fun begunAt second hsecond _ => ?_
  have hbegun := hfirst.trans hsecond
  refine (beginEffect_safe (invariant_persistent.evolves hbegun hinv)).andThen
    fun begun third hthird hclaimed => ?_
  cases begun with
  | replay effect revision receipt => exact Safe.done hclaimed
  | blocked effect revision => exact Safe.raise
  | execute effect revision =>
    refine assertDispatchActive_safe.andThen fun _ fourth hfourth _ => ?_
    refine (now_safe begunAt).andThen fun inflightAt fifth hfifth _ => ?_
    refine (transitionEffect_safe fun hstatus => by cases hstatus).andThen
      fun inflight sixth hsixth _ => ?_
    have hclaim : Evolves (executor sha256 rounds) Guarantee third sixth :=
      (hfourth.trans hfifth).trans hsixth
    -- The port is asked once the effect is in flight.
    have hperform : JobSafe sha256 rounds i (fun receipt now =>
          Answered jobId port receipt now.history)
        (assertDispatchActive.bind fun _ => (ask (Request.perform jobId port)).bind
          fun answer => Program.ofExcept answer) sixth := by
      refine assertDispatchActive_safe.andThen fun _ seventh hseventh _ => ?_
      refine (ask_safe (.perform jobId port) fun later answer hlater => ?_).andThen
        fun answer eighth _ hasked => Safe.ofExcept fun receipt hreceipt => ?_
      · have hpast := (hbegun.trans hthird).trans
          ((hclaim.trans hseventh).trans hlater.evolves)
        refine ⟨trivial, trivial,
          hclaimed.mono ((hclaim.trans hseventh).trans hlater.evolves).suffix.subset, ?_⟩
        intro earlier hbefore
        obtain ⟨receipt, hanswered, hrecorded⟩ := hearlier earlier hbefore
        exact ⟨receipt, hanswered.mono hpast.suffix.subset, hrecorded.mono hpast.suffix.subset⟩
      · rw [hreceipt] at hasked
        exact ⟨i, hasked⟩
    refine JobSafe.andThen (Safe.caught hperform) fun performed seventh hseventh hanswered => ?_
    cases performed with
    | error error => exact giveUp_safe
    | ok receipt =>
      refine (now_safe inflightAt).andThen fun succeededAt eighth height _ => ?_
      have hanswered' := (hanswered receipt rfl).mono height.suffix.subset
      have hmark : JobSafe sha256 rounds i (fun _ now => Recorded jobId port receipt now.history)
          (markEffectSucceeded rounds (port.identity jobId) caller inflight.2 succeededAt
            receipt) eighth := by
        refine Safe.check fun _ _ => ?_
        refine (transitionEffect_safe fun _ => ⟨receipt, rfl, hanswered'⟩).weaken
          fun _ now hrecorded => ?_
        obtain ⟨_, hsome, hrecorded⟩ := hrecorded rfl
        exact Option.some.inj hsome ▸ hrecorded
      refine JobSafe.andThen (Safe.caught hmark) fun marked ninth hninth hrecorded => ?_
      cases marked with
      | error error => exact giveUp_safe
      | ok value => exact Safe.done ⟨hanswered'.mono hninth.suffix.subset, hrecorded value rfl⟩

theorem startRunning_safe {jobId : String} {caller : DurableDocumentJobCaller} {lastNowMs : Int} :
    JobSafe sha256 rounds i (fun _ _ => True)
      (startRunning rounds jobId caller lastNowMs current) world := by
  unfold startRunning
  split
  · exact Safe.done trivial
  · refine (now_safe lastNowMs).andThen fun runningAt now _ _ => ?_
    refine JobSafe.andThen (transition_safe (fun _ _ h => h.evolves)
      (fun _ _ _ => ⟨trivial, trivial, trivial⟩) ?_ ?_) ?_
    · exact fun _ _ _ _ _ _ => guarantee_job fun hstatus => by cases hstatus
    · exact fun _ _ _ _ _ _ _ => guarantee_job fun hstatus => by cases hstatus
    · intro running _ _ _
      cases running with
      | conflict value => exact Safe.raise
      | updated value => exact Safe.done trivial

/-- A job is completed with the receipt of its result. -/
theorem complete_safe {jobId : String} {caller : DurableDocumentJobCaller} {lastNowMs : Int}
    (hanswered : Answered jobId .writeResultArtifact artifactRef world.history) :
    JobSafe sha256 rounds i (fun ref now => Answered jobId .writeResultArtifact ref now.history)
      (complete rounds jobId caller lastNowMs artifactRef) world := by
  refine assertDispatchActive_safe.andThen fun _ first hfirst _ => ?_
  refine (now_safe lastNowMs).andThen fun latestAt second hsecond _ => ?_
  refine get_keeps.andThen fun latest third hthird _ => ?_
  have hlatest := (hfirst.trans hsecond).trans hthird
  split
  · exact Safe.done (hanswered.mono hlatest.suffix.subset)
  · refine (now_safe latestAt).andThen fun completedAt fourth hfourth _ => ?_
    have hfinal := hlatest.trans hfourth
    refine JobSafe.andThen (transition_safe (fun _ _ h => h.evolves)
      (fun _ _ _ => ⟨trivial, trivial, trivial⟩) ?_ ?_) ?_
    · exact fun _ _ _ _ _ _ => guarantee_job fun hstatus => by cases hstatus
    · intro now value answer hnow _ _ _
      exact guarantee_completed rfl (hanswered.mono (hfinal.trans hnow).suffix.subset)
    · intro completed now hnow _
      cases completed with
      | conflict value => exact Safe.raise
      | updated value => exact Safe.done (hanswered.mono (hfinal.trans hnow).suffix.subset)

theorem runEffects_safe {jobId : String} {caller : DurableDocumentJobCaller} {lastNowMs : Int}
    (hinv : Invariant world) :
    JobSafe sha256 rounds i (fun ref now => Answered jobId .writeResultArtifact ref now.history)
      (runEffects rounds jobId caller lastNowMs) world := by
  refine (runEffect_safe hinv fun earlier hbefore => by cases hbefore).andThen
    fun provider first hfirst hprovider => ?_
  have hfirstInv := invariant_persistent.evolves hfirst hinv
  refine (runEffect_safe hfirstInv fun earlier hbefore => ?_).andThen
    fun paid second hsecond hpaid => ?_
  · obtain rfl := Option.some.inj hbefore
    exact ⟨_, hprovider⟩
  · refine (runEffect_safe (invariant_persistent.evolves hsecond hfirstInv)
      fun earlier hbefore => ?_).andThen fun artifact third _ hartifact => ?_
    · obtain rfl := Option.some.inj hbefore
      exact ⟨_, hpaid⟩
    · exact complete_safe hartifact.1

/-- An execution returns the receipt of the result that was written for the job. -/
theorem execute_safe {input : DurableDocumentExecutionInput} {caller : DurableDocumentJobCaller}
    (hinv : Invariant world) :
    JobSafe sha256 rounds i
      (fun ref now => Answered input.jobId .writeResultArtifact ref now.history)
      (execute rounds input caller) world := by
  refine assertDispatchActive_safe.andThen fun _ first hfirst _ => ?_
  refine (now_safe input.nowMs).andThen fun readAt second hsecond _ => ?_
  refine get_keeps.andThen fun current third hthird htold => ?_
  have hthirdInv := invariant_persistent.evolves ((hfirst.trans hsecond).trans hthird) hinv
  split
  · rename_i ref hstatus href
    obtain ⟨_, hreceipt, hanswered⟩ := htold.answered hthirdInv hstatus
    obtain rfl := Option.some.inj (href.symm.trans hreceipt)
    exact Safe.done hanswered
  · exact Safe.raise
  · exact Safe.raise
  · exact Safe.raise
  · refine startRunning_safe.andThen fun startedAt fourth hfourth _ => ?_
    exact runEffects_safe (invariant_persistent.evolves hfourth hthirdInv)

/-- Every call keeps the guarantee. -/
theorem verified (sha256 : Sha256 String) (rounds : Nat) :
    Verified (executor sha256 rounds) Guarantee Invariant where
  inv := invariant_persistent
  invoke := fun _ _ _ _ => ⟨trivial, trivial, trivial⟩
  main := by
    intro i call world hinv hcalls _
    have hcall := hcalls.1
    refine Safe.responds (Q := fun reply now => ∀ ref, reply = .executed ref →
      ∃ input caller, (i, .invoke (.execute input caller)) ∈ now.history ∧
        Answered input.jobId .writeResultArtifact ref now.history) ?_ ?_
      fun _ _ => ⟨trivial, trivial, trivial⟩
    · cases call with
      | createIfAbsent input =>
        refine JobSafe.andThen (createIfAbsent_safe (fun _ _ h => h.evolves) ?_)
          fun result now _ _ => Safe.done fun ref heq => by cases heq
        intro now answer _
        refine ⟨trivial, ?_, trivial⟩
        cases answer with
        | created record => exact fun _ _ hstatus => by cases hstatus
        | existing record => trivial
      | get jobId caller nowMs =>
        exact get_keeps.andThen fun value now _ _ => Safe.done fun ref heq => by cases heq
      | revokeSource jobId caller nowMs =>
        refine JobSafe.andThen (revokeSource_safe (fun _ _ h => h.evolves)
          (fun _ _ _ => ⟨trivial, trivial, trivial⟩) ?_)
          fun value now _ _ => Safe.done fun ref heq => by cases heq
        exact fun _ _ _ _ _ _ => guarantee_job fun hstatus => by cases hstatus
      | execute input caller =>
        refine (execute_safe hinv).andThen fun ref now hnow hanswered => Safe.done ?_
        intro other heq
        cases heq
        exact ⟨input, caller, hnow.suffix.subset hcall, hanswered⟩
    · intro reply now hreply later hlater
      refine ⟨trivial, trivial, ?_⟩
      cases reply with
      | created result => trivial
      | job value => trivial
      | executed ref =>
        obtain ⟨input, caller, hinvoke, hanswered⟩ := hreply ref rfl
        exact ⟨input, caller, hlater.evolves.suffix.subset hinvoke,
          hanswered.mono hlater.evolves.suffix.subset⟩

/-! ## How often a call asks a port -/

section Bounds

variable {test : Request → Bool} {bound : Nat} {jobId : String}
  {caller : DurableDocumentJobCaller} {nowMs lastNowMs : Int}

theorem atMost_settle {settled : DurableDocumentJob → Prop} [DecidablePred settled]
    {change : DurableDocumentJob → DurableDocumentJob} {exhausted : Fault} (rounds : Nat) :
    Program.AtMost (asks test) 0 (settle jobId caller nowMs settled change exhausted rounds :
      JobIo VersionedDurableDocumentJob) := by
  induction rounds with
  | zero => exact Program.atMost_raise ..
  | succ rounds ih =>
    refine (atMost_get rfl).andThen fun record => ?_
    cases record with
    | none => exact Program.atMost_raise ..
    | some record =>
      refine .check fun current => .check fun _ => ?_
      split
      · exact Program.atMost_done ..
      · refine (atMost_compareAndSwap rfl).andThen fun result => ?_
        cases result with
        | updated stored => exact Program.atMost_ofExcept ..
        | missing => exact Program.atMost_raise ..
        | conflict stored => exact ih

theorem atMost_getJob :
    Program.AtMost (asks test) 0 (DurableDocumentJobRepository.get rounds jobId caller nowMs :
      JobIo VersionedDurableDocumentJob) :=
  .check fun _ => .check fun _ => atMost_settle rounds

theorem atMost_transitionJob {status : DurableDocumentJobStatus}
    {patch : DurableDocumentJobTransitionPatch} :
    Program.AtMost (asks test) 0 (DurableDocumentJobRepository.transition rounds jobId caller
      expectedRevision status nowMs patch : JobIo DurableDocumentJobTransitionResult) := by
  unfold DurableDocumentJobRepository.transition
  split
  · exact Program.atMost_raise ..
  · refine atMost_getJob.andThen fun current => ?_
    split
    · exact Program.atMost_done ..
    · refine .check fun _ => .check fun _ => (atMost_compareAndSwap rfl).andThen fun result => ?_
      cases result with
      | updated stored => exact .check fun _ => Program.atMost_done ..
      | missing => exact Program.atMost_raise ..
      | conflict stored => exact .check fun _ => .check fun _ => Program.atMost_done ..

variable {identity : EffectIdentity}

theorem atMost_beginEffect :
    Program.AtMost (asks test) 0 (beginEffect rounds identity caller nowMs) := by
  refine atMost_getJob.andThen fun current => ?_
  split
  · exact Program.atMost_raise ..
  · refine (atMost_claim ..).andThen fun claimed => ?_
    cases claimed with
    | claimed effect revision => exact Program.atMost_done ..
    | existing effect revision =>
      dsimp only
      split
      · cases effect.receipt with
        | none => exact Program.atMost_raise ..
        | some receipt => exact Program.atMost_done ..
      · exact Program.atMost_done ..

theorem atMost_transitionEffect {receipt : Option String} : Program.AtMost (asks test) 0
      (transitionEffect rounds identity caller expectedRevision status nowMs receipt) := by
  refine atMost_getJob.andThen fun current => ?_
  split
  · exact Program.atMost_raise ..
  · exact atMost_transition ..

section Asking

variable (hactive : test .aborted = false) (hclock : test .clock = false)
include hactive hclock

omit hclock in
theorem atMost_assertDispatchActive : Program.AtMost (asks test) 0 assertDispatchActive := by
  refine (atMost_ask hactive).andThen fun aborted => ?_
  split
  · exact Program.atMost_raise ..
  · exact Program.atMost_done ..

omit hactive in
theorem atMost_now : Program.AtMost (asks test) 0 (now lastNowMs) :=
  (atMost_ask hclock).andThen fun _ => Program.atMost_done ..

omit hactive in
theorem atMost_giveUp :
    Program.AtMost (asks test) 0 (giveUp rounds identity caller inflightRevision lastNowMs) :=
  (atMost_now hclock).andThen fun _ => atMost_transitionEffect.attempt.andThen fun _ =>
    Program.atMost_raise ..

/-- An effect asks as often as its port is asked once. -/
theorem atMost_runEffect (h : Program.AtMost (asks test) bound
      (ask (Request.perform jobId port) : JobIo (Except Fault String))) :
    Program.AtMost (asks test) bound (runEffect rounds jobId caller lastNowMs port) := by
  have hassert : Program.AtMost (asks test) 0 assertDispatchActive :=
    atMost_assertDispatchActive hactive
  refine hassert.andThen fun _ => (atMost_now hclock).andThen fun begunAt => ?_
  refine atMost_beginEffect.andThen fun begun => ?_
  cases begun with
  | replay effect revision receipt => exact Program.atMost_done ..
  | blocked effect revision => exact Program.atMost_raise ..
  | execute effect revision =>
    refine hassert.andThen fun _ => (atMost_now hclock).andThen fun inflightAt => ?_
    refine atMost_transitionEffect.andThen fun inflight => ?_
    have hperform := (hassert.andThen fun _ => h.before
      fun answer => Program.atMost_ofExcept 0 answer).attempt
    refine hperform.before fun performed => ?_
    cases performed with
    | error error => exact atMost_giveUp hclock
    | ok receipt =>
      refine (atMost_now hclock).andThen fun succeededAt => ?_
      have hmark : Program.AtMost (asks test) 0 (markEffectSucceeded rounds
          (port.identity jobId) caller inflight.2 succeededAt receipt) :=
        .check fun _ => atMost_transitionEffect
      refine hmark.attempt.andThen fun marked => ?_
      cases marked with
      | error error => exact atMost_giveUp hclock
      | ok value => exact Program.atMost_done ..

omit hactive in
theorem atMost_startRunning :
    Program.AtMost (asks test) 0 (startRunning rounds jobId caller lastNowMs current) := by
  unfold startRunning
  split
  · exact Program.atMost_done ..
  · refine (atMost_now hclock).andThen fun runningAt => atMost_transitionJob.andThen
      fun running => ?_
    cases running with
    | conflict value => exact Program.atMost_raise ..
    | updated value => exact Program.atMost_done ..

theorem atMost_complete :
    Program.AtMost (asks test) 0 (complete rounds jobId caller lastNowMs artifactRef) := by
  refine (atMost_assertDispatchActive hactive).andThen fun _ => (atMost_now hclock).andThen
    fun latestAt => atMost_getJob.andThen fun latest => ?_
  split
  · exact Program.atMost_done ..
  · refine (atMost_now hclock).andThen fun completedAt => atMost_transitionJob.andThen
      fun completed => ?_
    cases completed with
    | conflict value => exact Program.atMost_raise ..
    | updated value => exact Program.atMost_done ..

end Asking

/-- Whether the port is asked for the job. -/
def isPerform (jobId : String) (port : ExecutionPort) (request : Request) : Bool :=
  request == .perform jobId port

theorem isPerform_other {otherId : String} {port other : ExecutionPort} (h : other ≠ port) :
    isPerform jobId port (.perform otherId other) = false := by
  refine beq_eq_false_iff_ne.2 fun heq => h ?_
  cases heq
  rfl

/-- An execution asks each port once. -/
theorem atMost_runEffects (otherId : String) (port : ExecutionPort) :
    Program.AtMost (asks (isPerform otherId port)) 1
      (runEffects rounds jobId caller lastNowMs) := by
  have hother : ∀ {lastNowMs : Int} {other : ExecutionPort}, other ≠ port →
      Program.AtMost (asks (isPerform otherId port)) 0
        (runEffect rounds jobId caller lastNowMs other) := fun hne =>
    atMost_runEffect rfl rfl (atMost_ask (isPerform_other hne))
  have hself : ∀ {lastNowMs : Int}, Program.AtMost (asks (isPerform otherId port)) 1
      (runEffect rounds jobId caller lastNowMs port) :=
    atMost_runEffect rfl rfl (Program.atMost_one _)
  have hcomplete : ∀ {lastNowMs : Int} {artifactRef : String},
      Program.AtMost (asks (isPerform otherId port)) 0
        (complete rounds jobId caller lastNowMs artifactRef) := atMost_complete rfl rfl
  unfold runEffects
  cases port with
  | createProviderTask =>
    exact hself.before fun provider => (hother (by decide)).andThen fun paid =>
      (hother (by decide)).andThen fun artifact => hcomplete
  | performPaidCall =>
    exact (hother (by decide)).andThen fun provider => hself.before fun paid =>
      (hother (by decide)).andThen fun artifact => hcomplete
  | writeResultArtifact =>
    exact (hother (by decide)).andThen fun provider => (hother (by decide)).andThen fun paid =>
      hself.before fun artifact => hcomplete

/-- A call asks each port at most once. -/
theorem atMost_main (call : Call) (otherId : String) (port : ExecutionPort) :
    Program.AtMost (asks (isPerform otherId port)) 1 (main sha256 rounds call) := by
  cases call with
  | createIfAbsent input =>
    refine Program.AtMost.andThen (.check fun _ => (atMost_createIfAbsent rfl).andThen
      fun result => .check fun value => ?_) fun _ => Program.atMost_done ..
    cases result with
    | created record => exact Program.atMost_done ..
    | existing record =>
      refine .check fun _ => ?_
      split
      · exact Program.atMost_raise ..
      · exact Program.atMost_done ..
  | get jobId caller nowMs => exact atMost_getJob.andThen fun _ => Program.atMost_done ..
  | revokeSource jobId caller nowMs =>
    exact Program.AtMost.andThen (.check fun _ => .check fun _ => atMost_settle 16)
      fun _ => Program.atMost_done ..
  | execute input caller =>
    refine Program.AtMost.before ?_ fun _ => Program.atMost_done ..
    refine (atMost_assertDispatchActive rfl).andThen fun _ => (atMost_now rfl).andThen
      fun readAt => atMost_getJob.andThen fun current => ?_
    split
    · exact Program.atMost_done ..
    · exact Program.atMost_raise ..
    · exact Program.atMost_raise ..
    · exact Program.atMost_raise ..
    · exact (atMost_startRunning rfl).andThen fun _ => atMost_runEffects otherId port

end Bounds

/-! ## Runs -/

section Runs

variable {jobId : String}

/-- A port is asked by the call that has claimed its effect. -/
theorem creates_of_asked (h : Throughout Asks world.history) {answer : Except Fault String}
    (hmem : (i, .effect (.port (.perform jobId port)) answer) ∈ world.history) :
    Creates i (port.identity jobId).key world.history := by
  obtain ⟨_, _, heq⟩ := List.append_of_mem hmem
  rw [heq] at h ⊢
  exact h.entry.1.mono fun _ hentry => List.mem_append_right _ (List.mem_cons_of_mem _ hentry)

/-- What an entry is that asks a port. -/
theorem eq_of_performs {event : JobEvent} (h : performs jobId port (i, event) = true) :
    ∃ answer, event = .effect (.port (.perform jobId port)) answer := by
  cases event with
  | invoke call => cases h
  | response outcome => cases h
  | effect op answer =>
    cases op with
    | port request =>
      obtain rfl : request = .perform jobId port := eq_of_beq h
      exact ⟨answer, rfl⟩
    | _ => cases h

/-- In a run the claims and the answers agree. -/
theorem executesOnce (haccounted : (executor sha256 rounds).Accounted world)
    (hinv : Invariant world) (h : Throughout Asks world.history) (jobId : String) :
    ExecutesOnce jobId world where
  once := by
    intro port
    refine haccounted.countP_le_one (asks (isPerform jobId port)) ?_ ?_
    · intro i event hmem htest
      obtain ⟨answer, rfl⟩ := eq_of_performs htest
      exact ⟨_, answer, rfl, beq_self_eq_true _, fun call _ => atMost_main call jobId port⟩
    · intro i event j event' hmem htest hmem' htest'
      obtain ⟨answer, rfl⟩ := eq_of_performs htest
      obtain ⟨_, rfl⟩ := eq_of_performs htest'
      exact hinv.creators.unique (creates_of_asked h hmem) (creates_of_asked h hmem')
  ordered := by
    intro port earlier hbefore newer i answer older heq
    rw [heq] at h
    exact h.entry.2 earlier hbefore
  receipt := by
    intro port receipt other ⟨i, hmem⟩ ⟨j, hmem'⟩
    obtain rfl := hinv.creators.unique (creates_of_asked h hmem) (creates_of_asked h hmem')
    have hmain : ∀ call, (i, .invoke call) ∈ world.history →
        Program.AtMost (asks (isPerform jobId port)) 1 (main sha256 rounds call) :=
      fun call _ => atMost_main call jobId port
    cases haccounted.once hmain (beq_self_eq_true _) (beq_self_eq_true _) hmem hmem'
    rfl
  completed := by
    intro record job hget hvalue hstatus
    have hevidence := hinv.backed.stored _ record hget
    rw [hvalue] at hevidence
    exact hevidence jobId rfl hstatus
  returned := by
    intro i input caller artifactRef hjob hcall hreply
    obtain ⟨_, older, heq⟩ := List.append_of_mem hreply
    rw [heq] at h
    obtain ⟨_, _, hcall', hanswered⟩ := h.entry
    have hsub : older ⊆ world.history := by
      rw [heq]
      exact fun _ hentry => List.mem_append_right _ (List.mem_cons_of_mem _ hentry)
    cases haccounted.invoke_unique hcall (hsub hcall')
    rw [← hjob]
    exact hanswered.mono hsub

/-- In every run, each port is asked at most once for a job, in order, and the job is completed
with what the last of them has answered. -/
theorem executes_once (sha256 : Sha256 String) (rounds : Nat)
    (actions : List (Action Call (Oracle Answer))) (jobId : String) :
    ExecutesOnce jobId ((executor sha256 rounds).run initial actions).toWorld := by
  have hinitial : Ready (executor sha256 rounds) Guarantee Invariant initial :=
    ready_initial ⟨soleCreators_initial, backed_initial⟩
  have hready := hinitial.run (verified sha256 rounds) actions
  refine executesOnce ⟨_, hready.consistent, rfl⟩ hready.inv ?_ jobId
  exact hinitial.persists (verified sha256 rounds) actions (P := fun world =>
    Throughout Asks world.history) (fun _ _ _ _ _ _ hstep hG h => h.step hstep hG.2.2) trivial

end Runs

end Groundlane.DocumentJobs
