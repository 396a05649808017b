import Groundlane.Dispatch.Leases

/-!
# Wake-ups are not lost

After an enqueue of a job has returned, the entry becomes idle only when an attempt on the job
was started after the enqueue was called (`wakeups_kept`), provided that no drain makes an entry
idle under a lease that an enqueue has met after the attempt under it was started. An enqueue
that meets a lease returns at once and leaves no trace, so the drain does not know of it
(`wakeup_lost`).
-/

namespace Groundlane.Dispatch

open Fenced Interleaving Interleaving.System

/-- The event makes the entry under `key` idle. -/
def idles (key : String) : DispatchEvent → Bool
  | .effect (.compareAndSwap other _ (.entry entry) _ _) (.updated _) =>
    other == key && entry.phase == .idle
  | _ => false

/-- The event starts an attempt on the job. -/
def startsAttempt (jobId : String) : DispatchEvent → Bool
  | .effect (.port (.advance other _)) _ => other == jobId
  | _ => false

/-- Whether an event is that call `j` is made. -/
def makesCall (j : Nat) : Nat × DispatchEvent → Bool
  | (i, .invoke _) => i == j
  | _ => false

/-- Whether an attempt on the job was started since call `j` was made. -/
def attemptedSince (j : Nat) (jobId : String) (history : DispatchHistory) : Bool :=
  (history.takeWhile fun entry => !makesCall j entry).any fun entry => startsAttempt jobId entry.2

/-- An entry becomes idle only when an attempt was started since each enqueue of its job that
has returned was called. -/
def WakeupsKept (dispatcher : DocumentAsyncDispatcher) (history : DispatchHistory) : Prop :=
  ∀ newer i event older j jobId caller options, history = newer ++ (i, event) :: older →
    idles (entryKey dispatcher jobId) event = true →
    (j, .invoke (.enqueue jobId caller options)) ∈ older →
    (j, .response (.ok .nothing)) ∈ older → attemptedSince j jobId older = true

/-- Whether call `j` has returned from an enqueue. -/
def hasEnqueued (j : Nat) (history : DispatchHistory) : Bool :=
  history.any fun
    | (i, .response (.ok .nothing)) => i == j
    | _ => false

/-- Whether call `j` was told of this version of the record under `key`. -/
def hasMet (j : Nat) (key : String) (revision : Nat) (history : DispatchHistory) : Bool :=
  history.any fun
    | (i, .effect op answer) => i == j &&
      (reported op answer).any fun record => record.key == key && record.revision == revision
    | _ => false

/-- No drain makes an entry idle under a lease that an enqueue has met which was called after the
last attempt on the job was started. -/
def mindful (dispatcher : DocumentAsyncDispatcher) (_ : Nat) (event : DispatchEvent)
    (world : DispatchWorld) : Bool :=
  match event with
  | .effect (.compareAndSwap key revision (.entry entry) _ _) (.updated _) =>
    entry.phase != .idle || world.history.all fun
      | (j, .invoke (.enqueue jobId _ _)) =>
        entryKey dispatcher jobId != key || !hasEnqueued j world.history ||
          !hasMet j key revision world.history || attemptedSince j jobId world.history
      | _ => true
  | _ => true

variable {caller : DurableDocumentJobCaller} {jobId : String} {j : Nat}
  {newer older : DispatchHistory} {history : DispatchHistory} {options : EnqueueOptions}

theorem hasEnqueued_iff :
    hasEnqueued j history = true ↔ (j, .response (.ok .nothing)) ∈ history := by
  constructor
  · intro h
    obtain ⟨⟨i, _⟩, hmem, hentry⟩ := List.any_eq_true.1 h
    split at hentry
    · rename_i heq
      obtain ⟨rfl, rfl⟩ := Prod.mk.inj heq
      rwa [eq_of_beq hentry] at hmem
    · cases hentry
  · exact fun h => List.any_eq_true.2 ⟨_, h, by simp⟩

theorem attemptedSince_of_append {j k : Nat} {answer : Except Fault Unit}
    (h : ∀ call, (j, .invoke call) ∉ newer) : attemptedSince j jobId
      (newer ++ (k, .effect (.port (.advance jobId caller)) answer) :: older) = true := by
  have hnewer : ∀ entry ∈ newer, (!makesCall j entry) = true := by
    rintro ⟨i, event⟩ hentry
    cases event with
    | invoke call =>
      have hne : i ≠ j := by
        rintro rfl
        exact h call hentry
      simp [makesCall, hne]
    | effect op answer => rfl
    | response outcome => rfl
  rw [attemptedSince, List.takeWhile_append_of_pos hnewer, List.any_append, Bool.or_eq_true]
  exact .inr (by simp [makesCall, startsAttempt])

/-- The job of an entry stays the same. -/
theorem jobId_later {entry : Entry} {value : DispatchValue}
    (h : Relation.ReflTransGen DispatchTransition (.entry entry) value) :
    ∃ later, value = .entry later ∧ later.jobId = entry.jobId := by
  refine holds_later h (P := fun value => ∃ later, value = .entry later ∧
    later.jobId = entry.jobId) ?_ ⟨entry, rfl, rfl⟩
  rintro value next hnext ⟨later, rfl, hjob⟩
  cases hnext with
  | wake => exact ⟨_, rfl, hjob⟩
  | lease => exact ⟨_, rfl, hjob⟩
  | giveBack => exact ⟨_, rfl, hjob⟩

section Step

variable {dispatcher : DocumentAsyncDispatcher} {i : Nat} {event : DispatchEvent}
  {before after : DispatchWorld}

/-- What holds throughout a run of mindful drains. -/
structure WakeupInvariant (dispatcher : DocumentAsyncDispatcher) (world : DispatchWorld) : Prop where
  written : AllWritten world.history
  ordered : ToldInOrder world.history
  invoked : InvokedFirst world.history
  found : ∀ j jobId caller options, (j, .invoke (.enqueue jobId caller options)) ∈ world.history →
    (j, .response (.ok .nothing)) ∈ world.history → FoundJob dispatcher j jobId world.history
  kept : WakeupsKept dispatcher world.history

/-- What was told before a lease was taken belongs to a call that was made before. -/
theorem WakeupInvariant.made_before (h : WakeupInvariant dispatcher before) {j k : Nat}
    {lease record : Record String DispatchValue} {op : Op DispatchValue String Request}
    {answer : op.Res Answer} (heq : before.history = newer ++ (k, .effect op answer) :: older)
    (hlease : lease ∈ reported op answer) (honly : ∀ other ∈ reported op answer, other = lease)
    (hreported : Reported j record before.history) (hkey : record.key = lease.key)
    (hlt : record.revision < lease.revision) (call : Call) : (j, .invoke call) ∉ newer := by
  obtain ⟨op', answer', hmem, hrecord⟩ := hreported
  have hearlier : (j, .effect op' answer') ∈ older := by
    rw [heq] at hmem
    rcases List.mem_append.1 hmem with hmem | hmem
    · obtain ⟨first, second, rfl⟩ := List.append_of_mem hmem
      have hle := h.ordered first j op' answer' (second ++ (k, .effect op answer) :: older)
        (by rw [heq, List.append_assoc, List.cons_append]) record hrecord k lease
        ⟨op, answer, by simp, hlease⟩ hkey.symm
      omega
    · rcases List.mem_cons.1 hmem with hentry | hmem
      · cases hentry
        rw [honly record hrecord] at hlt
        exact absurd hlt (Nat.lt_irrefl _)
      · exact hmem
  intro hinvoke
  obtain ⟨first, second, rfl⟩ := List.append_of_mem hinvoke
  refine h.invoked first j call (second ++ (k, .effect op answer) :: older)
    (by rw [heq, List.append_assoc, List.cons_append]) (.effect op' answer') ?_
  simp [hearlier]

theorem WakeupInvariant.idle_step (h : WakeupInvariant dispatcher before)
    (hversions : Versions (dispatchCycle dispatcher) before)
    (hstep : (dispatch dispatcher).Step i event before after)
    (hG : Guarantee dispatcher i event before) (hmindful : mindful dispatcher i event before = true)
    (hidle : idles (entryKey dispatcher jobId) event = true)
    (hcall : (j, .invoke (.enqueue jobId caller options)) ∈ before.history)
    (hreturn : (j, .response (.ok .nothing)) ∈ before.history) :
    attemptedSince j jobId before.history = true := by
  unfold idles at hidle
  split at hidle
  swap
  · cases hidle
  rename_i other revision entry nowMs expiresAt written
  rw [Bool.and_eq_true, beq_iff_eq, beq_iff_eq] at hidle
  obtain ⟨rfl, hphase⟩ := hidle
  obtain ⟨record, found, hreported, hkey, hvalue, rfl⟩ := h.found j jobId caller options hcall hreturn
  have hwrite := hG.2
  simp only [hphase] at hwrite
  obtain ⟨lease, ⟨newer, answer, _, leased, heq, hleased, hown⟩, hleaseKey, hrevision⟩ := hwrite
  obtain ⟨key', revision', entry', nowMs', expiresAt', hmem, -, -⟩ := hown
  have hlease : Reported i lease before.history := by
    refine ⟨.compareAndSwap key' revision' (.entry entry') nowMs' expiresAt', .updated lease, ?_,
      by simp [reported]⟩
    rw [heq]
    exact List.mem_append_right _ (List.mem_cons_of_mem _ hmem)
  -- The record that is made idle is the lease.
  have hstored : before.state.records.get lease.key = some lease := by
    rcases Step.compareAndSwap_answer hstep with
      ⟨hanswer, -⟩ | ⟨_, hanswer, -⟩ | ⟨current, -, hcurrent, hsame, -⟩
    · cases hanswer
    · cases hanswer
    · rw [← hleaseKey] at hcurrent
      rwa [(hversions.told i lease hlease).2.of_swap hcurrent (hsame.trans hrevision.symm)]
        at hcurrent
  obtain ⟨-, _, hcurrent, hle, _, hpath⟩ := hversions.told j record hreported
  rw [hkey, ← hleaseKey, hstored] at hcurrent
  obtain rfl := Option.some.inj hcurrent
  rw [hvalue] at hpath
  obtain ⟨later, hlater, hjob⟩ := jobId_later hpath
  obtain rfl : leased = later := DispatchValue.entry.inj (hleased.symm.trans hlater)
  rcases Nat.lt_or_eq_of_le hle with hlt | hmet
  · obtain ⟨between, oldest, rfl⟩ := List.append_of_mem hmem
    have hhistory : before.history =
        (newer ++ (i, .effect (.port (.advance leased.jobId leased.caller)) answer) :: between) ++
          (i, .effect (.compareAndSwap key' revision' (.entry entry') nowMs' expiresAt')
            (.updated lease)) :: oldest := by
      rw [heq, List.append_assoc, List.cons_append]
    have hnone := h.made_before hhistory (by simp [reported]) (by simp [reported]) hreported
      (hkey.trans hleaseKey.symm) hlt
    rw [heq, ← hjob]
    exact attemptedSince_of_append fun call hinvoke => hnone call (List.mem_append_left _ hinvoke)
  · -- The enqueue has met the lease itself.
    have hhasMet : hasMet j (entryKey dispatcher found.jobId) revision before.history = true := by
      obtain ⟨_, _, hmem, hrecord⟩ := hreported
      refine List.any_eq_true.2 ⟨_, hmem, ?_⟩
      simp only [beq_self_eq_true, Bool.true_and, List.any_eq_true, Bool.and_eq_true, beq_iff_eq]
      exact ⟨record, hrecord, hkey, hmet.trans hrevision⟩
    have hhasEnqueued : hasEnqueued j before.history = true :=
      hasEnqueued_iff.2 hreturn
    simp only [mindful, hphase, bne_self_eq_false, Bool.false_or, List.all_eq_true] at hmindful
    simpa [hhasMet, hhasEnqueued] using hmindful _ hcall

theorem wakeupInvariant_step (hversions : Versions (dispatchCycle dispatcher) before)
    (hstep : (dispatch dispatcher).Step i event before after)
    (hG : Guarantee dispatcher i event before) (hmindful : mindful dispatcher i event before = true)
    (h : WakeupInvariant dispatcher before) : WakeupInvariant dispatcher after where
  written := allWritten_step hstep hversions h.written
  ordered := toldInOrder_step hstep hG.1 hversions h.ordered
  invoked := hstep.invokedFirst h.invoked
  found := by
    intro j jobId caller options hcall hreturn
    have hsub : before.history ⊆ after.history := fun _ hentry => hstep.history_mono hentry
    rcases hstep.mem_history.1 hreturn with heq | hreturn
    · obtain ⟨rfl, rfl⟩ := Prod.mk.inj heq
      rcases hstep.mem_history.1 hcall with heq | hcall
      · cases heq
      · exact (hG.2 jobId caller options hcall).mono hsub
    · exact (h.found j jobId caller options (hstep.mem_of_invoke hreturn hcall) hreturn).mono hsub
  kept := by
    intro newer k other older j jobId caller options heq hidle hcall hreturn
    rw [hstep.history] at heq
    cases newer with
    | nil =>
      obtain ⟨hentry, rfl⟩ := List.cons.inj heq
      obtain ⟨rfl, rfl⟩ := Prod.mk.inj hentry
      exact h.idle_step hversions hstep hG hmindful hidle hcall hreturn
    | cons newest newer =>
      exact h.kept newer k other older j jobId caller options (List.cons.inj heq).2 hidle hcall
        hreturn

end Step

/-! ## Runs -/

/-- In a run in which no drain makes an entry idle under a lease that an enqueue has met since
the attempt was started, an entry becomes idle only when an attempt was started since each
enqueue of its job that has returned was called. -/
theorem wakeups_kept (dispatcher : DocumentAsyncDispatcher)
    (actions : List (Action Call (Oracle Answer)))
    (hmindful : (dispatch dispatcher).Meets
      (fun i event world => mindful dispatcher i event world = true) initial actions) :
    WakeupsKept dispatcher ((dispatch dispatcher).run initial actions).history :=
  ((ready dispatcher).preserves (verified dispatcher) hmindful (P := WakeupInvariant dispatcher)
    (fun _ _ _ _ hversions _ hstep hG hmeets h =>
      wakeupInvariant_step hversions hstep hG hmeets h)
    ⟨by simp [AllWritten, initial, Config.initial], by simp [ToldInOrder, initial, Config.initial],
      by simp [InvokedFirst, initial, Config.initial], by simp [initial, Config.initial],
      by simp [WakeupsKept, initial, Config.initial]⟩).kept

/-! ## Samples -/

/-- A job is enqueued, and a drain has made an attempt on it that finds nothing left to do. -/
def sampleAttempted : List (Action Call (Oracle Answer)) :=
  sampleEnqueue "a" :: sampleSteps "cancelled" 0 3 1000 ++
    sampleDrain :: sampleSteps "cancelled" 1 7 1001

/-- The drain makes the entry idle. -/
def sampleIdle : List (Action Call (Oracle Answer)) :=
  sampleAttempted ++ sampleSteps "cancelled" 1 3 1002

/-- The job is enqueued again before the drain makes the entry idle. -/
def sampleForgotten : List (Action Call (Oracle Answer)) :=
  sampleAttempted ++ sampleEnqueue "a" :: sampleSteps "cancelled" 2 3 1002 ++
    sampleSteps "cancelled" 1 3 1003

/-- Whether the last event makes the entry of the job idle, though call `j` has returned from an
enqueue of it and no attempt was started since it was called. -/
def forgotten (dispatcher : DocumentAsyncDispatcher) (j : Nat) (jobId : String)
    (caller : DurableDocumentJobCaller) (options : EnqueueOptions) : DispatchHistory → Bool
  | [] => false
  | (_, event) :: older => idles (entryKey dispatcher jobId) event &&
    older.any (fun
      | (i, .invoke call) => i == j && call == .enqueue jobId caller options
      | _ => false) &&
    hasEnqueued j older && !attemptedSince j jobId older

theorem not_kept {dispatcher : DocumentAsyncDispatcher}
    (h : forgotten dispatcher j jobId caller options history = true) :
    ¬ WakeupsKept dispatcher history := by
  intro hkept
  unfold forgotten at h
  split at h
  · cases h
  · rename_i i event older
    simp only [Bool.and_eq_true] at h
    obtain ⟨⟨⟨hidle, hcalled⟩, hreturn⟩, hnone⟩ := h
    obtain ⟨⟨k, _⟩, hmem, hcall⟩ := List.any_eq_true.1 hcalled
    split at hcall
    · rename_i heq
      obtain ⟨rfl, rfl⟩ := Prod.mk.inj heq
      rw [Bool.and_eq_true, beq_iff_eq, beq_iff_eq] at hcall
      obtain ⟨rfl, rfl⟩ := hcall
      have hsince := hkept [] i event older k jobId caller options rfl hidle hmem
        (hasEnqueued_iff.1 hreturn)
      rw [hsince] at hnone
      cases hnone
    · cases hcall

/-- The entry becomes idle after an attempt. -/
theorem wakeups_kept_sample :
    WakeupsKept sampleDispatcher ((dispatch sampleDispatcher).run initial sampleIdle).history ∧
      ∃ entry ∈ ((dispatch sampleDispatcher).run initial sampleIdle).history,
        idles (entryKey sampleDispatcher "a") entry.2 = true := by
  have hrun : ((dispatch sampleDispatcher).checks (mindful sampleDispatcher) initial sampleIdle &&
      ((dispatch sampleDispatcher).run initial sampleIdle).history.any
        fun entry => idles (entryKey sampleDispatcher "a") entry.2) = true := by
    decide +kernel
  rw [Bool.and_eq_true, List.any_eq_true] at hrun
  obtain ⟨hchecks, hidle⟩ := hrun
  exact ⟨wakeups_kept sampleDispatcher sampleIdle (System.meets_of_checks hchecks), hidle⟩

/-- An enqueue that has returned leaves no trace: the entry becomes idle, and no attempt was
started since it was called. -/
theorem wakeup_lost : ¬ ∀ (dispatcher : DocumentAsyncDispatcher)
    (actions : List (Action Call (Oracle Answer))),
    WakeupsKept dispatcher ((dispatch dispatcher).run initial actions).history := by
  intro h
  have hrun : forgotten sampleDispatcher 2 "a" sampleCaller ⟨none, false⟩
      ((dispatch sampleDispatcher).run initial sampleForgotten).history = true := by
    decide +kernel
  exact not_kept hrun (h sampleDispatcher sampleForgotten)

end Groundlane.Dispatch
