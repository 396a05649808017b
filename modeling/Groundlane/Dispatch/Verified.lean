import Groundlane.Dispatch.Guarantee

/-!
# Every call of the dispatcher keeps the guarantee

One lemma for each function of the dispatcher, in the order in which they call each other; the
result is `verified`. The workers of a drain are parts of one call that run at the same time, so
every function is safe whatever all calls do, its own included.
-/

namespace Groundlane.Dispatch

open Fenced Interleaving Interleaving.System

variable {dispatcher : DocumentAsyncDispatcher} {i : Nat} {world : DispatchWorld}

/-- What all calls may do. -/
abbrev Grows (dispatcher : DocumentAsyncDispatcher) : DispatchWorld → DispatchWorld → Prop :=
  Evolves (dispatch dispatcher) (Guarantee dispatcher)

/-- The program keeps the guarantee as a part of call `i`, and `Q` holds of what it returns. -/
abbrev DispatchSafe {α : Type} (dispatcher : DocumentAsyncDispatcher) (i : Nat)
    (Q : α → DispatchWorld → Prop) (program : DispatchIo α) (world : DispatchWorld) : Prop :=
  Safe (dispatch dispatcher) (Guarantee dispatcher) (Grows dispatcher) i (Returning Q) program world

/-- The rule of sequence, at the types of the dispatcher. -/
theorem DispatchSafe.andThen {α β : Type} {middle : α → DispatchWorld → Prop}
    {Q : β → DispatchWorld → Prop} {program : DispatchIo α} {rest : α → DispatchIo β}
    (h : DispatchSafe dispatcher i middle program world)
    (hrest : ∀ value now, Grows dispatcher world now → middle value now →
      DispatchSafe dispatcher i Q (rest value) now) :
    DispatchSafe dispatcher i Q (program.bind rest) world :=
  Safe.andThen (fun _ _ h => h) h hrest

theorem DispatchSafe.weaken {α : Type} {Q Q' : α → DispatchWorld → Prop}
    {program : DispatchIo α} (h : DispatchSafe dispatcher i Q program world)
    (hQ : ∀ value now, Q value now → Q' value now) : DispatchSafe dispatcher i Q' program world :=
  h.mono fun _ now hpost value hvalue => hQ value now (hpost value hvalue)

theorem persistent_versions :
    Persistent (dispatch dispatcher) (Guarantee dispatcher) (Versions (dispatchCycle dispatcher)) :=
  fun _ _ _ _ hstep hG h => versions_step hstep hG.1 h

/-! ## The ports -/

theorem ask_safe (request : Request) :
    DispatchSafe dispatcher i (fun answer now => ∃ before, Grows dispatcher world before ∧
        now.history = (i, .effect (.port request) answer) :: before.history)
      (ask request) world := by
  refine Safe.mono (fun _ now hpost answer hanswer => ?_)
    (Safe.ask fun _ answer _ => ⟨trivial, trivial⟩)
  obtain ⟨before, hbefore, hstep, -⟩ := hpost answer hanswer
  exact ⟨before, hbefore, hstep.history⟩

theorem abortReason_safe (hasSignal : Bool) :
    DispatchSafe dispatcher i (fun _ _ => True) (abortReason hasSignal) world := by
  unfold abortReason
  split
  · exact (ask_safe Request.aborted).weaken fun _ _ _ => trivial
  · exact Safe.done trivial

theorem throwIfAborted_safe (hasSignal : Bool) :
    DispatchSafe dispatcher i (fun _ _ => True) (throwIfAborted hasSignal) world := by
  refine (abortReason_safe hasSignal).andThen fun reason now _ _ => ?_
  cases reason with
  | some reason => exact Safe.raise
  | none => exact Safe.done trivial

variable {record : Record String DispatchValue} {cursor : Option String} {value : DispatchValue}
  {scanned : Int} {key : String} {nowMs : Int} {limit : Nat}

/-- A creation tells of the record under its key, which has the value if it was created. -/
theorem create_safe {expiresAt : Option Int} (h : startsAs dispatcher key value) :
    DispatchSafe dispatcher i (fun answer now =>
        Reported i answer.record now.history ∧ answer.record.key = key ∧
          ∀ record, answer = .created record → record.value = value)
      (createIfAbsent key value nowMs expiresAt) world := by
  refine Safe.mono (fun _ now hpost answer hanswer => ?_)
    (Safe.createIfAbsent fun _ answer _ _ => ⟨h, trivial⟩)
  have hperformed := hpost answer hanswer
  have ⟨_, _, hstep, _⟩ := hperformed
  have hmem : answer.record ∈ @reported DispatchValue String Request Answer
      (.createIfAbsent key value nowMs expiresAt : Op DispatchValue String Request) answer := by
    simp [reported]
  refine ⟨Performed.reported hperformed hmem,
    reported_key hstep hmem (.inr (.inl ⟨value, nowMs, expiresAt, rfl⟩)), ?_⟩
  rintro record rfl
  rcases (Step.createIfAbsent_answer hstep).2 with ⟨_, hother, -⟩ | ⟨hcreated, -⟩
  · cases hother
  · rw [CreateResult.created.inj hcreated]

/-- A swap of a version that the call was told of. -/
theorem revises_told {value later : DispatchValue} {revision : Nat}
    (h : Told i key value revision world.history) (hnext : DispatchTransition value later)
    (nowMs : Int) (expiresAt : Option Int) (answer : CasResult String DispatchValue) :
    Revises (dispatchCycle dispatcher) i
      (.effect (.compareAndSwap key revision later nowMs expiresAt) answer) world.history :=
  h.revises hnext nowMs expiresAt answer

/-! ## `enqueue` -/

theorem reschedule_safe (jobId : String) (caller : DurableDocumentJobCaller) (hasSignal : Bool)
    (now nextAttemptAt : Int) (attempts : Nat) :
    ∀ (record : Record String DispatchValue) (world : DispatchWorld),
      Reported i record world.history → record.key = entryKey dispatcher jobId →
      DispatchSafe dispatcher i (fun _ now => FoundJob dispatcher i jobId now.history)
        (reschedule (scheduledEntry jobId caller) hasSignal now nextAttemptAt attempts record)
        world := by
  induction attempts with
  | zero => exact fun _ _ _ _ => Safe.raise
  | succ attempts ih =>
    intro record world hreported hkey
    refine (throwIfAborted_safe hasSignal).andThen fun _ first hfirst _ => ?_
    refine Safe.check fun existing hdecode => ?_
    have hvalue := decode_ok hdecode
    have hreported := hreported.mono hfirst.suffix.subset
    split
    · exact Safe.raise
    rename_i hsame
    simp only [scheduledEntry, ne_eq, not_or, not_not] at hsame
    obtain ⟨hjob, hcaller⟩ := hsame
    have hfound : FoundJob dispatcher i jobId first.history :=
      ⟨record, existing, hreported, hkey, hvalue, hjob⟩
    split
    · exact Safe.done hfound
    rename_i hfree
    have hphase : existing.phase ≠ .leased := by
      intro hleased
      simp [leavesAlone, hleased] at hfree
    have hwritten : scheduledEntry jobId caller =
        scheduledEntry existing.jobId existing.caller := by
      rw [hjob, hcaller]
    refine DispatchSafe.andThen (Safe.swap fun later answer hlater => ?_)
      fun changed second hsecond hchanged => ?_
    · have hsub := hlater.suffix.subset
      refine ⟨revises_told ⟨record, hreported.mono hsub, rfl, hvalue, rfl⟩ ?_ _ _ _,
        .inl ⟨record, existing, hreported.mono hsub, rfl, rfl, hvalue, hphase⟩⟩
      rw [hwritten]
      exact .wake existing hphase
    · cases changed with
      | updated written => exact Safe.done (hfound.mono hsecond.suffix.subset)
      | missing => exact Safe.raise
      | conflict other =>
        obtain ⟨hother, hotherKey⟩ := (hchanged other).2 rfl
        exact ih other second hother (hotherKey.trans hkey)

theorem enqueue_safe (jobId : String) (caller : DurableDocumentJobCaller)
    (options : EnqueueOptions) :
    DispatchSafe dispatcher i (fun _ now => FoundJob dispatcher i jobId now.history)
      (enqueue dispatcher jobId caller options) world := by
  refine (ask_safe Request.clock).andThen fun clock _ _ _ => ?_
  refine Safe.check fun now _ => Safe.check fun nextAttemptAt _ => Safe.check fun entry hentry => ?_
  obtain rfl := parse_ok hentry
  refine (throwIfAborted_safe options.hasSignal).andThen fun _ _ _ _ => ?_
  have hstart : startsAs dispatcher (entryKey dispatcher jobId)
      (.entry (scheduledEntry jobId caller)) := ⟨rfl, rfl⟩
  refine (create_safe hstart).andThen fun created later _ hcreated => ?_
  obtain ⟨hreported, hkey, hvalue⟩ := hcreated
  cases created with
  | created record => exact Safe.done ⟨record, _, hreported, hkey, hvalue record rfl, rfl⟩
  | existing record => exact reschedule_safe jobId caller _ _ _ 8 record later hreported hkey

/-! ## `drain` -/

section Leases

variable {entry : Entry} {token : String} {lease : Record String DispatchValue}

/-- The lease that call `i` has written over an entry. -/
structure OwnLease (i : Nat) (entry : Entry) (lease : Record String DispatchValue)
    (history : DispatchHistory) : Prop where
  leased : Leased i lease history
  told : Reported i lease history
  value : ∃ token, lease.value = .entry { entry with phase := .leased, token := token }

theorem OwnLease.mono {history later : DispatchHistory} (hsub : history ⊆ later)
    (h : OwnLease i entry lease history) : OwnLease i entry lease later :=
  ⟨h.leased.mono hsub, h.told.mono hsub, h.value⟩

theorem attempt_safe (hlease : OwnLease i entry lease world.history) (hasSignal : Bool) :
    DispatchSafe dispatcher i (fun _ now => Attempted i lease now.history)
      (attempt entry hasSignal) world := by
  refine (abortReason_safe hasSignal).andThen fun reason first hfirst _ => ?_
  split
  · exact Safe.raise
  refine (ask_safe (.advance entry.jobId entry.caller)).andThen
    fun advanced second _ hadvanced => ?_
  obtain ⟨before, hbefore, hhistory⟩ := hadvanced
  obtain ⟨token, hvalue⟩ := hlease.value
  have hattempted : Attempted i lease second.history :=
    ⟨[], advanced, before.history, { entry with phase := .leased, token := token }, hhistory, hvalue,
      hlease.leased.mono (hfirst.trans hbefore).suffix.subset⟩
  refine Safe.check fun _ _ => ?_
  refine (ask_safe (.status entry.jobId entry.caller)).andThen fun status third hthird _ => ?_
  exact Safe.ofExcept fun _ _ => hattempted.mono hthird.suffix

theorem attemptOutcome_safe (hlease : OwnLease i entry lease world.history) (hasSignal : Bool)
    (nowMs : Int) :
    DispatchSafe dispatcher i
      (fun outcome now => outcome.2.1 = none → Attempted i lease now.history)
      (attemptOutcome dispatcher entry hasSignal nowMs) world := by
  refine DispatchSafe.andThen (attempt_safe hlease hasSignal).caught
    fun disposition first _ hdisposition => ?_
  refine (ask_safe Request.clock).andThen fun clock second hsecond _ => ?_
  cases disposition with
  | ok disposition => exact Safe.done fun _ => (hdisposition disposition rfl).mono hsecond.suffix
  | error fault => exact Safe.done (by rintro ⟨⟩)

theorem workLeased_safe (hlease : OwnLease i entry lease world.history) (hasSignal : Bool)
    (nowMs : Int) :
    DispatchSafe dispatcher i (fun _ _ => True)
      (workLeased dispatcher lease.key lease.revision entry hasSignal nowMs) world := by
  refine (attemptOutcome_safe hlease hasSignal nowMs).andThen fun outcome first hfirst hidle => ?_
  refine (ask_safe Request.clock).andThen fun clock second hsecond _ => ?_
  have hsub := (hfirst.trans hsecond).suffix.subset
  obtain ⟨_, hvalue⟩ := hlease.value
  refine DispatchSafe.andThen (Safe.swap fun later answer hlater => ?_) fun changed _ _ _ => ?_
  · have hlease := hlease.mono (List.Subset.trans hsub hlater.suffix.subset)
    refine ⟨revises_told ⟨lease, hlease.told, rfl, hvalue, rfl⟩
      (.giveBack _ _ _ rfl (by split <;> simp)) _ _ _, ?_⟩
    show MayWrite i lease.key lease.revision later.history
      (if outcome.2.1.isNone then .idle else .scheduled)
    split
    · rename_i hnone
      exact ⟨lease, (hidle (Option.isNone_iff_eq_none.1 hnone)).mono
        (hsecond.trans hlater).suffix, rfl, rfl⟩
    · exact .inr ⟨lease, hlease.leased, rfl, rfl⟩
  · cases changed with
    | updated _ => dsimp only; split <;> exact Safe.done trivial
    | _ => exact Safe.done trivial

end Leases

variable {page : List (Record String DispatchValue) × Option String}

theorem consumeRecord_safe
    (hscan : (i, .effect (.scanExpired scanned cursor limit) page) ∈ world.history)
    (hrecord : record ∈ page.1) (hasSignal : Bool) (nowMs : Int) :
    DispatchSafe dispatcher i (fun _ _ => True) (consumeRecord dispatcher hasSignal nowMs record)
      world := by
  unfold consumeRecord
  split
  · exact Safe.done trivial
  rename_i entry hentry
  obtain ⟨hvalue, -, -⟩ := pageEntry_ok hentry
  have hreported : Reported i record world.history := ⟨_, _, hscan, hrecord⟩
  refine (ask_safe Request.randomUUID).andThen fun token first hfirst _ => ?_
  have hfirst := hfirst.suffix.subset
  refine DispatchSafe.andThen (Safe.compareAndSwap fun later answer hlater _ => ?_)
    fun leased now _ hperformed => ?_
  · have hsub := List.Subset.trans hfirst hlater.suffix.subset
    exact ⟨revises_told ⟨record, hreported.mono hsub, rfl, hvalue, rfl⟩ (.lease entry token) _ _ _,
      scanned, cursor, limit, page, record, hsub hscan, hrecord, rfl, rfl⟩
  · cases leased with
    | updated lease =>
      have ⟨_, _, hstep, _⟩ := hperformed
      have hmem : lease ∈ @reported DispatchValue String Request Answer (.compareAndSwap record.key record.revision
          (.entry { entry with phase := .leased, token := token }) nowMs
          (some (nowMs + dispatcher.leaseMs)) : Op DispatchValue String Request)
          (.updated lease) := by
        simp [reported]
      have hkey : lease.key = record.key :=
        reported_key hstep hmem (.inr (.inr ⟨_, _, _, _, rfl⟩))
      have hlease : OwnLease i entry lease now.history := by
        refine ⟨⟨_, _, _, _, _, hstep.mem_history.2 (.inl rfl), rfl, hkey⟩,
          Performed.reported hperformed hmem, token, ?_⟩
        rcases Step.compareAndSwap_answer hstep with ⟨heq, -⟩ | ⟨_, heq, -⟩ | ⟨_, heq, -⟩
        · cases heq
        · cases heq
        · rw [CasResult.updated.inj heq]
      rw [← hkey]
      exact workLeased_safe hlease hasSignal nowMs
    | _ => exact Safe.done trivial

theorem consume_safe (hscan : (i, .effect (.scanExpired scanned cursor limit) page) ∈ world.history)
    (hrecord : record ∈ page.1) (hasSignal : Bool) (nowMs : Int) :
    DispatchSafe dispatcher i (fun _ _ => True) (consume dispatcher hasSignal nowMs record) world :=
  (consumeRecord_safe hscan hrecord hasSignal nowMs).andThen fun _ _ _ _ =>
    (throwIfAborted_safe hasSignal).andThen fun _ _ _ _ => Safe.done trivial

/-- What is stored under the key of the cursor is a cursor. -/
theorem reached_cursor (h : (dispatchCycle dispatcher).Reached cursorKey value) :
    ∃ next, value = .cursor next := by
  have hkeys : ∀ entry, value = .entry entry → cursorKey = entryKey dispatcher entry.jobId := by
    refine h.holds (P := fun value => ∀ entry, value = .entry entry →
      cursorKey = entryKey dispatcher entry.jobId) ?_ ?_
    · rintro _ hfirst entry rfl
      exact hfirst.1
    · intro value later hnext hvalue entry heq
      cases hnext with
      | wake entry => cases heq; exact hvalue entry rfl
      | lease entry token => cases heq; exact hvalue entry rfl
      | giveBack entry phase failures => cases heq; exact hvalue entry rfl
      | moveOn before after => cases heq
  cases value with
  | cursor next => exact ⟨next, rfl⟩
  | entry entry =>
    have hne : "dispatch-cursor" ++ "" ≠ "dispatch:" ++ dispatcher.sha256.text entry.jobId :=
      append_ne_append (by decide) _ _
    rw [String.append_empty] at hne
    exact absurd (hkeys entry rfl) hne

theorem saveCursor_safe {cursorRecord : Option (Record String DispatchValue)}
    (hrecord : ∀ record, cursorRecord = some record → Reported i record world.history ∧
      ∃ next, record.value = .cursor next)
    (next : Option String) (nowMs : Int) :
    DispatchSafe dispatcher i (fun _ _ => True) (saveCursor cursorRecord next nowMs) world := by
  cases cursorRecord with
  | none =>
    have hstart : startsAs dispatcher cursorKey (.cursor next) := rfl
    exact (create_safe hstart).andThen fun _ _ _ _ => Safe.done trivial
  | some record =>
    obtain ⟨hreported, before, hvalue⟩ := hrecord record rfl
    refine DispatchSafe.andThen (Safe.swap fun later answer hlater => ?_)
      fun _ _ _ _ => Safe.done trivial
    exact ⟨revises_told ⟨record, hreported.mono hlater.suffix.subset, rfl, hvalue, rfl⟩
      (.moveOn before next) _ _ _, trivial⟩

theorem drainPage_safe (hversions : Versions (dispatchCycle dispatcher) world) (hasSignal : Bool)
    (hnow : KnowsTime i nowMs world.history) (limit concurrency : Nat) :
    DispatchSafe dispatcher i (fun _ _ => True)
      (drainPage dispatcher hasSignal nowMs limit concurrency) world := by
  refine (throwIfAborted_safe hasSignal).andThen fun _ first hfirst _ => ?_
  refine DispatchSafe.andThen (Safe.read fun _ _ _ => ⟨trivial, trivial⟩)
    fun cursorRecord second hsecond hcursor => ?_
  have hsecond := hfirst.trans hsecond
  refine DispatchSafe.andThen (Safe.scanExpired fun later answer hlater =>
    ⟨trivial, hnow.mono (hsecond.trans hlater).suffix.subset⟩) fun page third hthird hscan => ?_
  obtain ⟨_, -, hstep, -⟩ := hscan
  have hscan : (i, _) ∈ third.history := hstep.mem_history.2 (.inl rfl)
  refine (throwIfAborted_safe hasSignal).andThen fun _ fourth hfourth _ => ?_
  have hscan := hfourth.suffix.subset hscan
  refine DispatchSafe.andThen (Safe.serve (fun _ _ => ⟨trivial, trivial⟩)
    fun record hrecord now hnow => consume_safe (hnow.suffix.subset hscan) hrecord hasSignal nowMs)
    fun outcomes fifth hfifth _ => ?_
  refine Safe.check fun result _ => ?_
  refine (ask_safe Request.clock).andThen fun clock sixth hsixth _ => ?_
  have hsub := (((hthird.trans hfourth).trans hfifth).trans hsixth).suffix.subset
  refine (saveCursor_safe (fun record hrecord => ?_) page.2 _).andThen
    fun _ _ _ _ => Safe.done trivial
  obtain ⟨hreported, hkey⟩ := hcursor record hrecord
  have hreached := ((persistent_versions.evolves hsecond hversions).told i record hreported).1
  exact ⟨hreported.mono hsub, reached_cursor (hkey ▸ hreached)⟩

theorem startTime_safe (options : DrainOptions)
    (hcall : (i, .invoke (.drain options)) ∈ world.history) :
    DispatchSafe dispatcher i (fun nowMs now => KnowsTime i nowMs now.history) (startTime options)
      world := by
  unfold startTime
  split
  · rename_i nowMs hnow
    exact Safe.done (.inr ⟨options, hcall, hnow⟩)
  · refine (ask_safe Request.clock).weaken fun nowMs now hclock => .inl ?_
    obtain ⟨_, -, hhistory⟩ := hclock
    exact hhistory ▸ List.mem_cons_self

theorem drain_safe (hversions : Versions (dispatchCycle dispatcher) world) (options : DrainOptions)
    (hcall : (i, .invoke (.drain options)) ∈ world.history) :
    DispatchSafe dispatcher i (fun _ _ => True) (drain dispatcher options) world := by
  refine (startTime_safe options hcall).andThen fun nowMs first hfirst hnow => ?_
  refine Safe.check fun start hstart => Safe.check fun limit _ => Safe.check fun concurrency _ => ?_
  obtain rfl := integer_ok hstart
  exact drainPage_safe (persistent_versions.evolves hfirst hversions) options.hasSignal hnow _ _

/-! ## All calls -/

/-- Every call of the dispatcher keeps the guarantee. -/
theorem verified (dispatcher : DocumentAsyncDispatcher) :
    Verified (dispatch dispatcher) (Guarantee dispatcher)
      (Versions (dispatchCycle dispatcher)) where
  inv := persistent_versions
  invoke := fun _ _ _ _ => ⟨trivial, trivial⟩
  main := by
    intro i call world hversions hcalls _
    cases call with
    | enqueue jobId caller options =>
      have hreplies : DispatchSafe dispatcher i (fun reply now => ∀ later,
          Rely (dispatch dispatcher) (Guarantee dispatcher) i now later →
          Guarantee dispatcher i (.response (.ok reply)) later)
          (main dispatcher (.enqueue jobId caller options)) world := by
        refine (enqueue_safe jobId caller options).andThen fun _ now hnow hfound => Safe.done ?_
        refine fun later hlater => ⟨trivial, fun jobId' caller' options' hcall => ?_⟩
        have hcalls := (persistent_calls i _).evolves (hnow.trans hlater.evolves) hcalls
        cases hcalls.2 _ hcall
        exact hfound.mono hlater.evolves.suffix.subset
      exact Safe.anti (fun _ _ h => h.evolves) (hreplies.responds (fun _ _ h => h)
        fun _ _ => ⟨trivial, trivial⟩)
    | drain options =>
      have hreplies : DispatchSafe dispatcher i (fun reply now => ∀ later,
          Rely (dispatch dispatcher) (Guarantee dispatcher) i now later →
          Guarantee dispatcher i (.response (.ok reply)) later)
          (main dispatcher (.drain options)) world :=
        (drain_safe hversions options hcalls.1).andThen fun _ _ _ _ =>
          Safe.done fun _ _ => ⟨trivial, trivial⟩
      exact Safe.anti (fun _ _ h => h.evolves) (hreplies.responds (fun _ _ h => h)
        fun _ _ => ⟨trivial, trivial⟩)

end Groundlane.Dispatch
