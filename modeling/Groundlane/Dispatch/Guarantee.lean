import Groundlane.Durable.Versions
import Groundlane.Dispatch.Dispatcher

/-!
# What every call of the dispatcher promises

Entries and the cursor are never deleted, so `dispatchCycle` is the whole life of a record.
`Guarantee` adds to it which calls may write an entry: an enqueue only one that is not leased; a
drain leases only what its scan has found, and gives back only what it has leased itself, as idle
only after an attempt under the lease.

`verified` shows that every call keeps the guarantee, whatever the other calls do meanwhile.
-/

namespace Groundlane.Dispatch

open Fenced Interleaving Interleaving.System

/-- A world of calls of the dispatcher. -/
abbrev DispatchWorld : Type := DiskWorld Answer Call DispatchValue String Reply

/-- An event of a call of the dispatcher. -/
abbrev DispatchEvent : Type := DiskEvent Answer Call DispatchValue String Reply

/-- Everything that happened, newest first. -/
abbrev DispatchHistory : Type := List (Nat × DispatchEvent)

/-! ## The life of a record -/

/-- What one writer makes of the version it read. -/
inductive DispatchTransition : DispatchValue → DispatchValue → Prop where
  | wake (entry : Entry) : entry.phase ≠ .leased →
    DispatchTransition (.entry entry) (.entry (scheduledEntry entry.jobId entry.caller))
  | lease (entry : Entry) (token) :
    DispatchTransition (.entry entry) (.entry { entry with phase := .leased, token := token })
  | giveBack (entry : Entry) (phase failures) : entry.phase = .leased → phase ≠ .leased →
    DispatchTransition (.entry entry)
      (.entry { entry with phase := phase, token := "", failures := failures })
  | moveOn (before after) : DispatchTransition (.cursor before) (.cursor after)

variable (dispatcher : DocumentAsyncDispatcher)

/-- The values that a record starts with. -/
def startsAs (key : String) : DispatchValue → Prop
  | .entry entry => key = entryKey dispatcher entry.jobId ∧
    entry = scheduledEntry entry.jobId entry.caller
  | .cursor _ => key = cursorKey

/-- The life of a record. -/
def dispatchCycle : Lifecycle DispatchValue := ⟨startsAs dispatcher, DispatchTransition⟩

/-! ## The guarantee -/

/-- Call `i` was given the time, or has read it from the clock. -/
def KnowsTime (i : Nat) (nowMs : Int) (history : DispatchHistory) : Prop :=
  (i, .effect (.port .clock) nowMs) ∈ history ∨
    ∃ options, (i, .invoke (.drain options)) ∈ history ∧ options.nowMs = some nowMs

/-- The scan of call `i` has found this version of the record under `key`. -/
def Scanned (i : Nat) (key : String) (revision : Nat) (history : DispatchHistory) : Prop :=
  ∃ nowMs cursor limit page record, (i, .effect (.scanExpired nowMs cursor limit) page) ∈ history ∧
    record ∈ page.1 ∧ record.key = key ∧ record.revision = revision

/-- Call `i` has written `lease`, the lease of an entry. -/
def Leased (i : Nat) (lease : Record String DispatchValue) (history : DispatchHistory) : Prop :=
  ∃ key revision entry nowMs expiresAt, (i, .effect (.compareAndSwap key revision (.entry entry)
    nowMs expiresAt) (.updated lease)) ∈ history ∧ entry.phase = .leased ∧ lease.key = key

/-- Call `i` has started an attempt on the job under the lease. -/
def Attempted (i : Nat) (lease : Record String DispatchValue) (history : DispatchHistory) : Prop :=
  ∃ newer answer older entry, history =
      newer ++ (i, .effect (.port (.advance entry.jobId entry.caller)) answer) :: older ∧
    lease.value = .entry entry ∧ Leased i lease older

/-- Call `i` was told that this version of the record under `key` is not leased. -/
def FoundFree (i : Nat) (key : String) (revision : Nat) (history : DispatchHistory) : Prop :=
  ∃ record entry, Reported i record history ∧ record.key = key ∧ record.revision = revision ∧
    record.value = .entry entry ∧ entry.phase ≠ .leased

/-- Call `i` was told of an entry of the job. -/
def FoundJob (i : Nat) (jobId : String) (history : DispatchHistory) : Prop :=
  ∃ record entry, Reported i record history ∧ record.key = entryKey dispatcher jobId ∧
    record.value = .entry entry ∧ entry.jobId = jobId

/-- Who may write an entry over the version with this revision. -/
def MayWrite (i : Nat) (key : String) (revision : Nat) (history : DispatchHistory) : Phase → Prop
  | .leased => Scanned i key revision history
  | .idle => ∃ lease, Attempted i lease history ∧ lease.key = key ∧ lease.revision = revision
  | .scheduled => FoundFree i key revision history ∨
    ∃ lease, Leased i lease history ∧ lease.key = key ∧ lease.revision = revision

/-- The circumstances of every event of call `i`. -/
def Guarantee (i : Nat) (event : DispatchEvent) (world : DispatchWorld) : Prop :=
  Revises (dispatchCycle dispatcher) i event world.history ∧
    match event with
    | .effect (.scanExpired nowMs _ _) _ => KnowsTime i nowMs world.history
    | .effect (.compareAndSwap key revision (.entry entry) _ _) _ =>
      MayWrite i key revision world.history entry.phase
    | .response (.ok .nothing) => ∀ jobId caller options,
      (i, .invoke (.enqueue jobId caller options)) ∈ world.history →
      FoundJob dispatcher i jobId world.history
    | _ => True

section Mono

variable {dispatcher} {i : Nat} {history later : DispatchHistory}

theorem KnowsTime.mono {nowMs : Int} (hsub : history ⊆ later) (h : KnowsTime i nowMs history) :
    KnowsTime i nowMs later := by
  rcases h with hmem | ⟨options, hmem, hnow⟩
  · exact .inl (hsub hmem)
  · exact .inr ⟨options, hsub hmem, hnow⟩

variable {lease : Record String DispatchValue}

theorem Leased.mono (hsub : history ⊆ later) (h : Leased i lease history) :
    Leased i lease later := by
  obtain ⟨key, revision, entry, nowMs, expiresAt, hmem, hrest⟩ := h
  exact ⟨key, revision, entry, nowMs, expiresAt, hsub hmem, hrest⟩

theorem Attempted.mono (hsuffix : history <:+ later) (h : Attempted i lease history) :
    Attempted i lease later := by
  obtain ⟨newer, answer, older, entry, rfl, hrest⟩ := h
  obtain ⟨newest, rfl⟩ := hsuffix
  exact ⟨newest ++ newer, answer, older, entry, by rw [List.append_assoc], hrest⟩

theorem FoundJob.mono {jobId : String} (hsub : history ⊆ later)
    (h : FoundJob dispatcher i jobId history) : FoundJob dispatcher i jobId later := by
  obtain ⟨record, entry, hreported, hrest⟩ := h
  exact ⟨record, entry, hreported.mono hsub, hrest⟩

end Mono

/-! ## What the checks establish -/

theorem parse_ok {entry parsed : Entry} (h : entry.parse = .ok parsed) : parsed = entry := by
  unfold Entry.parse at h
  split at h
  · exact (Except.ok.inj h).symm
  · cases h

variable {record : Record String DispatchValue} {entry : Entry}

theorem decode_ok (h : decode record = .ok entry) : record.value = .entry entry := by
  unfold decode at h
  split at h
  · rename_i stored hvalue
    rw [hvalue, parse_ok h]
  · cases h

theorem integer_ok {value min max result : Int} (h : integer value min max = .ok result) :
    result = value := by
  unfold integer at h
  split at h
  · cases h
  · exact (Except.ok.inj h).symm

variable {dispatcher} in
theorem pageEntry_ok (h : pageEntry dispatcher record = .ok entry) :
    record.value = .entry entry ∧ record.key = entryKey dispatcher entry.jobId ∧
      entry.phase ≠ .idle := by
  simp only [pageEntry, bind, Except.bind, pure, Except.pure] at h
  split at h
  · cases h
  · rename_i stored hdecode
    split at h
    · cases h
    · rename_i hcheck
      obtain rfl := Except.ok.inj h
      simp only [not_or, ne_eq, not_not] at hcheck
      exact ⟨decode_ok hdecode, hcheck.1, hcheck.2⟩

end Groundlane.Dispatch
