import Groundlane.Dispatch.Verified
import Groundlane.Durable.Digest

/-!
# Leases are exclusive

While the attempt under a lease runs, no drain takes the entry (`leases_exclusive`), provided
that every lease is taken while it will last longer than the attempt may. It does not always: a
drain computes the expiry of all leases of its page from the time at which it has started, and
takes the later ones after the attempts under the earlier ones (`lease_overtaken`).

Time is what the clock has shown last.
-/

namespace Groundlane.Dispatch

open Fenced Interleaving Interleaving.System

/-! ## Time and leases in a history -/

/-- What the clock shows in the event. -/
def shown : DispatchEvent → Option Int
  | .effect (.port .clock) time => some time
  | _ => none

/-- What the clock has shown last. -/
def clockTime : DispatchHistory → Int
  | [] => 0
  | (_, event) :: older => (shown event).getD (clockTime older)

/-- The event takes a lease of the entry under `key`. -/
def leases (key : String) : DispatchEvent → Bool
  | .effect (.compareAndSwap other _ (.entry entry) _ _) (.updated _) =>
    other == key && entry.phase == .leased
  | _ => false

/-- The event gives a lease of the entry under `key` back. -/
def givesBack (key : String) : DispatchEvent → Bool
  | .effect (.compareAndSwap other _ (.entry entry) _ _) (.updated _) =>
    other == key && entry.phase != .leased
  | _ => false

/-- While a drain that has taken a lease has not given it back, and not more time has passed than
an attempt may take, nobody takes a lease of the entry. -/
def Exclusive (dispatcher : DocumentAsyncDispatcher) (history : DispatchHistory) : Prop :=
  ∀ newer older i key event, history = newer ++ (i, event) :: older → leases key event = true →
    (∀ mine, (i, mine) ∈ newer → givesBack key mine = false) →
    clockTime history ≤ clockTime older + dispatcher.attemptTimeoutMs →
    ∀ j other, (j, other) ∈ newer → leases key other = false

/-- The clock does not go back, and no drain is given a time that has not come yet. -/
def clockForward (_ : Nat) (event : DispatchEvent) (world : DispatchWorld) : Bool :=
  match event with
  | .effect (.port .clock) time => decide (clockTime world.history ≤ time)
  | .invoke (.drain options) =>
    options.nowMs.all fun nowMs => decide (nowMs ≤ clockTime world.history)
  | _ => true

/-- A lease is taken only while it will last longer than an attempt may take. -/
def punctual (dispatcher : DocumentAsyncDispatcher) (_ : Nat) (event : DispatchEvent)
    (world : DispatchWorld) : Bool :=
  match event with
  | .effect (.compareAndSwap _ _ (.entry entry) _ (some expiresAt)) (.updated _) =>
    entry.phase != .leased ||
      decide (clockTime world.history + dispatcher.attemptTimeoutMs < expiresAt)
  | _ => true

variable {key : String}

theorem leases_iff {event : DispatchEvent} :
    leases key event = true ↔ ∃ revision entry nowMs expiresAt lease, event =
      .effect (.compareAndSwap key revision (.entry entry) nowMs expiresAt) (.updated lease) ∧
        entry.phase = .leased := by
  constructor
  · intro h
    unfold leases at h
    split at h
    · rename_i other revision entry nowMs expiresAt lease
      rw [Bool.and_eq_true, beq_iff_eq, beq_iff_eq] at h
      obtain ⟨rfl, hphase⟩ := h
      exact ⟨revision, entry, nowMs, expiresAt, lease, rfl, hphase⟩
    · cases h
  · rintro ⟨_, _, _, _, _, rfl, hphase⟩
    simp [leases, hphase]

section Step

variable {dispatcher : DocumentAsyncDispatcher} {i : Nat} {event : DispatchEvent}
  {before after : DispatchWorld}

/-- Time does not go back. -/
theorem clockTime_step (hstep : (dispatch dispatcher).Step i event before after)
    (hclock : clockForward i event before = true) :
    clockTime before.history ≤ clockTime after.history := by
  rw [hstep.history]
  show clockTime before.history ≤ (shown event).getD (clockTime before.history)
  unfold shown
  split
  · exact of_decide_eq_true hclock
  · exact Int.le_refl _

/-- The lease that call `i` has taken with `newer` behind it is given back, has expired, or is
still in place. -/
def Held (i : Nat) (key : String) (lease : Record String DispatchValue) (newer : DispatchHistory)
    (world : DispatchWorld) : Prop :=
  (∃ mine, (i, mine) ∈ newer ∧ givesBack key mine = true) ∨
    (∃ expiresAt, lease.expiresAt = some expiresAt ∧ expiresAt ≤ clockTime world.history) ∨
    (world.state.records.get key = some lease ∧
      ∀ j other, (j, other) ∈ newer → leases key other = false)

/-- What holds throughout a run in which leases are taken in time. -/
structure LeaseInvariant (dispatcher : DocumentAsyncDispatcher) (world : DispatchWorld) : Prop where
  written : AllWritten world.history
  times : ∀ i nowMs, KnowsTime i nowMs world.history → nowMs ≤ clockTime world.history
  scanned : ∀ i nowMs cursor limit page,
    (i, .effect (.scanExpired nowMs cursor limit) page) ∈ world.history →
    ∀ record ∈ page.1, ∃ expiresAt, record.expiresAt = some expiresAt ∧
      expiresAt ≤ clockTime world.history
  taken : ∀ newer older i key revision entry nowMs expiresAt lease, world.history =
      newer ++ (i, .effect (.compareAndSwap key revision (.entry entry) nowMs expiresAt)
        (.updated lease)) :: older → entry.phase = .leased →
    (∀ time, expiresAt = some time →
      clockTime older + dispatcher.attemptTimeoutMs < time) ∧ Held i key lease newer world

variable {nowMs : Int} {j : Nat}

theorem LeaseInvariant.times_step (h : LeaseInvariant dispatcher before)
    (hstep : (dispatch dispatcher).Step i event before after)
    (hclock : clockForward i event before = true) (hknows : KnowsTime j nowMs after.history) :
    nowMs ≤ clockTime after.history := by
  have hle := clockTime_step hstep hclock
  rcases hknows with hmem | ⟨options, hmem, hnow⟩
  · rcases hstep.mem_history.1 hmem with heq | hmem
    · obtain ⟨rfl, rfl⟩ := Prod.mk.inj heq
      rw [hstep.history]
      exact Int.le_refl _
    · exact (h.times j nowMs (.inl hmem)).trans hle
  · rcases hstep.mem_history.1 hmem with heq | hmem
    · obtain ⟨rfl, rfl⟩ := Prod.mk.inj heq
      simp only [clockForward, hnow, Option.all_some, decide_eq_true_eq] at hclock
      exact hclock.trans hle
    · exact (h.times j nowMs (.inr ⟨options, hmem, hnow⟩)).trans hle

theorem LeaseInvariant.scanned_step (h : LeaseInvariant dispatcher before)
    (hstep : (dispatch dispatcher).Step i event before after)
    (hG : Guarantee dispatcher i event before) (hclock : clockForward i event before = true)
    {cursor : Option String} {limit : Nat}
    {page : List (Record String DispatchValue) × Option String}
    (hscan : (j, .effect (.scanExpired nowMs cursor limit) page) ∈ after.history)
    {record : Record String DispatchValue} (hrecord : record ∈ page.1) :
    ∃ expiresAt, record.expiresAt = some expiresAt ∧ expiresAt ≤ clockTime after.history := by
  have hle := clockTime_step hstep hclock
  rcases hstep.mem_history.1 hscan with heq | hscan
  · obtain ⟨rfl, rfl⟩ := Prod.mk.inj heq
    obtain ⟨_, hexec⟩ := hstep.exec_eq
    obtain ⟨-, rfl⟩ := Prod.mk.inj hexec
    obtain ⟨-, expiresAt, hexpiry, hdue⟩ := Store.mem_scanExpired hrecord
    exact ⟨expiresAt, hexpiry, (hdue.trans (h.times _ _ hG.2)).trans hle⟩
  · obtain ⟨expiresAt, hexpiry, hdue⟩ := h.scanned j nowMs cursor limit page hscan record hrecord
    exact ⟨expiresAt, hexpiry, hdue.trans hle⟩

variable {lease : Record String DispatchValue} {newer older : DispatchHistory}
  {expiresAt : Option Int} {revision : Nat} {entry : Entry}

/-- A lease that is in place is given back by its own drain, or taken over when it has expired,
or left in place. -/
theorem LeaseInvariant.in_place_step (h : LeaseInvariant dispatcher before)
    (hversions : Versions (dispatchCycle dispatcher) before)
    (hstep : (dispatch dispatcher).Step i event before after)
    (hG : Guarantee dispatcher i event before) (hclock : clockForward i event before = true)
    (heq : before.history = newer ++ (j, .effect (.compareAndSwap key revision (.entry entry) nowMs
      expiresAt) (.updated lease)) :: older) (hphase : entry.phase = .leased)
    (hget : before.state.records.get key = some lease)
    (hnone : ∀ k other, (k, other) ∈ newer → leases key other = false) :
    Held j key lease ((i, event) :: newer) after := by
  obtain ⟨⟨_, hvalue, -, -⟩, -⟩ := h.written _ _ _ _ _ _ _ _ _ heq
  have hown : ∀ other, Leased i other before.history → other.key = key →
      other.revision = lease.revision → i = j := by
    rintro other ⟨key', _, _, _, _, hmem, -, hkey'⟩ hother hrevision
    obtain rfl : key' = key := hkey'.symm.trans hother
    exact h.written.unique heq hmem hrevision
  rcases version_cases hstep hG.1 hversions key with
    hsame | ⟨_, _, _, -, -, hempty, -⟩ |
    ⟨current, value, _, expiry, hnext, -, rfl, hcurrent, hafter⟩
  · refine .inr (.inr ⟨hsame.trans hget, fun k other hother => ?_⟩)
    rcases List.mem_cons.1 hother with hentry | hother
    · obtain ⟨rfl, rfl⟩ := Prod.mk.inj hentry
      -- A lease would have changed the record.
      by_contra hleases
      rw [Bool.not_eq_false] at hleases
      obtain ⟨_, _, _, _, _, rfl, -⟩ := leases_iff.1 hleases
      rcases Step.compareAndSwap_answer hstep with
        ⟨hanswer, -⟩ | ⟨_, hanswer, -⟩ | ⟨_, -, hfound, -, hafter⟩
      · cases hanswer
      · cases hanswer
      · rw [hsame, hfound] at hafter
        have := congrArg Record.revision (Option.some.inj hafter)
        simp at this
    · exact hnone k other hother
  · simp [hempty] at hget
  · obtain rfl : current = lease := Option.some.inj (hcurrent.symm.trans hget)
    have hfresh : ∀ k record, Reported k record before.history → record.key = key →
        record.revision = current.revision → record = current := fun k record hreported hrecord hrevision =>
      ((hversions.told k record hreported).2.of_swap (hrecord ▸ hget) hrevision.symm).symm
    rw [hvalue] at hnext
    generalize hwritten : value = written at hnext hG
    cases hnext with
    | wake _ hfree => exact absurd hphase hfree
    | lease _ token =>
      subst hwritten
      obtain ⟨scan, cursor, limit, page, record, hscan, hrecord, hrecordKey, hrevision⟩ := hG.2
      obtain rfl := hfresh i record ⟨_, _, hscan, hrecord⟩ hrecordKey hrevision
      obtain ⟨expiry, hexpiry, hdue⟩ := h.scanned i scan cursor limit page hscan record hrecord
      exact .inr (.inl ⟨expiry, hexpiry, hdue.trans (clockTime_step hstep hclock)⟩)
    | giveBack _ phase failures _ hgiven =>
      subst hwritten
      have hmine : i = j := by
        cases phase with
        | leased => exact absurd rfl hgiven
        | idle =>
          obtain ⟨other, ⟨_, _, _, _, hhistory, -, hleased⟩, hother, hrevision⟩ := hG.2
          refine hown other (hleased.mono ?_) hother hrevision
          rw [hhistory]
          exact (List.suffix_append_of_suffix (List.suffix_cons _ _)).subset
        | scheduled =>
          rcases hG.2 with ⟨record, _, hreported, hrecord, hrevision, hvalue', hfree⟩ |
            ⟨other, hleased, hother, hrevision⟩
          · obtain rfl := hfresh i record hreported hrecord hrevision
            rw [hvalue] at hvalue'
            obtain rfl := DispatchValue.entry.inj hvalue'
            exact absurd hphase hfree
          · exact hown other hleased hother hrevision
      exact .inl ⟨_, List.mem_cons.2 (.inl (by rw [hmine])), by simp [givesBack, hgiven]⟩

theorem LeaseInvariant.taken_step (h : LeaseInvariant dispatcher before)
    (hversions : Versions (dispatchCycle dispatcher) before)
    (hstep : (dispatch dispatcher).Step i event before after)
    (hG : Guarantee dispatcher i event before) (hclock : clockForward i event before = true)
    (hpunctual : punctual dispatcher i event before = true)
    (heq : after.history = newer ++ (j, .effect (.compareAndSwap key revision (.entry entry) nowMs
      expiresAt) (.updated lease)) :: older) (hphase : entry.phase = .leased) :
    (∀ time, expiresAt = some time →
      clockTime older + dispatcher.attemptTimeoutMs < time) ∧ Held j key lease newer after := by
  rw [hstep.history] at heq
  cases newer with
  | nil =>
    obtain ⟨hentry, rfl⟩ := List.cons.inj heq
    obtain ⟨rfl, rfl⟩ := Prod.mk.inj hentry
    refine ⟨?_, .inr (.inr ⟨?_, by simp⟩)⟩
    · rintro time rfl
      simpa [punctual, hphase] using hpunctual
    · rcases Step.compareAndSwap_answer hstep with
        ⟨hanswer, -⟩ | ⟨_, hanswer, -⟩ | ⟨_, hanswer, -, -, hafter⟩
      · cases hanswer
      · cases hanswer
      · rw [hafter, CasResult.updated.inj hanswer]
  | cons newest newer =>
    obtain ⟨rfl, hbefore⟩ := List.cons.inj heq
    obtain ⟨htime, hheld⟩ := h.taken _ _ _ _ _ _ _ _ _ hbefore hphase
    refine ⟨htime, ?_⟩
    rcases hheld with ⟨mine, hmine, hgiven⟩ | ⟨time, hexpiry, hdue⟩ | ⟨hget, hnone⟩
    · exact .inl ⟨mine, List.mem_cons_of_mem _ hmine, hgiven⟩
    · exact .inr (.inl ⟨time, hexpiry, hdue.trans (clockTime_step hstep hclock)⟩)
    · exact h.in_place_step hversions hstep hG hclock hbefore hphase hget hnone

theorem leaseInvariant_step (hversions : Versions (dispatchCycle dispatcher) before)
    (hstep : (dispatch dispatcher).Step i event before after)
    (hG : Guarantee dispatcher i event before) (hclock : clockForward i event before = true)
    (hpunctual : punctual dispatcher i event before = true) (h : LeaseInvariant dispatcher before) :
    LeaseInvariant dispatcher after where
  written := allWritten_step hstep hversions h.written
  times _ _ hknows := h.times_step hstep hclock hknows
  scanned _ _ _ _ _ hscan _ hrecord := h.scanned_step hstep hG hclock hscan hrecord
  taken _ _ _ _ _ _ _ _ _ heq hphase :=
    h.taken_step hversions hstep hG hclock hpunctual heq hphase

end Step

/-! ## Runs -/

/-- No calls yet, and nothing stored. -/
def initial : Config Call (Op DispatchValue String Request) (Op.Res Answer) Fault Reply
    (Disk DispatchValue String) :=
  Config.initial Disk.empty

theorem ready (dispatcher : DocumentAsyncDispatcher) :
    Ready (dispatch dispatcher) (Guarantee dispatcher) (Versions (dispatchCycle dispatcher))
      initial :=
  ready_initial versions_initial

/-- In a run in which the clock does not go back and every lease is taken while it will last
longer than an attempt may take, leases are exclusive. -/
theorem leases_exclusive (dispatcher : DocumentAsyncDispatcher)
    (actions : List (Action Call (Oracle Answer)))
    (hclock : (dispatch dispatcher).Meets (fun i event world => clockForward i event world = true)
      initial actions)
    (hpunctual : (dispatch dispatcher).Meets
      (fun i event world => punctual dispatcher i event world = true) initial actions) :
    Exclusive dispatcher ((dispatch dispatcher).run initial actions).history := by
  have hinv := (ready dispatcher).preserves (verified dispatcher) (hclock.and hpunctual)
    (P := LeaseInvariant dispatcher)
    (fun _ _ _ _ hversions _ hstep hG hmeets h =>
      leaseInvariant_step hversions hstep hG hmeets.1 hmeets.2 h)
    ⟨by simp [AllWritten, initial, Config.initial], by simp [KnowsTime, initial, Config.initial],
      by simp [initial, Config.initial], by simp [initial, Config.initial]⟩
  intro newer older i key event heq hlease hkept htime
  obtain ⟨revision, entry, nowMs, expiresAt, lease, rfl, hphase⟩ := leases_iff.1 hlease
  obtain ⟨hlong, hheld⟩ := hinv.taken _ _ _ _ _ _ _ _ _ heq hphase
  obtain ⟨⟨-, -, -, hexpiry⟩, -⟩ := hinv.written _ _ _ _ _ _ _ _ _ heq
  rcases hheld with ⟨mine, hmine, hgiven⟩ | ⟨time, hlast, hdue⟩ | ⟨-, hnone⟩
  · rw [hkept mine hmine] at hgiven
    cases hgiven
  · have := hlong time (hexpiry.symm.trans hlast)
    omega
  · exact hnone

/-! ## Entries are kept -/

/-- Every entry of the one world is in the other, under the same key and for the same job and
caller. -/
def KeepsEntries (before after : DispatchWorld) : Prop :=
  ∀ key record entry, before.state.records.get key = some record → record.value = .entry entry →
    ∃ current later, after.state.records.get key = some current ∧
      record.revision ≤ current.revision ∧ current.value = .entry later ∧
      later.jobId = entry.jobId ∧ later.caller = entry.caller

/-- No call loses an entry, or gives it to another job or another caller. -/
theorem entries_permanent (dispatcher : DocumentAsyncDispatcher)
    (actions later : List (Action Call (Oracle Answer))) :
    KeepsEntries ((dispatch dispatcher).run initial actions).toWorld
      ((dispatch dispatcher).run initial (actions ++ later)).toWorld := by
  intro key record entry hget hvalue
  obtain rfl := Store.get_key hget
  rw [System.run_append]
  obtain ⟨current, hcurrent, hle, -, hpath⟩ :=
    ((ready dispatcher).run (verified dispatcher) actions).persists (verified dispatcher) later
      (P := fun world => Follows (dispatchCycle dispatcher) record world.state.records)
      (fun _ _ _ _ hinv _ hstep hG h => follows_step hstep hG.1 hinv h) (.of_get hget)
  obtain ⟨last, hlast, hsame⟩ := holds_later hpath
    (P := fun value => ∃ last, value = .entry last ∧ last.jobId = entry.jobId ∧
      last.caller = entry.caller) (fun value next hnext h => by
      obtain ⟨last, rfl, hsame⟩ := h
      cases hnext <;> exact ⟨_, rfl, hsame⟩) ⟨entry, hvalue, rfl, rfl⟩
  exact ⟨current, last, hcurrent, hle, hlast, hsame⟩

/-! ## Samples -/

/-- The digests that the samples need. -/
def sampleDigests : DigestTable where
  entries := [
    ("a", "ca978112ca1bbdcafac231b39a23dc4da786eff8147c4e72b9807785afee48bb"),
    ("b", "3e23e8160039594a33894f6564e1b1348bbd7a0088d42c4acb73eeaed59c009d")]
  hex := by decide +kernel
  nodup := by decide +kernel

/-- A dispatcher with the default options. -/
def sampleDispatcher : DocumentAsyncDispatcher where
  sha256 := sampleDigests.sha256
  attemptTimeoutMs := 120000
  leaseMs := 130000
  pollIntervalMs := 5000
  maxBackoffMs := 300000
  attemptTimeoutMs_bound := by decide
  leaseMs_bound := by decide
  pollIntervalMs_bound := by decide
  maxBackoffMs_bound := by decide

def sampleCaller : DurableDocumentJobCaller := ⟨"o", "c"⟩

def sampleEnqueue (jobId : String) : Action Call (Oracle Answer) :=
  .invoke (.enqueue jobId sampleCaller ⟨none, false⟩)

/-- A drain with one worker. -/
def sampleDrain : Action Call (Oracle Answer) := .invoke (.drain ⟨none, none, some 1, false⟩)

/-- Call `i` takes `count` steps at `nowMs`; jobs have this status. -/
def sampleSteps (status : String) (i count : Nat) (nowMs : Int) :
    List (Action Call (Oracle Answer)) :=
  .replicate count (.advance i
    { answer := fun
        | .clock => nowMs
        | .randomUUID => "t"
        | .aborted => none
        | .advance .. => .ok ()
        | .status .. => .ok ⟨status, 9000000, false, none, none⟩
      order := true })

/-- Two jobs are enqueued, and a drain takes the first one. -/
def sampleTaken : List (Action Call (Oracle Answer)) :=
  sampleEnqueue "a" :: sampleSteps "completed" 0 3 1000 ++
    sampleEnqueue "b" :: sampleSteps "completed" 1 3 1000 ++
    sampleDrain :: sampleSteps "completed" 2 5 1001

/-- The attempt on the first job takes as long as it may, and the drain takes the second one;
while it works on it, another drain takes it as well. -/
def sampleOvertaken : List (Action Call (Oracle Answer)) :=
  sampleTaken ++ sampleSteps "completed" 2 7 121001 ++
    sampleDrain :: sampleSteps "completed" 3 5 131001

/-- When the call has taken the lease of the entry that it has taken last. -/
def leasedAt (i : Nat) (key : String) : DispatchHistory → Option Int
  | [] => none
  | (j, event) :: older =>
    if j = i ∧ leases key event = true then some (clockTime older) else leasedAt i key older

/-- A lease is given back when an attempt may have taken at most as long as it has. -/
def prompt (dispatcher : DocumentAsyncDispatcher) (i : Nat) (event : DispatchEvent)
    (world : DispatchWorld) : Bool :=
  match event with
  | .effect (.compareAndSwap key _ (.entry entry) _ _) _ => entry.phase == .leased ||
    (leasedAt i key world.history).all fun time =>
      decide (clockTime world.history ≤ time + dispatcher.attemptTimeoutMs)
  | _ => true

/-- Whether behind the first `count` events of the history a lease was taken that is not given
back, and another one was taken in the time of an attempt. -/
def overtaken (dispatcher : DocumentAsyncDispatcher) (key : String) (count : Nat)
    (history : DispatchHistory) : Bool :=
  match history.drop count with
  | [] => false
  | (i, event) :: older => leases key event &&
    (history.take count).all (fun entry => entry.1 != i || !givesBack key entry.2) &&
    decide (clockTime history ≤ clockTime older + dispatcher.attemptTimeoutMs) &&
    (history.take count).any fun entry => leases key entry.2

theorem not_exclusive {dispatcher : DocumentAsyncDispatcher} {count : Nat}
    {history : DispatchHistory} (h : overtaken dispatcher key count history = true) :
    ¬ Exclusive dispatcher history := by
  intro hexclusive
  unfold overtaken at h
  split at h
  · cases h
  · rename_i i event older hdrop
    simp only [Bool.and_eq_true, List.all_eq_true, List.any_eq_true, decide_eq_true_eq] at h
    obtain ⟨⟨⟨hlease, hkept⟩, htime⟩, ⟨j, other⟩, hmem, hother⟩ := h
    have hhistory : history = history.take count ++ (i, event) :: older := by
      rw [← hdrop, List.take_append_drop]
    have hnone := hexclusive _ _ i key event hhistory hlease
      (fun mine hmine => by simpa using hkept _ hmine) htime j other hmem
    rw [hother] at hnone
    cases hnone

/-- The first lease of a drain is taken in time. -/
theorem leases_exclusive_sample :
    Exclusive sampleDispatcher ((dispatch sampleDispatcher).run initial sampleTaken).history ∧
      ∃ entry ∈ ((dispatch sampleDispatcher).run initial sampleTaken).history,
        leases (entryKey sampleDispatcher "b") entry.2 = true := by
  have hrun : ((dispatch sampleDispatcher).checks
        (fun i event world => clockForward i event world && punctual sampleDispatcher i event world)
        initial sampleTaken &&
      ((dispatch sampleDispatcher).run initial sampleTaken).history.any
        fun entry => leases (entryKey sampleDispatcher "b") entry.2) = true := by
    decide +kernel
  rw [Bool.and_eq_true, List.any_eq_true] at hrun
  obtain ⟨hchecks, hlease⟩ := hrun
  have hmeets := System.meets_of_checks hchecks
  exact ⟨leases_exclusive sampleDispatcher sampleTaken
    (hmeets.mono fun _ _ _ h => ((Bool.and_eq_true _ _).mp h).1)
    (hmeets.mono fun _ _ _ h => ((Bool.and_eq_true _ _).mp h).2), hlease⟩

/-- A drain takes an entry while another one works on it in the time that an attempt may take,
though the clock does not go back and all attempts keep to their time. -/
theorem lease_overtaken : ¬ ∀ (dispatcher : DocumentAsyncDispatcher)
    (actions : List (Action Call (Oracle Answer))),
    (dispatch dispatcher).Meets (fun i event world => clockForward i event world = true) initial
      actions →
    (dispatch dispatcher).Meets
      (fun i event world => prompt dispatcher i event world = true) initial actions →
    Exclusive dispatcher ((dispatch dispatcher).run initial actions).history := by
  intro h
  have hrun : ((dispatch sampleDispatcher).checks
        (fun i event world => clockForward i event world && prompt sampleDispatcher i event world)
        initial sampleOvertaken &&
      overtaken sampleDispatcher (entryKey sampleDispatcher "a") 6
        ((dispatch sampleDispatcher).run initial sampleOvertaken).history) = true := by
    decide +kernel
  rw [Bool.and_eq_true] at hrun
  obtain ⟨hchecks, hovertaken⟩ := hrun
  have hmeets := System.meets_of_checks hchecks
  exact not_exclusive hovertaken (h sampleDispatcher sampleOvertaken
    (hmeets.mono fun _ _ _ h => ((Bool.and_eq_true _ _).mp h).1)
    (hmeets.mono fun _ _ _ h => ((Bool.and_eq_true _ _).mp h).2))

end Groundlane.Dispatch
