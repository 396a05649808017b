import Groundlane.Durable.Digest
import Groundlane.Durable.Effects
import Groundlane.Durable.Versions

/-!
# The effect journal is exclusive

Any number of claims, transitions and retries of one effect of `DurableEffectJournal`
(`journal`). The versions of the effect record follow each other one revision after the other,
each is replaced at most once, a succeeded effect is only retried when it is an unacknowledged
cancellation, and at most one call holds the effect (`journal_exclusive`), provided that a
transition which takes effect has read the version that it replaces. It does not always: a
transition checks the version that it has read and replaces the one that its caller names
(`succeeded_left`).
-/

namespace Groundlane.EffectJournal

open Fenced Interleaving Interleaving.System DurableEffectJournal

/-- The methods with their arguments, for one effect. -/
inductive Call where
  | claim (nowMs : Int)
  | transition (expectedRevision : Nat) (status : DurableEffectStatus) (nowMs : Int)
    (receipt : Option String)
  | retry (expectedRevision : Nat) (nowMs : Int)
deriving DecidableEq, Repr

/-- What the methods return. -/
inductive Reply where
  | claim (result : EffectClaimResult)
  | transition (effect : DurableEffect) (revision : Nat)
  | retry (result : EffectRetryResult)

/-- The journal asks nobody else. -/
abbrev Answer : Empty → Type := nofun

/-- A record store that holds nothing but effects. -/
instance : Journaled DurableEffect := ⟨id, some, fun _ => rfl⟩

instance : Stored DurableEffect := ⟨fun effect => effect.toJson.render⟩

/-- The program of each call. -/
def main (identity : EffectIdentity) : Call → Io Answer DurableEffect String Reply
  | .claim nowMs => (claim identity nowMs).bind fun result => pure (.claim result)
  | .transition expectedRevision status nowMs receipt =>
    (transition identity expectedRevision status nowMs receipt).bind fun result =>
      pure (.transition result.1 result.2)
  | .retry expectedRevision nowMs =>
    (retry identity expectedRevision nowMs).bind fun result => pure (.retry result)

/-- All calls of journals on one effect over one record store. -/
def journal (sha256 : Sha256 String) (identity : EffectIdentity) :
    System Call (Op DurableEffect String Empty) (Op.Res Answer) Fault Reply
      (Disk DurableEffect String) (Oracle Answer) :=
  system sha256 (main identity)

/-- A world of calls of the journal. -/
abbrev JournalWorld : Type := DiskWorld Answer Call DurableEffect String Reply

/-- An event of a call of the journal. -/
abbrev JournalEvent : Type := DiskEvent Answer Call DurableEffect String Reply

/-- Everything that happened, newest first. -/
abbrev JournalHistory : Type := List (Nat × JournalEvent)

/-! ## Exclusivity -/

/-- The version of the effect record that the event writes. -/
def written : JournalEvent → Option (Record String DurableEffect)
  | .effect (.createIfAbsent ..) (.created record) => some record
  | .effect (.compareAndSwap ..) (.updated record) => some record
  | _ => none

/-- The revision that the event replaces. -/
def replaced : JournalEvent → Option Nat
  | .effect (.compareAndSwap _ revision _ _ _) (.updated _) => some revision
  | _ => none

/-- All versions of the effect record, newest first. -/
def versions (history : JournalHistory) : List (Record String DurableEffect) :=
  history.filterMap fun entry => written entry.2

/-- Revisions are counted from 1 without a gap, and the last version is the one stored. -/
def Linear (identity : EffectIdentity) (world : JournalWorld) : Prop :=
  world.state.records.get identity.key = (versions world.history).head? ∧
    (versions world.history).reverse.map Record.revision =
      List.range' 1 (versions world.history).length

/-- A succeeded effect stays so, except that an unacknowledged cancellation may be retried. -/
def Terminal (identity : EffectIdentity) (history : JournalHistory) : Prop :=
  ∀ newer i event older previous next, history = newer ++ (i, event) :: older →
    (versions older).head? = some previous → written event = some next →
    previous.value.status = .succeeded → next.value.status = .succeeded ∨
      (∃ revision nowMs, (i, .invoke (.retry revision nowMs)) ∈ older) ∧
        identity.effectKind = .providerTaskCancel ∧
        previous.value.receipt = some "not-acknowledged"

/-- An effect that is claimed or in flight is not retried. -/
def RetriesEnded (history : JournalHistory) : Prop :=
  ∀ newer i event older previous next revision nowMs, history = newer ++ (i, event) :: older →
    (versions older).head? = some previous → written event = some next →
    (i, .invoke (.retry revision nowMs)) ∈ older →
    previous.value.status ≠ .claimed ∧ previous.value.status ≠ .inflight

/-- The version of the effect that a reply hands over to the caller. -/
def Reply.granted : Reply → Option (DurableEffect × Nat)
  | .claim (.claimed effect revision) => some (effect, revision)
  | .transition effect revision => some (effect, revision)
  | .retry (.claimed effect revision) => some (effect, revision)
  | _ => none

/-- Call `i` was handed the version of the effect that is stored, claimed or in flight. -/
def Holds (identity : EffectIdentity) (i : Nat) (world : JournalWorld) : Prop :=
  ∃ reply effect revision record, (i, .response (.ok reply)) ∈ world.history ∧
    reply.granted = some (effect, revision) ∧
    (effect.status = .claimed ∨ effect.status = .inflight) ∧
    world.state.records.get identity.key = some record ∧ record.revision = revision

/-- The journal is exclusive. -/
structure Exclusive (identity : EffectIdentity) (world : JournalWorld) : Prop where
  linear : Linear identity world
  authorized : (world.history.filterMap fun entry => replaced entry.2).Nodup
  terminal : Terminal identity world.history
  retries : RetriesEnded world.history
  holder : ∀ i j, Holds identity i world → Holds identity j world → i = j

/-- A swap that takes effect writes a succeeded effect, or the call has read the version that it
replaces. -/
def validated (i : Nat) (event : JournalEvent) (world : JournalWorld) : Bool :=
  match event with
  | .effect (.compareAndSwap _ revision effect _ _) (.updated _) =>
    effect.status == .succeeded || world.history.all fun
      | (j, .effect (.get _) (some record)) => j != i || record.revision == revision
      | _ => true
  | _ => true

/-! ## The guarantee -/

/-- `retry` may replace an effect in this state. -/
def Retryable (effect : DurableEffect) : Prop :=
  effect.status = .uncertain ∨
    effect.status = .succeeded ∧ effect.receipt = some "not-acknowledged"

/-- Why call `i` may write the effect over the revision when it has read `record`. -/
def Authorized (identity : EffectIdentity) (i revision : Nat)
    (record : Record String DurableEffect) (effect : DurableEffect) (history : JournalHistory) :
    Prop :=
  (∃ status nowMs receipt, (i, .invoke (.transition revision status nowMs receipt)) ∈ history ∧
    effect = moved record.value status nowMs receipt ∧
    ¬ (record.value.status = .succeeded ∧ status ≠ .succeeded)) ∨
  ∃ nowMs, (i, .invoke (.retry revision nowMs)) ∈ history ∧
    identity.effectKind = .providerTaskCancel ∧ record.revision = revision ∧
    Retryable record.value

/-- Call `i` has written the version with this revision. -/
def Wrote (i revision : Nat) (history : JournalHistory) : Prop :=
  ∃ event record, (i, event) ∈ history ∧ written event = some record ∧ record.revision = revision

/-- The circumstances of every event of call `i`. -/
def Guarantee (identity : EffectIdentity) (i : Nat) (event : JournalEvent) (world : JournalWorld) :
    Prop :=
  match event with
  | .invoke _ => True
  | .effect (.get key) _ => key = identity.key
  | .effect (.createIfAbsent key _ _ _) _ => key = identity.key
  | .effect (.compareAndSwap key revision effect _ _) _ => key = identity.key ∧
    ∃ record, (i, .effect (.get key) (some record)) ∈ world.history ∧
      Authorized identity i revision record effect world.history
  | .effect _ _ => False
  | .response (.ok reply) => ∀ effect revision, reply.granted = some (effect, revision) →
    Wrote i revision world.history
  | .response (.error _) => True

variable {effect : DurableEffect} {nowMs : Int} {record : Record String DurableEffect}
  {history later : JournalHistory} {α β : Type}

theorem Authorized.mono {identity : EffectIdentity} {i revision : Nat} (hsub : history ⊆ later)
    (h : Authorized identity i revision record effect history) :
    Authorized identity i revision record effect later := by
  rcases h with ⟨status, nowMs, receipt, hcall, hrest⟩ | ⟨nowMs, hcall, hrest⟩
  · exact .inl ⟨status, nowMs, receipt, hsub hcall, hrest⟩
  · exact .inr ⟨nowMs, hsub hcall, hrest⟩

theorem Wrote.mono {i revision : Nat} (hsub : history ⊆ later) (h : Wrote i revision history) :
    Wrote i revision later := by
  obtain ⟨event, record, hmem, hrest⟩ := h
  exact ⟨event, record, hsub hmem, hrest⟩

/-! ## Every call keeps the guarantee -/

section Verified

variable {sha256 : Sha256 String} {identity : EffectIdentity} {i : Nat} {world : JournalWorld}

/-- The program keeps the guarantee in call `i`, and `Q` holds of what it returns. -/
abbrev JournalSafe {α : Type} (sha256 : Sha256 String) (identity : EffectIdentity) (i : Nat)
    (Q : α → JournalWorld → Prop) (program : Io Answer DurableEffect String α)
    (world : JournalWorld) : Prop :=
  Safe (journal sha256 identity) (Guarantee identity) (Rely (journal sha256 identity)
    (Guarantee identity) i) i (Returning Q) program world

/-- The rule of sequence, at the types of the journal. -/
theorem JournalSafe.andThen {middle : α → JournalWorld → Prop} {Q : β → JournalWorld → Prop}
    {program : Io Answer DurableEffect String α} {rest : α → Io Answer DurableEffect String β}
    (h : JournalSafe sha256 identity i middle program world)
    (hrest : ∀ value now, Evolves (journal sha256 identity) (Guarantee identity) world now →
      middle value now → JournalSafe sha256 identity i Q (rest value) now) :
    JournalSafe sha256 identity i Q (program.bind rest) world :=
  Safe.andThen (fun _ _ h => h.evolves) h hrest

theorem get_safe (key : String) (hkey : key = identity.key) :
    JournalSafe sha256 identity i
      (fun answer now => (i, .effect (.get key) answer) ∈ now.history) (get key) world := by
  refine Safe.mono (fun _ now hpost answer hanswer => ?_) (Safe.get fun _ _ => hkey)
  obtain ⟨_, _, hstep, _⟩ := hpost answer hanswer
  exact hstep.mem_history.2 (.inl rfl)

/-- A swap by a call that may make it writes the next revision when it takes effect. -/
theorem swap_safe {revision : Nat}
    (hread : (i, .effect (.get identity.key) (some record)) ∈ world.history)
    (hauthorized : Authorized identity i revision record effect world.history) :
    JournalSafe sha256 identity i
      (fun answer now => ∀ stored, answer = .updated stored → Wrote i stored.revision now.history)
      (compareAndSwap identity.key revision effect nowMs none) world := by
  refine Safe.mono (fun _ now hpost answer hanswer => ?_)
    (Safe.compareAndSwap fun now _ hnow _ => ⟨rfl, record, hnow.evolves.suffix.subset hread,
      hauthorized.mono hnow.evolves.suffix.subset⟩)
  rintro stored rfl
  obtain ⟨_, _, hstep, _⟩ := hpost _ hanswer
  exact ⟨_, stored, hstep.mem_history.2 (.inl rfl), rfl, rfl⟩

theorem claim_keeps (nowMs : Int) :
    JournalSafe sha256 identity i
      (fun result now => ∀ effect revision, result = .claimed effect revision →
        Wrote i revision now.history) (claim identity nowMs) world := by
  refine Safe.mono (fun _ now hpost result hresult => ?_)
    (claim_safe (fun _ _ h => h.evolves) fun _ _ _ => rfl)
  rintro effect revision rfl
  obtain ⟨_, ⟨_, _, hstep, _⟩, hanswer⟩ := hpost _ hresult
  rcases hanswer with ⟨record, rfl, hclaimed⟩ | ⟨_, _, _, _, hexisting⟩
  · cases hclaimed
    exact ⟨_, record, hstep.mem_history.2 (.inl rfl), rfl, rfl⟩
  · cases hexisting

variable {expectedRevision : Nat}

theorem transition_keeps {status : DurableEffectStatus} {receipt : Option String}
    (hcall : (i, .invoke (.transition expectedRevision status nowMs receipt)) ∈ world.history) :
    JournalSafe sha256 identity i (fun result now => Wrote i result.2 now.history)
      (transition identity expectedRevision status nowMs receipt) world := by
  refine Safe.check fun key hkey => ?_
  obtain rfl := keyFor_ok hkey
  refine (get_safe identity.key rfl).andThen fun current now hnow hread => ?_
  cases current with
  | none => exact Safe.raise
  | some record =>
    refine Safe.check fun previous hprevious => ?_
    obtain rfl : record.value = previous := Except.ok.inj hprevious
    split
    · exact Safe.raise
    · rename_i hterminal
      refine (swap_safe hread (.inl ⟨status, nowMs, receipt, hnow.suffix.subset hcall, rfl,
        hterminal⟩)).andThen fun answer later _ hwrote => ?_
      cases answer with
      | updated stored => exact Safe.done (hwrote stored rfl)
      | conflict stored => exact Safe.raise
      | missing => exact Safe.raise

theorem retry_keeps (hcall : (i, .invoke (.retry expectedRevision nowMs)) ∈ world.history) :
    JournalSafe sha256 identity i
      (fun result now => ∀ effect revision, result = .claimed effect revision →
        Wrote i revision now.history) (retry identity expectedRevision nowMs) world := by
  unfold retry
  split
  · exact Safe.raise
  · rename_i hkind
    refine Safe.check fun key hkey => ?_
    obtain rfl := keyFor_ok hkey
    refine (get_safe identity.key rfl).andThen fun current now hnow hread => ?_
    cases current with
    | none => exact Safe.raise
    | some record =>
      refine Safe.check fun previous hprevious => ?_
      obtain rfl : record.value = previous := Except.ok.inj hprevious
      extract_lets retryable
      split
      · exact Safe.done nofun
      · rename_i hallowed
        rw [not_or, not_not, not_not] at hallowed
        refine (swap_safe hread (.inr ⟨nowMs, hnow.suffix.subset hcall, not_not.1 hkind,
          hallowed.1, hallowed.2⟩)).andThen fun answer later _ hwrote => ?_
        cases answer with
        | updated stored =>
          refine Safe.done fun effect revision heq => ?_
          cases heq
          exact hwrote stored rfl
        | missing => exact Safe.raise
        | conflict stored => exact Safe.check fun _ _ => Safe.done nofun

/-- Every call of the journal keeps the guarantee. -/
theorem verified (sha256 : Sha256 String) (identity : EffectIdentity) :
    Verified (journal sha256 identity) (Guarantee identity) fun _ => True where
  inv := fun _ _ _ _ _ _ _ => trivial
  invoke := fun _ _ _ _ => trivial
  main := by
    intro i call world _ hcalls _
    have hresponds : ∀ (reply : Reply) now, (∀ effect revision,
        reply.granted = some (effect, revision) → Wrote i revision now.history) →
        ∀ later, Rely (journal sha256 identity) (Guarantee identity) i now later →
          Guarantee identity i (.response (.ok reply)) later :=
      fun reply now hgranted later hlater effect revision heq =>
        (hgranted effect revision heq).mono hlater.evolves.suffix.subset
    refine Safe.responds (Q := fun reply now => ∀ effect revision,
      reply.granted = some (effect, revision) → Wrote i revision now.history) ?_ hresponds
      fun _ _ => trivial
    cases call with
    | claim nowMs =>
      refine (claim_keeps nowMs).andThen fun result now _ hwrote => Safe.done ?_
      intro effect revision heq
      cases result with
      | claimed effect' revision' =>
        cases heq
        exact hwrote _ _ rfl
      | existing effect' revision' => cases heq
    | transition expectedRevision status nowMs receipt =>
      refine (transition_keeps hcalls.1).andThen fun result now _ hwrote => Safe.done ?_
      intro effect revision heq
      cases heq
      exact hwrote
    | retry expectedRevision nowMs =>
      refine (retry_keeps hcalls.1).andThen fun result now _ hwrote => Safe.done ?_
      intro effect revision heq
      cases result with
      | claimed effect' revision' =>
        cases heq
        exact hwrote _ _ rfl
      | blocked effect' revision' => cases heq

end Verified

/-! ## Steps -/

section Step

variable {sha256 : Sha256 String} {identity : EffectIdentity} {i : Nat} {event : JournalEvent}
  {before after : JournalWorld}

/-- What a step does to the effect record: nothing, or it writes a version, either the first one
or one in place of the version it names. -/
theorem version_cases (hstep : (journal sha256 identity).Step i event before after)
    (hG : Guarantee identity i event before) :
    (written event = none ∧
        after.state.records.get identity.key = before.state.records.get identity.key) ∨
      ∃ next, written event = some next ∧
        after.state.records.get identity.key = some next ∧
        ((before.state.records.get identity.key = none ∧ next.revision = 1 ∧
            replaced event = none) ∨
          ∃ current effect nowMs expiresAt, event = .effect (.compareAndSwap identity.key
              current.revision effect nowMs expiresAt) (.updated next) ∧
            before.state.records.get identity.key = some current ∧
            next.revision = current.revision + 1 ∧ next.value = effect) := by
  cases event with
  | invoke call => exact .inl ⟨rfl, by rw [hstep.invoke_state]⟩
  | response outcome => exact .inl ⟨rfl, by rw [hstep.response_state]⟩
  | effect op answer =>
    cases op with
    | get key => exact .inl ⟨rfl, by rw [(Step.get_answer hstep).2]⟩
    | createIfAbsent key value nowMs expiresAt =>
      obtain rfl : key = identity.key := hG
      obtain ⟨hafter, hcases⟩ := Step.createIfAbsent_answer hstep
      rcases hcases with ⟨_, rfl, hget⟩ | ⟨rfl, hnone⟩
      · exact .inl ⟨rfl, by rw [hafter, hget]; rfl⟩
      · exact .inr ⟨_, rfl, hafter, .inl ⟨hnone, rfl, rfl⟩⟩
    | compareAndSwap key revision effect nowMs expiresAt =>
      obtain rfl : key = identity.key := hG.1
      rcases Step.compareAndSwap_answer hstep with
        ⟨rfl, hget⟩ | ⟨current, rfl, hget, -, hafter⟩ | ⟨current, rfl, hget, rfl, hafter⟩
      · refine .inl ⟨rfl, ?_⟩
        obtain ⟨_, hexec⟩ := hstep.exec_eq
        obtain ⟨hstate, -⟩ := Prod.mk.inj hexec
        rw [← hstate, hget]
        simp [Store.compareAndSwap, hget]
      · exact .inl ⟨rfl, by rw [hafter, hget]⟩
      · exact .inr ⟨_, rfl, hafter, .inr ⟨current, effect, nowMs, expiresAt, rfl, hget, rfl, rfl⟩⟩
    | _ => exact absurd hG id

theorem versions_cons (entry : Nat × JournalEvent) (history : JournalHistory) :
    versions (entry :: history) = (written entry.2).toList ++ versions history := by
  rw [versions, List.filterMap_cons]
  cases written entry.2 <;> rfl

/-- What holds throughout a run of validated swaps. -/
structure JournalInvariant (identity : EffectIdentity) (world : JournalWorld) : Prop where
  linear : Linear identity world
  read : ∀ i record, (i, .effect (.get identity.key) (some record)) ∈ world.history →
    record ∈ versions world.history
  authorized : world.history.filterMap (fun entry => replaced entry.2) =
    (versions world.history).tail.map Record.revision
  granted : ∀ i reply effect revision, (i, .response (.ok reply)) ∈ world.history →
    reply.granted = some (effect, revision) → Wrote i revision world.history
  terminal : Terminal identity world.history
  retries : RetriesEnded world.history

theorem Linear.nodup (h : Linear identity before) :
    ((versions before.history).map Record.revision).Nodup := by
  have hrange : ((versions before.history).reverse.map Record.revision).Nodup := by
    rw [h.2]
    exact List.nodup_range'
  rwa [List.map_reverse, List.nodup_reverse] at hrange

/-- The last version has as many predecessors as its revision says. -/
theorem Linear.length (h : Linear identity before) {current : Record String DurableEffect}
    (hget : before.state.records.get identity.key = some current) :
    current.revision = (versions before.history).length := by
  rw [h.1] at hget
  have hrange := h.2
  cases hversions : versions before.history with
  | nil => simp [hversions] at hget
  | cons newest older =>
    rw [hversions] at hget hrange
    obtain rfl := Option.some.inj hget
    rw [List.reverse_cons, List.map_append, List.length_cons, List.range'_concat] at hrange
    have hlast := (List.append_inj' hrange rfl).2
    simpa [Nat.add_comm] using hlast

theorem Linear.step (h : Linear identity before)
    (hstep : (journal sha256 identity).Step i event before after)
    (hG : Guarantee identity i event before) : Linear identity after := by
  rcases version_cases hstep hG with ⟨hnone, hsame⟩ | ⟨next, hnext, hafter, hcases⟩
  · rw [Linear, hstep.history, versions_cons, hnone, hsame]
    exact h
  · have hrevision : next.revision = (versions before.history).length + 1 := by
      rcases hcases with ⟨hnone, hfirst, -⟩ | ⟨_, _, _, _, -, hget, hrevision, -⟩
      · rw [h.1, List.head?_eq_none_iff] at hnone
        simp [hfirst, hnone]
      · rw [hrevision, h.length hget]
    rw [Linear, hstep.history, versions_cons, hnext, hafter]
    refine ⟨rfl, ?_⟩
    simp only [Option.toList_some, List.singleton_append, List.reverse_cons, List.map_append, h.2,
      List.map_cons, List.map_nil, hrevision, List.length_cons, List.range'_concat]
    simp [Nat.add_comm]

/-- The version that was replaced is the one that the call has read. -/
theorem JournalInvariant.replaced_read (h : JournalInvariant identity before)
    {current record : Record String DurableEffect}
    (hget : before.state.records.get identity.key = some current)
    (hread : (i, .effect (.get identity.key) (some record)) ∈ before.history)
    (hrevision : record.revision = current.revision) : record = current := by
  have hcurrent : current ∈ versions before.history := by
    rw [h.linear.1] at hget
    exact List.mem_of_mem_head? (Option.mem_def.2 hget)
  exact List.inj_on_of_nodup_map h.linear.nodup (h.read i record hread) hcurrent hrevision

/-- What a validated swap writes over the version that is stored. -/
theorem JournalInvariant.swap_cases (h : JournalInvariant identity before)
    {current next : Record String DurableEffect} {expiresAt : Option Int}
    (hget : before.state.records.get identity.key = some current)
    (hG : Guarantee identity i (.effect (.compareAndSwap identity.key current.revision effect nowMs
      expiresAt) (.updated next)) before)
    (hvalidated : validated i (.effect (.compareAndSwap identity.key current.revision effect nowMs
      expiresAt) (.updated next)) before = true) : ((∃ status time receipt,
        (i, .invoke (.transition current.revision status time receipt)) ∈ before.history) ∧
      (effect.status = .succeeded ∨ current.value.status ≠ .succeeded)) ∨
    (∃ time, (i, .invoke (.retry current.revision time)) ∈ before.history) ∧
      identity.effectKind = .providerTaskCancel ∧ Retryable current.value := by
  obtain ⟨-, record, hread, hauthorized⟩ := hG
  rcases hauthorized with ⟨status, time, receipt, hcall, rfl, hterminal⟩ |
    ⟨time, hcall, hkind, hrevision, hretryable⟩
  · refine .inl ⟨⟨status, time, receipt, hcall⟩, ?_⟩
    rw [validated, Bool.or_eq_true, beq_iff_eq, List.all_eq_true] at hvalidated
    rcases hvalidated with hsucceeded | hall
    · exact .inl hsucceeded
    · have hrevision : record.revision = current.revision := by
        simpa using hall _ hread
      obtain rfl := h.replaced_read hget hread hrevision
      by_cases hstatus : status = .succeeded
      · exact .inl hstatus
      · exact .inr fun hprevious => hterminal ⟨hprevious, hstatus⟩
  · obtain rfl := h.replaced_read hget hread hrevision
    exact .inr ⟨⟨time, hcall⟩, hkind, hretryable⟩

theorem journalInvariant_step (haccounted : (journal sha256 identity).Accounted after)
    (hstep : (journal sha256 identity).Step i event before after)
    (hG : Guarantee identity i event before) (hvalidated : validated i event before = true)
    (h : JournalInvariant identity before) : JournalInvariant identity after where
  linear := h.linear.step hstep hG
  read := by
    intro j record hread
    rw [hstep.history, versions_cons]
    refine List.mem_append_right _ ?_
    rcases hstep.mem_history.1 hread with heq | hread
    · obtain ⟨rfl, rfl⟩ := Prod.mk.inj heq
      have hget := (Step.get_answer hstep).1
      rw [h.linear.1] at hget
      exact List.mem_of_mem_head? (Option.mem_def.2 hget.symm)
    · exact h.read j record hread
  authorized := by
    rw [hstep.history, versions_cons, List.filterMap_cons]
    rcases version_cases hstep hG with ⟨hnone, -⟩ | ⟨next, hnext, -, hcases⟩
    · have hreplaced : replaced event = none := by
        unfold written at hnone
        unfold replaced
        split at hnone <;> simp_all
      simpa [hnone, hreplaced] using h.authorized
    · rcases hcases with ⟨hnone, -, hreplaced⟩ | ⟨current, _, _, _, rfl, hget, -, -⟩
      · rw [h.linear.1, List.head?_eq_none_iff] at hnone
        simpa [hnext, hreplaced, hnone] using h.authorized
      · rw [h.linear.1] at hget
        cases hversions : versions before.history with
        | nil => simp [hversions] at hget
        | cons newest older =>
          have hauthorized := h.authorized
          rw [hversions] at hget hauthorized
          obtain rfl := Option.some.inj hget
          simpa [replaced, hnext] using hauthorized
  granted := by
    intro j reply effect revision hreply hgranted
    rcases hstep.mem_history.1 hreply with heq | hreply
    · obtain ⟨rfl, rfl⟩ := Prod.mk.inj heq
      exact (hG effect revision hgranted).mono fun _ hentry => hstep.history_mono hentry
    · exact (h.granted j reply effect revision hreply hgranted).mono
        fun _ hentry => hstep.history_mono hentry
  terminal := by
    intro newer j other older previous next heq hprevious hnext hsucceeded
    rw [hstep.history] at heq
    cases newer with
    | nil =>
      obtain ⟨hentry, rfl⟩ := List.cons.inj heq
      obtain ⟨rfl, rfl⟩ := Prod.mk.inj hentry
      rcases version_cases hstep hG with ⟨hnone, -⟩ | ⟨stored, hstored, -, hcases⟩
      · simp [hnone] at hnext
      · obtain rfl : stored = next := Option.some.inj (hstored.symm.trans hnext)
        rw [← h.linear.1] at hprevious
        rcases hcases with ⟨hnone, -, -⟩ | ⟨current, effect, nowMs, expiresAt, rfl, hget, -, hvalue⟩
        · simp [hnone] at hprevious
        · obtain rfl := Option.some.inj (hget.symm.trans hprevious)
          rcases h.swap_cases hget hG hvalidated with ⟨-, hstatus | hne⟩ |
            ⟨⟨time, hcall⟩, hkind, hretryable⟩
          · exact .inl (hvalue ▸ hstatus)
          · exact absurd hsucceeded hne
          · rcases hretryable with huncertain | ⟨-, hreceipt⟩
            · simp [hsucceeded] at huncertain
            · exact .inr ⟨⟨_, time, hcall⟩, hkind, hreceipt⟩
    | cons newest newer =>
      exact h.terminal newer j other older previous next (List.cons.inj heq).2 hprevious hnext
        hsucceeded
  retries := by
    intro newer j other older previous next revision nowMs heq hprevious hnext hcall
    rw [hstep.history] at heq
    cases newer with
    | nil =>
      obtain ⟨hentry, rfl⟩ := List.cons.inj heq
      obtain ⟨rfl, rfl⟩ := Prod.mk.inj hentry
      rcases version_cases hstep hG with ⟨hnone, -⟩ | ⟨_, _, -, hcases⟩
      · simp [hnone] at hnext
      · rw [← h.linear.1] at hprevious
        rcases hcases with ⟨hnone, -, -⟩ | ⟨_, _, nowMs, _, rfl, hget, -, -⟩
        · simp [hnone] at hprevious
        · obtain rfl := Option.some.inj (hget.symm.trans hprevious)
          rcases h.swap_cases hget hG hvalidated with ⟨⟨_, _, _, htransition⟩, -⟩ |
            ⟨-, -, hretryable⟩
          · have := haccounted.invoke_unique (hstep.history_mono hcall)
              (hstep.history_mono htransition)
            cases this
          · rcases hretryable with huncertain | ⟨hsucceeded, -⟩
            · simp [huncertain]
            · simp [hsucceeded]
    | cons newest newer =>
      exact h.retries newer j other older previous next revision nowMs (List.cons.inj heq).2
        hprevious hnext hcall

end Step

/-! ## Runs -/

/-- No calls yet, and nothing stored. -/
def initial : Config Call (Op DurableEffect String Empty) (Op.Res Answer) Fault Reply
    (Disk DurableEffect String) :=
  Config.initial Disk.empty

/-- Two elements to which the same value belongs are the same when no value occurs twice. -/
theorem eq_of_nodup_filterMap {f : α → Option β} {list : List α} (h : (list.filterMap f).Nodup)
    {left right : α} {value : β} (hleft : left ∈ list) (hright : right ∈ list)
    (hfleft : f left = some value) (hfright : f right = some value) : left = right := by
  induction list with
  | nil => cases hleft
  | cons head tail ih =>
    have hmem : ∀ other ∈ tail, f other = some value → value ∈ tail.filterMap f :=
      fun other hother hf => List.mem_filterMap.2 ⟨other, hother, hf⟩
    rw [List.filterMap_cons] at h
    rcases List.mem_cons.1 hleft with rfl | hleftTail
    · rcases List.mem_cons.1 hright with rfl | hrightTail
      · rfl
      · rw [hfleft, List.nodup_cons] at h
        exact absurd (hmem _ hrightTail hfright) h.1
    · rcases List.mem_cons.1 hright with rfl | hrightTail
      · rw [hfright, List.nodup_cons] at h
        exact absurd (hmem _ hleftTail hfleft) h.1
      · refine ih ?_ hleftTail hrightTail
        cases hhead : f head with
        | none => simpa [hhead] using h
        | some other =>
          rw [hhead] at h
          exact (List.nodup_cons.1 h).2

/-- A version is written by one call. -/
theorem JournalInvariant.wrote_unique {identity : EffectIdentity} {world : JournalWorld}
    (h : JournalInvariant identity world) {i j revision : Nat}
    (hi : Wrote i revision world.history) (hj : Wrote j revision world.history) : i = j := by
  obtain ⟨event, _, hmem, hwritten, hrevision⟩ := hi
  obtain ⟨event', _, hmem', hwritten', hrevision'⟩ := hj
  have hnodup : (world.history.filterMap
      fun entry => (written entry.2).map Record.revision).Nodup := by
    have hmap := h.linear.nodup
    rwa [versions, List.map_filterMap] at hmap
  have hevent : (written event).map Record.revision = some revision := by
    simp [hwritten, hrevision]
  have hevent' : (written event').map Record.revision = some revision := by
    simp [hwritten', hrevision']
  exact (Prod.mk.inj (eq_of_nodup_filterMap hnodup hmem hmem' hevent hevent')).1

theorem JournalInvariant.exclusive {identity : EffectIdentity} {world : JournalWorld}
    (h : JournalInvariant identity world) : Exclusive identity world where
  linear := h.linear
  authorized := by
    rw [h.authorized, List.map_tail]
    exact h.linear.nodup.sublist (List.tail_sublist _)
  terminal := h.terminal
  retries := h.retries
  holder := by
    rintro i j ⟨reply, effect, revision, record, hreply, hgranted, -, hget, hrevision⟩
      ⟨reply', effect', revision', record', hreply', hgranted', -, hget', hrevision'⟩
    obtain rfl := Option.some.inj (hget.symm.trans hget')
    have hwrote := h.granted i reply effect revision hreply hgranted
    have hwrote' := h.granted j reply' effect' revision' hreply' hgranted'
    rw [← hrevision] at hwrote
    rw [← hrevision'] at hwrote'
    exact h.wrote_unique hwrote hwrote'

/-- In a run in which every transition that takes effect has read the version that it replaces,
the journal is exclusive. -/
theorem journal_exclusive (sha256 : Sha256 String) (identity : EffectIdentity)
    (actions : List (Action Call (Oracle Answer)))
    (hvalidated : (journal sha256 identity).Meets
      (fun i event world => validated i event world = true) initial actions) :
    Exclusive identity ((journal sha256 identity).run initial actions).toWorld := by
  have hready : Ready (journal sha256 identity) (Guarantee identity) (fun _ => True) initial :=
    ready_initial trivial
  refine (hready.preserves (verified sha256 identity) hvalidated
    (P := JournalInvariant identity) (fun _ _ _ _ _ haccounted hstep hG hmeets h =>
      journalInvariant_step haccounted hstep hG hmeets h) ?_).exclusive
  exact ⟨⟨rfl, rfl⟩, by simp [initial, Config.initial], rfl, by simp [initial, Config.initial],
    by simp [Terminal, initial, Config.initial], by simp [RetriesEnded, initial, Config.initial]⟩

/-! ## Samples -/

/-- No digests are needed. -/
def sampleSha256 : Sha256 String :=
  DigestTable.empty.sha256

def sampleIdentity : EffectIdentity := ⟨"j", .artifactWrite, "o"⟩

/-- Call `i` takes `count` steps. -/
def sampleSteps (i count : Nat) : List (Action Call (Oracle Answer)) :=
  .replicate count (.advance i { answer := nofun, order := true })

/-- An effect is claimed, in flight, and succeeds. -/
def sampleSucceeds : List (Action Call (Oracle Answer)) :=
  .invoke (.claim 1000) :: sampleSteps 0 2 ++
    .invoke (.transition 1 .inflight 1001 none) :: sampleSteps 1 3 ++
    .invoke (.transition 2 .succeeded 1002 none) :: sampleSteps 2 3

/-- A transition that names the next revision has read the claim when the effect succeeds. -/
def sampleLeft : List (Action Call (Oracle Answer)) :=
  .invoke (.claim 1000) :: sampleSteps 0 2 ++
    .invoke (.transition 2 .uncertain 1001 none) :: sampleSteps 1 1 ++
    .invoke (.transition 1 .succeeded 1002 none) :: sampleSteps 2 3 ++ sampleSteps 1 1

/-- Whether the last event writes an effect that has not succeeded over one that has. -/
def leavesSucceeded : JournalHistory → Bool
  | [] => false
  | (_, event) :: older => (written event).any (fun next => next.value.status != .succeeded) &&
    (versions older).head?.any fun previous => previous.value.status == .succeeded

example : leavesSucceeded [(0, .invoke (.claim 1000))] = false := by decide +kernel

theorem not_terminal {identity : EffectIdentity} {history : JournalHistory}
    (hkind : identity.effectKind ≠ .providerTaskCancel) (h : leavesSucceeded history = true) :
    ¬ Terminal identity history := by
  intro hterminal
  unfold leavesSucceeded at h
  split at h
  · cases h
  · rename_i i event older
    rw [Bool.and_eq_true, Option.any_eq_true, Option.any_eq_true] at h
    obtain ⟨⟨next, hnext, hleft⟩, previous, hprevious, hsucceeded⟩ := h
    rcases hterminal [] i event older previous next rfl hprevious hnext (eq_of_beq hsucceeded) with
      hstatus | ⟨-, hcancel, -⟩
    · simp [hstatus] at hleft
    · exact hkind hcancel

/-- Three versions follow each other. -/
theorem journal_exclusive_sample :
    Exclusive sampleIdentity
        ((journal sampleSha256 sampleIdentity).run initial sampleSucceeds).toWorld ∧
      (versions ((journal sampleSha256 sampleIdentity).run initial sampleSucceeds).history).length =
        3 := by
  have hrun : ((journal sampleSha256 sampleIdentity).checks validated initial sampleSucceeds &&
      decide ((versions ((journal sampleSha256 sampleIdentity).run initial
        sampleSucceeds).history).length = 3)) = true := by
    decide +kernel
  rw [Bool.and_eq_true, decide_eq_true_eq] at hrun
  exact ⟨journal_exclusive _ _ sampleSucceeds (meets_of_checks hrun.1), hrun.2⟩

/-- A succeeded effect becomes uncertain by a transition. -/
theorem succeeded_left : ¬ ∀ (sha256 : Sha256 String) (identity : EffectIdentity)
    (actions : List (Action Call (Oracle Answer))),
    Exclusive identity ((journal sha256 identity).run initial actions).toWorld := by
  intro h
  have hrun : leavesSucceeded
      ((journal sampleSha256 sampleIdentity).run initial sampleLeft).history = true := by
    decide +kernel
  exact not_terminal (by decide) hrun (h sampleSha256 sampleIdentity sampleLeft).terminal

end Groundlane.EffectJournal
