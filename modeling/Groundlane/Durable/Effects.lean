import Groundlane.Durable.Rules

/-!
# The durable effect journal

`core/durable-effects.ts`: an effect record is claimed by creating it and then moved on by
revision-fenced updates. The journal is generic in the values of the record store, which hold
effect records among others (`Journaled`).

`claim_safe` and `transition_safe` say which two operations a claim and a transition consist of.
What makes them safe is left to the subsystem: a predicate `P` that the other calls preserve
stands for everything the caller knows about the store meanwhile.
-/

namespace Groundlane

open Fenced Interleaving

inductive DurableEffectKind where
  | providerTaskCreate
  | providerTaskUpdate
  | providerTaskCancel
  | paidUpstreamCall
  | artifactWrite
deriving DecidableEq, Repr

inductive DurableEffectStatus where
  | claimed
  | inflight
  | succeeded
  | uncertain
deriving DecidableEq, Repr

/-- What an effect is keyed by. -/
structure EffectIdentity where
  jobId : String
  effectKind : DurableEffectKind
  operationKey : String
deriving DecidableEq, Repr

structure DurableEffect extends EffectIdentity where
  status : DurableEffectStatus
  claimedAt : Int
  updatedAt : Int
  receipt : Option String
deriving DecidableEq, Repr

inductive EffectClaimResult where
  | claimed (effect : DurableEffect) (revision : Nat)
  | existing (effect : DurableEffect) (revision : Nat)

inductive EffectRetryResult where
  | claimed (effect : DurableEffect) (revision : Nat)
  | blocked (effect : DurableEffect) (revision : Nat)

def DurableEffectKind.text : DurableEffectKind → String
  | providerTaskCreate => "provider_task_create"
  | providerTaskUpdate => "provider_task_update"
  | providerTaskCancel => "provider_task_cancel"
  | paidUpstreamCall => "paid_upstream_call"
  | artifactWrite => "artifact_write"

def DurableEffectStatus.text : DurableEffectStatus → String
  | claimed => "claimed"
  | inflight => "inflight"
  | succeeded => "succeeded"
  | uncertain => "uncertain"

def DurableEffect.toJson (effect : DurableEffect) : Json :=
  .obj [("schemaVersion", .str "1"), ("jobId", .str effect.jobId),
    ("effectKind", .str effect.effectKind.text), ("operationKey", .str effect.operationKey),
    ("status", .str effect.status.text), ("claimedAt", Json.ofInt effect.claimedAt),
    ("updatedAt", Json.ofInt effect.updatedAt), ("receipt", Json.ofOption .str effect.receipt)]

/-- Record values among which effect records can be told apart. -/
class Journaled (V : Type) where
  ofEffect : DurableEffect → V
  toEffect? : V → Option DurableEffect
  toEffect?_ofEffect : ∀ effect, toEffect? (ofEffect effect) = some effect

/-- The part of an effect key behind its prefix. -/
def EffectIdentity.path (identity : EffectIdentity) : String :=
  identity.jobId ++ ":" ++ identity.effectKind.text ++ ":" ++ identity.operationKey

/-- The key of an effect record. -/
def EffectIdentity.key (identity : EffectIdentity) : String :=
  "effect:" ++ identity.path

def keyFor (identity : EffectIdentity) : Except Fault String :=
  if identity.path.toList.all isDurableKeyChar = false ∨ 220 < identity.path.toList.length then
    .error (.error "durable effect identity is invalid")
  else .ok identity.key

section Journal

variable {V B P : Type} {PR : P → Type} [Stored V] [Journaled V]

def decodeEffect (record : Record String V) : Except Fault DurableEffect :=
  match Journaled.toEffect? record.value with
  | some effect => .ok effect
  | none => .error (.error "durable effect record is malformed")

namespace DurableEffectJournal

def claim (identity : EffectIdentity) (nowMs : Int) : Io PR V B EffectClaimResult := do
  let key ← keyFor identity
  let effect : DurableEffect :=
    { identity with status := .claimed, claimedAt := nowMs, updatedAt := nowMs, receipt := none }
  let result ← createIfAbsent key (Journaled.ofEffect effect) nowMs none
  match result with
  | .created record => pure (.claimed effect record.revision)
  | .existing record => do
    let existing ← decodeEffect record
    pure (.existing existing record.revision)

/-- The effect after a transition. -/
def moved (previous : DurableEffect) (status : DurableEffectStatus) (nowMs : Int)
    (receipt : Option String) : DurableEffect :=
  { previous with status, updatedAt := nowMs, receipt }

def transition (identity : EffectIdentity) (expectedRevision : Nat)
    (status : DurableEffectStatus) (nowMs : Int) (receipt : Option String) :
    Io PR V B (DurableEffect × Nat) := do
  let key ← keyFor identity
  let current ← get key
  match current with
  | none => Program.raise (.error "durable effect claim is missing")
  | some current => do
    let previous ← decodeEffect current
    if previous.status = .succeeded ∧ status ≠ .succeeded then
      Program.raise (.error "a succeeded durable effect is terminal")
    else do
      let next := moved previous status nowMs receipt
      let result ← compareAndSwap key expectedRevision (Journaled.ofEffect next) nowMs none
      match result with
      | .updated record => pure (next, record.revision)
      | _ => Program.raise (.error "durable effect revision conflict")

def retry (identity : EffectIdentity) (expectedRevision : Nat) (nowMs : Int) :
    Io PR V B EffectRetryResult := do
  if identity.effectKind ≠ .providerTaskCancel then
    Program.raise (.error "only provider cancellation effects may be retried")
  else do
    let key ← keyFor identity
    let current ← get key
    match current with
    | none => Program.raise (.error "durable effect claim is missing")
    | some current => do
      let previous ← decodeEffect current
      -- Older document runtimes recorded an unacknowledged cancel as succeeded.
      let retryable := previous.status = .uncertain ∨
        previous.status = .succeeded ∧ previous.receipt = some "not-acknowledged"
      if current.revision ≠ expectedRevision ∨ ¬ retryable then
        pure (.blocked previous current.revision)
      else do
        let next := moved previous .claimed nowMs none
        let result ← compareAndSwap key expectedRevision (Journaled.ofEffect next) nowMs none
        match result with
        | .updated record => pure (.claimed next record.revision)
        | .missing => Program.raise (.error "durable effect claim is missing")
        | .conflict record => do
          let existing ← decodeEffect record
          pure (.blocked existing record.revision)

end DurableEffectJournal

end Journal

/-! ## What a claim and a transition do -/

section Rules

open DurableEffectJournal

variable {Call V B P α : Type} {PR : P → Type} [ByteString B] [Stored V] [Journaled V]
  {sha256 : Sha256 B} {main : Call → Io PR V B α}
  {G : Guarantee Call (Op V B P) (Op.Res PR) Fault α (Disk V B)}
  {R : DiskWorld PR Call V B α → DiskWorld PR Call V B α → Prop} {i : Nat}
  {world : DiskWorld PR Call V B α} {identity : EffectIdentity} {nowMs : Int}

theorem keyFor_ok {key : String} (h : keyFor identity = .ok key) : key = identity.key := by
  unfold keyFor at h
  split at h
  · cases h
  · exact (Except.ok.inj h).symm

/-- The effect record that a claim creates. -/
def claimedEffect (identity : EffectIdentity) (nowMs : Int) : DurableEffect :=
  { identity with status := .claimed, claimedAt := nowMs, updatedAt := nowMs, receipt := none }

/-- A claim is one creation; its result tells who owns the effect record. -/
theorem claim_safe (hR : ∀ world now, R world now → Evolves (system sha256 main) G world now)
    (h : ∀ now answer, R world now →
      G i (.effect (.createIfAbsent identity.key
        (Journaled.ofEffect (claimedEffect identity nowMs)) nowMs none) answer) now) :
    Safe (system sha256 main) G R i
      (Returning fun result now => ∃ answer,
        Performed (system sha256 main) G R i world (.createIfAbsent identity.key
          (Journaled.ofEffect (claimedEffect identity nowMs)) nowMs none) answer now ∧
        ((∃ record, answer = .created record ∧
            result = .claimed (claimedEffect identity nowMs) record.revision) ∨
          ∃ record effect, answer = .existing record ∧
            Journaled.toEffect? record.value = some effect ∧
            result = .existing effect record.revision))
      (claim identity nowMs) world := by
  refine Safe.check fun key hkey => ?_
  obtain rfl := keyFor_ok hkey
  refine Safe.andThen hR (Safe.createIfAbsent fun now answer hnow _ => h now answer hnow) ?_
  intro answer now _ hperformed
  cases answer with
  | created record => exact Safe.done ⟨_, hperformed, .inl ⟨record, rfl, rfl⟩⟩
  | existing record =>
    refine Safe.check fun effect heffect => Safe.done ⟨_, hperformed, .inr ⟨record, effect, rfl,
      ?_, rfl⟩⟩
    unfold decodeEffect at heffect
    split at heffect
    · rename_i found hfound
      obtain rfl := Except.ok.inj heffect
      exact hfound
    · cases heffect

/-- A transition reads the effect record and swaps it at the revision the caller names. -/
theorem transition_safe {expectedRevision : Nat} {status : DurableEffectStatus}
    {receipt : Option String} (P : DiskWorld PR Call V B α → Prop)
    (hR : ∀ world now, R world now → Evolves (system sha256 main) G world now)
    (hstable : ∀ world now, R world now → P world → P now)
    (hread : ∀ now later answer, P now →
      (system sha256 main).Step i (.effect (.get identity.key) answer) now later → P later)
    (hget : ∀ now, P now →
      G i (.effect (.get identity.key) (now.state.records.get identity.key)) now)
    (hcas : ∀ before record previous now answer, P before →
      before.state.records.get identity.key = some record →
      Journaled.toEffect? record.value = some previous →
      ¬ (previous.status = .succeeded ∧ status ≠ .succeeded) → P now →
      G i (.effect (.compareAndSwap identity.key expectedRevision
        (Journaled.ofEffect (moved previous status nowMs receipt)) nowMs none) answer) now)
    (hworld : P world) :
    Safe (system sha256 main) G R i
      (Returning fun result now => ∃ before stored,
        P before ∧ (system sha256 main).Step i (.effect (.compareAndSwap identity.key
          expectedRevision (Journaled.ofEffect result.1) nowMs none) (.updated stored)) before now ∧
        result.2 = stored.revision ∧ result.1.status = status ∧ result.1.receipt = receipt)
      (transition identity expectedRevision status nowMs receipt) world := by
  refine Safe.check fun key hkey => ?_
  obtain rfl := keyFor_ok hkey
  refine Safe.andThen hR (Safe.get fun now hnow => hget now (hstable _ _ hnow hworld)) ?_
  rintro current read - ⟨before, hbefore, hstep, -⟩
  obtain ⟨rfl, -⟩ := Step.get_answer hstep
  have hPbefore := hstable _ _ hbefore hworld
  have hPread := hread _ _ _ hPbefore hstep
  cases hcurrent : before.state.records.get identity.key with
  | none => exact Safe.raise
  | some current =>
    refine Safe.check fun previous hprevious => ?_
    have heffect : Journaled.toEffect? current.value = some previous := by
      unfold decodeEffect at hprevious
      split at hprevious
      · rename_i found hfound
        obtain rfl := Except.ok.inj hprevious
        exact hfound
      · cases hprevious
    split
    · exact Safe.raise
    · rename_i hterminal
      refine Safe.andThen hR (Safe.compareAndSwap fun now answer hnow _ =>
        hcas before current previous now answer hPbefore hcurrent heffect hterminal
          (hstable _ _ hnow hPread)) ?_
      rintro answer now - ⟨swapping, hswapping, hswap, -⟩
      cases answer with
      | updated stored =>
        exact Safe.done ⟨swapping, stored, hstable _ _ hswapping hPread, hswap, rfl, rfl, rfl⟩
      | conflict _ => exact Safe.raise
      | missing => exact Safe.raise

/-- A retry reads the effect record and swaps in a fresh claim at the revision the caller names. -/
theorem retry_safe {expectedRevision : Nat}
    (hR : ∀ world now, R world now → Evolves (system sha256 main) G world now)
    (hget : ∀ now, Evolves (system sha256 main) G world now →
      G i (.effect (.get identity.key) (now.state.records.get identity.key)) now)
    (hcas : ∀ now effect answer, Evolves (system sha256 main) G world now →
      G i (.effect (.compareAndSwap identity.key expectedRevision (Journaled.ofEffect effect)
        nowMs none) answer) now) :
    Safe (system sha256 main) G R i (Returning fun _ _ => True)
      (retry identity expectedRevision nowMs) world := by
  unfold retry
  split
  · exact Safe.raise
  · refine Safe.check fun key hkey => ?_
    obtain rfl := keyFor_ok hkey
    refine Safe.andThen hR (Safe.get fun now hnow => hget now (hR _ _ hnow)) ?_
    intro current now hnow _
    cases current with
    | none => exact Safe.raise
    | some current =>
      refine Safe.check fun previous _ => ?_
      extract_lets retryable
      split
      · exact Safe.done trivial
      · refine Safe.andThen hR (Safe.compareAndSwap fun later answer hlater _ =>
          hcas later _ answer (hnow.trans (hR _ _ hlater))) ?_
        intro answer _ _ _
        cases answer with
        | updated stored => exact Safe.done trivial
        | missing => exact Safe.raise
        | conflict stored => exact Safe.check fun _ _ => Safe.done trivial

end Rules

/-! ## How often a port is asked -/

section Bounds

open DurableEffectJournal

variable {V B P : Type} {PR : P → Type} [Stored V] [Journaled V] {test : P → Bool}

theorem atMost_claim (identity : EffectIdentity) (nowMs : Int) :
    Program.AtMost (asks test) 0 (claim identity nowMs : Io PR V B EffectClaimResult) := by
  refine .check fun key => (atMost_createIfAbsent rfl).andThen fun result => ?_
  cases result with
  | created record => exact Program.atMost_done ..
  | existing record => exact .check fun _ => Program.atMost_done ..

theorem atMost_transition (identity : EffectIdentity) (expectedRevision : Nat)
    (status : DurableEffectStatus) (nowMs : Int) (receipt : Option String) :
    Program.AtMost (asks test) 0
      (transition identity expectedRevision status nowMs receipt :
        Io PR V B (DurableEffect × Nat)) := by
  refine .check fun key => (atMost_get rfl).andThen fun current => ?_
  cases current with
  | none => exact Program.atMost_raise ..
  | some current =>
    refine .check fun previous => ?_
    split
    · exact Program.atMost_raise ..
    · refine (atMost_compareAndSwap rfl).andThen fun result => ?_
      cases result with
      | updated record => exact Program.atMost_done ..
      | _ => exact Program.atMost_raise ..

end Bounds

end Groundlane
