import Groundlane.Credentials.Service

/-!
# Every call on a credential store keeps its promise

A credential is created without links, a rotation gives the successor what the call has read of
its predecessor, and a principal is returned only for a credential that the call has read and that
was not revoked (`Guarantee`). One lemma for each function says so of its calls; `verified`
assembles them.
-/

namespace Groundlane.Credentials

open Interleaving Interleaving.System

abbrev TokenEvent : Type := Event Call Query Query.Res ManagedTokenError Reply

abbrev TokenHistory : Type := List (Nat × TokenEvent)

abbrev TokenWorld : Type := World Call Query Query.Res ManagedTokenError Reply Registry

/-- Call `i` has read `record` under `id`. -/
def HasRead (i : Nat) (id : String) (record : ManagedCredentialRecord) (history : TokenHistory) :
    Prop :=
  (i, .effect (.getById id) (.ok (some record))) ∈ history

/-- What a rotation writes, given the credential that it has read. -/
structure Rotates (old : ManagedCredentialRecord) (oldId : String) (oldUpdate : RotateUpdate)
    (next : ManagedCredentialRecord) : Prop where
  oldId : old.id = oldId
  successor : ∃ verifier now, next = successorOf old verifier now next.id
  update : ∃ now overlapSeconds, oldUpdate = oldUpdateOf now overlapSeconds next.id

/-- What a call promises about each of its events. -/
def Guarantee : Interleaving.Guarantee Call Query Query.Res ManagedTokenError Reply Registry
  | _, .effect (.insert record) _, _ =>
    ∃ verifier scopes label now expiresAt,
      record = newCredential verifier scopes label now expiresAt record.id
  | i, .effect (.tryRotate oldId oldUpdate next) _, world =>
    ∃ old, HasRead i oldId old world.history ∧ Rotates old oldId oldUpdate next
  | i, .response (.ok (.authenticated (some principal))), world =>
    ∃ stored, HasRead i principal.credentialId stored world.history ∧
      stored.status ≠ .revoked
  | _, _, _ => True

variable {sha256 : String → String} {kind : StoreKind} {i : Nat} {world : TokenWorld}

/-- The program keeps the guarantee in call `i`, and `Q` holds of what it returns. -/
abbrev TokenSafe {α : Type} (sha256 : String → String) (kind : StoreKind) (i : Nat)
    (Q : α → TokenWorld → Prop) (program : TokenIo α) (world : TokenWorld) : Prop :=
  Safe (tokens sha256 kind) Guarantee (Rely (tokens sha256 kind) Guarantee i) i (Returning Q)
    program world

/-- The history of a world grows while calls go on. -/
abbrev Grows (sha256 : String → String) (kind : StoreKind) (world now : TokenWorld) : Prop :=
  Evolves (tokens sha256 kind) Guarantee world now

theorem HasRead.grows {id : String} {record : ManagedCredentialRecord} {now : TokenWorld}
    (h : HasRead i id record world.history) (hnow : Grows sha256 kind world now) :
    HasRead i id record now.history :=
  (persistent_mem_history _).evolves hnow h

/-- The rule of sequence, at the types of the store. -/
theorem TokenSafe.andThen {α β : Type} {middle : α → TokenWorld → Prop}
    {Q : β → TokenWorld → Prop} {program : TokenIo α} {rest : α → TokenIo β}
    (h : TokenSafe sha256 kind i middle program world)
    (hrest : ∀ value now, Grows sha256 kind world now → middle value now →
      TokenSafe sha256 kind i Q (rest value) now) :
    TokenSafe sha256 kind i Q (program.bind rest) world :=
  Safe.andThen (fun _ _ h => h.evolves) h hrest

/-- A weaker postcondition. -/
theorem TokenSafe.weaken {α : Type} {Q Q' : α → TokenWorld → Prop} {program : TokenIo α}
    (h : TokenSafe sha256 kind i Q program world)
    (hweaker : ∀ value now, Q value now → Q' value now) :
    TokenSafe sha256 kind i Q' program world :=
  Safe.mono (fun _ now hpost value hvalue => hweaker value now (hpost value hvalue)) h

/-- The rule of a single operation. -/
theorem request_safe (query : Query)
    (hG : ∀ answer now, Grows sha256 kind world now → Guarantee i (.effect query answer) now) :
    TokenSafe sha256 kind i (fun answer now => ∃ before,
        (tokens sha256 kind).Step i (.effect query answer) before now)
      (Program.request query) world := by
  refine Safe.mono (fun _ now hpost answer hanswer => ?_)
    (Safe.request fun now _ hnow => hG _ now hnow.evolves)
  obtain ⟨before, -, hstep, -⟩ := hpost answer hanswer
  exact ⟨before, hstep⟩

/-- The rule of an operation that can throw. -/
theorem call_safe {α : Type} {Q : Except ManagedTokenError α → TokenWorld → Prop}
    {program : TokenIo (Except ManagedTokenError α)}
    (h : TokenSafe sha256 kind i Q program world) :
    TokenSafe sha256 kind i (fun value now => Q (.ok value) now) (call program) world := by
  refine h.andThen fun answer now _ hanswer => Safe.ofExcept ?_
  cases answer with
  | ok value =>
    rintro _ ⟨⟩
    exact hanswer
  | error error => rintro _ ⟨⟩

/-- A program whose operations the guarantee says nothing about. -/
theorem random_safe (byteLength : Nat) :
    TokenSafe sha256 kind i (fun _ _ => True) (Program.request (Query.random byteLength)) world :=
  (request_safe (.random byteLength) fun _ _ _ => trivial).weaken fun _ _ _ => trivial

theorem clockNow_safe : TokenSafe sha256 kind i (fun _ _ => True) clockNow world :=
  (request_safe .now fun _ _ _ => trivial).weaken fun _ _ _ => trivial

/-- A credential that is found has been read under its own identifier. -/
theorem getById_safe (id : String) :
    TokenSafe sha256 kind i (fun found now => ∀ record, found = some record →
      record.id = id ∧ HasRead i id record now.history) (getById id) world := by
  refine (call_safe (request_safe (.getById id) fun _ _ _ => trivial)).weaken ?_
  rintro found now ⟨before, hstep⟩ record rfl
  obtain ⟨outside, hexec⟩ := hstep.exec_eq
  have hfind := exec_getById (congrArg Prod.snd hexec)
  exact ⟨Sql.Table.find_key hfind, hstep.latest.mem⟩

theorem requestedId_safe (requested : Option String) :
    TokenSafe sha256 kind i (fun _ _ => True) (requestedId requested) world := by
  cases requested with
  | some id => exact Safe.done trivial
  | none => exact (random_safe 12).andThen fun _ _ _ _ => Safe.done trivial

theorem generateRawSecret_safe :
    TokenSafe sha256 kind i (fun _ _ => True) generateRawSecret world :=
  (random_safe minSecretBytes).andThen fun _ _ _ _ => Safe.done trivial

/-! ## Functions -/

theorem insertAttempts_safe (candidateId : Option String) {verifier : String}
    {scopes : List String} {label : String} {now expiresAt : Int} (rawSecret : String)
    (remaining : Nat) :
    TokenSafe sha256 kind i (fun _ _ => True)
      (insertAttempts candidateId (newCredential verifier scopes label now expiresAt) rawSecret
        remaining) world := by
  induction remaining generalizing world with
  | zero => exact Safe.raise
  | succ remaining ih =>
    refine (requestedId_safe candidateId).andThen fun id _ _ _ => ?_
    refine TokenSafe.andThen (Safe.caught (call_safe (request_safe (.insert _)
      fun _ _ _ => ⟨verifier, scopes, label, now, expiresAt, rfl⟩))) fun outcome _ _ _ => ?_
    cases outcome with
    | ok value => exact Safe.done trivial
    | error error =>
      dsimp only
      split
      · exact ih
      · exact Safe.raise

theorem create_safe (input : CreateManagedInput) :
    TokenSafe sha256 kind i (fun _ _ => True) (createManagedCredential sha256 input) world :=
  clockNow_safe.andThen fun _ _ _ _ => Safe.check fun _ _ => Safe.check fun _ _ =>
    Safe.check fun _ _ => Safe.check fun _ _ => generateRawSecret_safe.andThen fun _ _ _ _ =>
      insertAttempts_safe _ _ _

/-- A principal is returned only for a credential that was read and not revoked. -/
theorem authenticate_safe (rawToken : String) :
    TokenSafe sha256 kind i (fun found now => ∀ principal, found = some principal → ∃ stored,
        HasRead i principal.credentialId stored now.history ∧ stored.status ≠ .revoked)
      (authenticateManagedToken sha256 rawToken) world := by
  unfold authenticateManagedToken
  cases parseManagedToken rawToken with
  | none => exact Safe.done nofun
  | some parsed =>
    refine (getById_safe parsed.id).andThen fun found now _ hfound => ?_
    cases found with
    | none => exact Safe.done nofun
    | some stored =>
      obtain ⟨hid, hread⟩ := hfound stored rfl
      dsimp only
      split_ifs with hstatus hmatches
      · exact Safe.done nofun
      · exact Safe.done nofun
      · refine clockNow_safe.andThen fun _ later hlater _ => ?_
        split_ifs
        · refine Safe.done ?_
          rintro _ ⟨⟩
          rw [not_or] at hstatus
          refine ⟨stored, ?_, hstatus.1⟩
          rw [createManagedPrincipal, hid]
          exact hread.grows hlater
        · exact Safe.done nofun

/-- Every attempt of a rotation writes what the call has read. -/
theorem rotateAttempts_safe {attempt : RotateAttempt} (remaining : Nat)
    (lastCollision : Option ManagedTokenError)
    (hread : HasRead i attempt.old.id attempt.old world.history) :
    TokenSafe sha256 kind i (fun _ _ => True) (rotateAttempts attempt remaining lastCollision)
      world := by
  induction remaining generalizing world lastCollision with
  | zero => exact Safe.raise
  | succ remaining ih =>
    refine (requestedId_safe attempt.requested).andThen fun newId now hnow _ => ?_
    replace hread := hread.grows hnow
    by_cases hid : newId = attempt.old.id
    · rw [if_pos hid]
      split
      · exact Safe.raise
      · exact ih _ hread
    · rw [if_neg hid]
      refine TokenSafe.andThen (call_safe (request_safe
        (.tryRotate attempt.old.id (oldUpdateOf attempt.now attempt.overlapSeconds newId)
          (successorOf attempt.old attempt.verifier attempt.now newId))
        fun _ later hlater =>
          ⟨attempt.old, hread.grows hlater, rfl, ⟨_, _, rfl⟩, _, _, rfl⟩))
        fun transition later hlater _ => ?_
      cases transition with
      | ok => exact Safe.done trivial
      | conflict reason =>
        dsimp only
        split
        · split
          · exact Safe.raise
          · exact ih _ (hread.grows hlater)
        · exact Safe.raise

theorem rotateNow_safe (process : Nat) (input : RotateManagedInput) (scopedKey : Option String)
    (overlapSeconds : Int) :
    TokenSafe sha256 kind i (fun _ _ => True)
      (rotateNow sha256 process input scopedKey overlapSeconds) world := by
  refine clockNow_safe.andThen fun now _ _ _ => (getById_safe input.oldId).andThen
    fun found later _ hfound => Safe.check fun old hold => ?_
  obtain ⟨hid, hread⟩ : old.id = input.oldId ∧ HasRead i input.oldId old later.history := by
    cases found with
    | none => cases hold
    | some record =>
      simp only [rotatable] at hold
      split_ifs at hold
      obtain rfl := Except.ok.inj hold
      exact hfound record rfl
  refine generateRawSecret_safe.andThen fun rawSecret latest hlatest _ => ?_
  refine TokenSafe.andThen (rotateAttempts_safe attemptLimit none (hid ▸ hread.grows hlatest))
    fun next _ _ _ => ?_
  cases scopedKey with
  | some key =>
    exact TokenSafe.andThen (request_safe (.remember process key next.id) fun _ _ _ => trivial)
      fun _ _ _ _ => Safe.done trivial
  | none => exact Safe.done trivial

theorem rotate_safe (process : Nat) (input : RotateManagedInput) :
    TokenSafe sha256 kind i (fun _ _ => True) (rotateManagedCredential sha256 process input)
      world := by
  refine Safe.check fun key _ => Safe.check fun overlapSeconds _ => Safe.check fun _ _ => ?_
  cases key with
  | none => exact rotateNow_safe _ _ _ _
  | some key =>
    refine TokenSafe.andThen (request_safe (.replay process (input.oldId ++ ":" ++ key))
      fun _ _ _ => trivial) fun replay _ _ _ => ?_
    cases replay with
    | none => exact rotateNow_safe _ _ _ _
    | some newId =>
      refine (getById_safe newId).andThen fun found _ _ _ => ?_
      cases found with
      | none => exact Safe.raise
      | some stored => exact Safe.done trivial

theorem known_safe (found : Option ManagedCredentialRecord) :
    TokenSafe sha256 kind i (fun _ _ => True) (known found) world := by
  cases found with
  | none => exact Safe.raise
  | some stored => exact Safe.done trivial

theorem revoke_safe (id : String) :
    TokenSafe sha256 kind i (fun _ _ => True) (revokeManagedCredential id) world :=
  clockNow_safe.andThen fun _ _ _ _ =>
    (call_safe (request_safe (.revokeById id _) fun _ _ _ => trivial)).andThen
      fun _ _ _ _ => known_safe _

theorem expire_safe (id : String) :
    TokenSafe sha256 kind i (fun _ _ => True) (expireManagedCredential id) world :=
  clockNow_safe.andThen fun _ _ _ _ =>
    (call_safe (request_safe (.expireById id _) fun _ _ _ => trivial)).andThen
      fun _ _ _ _ => known_safe _

/-! ## All calls -/

/-- What a call owes for its reply. -/
def Owed (i : Nat) : Reply → TokenWorld → Prop
  | .authenticated found, world => ∀ principal, found = some principal → ∃ stored,
    HasRead i principal.credentialId stored world.history ∧ stored.status ≠ .revoked
  | _, _ => True

theorem Owed.responds {reply : Reply} {later : TokenWorld} (h : Owed i reply world)
    (hlater : Rely (tokens sha256 kind) Guarantee i world later) :
    Guarantee i (.response (.ok reply)) later := by
  cases reply with
  | authenticated found =>
    cases found with
    | none => exact trivial
    | some principal =>
      obtain ⟨stored, hread, hstatus⟩ := h principal rfl
      exact ⟨stored, hread.grows hlater.evolves, hstatus⟩
  | issued | rotation | stored => exact trivial

/-- Every call keeps the guarantee. -/
theorem safe_main (i : Nat) (call : Call) (world : TokenWorld) :
    Safe (tokens sha256 kind) Guarantee (Rely (tokens sha256 kind) Guarantee i) i
      (Responds (tokens sha256 kind) Guarantee i) (main sha256 call) world := by
  refine Safe.responds (Q := Owed i) ?_ (fun _ _ howed _ hlater => howed.responds hlater)
    fun _ _ => trivial
  cases call with
  | create input => exact (create_safe input).andThen fun _ _ _ _ => Safe.done trivial
  | rotate process input =>
    exact (rotate_safe process input).andThen fun _ _ _ _ => Safe.done trivial
  | revoke id => exact (revoke_safe id).andThen fun _ _ _ _ => Safe.done trivial
  | expire id => exact (expire_safe id).andThen fun _ _ _ _ => Safe.done trivial
  | authenticate rawToken =>
    exact (authenticate_safe rawToken).andThen fun _ _ _ howed => Safe.done howed

end Groundlane.Credentials
