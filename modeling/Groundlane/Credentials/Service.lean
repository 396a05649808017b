import Groundlane.Credentials.Store

/-!
# Creating, rotating, revoking and authenticating

The functions of `worker/managed-tokens.ts` over a credential store, as calls of any number of
processes (`tokens`). Each process keeps its own replays.
-/

namespace Groundlane.Credentials

open Interleaving

/-- A program over a credential store. -/
abbrev TokenIo : Type → Type := Program Query Query.Res ManagedTokenError

/-! ## Operations -/

/-- Perform an operation that can throw. -/
def call {α : Type} (request : TokenIo (Except ManagedTokenError α)) : TokenIo α :=
  request.bind Program.ofExcept

def getById (id : String) : TokenIo (Option ManagedCredentialRecord) :=
  call (Program.request (Query.getById id))

def insert (record : ManagedCredentialRecord) : TokenIo Unit :=
  call (Program.request (Query.insert record))

def tryRotate (oldId : String) (oldUpdate : RotateUpdate) (next : ManagedCredentialRecord) :
    TokenIo Transition :=
  call (Program.request (Query.tryRotate oldId oldUpdate next))

def revokeById (id : String) (now : Int) : TokenIo (Option ManagedCredentialRecord) :=
  call (Program.request (Query.revokeById id now))

def expireById (id : String) (now : Int) : TokenIo (Option ManagedCredentialRecord) :=
  call (Program.request (Query.expireById id now))

/-- `idempotency.get`. -/
def replayOf (process : Nat) (key : String) : TokenIo (Option String) :=
  Program.request (Query.replay process key)

/-- `idempotency.set`. -/
def remember (process : Nat) (key newId : String) : TokenIo Unit :=
  Program.request (Query.remember process key newId)

/-- `clock.now()`. -/
def clockNow : TokenIo Int := Program.request Query.now

def generateCredentialId : TokenIo String :=
  (Program.request (Query.random 12)).bind fun bytes => pure (credentialIdOf bytes)

def generateRawSecret : TokenIo String :=
  (Program.request (Query.random minSecretBytes)).bind fun bytes => pure (encodeBase64Url bytes)

/-- The requested identifier, or a generated one. -/
def requestedId : Option String → TokenIo String
  | some id => pure id
  | none => generateCredentialId

/-! ## Creation -/

/-- `CreateManagedInput`; an expiry that is not an integer is `none`. -/
structure CreateManagedInput where
  label : Unknown
  scopes : Unknown
  expiresAt : Option Int
  id : Option String
deriving DecidableEq, Repr

/-- A credential and the token that presents it. -/
structure IssuedCredential where
  record : ManagedCredentialRecord
  rawToken : String
deriving DecidableEq, Repr

def checkCredentialId : Option String → Except ManagedTokenError Unit
  | some id => if isValidCredentialId id then .ok () else invalid "invalid credential id"
  | none => .ok ()

/-- The checked expiry of a new credential. -/
def validateExpiresAt (now : Int) : Option Int → Except ManagedTokenError Int
  | some expiresAt =>
    if expiresAt ≤ now then invalid "expiresAt must be a future integer ms" else .ok expiresAt
  | none => invalid "expiresAt must be a future integer ms"

/-- A credential that was not rotated from another one. -/
def newCredential (verifier : String) (scopes : List String) (label : String) (now expiresAt : Int)
    (id : String) : ManagedCredentialRecord where
  id := id
  verifier := verifier
  principalId := .owner
  scopes := scopes
  label := label
  status := .active
  createdAt := now
  updatedAt := now
  expiresAt := expiresAt
  validUntil := none
  rotatedTo := none
  rotatedFrom := none
  revokedAt := none

/-- `id allocation failed`, after every attempt. -/
def allocationFailed : ManagedTokenError :=
  ⟨.conflict, "id allocation failed"⟩

/-- The attempts of a creation; only a generated identifier is tried again. -/
def insertAttempts (candidateId : Option String) (record : String → ManagedCredentialRecord)
    (rawSecret : String) : Nat → TokenIo IssuedCredential
  | 0 => Program.raise allocationFailed
  | remaining + 1 => do
    let id ← requestedId candidateId
    let outcome ← (insert (record id)).attempt
    match outcome with
    | .ok () => pure ⟨record id, formatManagedToken id rawSecret⟩
    | .error error =>
      if error.code = .duplicateId ∧ candidateId = none ∧ 0 < remaining then
        insertAttempts candidateId record rawSecret remaining
      else Program.raise error

/-- `ID_COLLISION_RETRY_MAX` and the first attempt. -/
def attemptLimit : Nat := 6

section Methods

-- The SHA-256 digest of a text in hexadecimal digits.
variable (sha256 : String → String)

/-- `computeVerifier`. -/
def computeVerifier (rawSecret : String) : String := sha256 rawSecret

/-- `timingSafeTokenEqual`: equality of digests. -/
def timingSafeTokenEqual (candidate expected : String) : Bool :=
  decide (sha256 candidate = sha256 expected)

def createManagedCredential (input : CreateManagedInput) : TokenIo IssuedCredential := do
  let now ← clockNow
  let expiresAt ← validateExpiresAt now input.expiresAt
  let label ← validateLabel input.label
  let scopes ← validateScopes input.scopes
  checkCredentialId input.id
  let rawSecret ← generateRawSecret
  insertAttempts input.id
    (newCredential (computeVerifier sha256 rawSecret) scopes label now expiresAt) rawSecret
    attemptLimit

/-! ## Authentication -/

/-- `AuthenticatedPrincipal` of a managed token. -/
structure AuthenticatedPrincipal where
  principalId : PrincipalId
  scopes : List String
  credentialId : String
deriving DecidableEq, Repr

def createManagedPrincipal (credentialId : String) (scopes : List String) :
    AuthenticatedPrincipal :=
  ⟨.owner, scopes, credentialId⟩

def authenticateManagedToken (rawToken : String) : TokenIo (Option AuthenticatedPrincipal) :=
  match parseManagedToken rawToken with
  | none => pure none
  | some parsed => do
    let found ← getById parsed.id
    match found with
    | none => pure none
    | some stored =>
      if stored.status = .revoked ∨ stored.status = .disabled then pure none
      else if !timingSafeTokenEqual sha256 (computeVerifier sha256 parsed.secret)
          stored.verifier then
        pure none
      else do
        let now ← clockNow
        if (getEffectiveStatus stored now).2 then
          pure (some (createManagedPrincipal stored.id stored.scopes))
        else pure none

/-! ## Rotation -/

structure RotateManagedInput where
  oldId : String
  overlapSeconds : Unknown
  newId : Option String
  idempotencyKey : Unknown
deriving DecidableEq, Repr

structure RotateManagedResult where
  newRecord : ManagedCredentialRecord
  rawToken : Option String
  isReplay : Bool
  secretAvailable : Bool
  newId : String
  overlapSeconds : Int
deriving DecidableEq, Repr

/-- The gate that a credential passes to be rotated. -/
def rotatable (now : Int) : Option ManagedCredentialRecord →
    Except ManagedTokenError ManagedCredentialRecord
  | none => .error ⟨.notFound, "unknown credential"⟩
  | some old =>
    if old.status ≠ .active then
      .error ⟨.conflict, "rotate requires active credential (status:" ++ old.status.text ++ ")"⟩
    else if old.rotatedTo ≠ none then .error ⟨.conflict, "credential already rotated"⟩
    else if old.expiresAt ≤ now then .error ⟨.conflict, "credential expired"⟩
    else .ok old

/-- The successor: the principal, the scopes, the label and the expiry of its predecessor. -/
def successorOf (old : ManagedCredentialRecord) (verifier : String) (now : Int) (newId : String) :
    ManagedCredentialRecord where
  id := newId
  verifier := verifier
  principalId := old.principalId
  scopes := old.scopes
  label := old.label
  status := .active
  createdAt := now
  updatedAt := now
  expiresAt := old.expiresAt
  validUntil := none
  rotatedTo := none
  rotatedFrom := some old.id
  revokedAt := none

/-- What a rotation writes into the predecessor. -/
def oldUpdateOf (now overlapSeconds : Int) (newId : String) : RotateUpdate where
  status := .rotating
  validUntil := some (now + overlapSeconds * 1000)
  rotatedTo := some newId
  updatedAt := now

/-- What a rotation was asked for and has read. -/
structure RotateAttempt where
  old : ManagedCredentialRecord
  requested : Option String
  overlapSeconds : Int
  now : Int
  rawSecret : String
  verifier : String
deriving DecidableEq, Repr

/-- The attempts of a rotation, with the last collision. -/
def rotateAttempts (attempt : RotateAttempt) : Nat → Option ManagedTokenError →
    TokenIo ManagedCredentialRecord
  | 0, lastCollision => Program.raise (lastCollision.getD allocationFailed)
  | remaining + 1, _ => do
    let newId ← requestedId attempt.requested
    if newId = attempt.old.id then
      if attempt.requested ≠ none then
        Program.raise ⟨.validation, "successor id must differ"⟩
      else rotateAttempts attempt remaining (some idCollision)
    else do
      let next := successorOf attempt.old attempt.verifier attempt.now newId
      let transition ← tryRotate attempt.old.id
        (oldUpdateOf attempt.now attempt.overlapSeconds newId) next
      match transition with
      | .ok => pure next
      | .conflict reason =>
        if reason = "id_collision" then
          if attempt.requested ≠ none then
            Program.raise ⟨.conflict, "credential id collision"⟩
          else rotateAttempts attempt remaining (some idCollision)
        else Program.raise ⟨.conflict, "rotate conflict (" ++ reason ++ ")"⟩

/-- The rotation when the key has not been used yet. -/
def rotateNow (process : Nat) (input : RotateManagedInput) (scopedKey : Option String)
    (overlapSeconds : Int) : TokenIo RotateManagedResult := do
  let now ← clockNow
  let found ← getById input.oldId
  let old ← rotatable now found
  let rawSecret ← generateRawSecret
  let next ← rotateAttempts
    ⟨old, input.newId, overlapSeconds, now, rawSecret, computeVerifier sha256 rawSecret⟩
    attemptLimit none
  match scopedKey with
  | some key => remember process key next.id
  | none => pure ()
  pure ⟨next, some (formatManagedToken next.id rawSecret), false, true, next.id, overlapSeconds⟩

/-- The answer to a key that has been used: the successor as it is stored, without its secret. -/
def replayRotation (newId : String) (overlapSeconds : Int) : TokenIo RotateManagedResult := do
  let found ← getById newId
  match found with
  | none => Program.raise ⟨.conflict, "idempotency replay missing successor"⟩
  | some stored => pure ⟨stored, none, true, false, stored.id, overlapSeconds⟩

def rotateManagedCredential (process : Nat) (input : RotateManagedInput) :
    TokenIo RotateManagedResult := do
  let key ← validateIdempotencyKey input.idempotencyKey
  let overlapSeconds ← normalizeOverlapSeconds input.overlapSeconds
  checkCredentialId input.newId
  match key with
  | none => rotateNow sha256 process input none overlapSeconds
  | some key => do
    let scopedKey := input.oldId ++ ":" ++ key
    let replay ← replayOf process scopedKey
    match replay with
    | some newId => replayRotation newId overlapSeconds
    | none => rotateNow sha256 process input (some scopedKey) overlapSeconds

end Methods

/-! ## Revocation and forced expiry -/

/-- The stored credential, or `not_found`. -/
def known (found : Option ManagedCredentialRecord) : TokenIo ManagedCredentialRecord :=
  match found with
  | none => Program.raise ⟨.notFound, "unknown credential"⟩
  | some stored => pure stored

def revokeManagedCredential (id : String) : TokenIo ManagedCredentialRecord := do
  let now ← clockNow
  let stored ← revokeById id now
  known stored

def expireManagedCredential (id : String) : TokenIo ManagedCredentialRecord := do
  let now ← clockNow
  let stored ← expireById id now
  known stored

/-! ## All calls -/

/-- The functions with their arguments; a rotation is made by some process. -/
inductive Call where
  | create (input : CreateManagedInput)
  | rotate (process : Nat) (input : RotateManagedInput)
  | revoke (id : String)
  | expire (id : String)
  | authenticate (rawToken : String)
deriving DecidableEq, Repr

/-- What the functions return. -/
inductive Reply where
  | issued (credential : IssuedCredential)
  | rotation (result : RotateManagedResult)
  | stored (record : ManagedCredentialRecord)
  | authenticated (principal : Option AuthenticatedPrincipal)
deriving DecidableEq, Repr

/-- The program of each call. -/
def main (sha256 : String → String) : Call → TokenIo Reply
  | .create input => (createManagedCredential sha256 input).bind fun issued => pure (.issued issued)
  | .rotate process input =>
    (rotateManagedCredential sha256 process input).bind fun result => pure (.rotation result)
  | .revoke id => (revokeManagedCredential id).bind fun record => pure (.stored record)
  | .expire id => (expireManagedCredential id).bind fun record => pure (.stored record)
  | .authenticate rawToken =>
    (authenticateManagedToken sha256 rawToken).bind fun principal =>
      pure (.authenticated principal)

/-- All calls over one store. -/
def tokens (sha256 : String → String) (kind : StoreKind) :
    System Call Query Query.Res ManagedTokenError Reply Registry Outside where
  main := main sha256
  exec := exec kind

end Groundlane.Credentials
