import Groundlane.Internal.Codec
import Groundlane.Sequential.Checks
import Groundlane.Text.Parse

/-!
# Internal contexts

The short-lived tokens with which the worker hands a request on to the container, after
`worker/internal-context.ts`: minting, verification and the authentication of the container's
listener. Cryptography and Unicode upper-casing are the platform's.
-/

namespace Groundlane.InternalContext

open Sequential Utf16 Utf8

/-- What the platform provides. -/
structure Platform where
  /-- HMAC-SHA-256 of a message under a key. -/
  hmac : List UInt8 → List UInt8 → List UInt8
  /-- SHA-256. -/
  digest : List UInt8 → List UInt8
  toUpperCase : Text → Text

/-- `INTERNAL_CONTEXT_HEADER`. -/
def internalContextHeader : String := "x-groundlane-internal-context"

/-- `INTERNAL_REQUEST_ID_HEADER`. -/
def internalRequestIdHeader : String := "x-request-id"

/-- `INTERNAL_ISSUER`. -/
def internalIssuer : Text := ascii "groundlane-worker"

/-- `INTERNAL_MAX_TTL_MS`. -/
def internalMaxTtlMs : Int := 60000

/-- `INTERNAL_DEFAULT_TTL_MS`. -/
def internalDefaultTtlMs : Int := 30000

/-! ## Principals and payloads -/

/-- `DataPlaneAuthMethod`. -/
inductive DataPlaneAuthMethod where
  | staticBearer
  | managedToken
  | oauth
deriving DecidableEq

/-- The text of an authentication method. -/
def DataPlaneAuthMethod.text : DataPlaneAuthMethod → Text
  | staticBearer => ascii "static_bearer"
  | managedToken => ascii "managed_token"
  | oauth => ascii "oauth"

/-- `AuthenticatedPrincipal`. -/
structure AuthenticatedPrincipal where
  principalId : Text
  authMethod : DataPlaneAuthMethod
  scopes : List Text
  clientId : Option Text
  credentialId : Option Text

/-- `createStaticPrincipal`. -/
def createStaticPrincipal : AuthenticatedPrincipal where
  principalId := ascii "owner"
  authMethod := .staticBearer
  scopes := [ascii "mcp"]
  clientId := none
  credentialId := none

/-- A member that is left out when it is undefined. -/
def optional (key : String) : Option Text → List (String × Value)
  | none => []
  | some value => [(key, .str value)]

/-- A principal as a JSON value. -/
def AuthenticatedPrincipal.toValue (principal : AuthenticatedPrincipal) : Value :=
  .obj ([("principalId", .str principal.principalId),
    ("authMethod", .str principal.authMethod.text), ("scopes", .arr (principal.scopes.map .str))] ++
    (optional "clientId" principal.clientId ++ optional "credentialId" principal.credentialId))

/-- `InternalContextPayload`. -/
structure InternalContextPayload where
  iss : Text
  aud : Text
  iat : Int
  exp : Int
  method : Text
  path : Text
  requestId : Text
  principal : AuthenticatedPrincipal
  credentialBinding : Text
  purpose : Option Text
  bodySha256 : Option Text

/-- A payload as a JSON value. -/
def InternalContextPayload.toValue (payload : InternalContextPayload) : Value :=
  .obj ([("iss", .str payload.iss), ("aud", .str payload.aud), ("iat", .num (.ofInt payload.iat)),
    ("exp", .num (.ofInt payload.exp)), ("method", .str payload.method),
    ("path", .str payload.path), ("requestId", .str payload.requestId),
    ("principal", payload.principal.toValue),
    ("credentialBinding", .str payload.credentialBinding)] ++
    (optional "purpose" payload.purpose ++ optional "bodySha256" payload.bodySha256))

/-! ## Formats -/

/-- Between one and `limit` code units. -/
def Bounded (limit : Nat) (text : Text) : Prop := 1 ≤ text.length ∧ text.length ≤ limit

instance (limit : Nat) (text : Text) : Decidable (Bounded limit text) :=
  inferInstanceAs (Decidable (_ ∧ _))

/-- A unit of `[a-z0-9._-]`. -/
def isLabelUnit (unit : UInt16) : Bool :=
  (0x61 ≤ unit && unit ≤ 0x7a) || (0x30 ≤ unit && unit ≤ 0x39) || unit = 0x2e || unit = 0x5f ||
    unit = 0x2d

/-- `/^[a-z0-9._-]{1,64}$/u`. -/
def isLabel (text : Text) : Prop := Bounded 64 text ∧ text.all isLabelUnit = true

instance (text : Text) : Decidable (isLabel text) := inferInstanceAs (Decidable (_ ∧ _))

/-- A unit of `[a-f0-9]`. -/
def isHexUnit (unit : UInt16) : Bool :=
  (0x61 ≤ unit && unit ≤ 0x66) || (0x30 ≤ unit && unit ≤ 0x39)

/-- `/^sha256-[a-f0-9]{64}$/u`. -/
def isBodyDigest (text : Text) : Prop :=
  text.take 7 = ascii "sha256-" ∧ (text.drop 7).length = 64 ∧ (text.drop 7).all isHexUnit = true

instance (text : Text) : Decidable (isBodyDigest text) := inferInstanceAs (Decidable (_ ∧ _))

/-! ## Minting -/

/-- `computeSignature`. -/
def computeSignature (P : Platform) (payloadB64 signingSecret : Text) : Text :=
  bytesToHex (P.hmac (encode signingSecret) (encode payloadB64))

/-- The options of `mintInternalContext`. -/
structure MintOptions where
  issuer : Option Text
  signingSecret : Text
  audience : Text
  method : Text
  path : Text
  requestId : Text
  principal : AuthenticatedPrincipal
  credentialBinding : Text
  ttlMs : Option ℚ
  purpose : Option Text
  bodySha256 : Option Text

namespace MintOptions

/-- `options.issuer ?? INTERNAL_ISSUER`. -/
def issuerOr (options : MintOptions) : Text := options.issuer.getD internalIssuer

/-- `options.ttlMs ?? INTERNAL_DEFAULT_TTL_MS`. -/
def ttl (options : MintOptions) : ℚ := options.ttlMs.getD internalDefaultTtlMs

/-- The payload that is minted at a reading of the clock. -/
def payload (P : Platform) (options : MintOptions) (now : Int) : InternalContextPayload where
  iss := options.issuerOr
  aud := options.audience
  iat := now
  exp := now + options.ttl.num
  method := P.toUpperCase options.method
  path := options.path
  requestId := options.requestId
  principal := options.principal
  credentialBinding := options.credentialBinding
  purpose := options.purpose
  bodySha256 := options.bodySha256

end MintOptions

/-- `v1.${payloadB64}.${sig}`. -/
def contextToken (payloadB64 sig : Text) : Text := ascii "v1" ++ 0x2e :: (payloadB64 ++ 0x2e :: sig)

/-- `mintInternalContext`. -/
def mintInternalContext (P : Platform) (options : MintOptions) (now : Int) :
    Except String Text := do
  throwIf (options.signingSecret.length = 0) "signing secret is required"
  throwIf (¬ isLabel options.issuerOr) "invalid issuer"
  throwIf (¬ Bounded 128 options.audience) "invalid audience"
  throwIf (¬ Bounded 128 options.requestId) "invalid request id"
  throwIf (options.principal.principalId ≠ ascii "owner") "invalid principal"
  throwIf (options.principal.scopes.length = 0 ∨ 32 < options.principal.scopes.length)
    "invalid principal scopes"
  throwIf (¬ Bounded 256 options.credentialBinding) "invalid credential binding"
  throwIf (options.purpose.isNone ≠ options.bodySha256.isNone)
    "purpose and body digest must be provided together"
  throwIf (∃ purpose ∈ options.purpose,
    ¬ isLabel purpose ∨ ¬ isBodyDigest (options.bodySha256.getD [])) "invalid internal body binding"
  throwIf (options.ttl.den ≠ 1 ∨ options.ttl ≤ 0 ∨ (internalMaxTtlMs : ℚ) < options.ttl)
    "ttl must be 1..60000 ms"
  let payloadB64 := base64UrlEncodeString (options.payload P now).toValue.stringify
  return contextToken payloadB64 (computeSignature P payloadB64 options.signingSecret)

/-! ## Verification -/

/-- `VerifyInternalOptions`. -/
structure VerifyInternalOptions where
  signingSecret : Text
  expectedIssuer : Option Text
  expectedAudience : Text
  expectedMethod : Text
  expectedPath : Text
  expectedRequestId : Option Text
  expectedPurpose : Option Text
  expectedBodySha256 : Option Text

/-- A member that is a string. -/
def text (value : Parsed) (key : String) : Option Text :=
  match value.get key with
  | some (.str text) => some text
  | _ => none

/-- A member that is an integer. -/
def integer (value : Parsed) (key : String) : Option Int :=
  match value.get key with
  | some (.num number) => if number.den = 1 then some number.num else none
  | _ => none

/-- A scope that is accepted. -/
def isScope : Parsed → Bool
  | .str scope => decide (Bounded 128 scope)
  | _ => false

/-- A principal that is accepted. -/
def isPrincipal (payload : Parsed) : Bool :=
  match payload.get "principal" with
  | some principal =>
    decide (text principal "principalId" = some (ascii "owner")) &&
    (match text principal "authMethod" with
      | some authMethod =>
        [ascii "static_bearer", ascii "managed_token", ascii "oauth"].contains authMethod
      | none => false) &&
    (match principal.get "scopes" with
      | some (.arr scopes) => decide (1 ≤ scopes.length ∧ scopes.length ≤ 32) && scopes.all isScope
      | _ => false)
  | none => false

/-- A member that is undefined or a string of a format. -/
def isOptional (payload : Parsed) (key : String) (format : Text → Prop) [DecidablePred format] :
    Bool :=
  match payload.get key with
  | none => true
  | some (.str value) => decide (format value)
  | some _ => false

/-- The payload of a token whose signature is valid. -/
def openContext (P : Platform) (token : Option Text) (signingSecret : Text) :
    Except String Parsed := do
  let token := token.getD []
  throwIf (token.length = 0) "missing_context"
  match token.splitOn 0x2e with
  | [version, payloadB64, presentedSig] =>
    throwIf (version ≠ ascii "v1") "malformed"
    throwIf (signingSecret.length = 0) "missing_secret"
    let expectedSig := computeSignature P payloadB64 signingSecret
    throwIf (P.digest (encode presentedSig) ≠ P.digest (encode expectedSig) ∨
      presentedSig ≠ expectedSig) "forged"
    match (base64UrlDecodeToString payloadB64).bind parse with
    | some (.arr items) => return .arr items
    | some (.obj members) => return .obj members
    | _ => .error "malformed"
  | _ => .error "malformed"

/-- `verifyInternalContext`. -/
def verifyInternalContext (P : Platform) (token : Option Text) (options : VerifyInternalOptions)
    (now : ℚ) : Except String Parsed := do
  let payload ← openContext P token options.signingSecret
  throwIf (text payload "iss" ≠ some (options.expectedIssuer.getD internalIssuer)) "issuer"
  throwIf (text payload "aud" ≠ some options.expectedAudience) "audience"
  throwIf (text payload "method" ≠ some (P.toUpperCase options.expectedMethod)) "method"
  throwIf (text payload "path" ≠ some options.expectedPath) "path"
  throwIf (((text payload "requestId").getD []).length = 0) "request_binding"
  throwIf (¬ isPrincipal payload) "principal"
  throwIf (¬ isOptional payload "purpose" isLabel) "purpose"
  throwIf (¬ isOptional payload "bodySha256" isBodyDigest) "body_binding"
  throwIf (options.expectedPurpose ≠ none ∧ text payload "purpose" ≠ options.expectedPurpose)
    "purpose"
  throwIf (options.expectedBodySha256 ≠ none ∧
    text payload "bodySha256" ≠ options.expectedBodySha256) "body_binding"
  throwIf (¬ Bounded 256 ((text payload "credentialBinding").getD [])) "credential_binding"
  throwIf (options.expectedRequestId ≠ none ∧
    text payload "requestId" ≠ options.expectedRequestId) "request_binding"
  match integer payload "iat", integer payload "exp" with
  | some iat, some exp =>
    throwIf (¬ ((iat : ℚ) ≤ now ∧ now < exp)) "expired"
    throwIf (internalMaxTtlMs < exp - iat) "ttl"
    return payload
  | _, _ => .error "time"

/-! ## The container's listener -/

/-- `WorkerAuthProfile`. -/
inductive WorkerAuthProfile where
  | localStatic
  | workerInternalContext
deriving DecidableEq

/-- The headers of a request, as `headers.get` reads them. -/
abbrev Headers := String → Option Text

/-- The options of `verifyContainerAuth`. -/
structure ContainerAuthOptions where
  legacyToken : Option Text
  signingSecret : Option Text
  expectedAudience : Text
  expectedMethod : Text
  expectedPath : Text
  expectedPurpose : Option Text
  expectedBodySha256 : Option Text

/-- `ContainerAuthDecision`. -/
structure ContainerAuthDecision where
  ok : Bool
  reason : String
  principal : Option Parsed
  credentialBinding : Option Text

/-- A decision against a request. -/
def rejected (reason : String) : ContainerAuthDecision := ⟨false, reason, none, none⟩

/-- An ASCII letter in lower case. -/
def lower (unit : UInt16) : UInt16 := if 0x41 ≤ unit && unit ≤ 0x5a then unit + 0x20 else unit

/-- `parseBearerToken`. -/
def parseBearerToken (value : Text) : Option Text :=
  if (value.take 7).map lower = ascii "bearer " ∧ value.drop 7 ≠ [] ∧
      (value.drop 7).any isWhiteSpace = false then some (value.drop 7)
  else none

/-- `timingSafeTokenEqual`. -/
def timingSafeTokenEqual (P : Platform) (candidate expected : Text) : Bool :=
  P.digest (encode candidate) == P.digest (encode expected)

/-- The options that the listener verifies a context with. -/
def ContainerAuthOptions.verification (options : ContainerAuthOptions) (headers : Headers) :
    VerifyInternalOptions where
  signingSecret := options.signingSecret.getD []
  expectedIssuer := none
  expectedAudience := options.expectedAudience
  expectedMethod := options.expectedMethod
  expectedPath := options.expectedPath
  expectedRequestId := headers internalRequestIdHeader
  expectedPurpose := options.expectedPurpose
  expectedBodySha256 := options.expectedBodySha256

/-- `verifyContainerAuth`. -/
def verifyContainerAuth (P : Platform) (headers : Headers) (profile : WorkerAuthProfile)
    (options : ContainerAuthOptions) (now : ℚ) : ContainerAuthDecision :=
  match profile with
  | .workerInternalContext =>
    match verifyInternalContext P (headers internalContextHeader) (options.verification headers)
        now with
    | .error reason => rejected reason
    | .ok payload =>
      if (headers "authorization").isSome then rejected "raw_bearer_rejected"
      else
        { ok := true
          reason := "internal_context"
          principal := payload.get "principal"
          credentialBinding := text payload "credentialBinding" }
  | .localStatic =>
    match headers "authorization" with
    | none => rejected "missing_bearer"
    | some authorization =>
      let expected := options.legacyToken.getD []
      if expected.length = 0 then rejected "missing_secret"
      else if timingSafeTokenEqual P ((parseBearerToken authorization).getD []) expected then
        { ok := true
          reason := "legacy"
          principal := some createStaticPrincipal.toValue.parsed
          credentialBinding := some (ascii "static:legacy") }
      else rejected "invalid_bearer"

end Groundlane.InternalContext
