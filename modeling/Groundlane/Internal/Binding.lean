import Groundlane.Internal.Context

/-!
# What an internal context is bound to

A minted token is accepted from its minting until it expires, with the minted payload, when no
scope of its principal is empty or longer than 128 units (`completes_iff`): minting only counts
the scopes. A request that the container accepts carries a token for its audience, method and path
and no other credential, and it is bound to its request identifier when it has one
(`bound_iff`): without the header the identifier is not compared.
-/

namespace Groundlane.InternalContext

open Sequential Utf16 Utf8

variable {P : Platform}

/-! ## Minting -/

/-- What a minted token is. -/
structure Minted (P : Platform) (options : MintOptions) (now : Int) (token : Text) : Prop where
  secret : options.signingSecret ≠ []
  requestId : Bounded 128 options.requestId
  owner : options.principal.principalId = ascii "owner"
  scopes : 1 ≤ options.principal.scopes.length ∧ options.principal.scopes.length ≤ 32
  credentialBinding : Bounded 256 options.credentialBinding
  purpose : ∀ purpose ∈ options.purpose, isLabel purpose
  bodySha256 : ∀ bodySha256 ∈ options.bodySha256, isBodyDigest bodySha256
  ttl : options.ttl = options.ttl.num ∧ 0 < options.ttl.num ∧ options.ttl.num ≤ internalMaxTtlMs
  token : token = contextToken (base64UrlEncodeString (options.payload P now).toValue.stringify)
    (computeSignature P (base64UrlEncodeString (options.payload P now).toValue.stringify)
      options.signingSecret)

variable (payload : InternalContextPayload) {options : MintOptions} {now : ℚ} {token : Text}
  {headers : Headers}

theorem minted_of_mint {now : Int} (h : mintInternalContext P options now = .ok token) :
    Minted P options now token := by
  unfold mintInternalContext at h
  simp only [check_bind_eq_ok, throwIf_eq_ok, not_not, not_or, ne_eq] at h
  obtain ⟨hsecret, -, -, hrequestId, howner, _, hbinding, hpair, hbody, httl, htoken⟩ := h
  obtain ⟨hden, hpos, hmax⟩ := httl
  have hnum : options.ttl = options.ttl.num := (Rat.den_eq_one_iff _).1 hden |>.symm
  refine ⟨?_, hrequestId, howner, ⟨by omega, by omega⟩, hbinding, ?_, ?_, ⟨hnum, ?_, ?_⟩,
    (Except.ok.inj htoken).symm⟩
  · exact fun hnil => hsecret (by rw [hnil]; rfl)
  · intro purpose hpurpose
    by_contra hlabel
    exact hbody ⟨purpose, hpurpose, .inl hlabel⟩
  · intro bodySha256 hbodySha256
    cases hpurpose : options.purpose with
    | none =>
      rw [hpurpose, Option.mem_def.1 hbodySha256] at hpair
      exact absurd hpair.symm Bool.false_ne_true
    | some purpose =>
      by_contra hdigest
      refine hbody ⟨purpose, hpurpose, .inr ?_⟩
      rw [Option.mem_def.1 hbodySha256]
      exact hdigest
  · rw [hnum] at hpos
    exact_mod_cast not_le.1 hpos
  · rw [hnum] at hmax
    exact_mod_cast not_lt.1 hmax

/-! ## The members of a payload -/

theorem text_payload : text payload.toValue.parsed "iss" = some payload.iss ∧
      text payload.toValue.parsed "aud" = some payload.aud ∧
      text payload.toValue.parsed "method" = some payload.method ∧
      text payload.toValue.parsed "path" = some payload.path ∧
      text payload.toValue.parsed "requestId" = some payload.requestId ∧
      text payload.toValue.parsed "credentialBinding" = some payload.credentialBinding := by
  obtain ⟨_, _, _, _, _, _, _, _, _, purpose,
    bodySha256⟩ := payload
  cases purpose with
  | none => cases bodySha256 <;> exact ⟨rfl, rfl, rfl, rfl, rfl, rfl⟩
  | some purpose => cases bodySha256 <;> exact ⟨rfl, rfl, rfl, rfl, rfl, rfl⟩

theorem get_optional : payload.toValue.parsed.get "purpose" = payload.purpose.map .str ∧
      payload.toValue.parsed.get "bodySha256" = payload.bodySha256.map .str := by
  obtain ⟨_, _, _, _, _, _, _, _, _, purpose,
    bodySha256⟩ := payload
  cases purpose with
  | none => cases bodySha256 <;> exact ⟨rfl, rfl⟩
  | some purpose => cases bodySha256 <;> exact ⟨rfl, rfl⟩

theorem text_optional : text payload.toValue.parsed "purpose" = payload.purpose ∧
      text payload.toValue.parsed "bodySha256" = payload.bodySha256 := by
  obtain ⟨hpurpose, hbodySha256⟩ := get_optional payload
  unfold text
  rw [hpurpose, hbodySha256]
  exact ⟨by cases payload.purpose <;> rfl, by cases payload.bodySha256 <;> rfl⟩

/-- A member that is undefined or has the format is accepted. -/
theorem isOptional_of {payload : Parsed} {key : String} {format : Text → Prop}
    [DecidablePred format] {value : Option Text} (hget : payload.get key = value.map .str)
    (hformat : ∀ text ∈ value, format text) : isOptional payload key format = true := by
  unfold isOptional
  rw [hget]
  cases value with
  | none => rfl
  | some text => exact decide_eq_true (hformat text rfl)

theorem integer_payload : integer payload.toValue.parsed "iat" = some payload.iat ∧
      integer payload.toValue.parsed "exp" = some payload.exp := by
  have hget : payload.toValue.parsed.get "iat" = some (.num (Parse.numeral (.ofInt payload.iat))) ∧
      payload.toValue.parsed.get "exp" = some (.num (Parse.numeral (.ofInt payload.exp))) := by
    obtain ⟨_, _, _, _, _, _, _, _, _, purpose,
      bodySha256⟩ := payload
    cases purpose with
    | none => cases bodySha256 <;> exact ⟨rfl, rfl⟩
    | some purpose => cases bodySha256 <;> exact ⟨rfl, rfl⟩
  unfold integer
  rw [hget.1, hget.2, Parse.numeral_ofInt, Parse.numeral_ofInt]
  exact ⟨if_pos rfl, if_pos rfl⟩

theorem get_principal :
    payload.toValue.parsed.get "principal" = some payload.principal.toValue.parsed := by
  obtain ⟨_, _, _, _, _, _, _, _, _, purpose,
    bodySha256⟩ := payload
  cases purpose with
  | none => cases bodySha256 <;> rfl
  | some purpose => cases bodySha256 <;> rfl

theorem get_toValue (principal : AuthenticatedPrincipal) :
    text principal.toValue.parsed "principalId" = some principal.principalId ∧
      text principal.toValue.parsed "authMethod" = some principal.authMethod.text ∧
      principal.toValue.parsed.get "scopes" = some (.arr (principal.scopes.map .str)) := by
  have hscopes : Value.parsedItems (principal.scopes.map .str) = principal.scopes.map .str := by
    rw [Value.parsedItems_eq, List.map_map]
    rfl
  rw [← hscopes]
  obtain ⟨_, _, _, clientId, credentialId⟩ := principal
  cases clientId with
  | none => cases credentialId <;> exact ⟨rfl, rfl, rfl⟩
  | some clientId => cases credentialId <;> exact ⟨rfl, rfl, rfl⟩

/-- Verification looks into the scopes that minting only counts. -/
theorem isPrincipal_payload {payload : InternalContextPayload}
    (howner : payload.principal.principalId = ascii "owner")
    (hscopes : 1 ≤ payload.principal.scopes.length ∧ payload.principal.scopes.length ≤ 32) :
    isPrincipal payload.toValue.parsed = true ↔
      ∀ scope ∈ payload.principal.scopes, Bounded 128 scope := by
  obtain ⟨hprincipalId, hauthMethod, hget⟩ := get_toValue payload.principal
  have hmethod : [ascii "static_bearer", ascii "managed_token", ascii "oauth"].contains
      payload.principal.authMethod.text = true := by
    cases payload.principal.authMethod <;> decide
  unfold isPrincipal
  rw [get_principal]
  simp only [hprincipalId, hauthMethod, hget, howner, hmethod, decide_true, Bool.true_and,
    List.length_map, hscopes, List.all_map, and_self]
  rw [List.all_eq_true]
  exact forall₂_congr fun scope hscope => decide_eq_true_iff

/-! ## Verification -/

/-- What verification asks of a payload. -/
structure Accepts (P : Platform) (options : VerifyInternalOptions) (now : ℚ) (payload : Parsed) :
    Prop where
  issuer : text payload "iss" = some (options.expectedIssuer.getD internalIssuer)
  audience : text payload "aud" = some options.expectedAudience
  method : text payload "method" = some (P.toUpperCase options.expectedMethod)
  path : text payload "path" = some options.expectedPath
  bound : ((text payload "requestId").getD []).length ≠ 0
  principal : isPrincipal payload = true
  purposeFormat : isOptional payload "purpose" isLabel = true
  bodyFormat : isOptional payload "bodySha256" isBodyDigest = true
  purpose : options.expectedPurpose ≠ none → text payload "purpose" = options.expectedPurpose
  bodySha256 : options.expectedBodySha256 ≠ none →
    text payload "bodySha256" = options.expectedBodySha256
  credentialBinding : Bounded 256 ((text payload "credentialBinding").getD [])
  requestId : options.expectedRequestId ≠ none →
    text payload "requestId" = options.expectedRequestId
  time : ∃ iat exp, integer payload "iat" = some iat ∧ integer payload "exp" = some exp ∧
    (iat ≤ now ∧ now < exp) ∧ exp - iat ≤ internalMaxTtlMs

theorem verifyInternalContext_eq_ok {token : Option Text} {options : VerifyInternalOptions}
    {payload : Parsed} : verifyInternalContext P token options now = .ok payload ↔
      openContext P token options.signingSecret = .ok payload ∧ Accepts P options now payload := by
  unfold verifyInternalContext
  rw [bind_eq_ok]
  simp only [check_bind_eq_ok, throwIf_eq_ok, not_not, ne_eq]
  -- an expected value that is given is the value of the payload
  have hexpected : ∀ {expected actual : Option Text},
      ¬ (¬ expected = none ∧ ¬ actual = expected) → expected ≠ none → actual = expected :=
    fun hnot hne => by_contra fun hactual => hnot ⟨hne, hactual⟩
  constructor
  · rintro ⟨opened, hopen, h1, h2, h3, h4, h5, h6, h7, h8, h9, h10, h11, h12, htime⟩
    cases hiat : integer opened "iat" with
    | none => rw [hiat] at htime; cases htime
    | some iat =>
      cases hexp : integer opened "exp" with
      | none => rw [hiat, hexp] at htime; cases htime
      | some exp =>
        rw [hiat, hexp] at htime
        rw [check_bind_eq_ok, check_bind_eq_ok, throwIf_eq_ok, throwIf_eq_ok, not_not,
          not_lt] at htime
        obtain ⟨hnow, hmax, hreturn⟩ := htime
        obtain rfl := Except.ok.inj hreturn
        exact ⟨hopen, h1, h2, h3, h4, h5, h6, h7, h8, hexpected h9, hexpected h10, h11,
          hexpected h12, iat, exp, hiat, hexp, hnow, hmax⟩
  · rintro ⟨hopen, h1, h2, h3, h4, h5, h6, h7, h8, h9, h10, h11, h12, iat, exp, hiat, hexp, hnow,
      hmax⟩
    refine ⟨payload, hopen, h1, h2, h3, h4, h5, h6, h7, h8, fun h => h.2 (h9 h.1),
      fun h => h.2 (h10 h.1), h11, fun h => h.2 (h12 h.1), ?_⟩
    rw [hiat, hexp]
    show (throwIf (¬ ((iat : ℚ) ≤ now ∧ now < exp)) "expired" >>= fun _ =>
      throwIf (internalMaxTtlMs < exp - iat) "ttl" >>= fun _ => pure payload) = _
    rw [check_bind_eq_ok, check_bind_eq_ok, throwIf_eq_ok, throwIf_eq_ok, not_not, not_lt]
    exact ⟨hnow, hmax, rfl⟩

/-! ## Tokens -/

theorem splitOn_contextToken {payloadB64 sig : Text} (hpayload : 0x2e ∉ payloadB64)
    (hsig : 0x2e ∉ sig) :
    (contextToken payloadB64 sig).splitOn 0x2e = [ascii "v1", payloadB64, sig] := by
  have hjoin : contextToken payloadB64 sig =
      [0x2e].intercalate [ascii "v1", payloadB64, sig] := by
    simp [contextToken, List.intercalate, List.intersperse]
  have hversion : (0x2e : UInt16) ∉ ascii "v1" := by decide
  rw [hjoin, List.splitOn_intercalate _ _ (List.cons_ne_nil _ _)]
  intro part hpart
  simp only [List.mem_cons, List.not_mem_nil, or_false] at hpart
  rcases hpart with rfl | rfl | rfl
  · exact hversion
  · exact hpayload
  · exact hsig

theorem integral_optional (key : String) (value : Option Text) :
    ∀ entry ∈ optional key value, entry.2.Integral := by
  intro entry hentry
  cases value with
  | none => exact absurd hentry List.not_mem_nil
  | some value =>
    obtain rfl := List.mem_singleton.1 hentry
    exact trivial

theorem integral_principal (principal : AuthenticatedPrincipal) : principal.toValue.Integral := by
  have hscopes : Value.IntegralItems (principal.scopes.map .str) := by
    refine Value.integralItems_iff.2 fun item hitem => ?_
    obtain ⟨_, -, rfl⟩ := List.mem_map.1 hitem
    exact trivial
  refine Value.integralMembers_iff.2 ?_
  simp only [List.forall_mem_append, List.forall_mem_cons]
  exact ⟨⟨trivial, trivial, hscopes, fun _ hmem => absurd hmem List.not_mem_nil⟩,
    integral_optional _ _, integral_optional _ _⟩

theorem integral_payload : payload.toValue.Integral := by
  refine Value.integralMembers_iff.2 ?_
  simp only [List.forall_mem_append, List.forall_mem_cons]
  exact ⟨⟨trivial, trivial, ⟨_, rfl⟩, ⟨_, rfl⟩, trivial, trivial, trivial,
    integral_principal payload.principal, trivial, fun _ hmem => absurd hmem List.not_mem_nil⟩,
    integral_optional _ _, integral_optional _ _⟩

/-- A signed payload is opened. -/
theorem openContext_signed {secret : Text} (hsecret : secret ≠ []) :
    openContext P (some (contextToken (base64UrlEncodeString payload.toValue.stringify)
      (computeSignature P (base64UrlEncodeString payload.toValue.stringify) secret))) secret =
      .ok payload.toValue.parsed := by
  have hread : base64UrlDecodeToString (base64UrlEncodeString payload.toValue.stringify) =
      some payload.toValue.stringify :=
    base64UrlDecodeToString_encode (List.cons_ne_nil _ _)
      (Value.isWellFormed_stringify payload.toValue)
      fun hmark => absurd (Option.some.inj hmark) (by decide)
  have hparse := parse_stringify (integral_payload payload)
  have hlength : secret.length ≠ 0 := fun hzero => hsecret (List.length_eq_zero_iff.1 hzero)
  unfold openContext
  rw [bind_eq_ok]
  refine ⟨(), throwIf_eq_ok.2 (by simp [contextToken]), ?_⟩
  have hpayloadB64 : 0x2e ∉ base64UrlEncodeString payload.toValue.stringify :=
    dot_notMem_encodeBytes _
  have hsig : 0x2e ∉ computeSignature P (base64UrlEncodeString payload.toValue.stringify) secret :=
    dot_notMem_bytesToHex _
  rw [Option.getD_some, splitOn_contextToken hpayloadB64 hsig]
  simp only [check_bind_eq_ok, throwIf_eq_ok, not_not, not_or, ne_eq]
  refine ⟨trivial, hlength, ⟨trivial, trivial⟩, ?_⟩
  rw [hread]
  simp only [Option.bind_some, hparse]
  rfl

/-- What is opened was signed. -/
theorem signed_of_openContext {token : Option Text} {secret : Text} {payload : Parsed}
    (h : openContext P token secret = .ok payload) : secret ≠ [] ∧ ∃ payloadB64,
    token = some (contextToken payloadB64 (computeSignature P payloadB64 secret)) := by
  unfold openContext at h
  rw [check_bind_eq_ok, throwIf_eq_ok] at h
  obtain ⟨hne, hsplit⟩ := h
  cases token with
  | none => exact absurd rfl hne
  | some token =>
    rw [Option.getD_some] at hsplit
    have hjoin : [(0x2e : UInt16)].intercalate (token.splitOn 0x2e) = token :=
      List.intercalate_splitOn 0x2e
    split at hsplit
    · next version payloadB64 presentedSig hparts =>
        simp only [check_bind_eq_ok, throwIf_eq_ok, not_not, not_or, ne_eq] at hsplit
        obtain ⟨rfl, hsecret, ⟨-, rfl⟩, -⟩ := hsplit
        refine ⟨fun hnil => hsecret (by rw [hnil]; rfl), payloadB64, congrArg some ?_⟩
        rw [← hjoin, hparts]
        simp [contextToken, List.intercalate, List.intersperse]
    · cases hsplit

/-! ## Acceptance -/

/-- Options with the secret, issuer, audience, method and path of a minted token, and with no
other expectation than its own bindings. -/
structure Fits (P : Platform) (options : MintOptions) (expected : VerifyInternalOptions) :
    Prop where
  signingSecret : expected.signingSecret = options.signingSecret
  issuer : expected.expectedIssuer.getD internalIssuer = options.issuerOr
  audience : expected.expectedAudience = options.audience
  method : P.toUpperCase expected.expectedMethod = P.toUpperCase options.method
  path : expected.expectedPath = options.path
  requestId : expected.expectedRequestId ≠ none →
    expected.expectedRequestId = some options.requestId
  purpose : expected.expectedPurpose ≠ none → expected.expectedPurpose = options.purpose
  bodySha256 : expected.expectedBodySha256 ≠ none →
    expected.expectedBodySha256 = options.bodySha256

/-- The options that expect every binding of a minted token. -/
def MintOptions.verification (options : MintOptions) : VerifyInternalOptions where
  signingSecret := options.signingSecret
  expectedIssuer := some options.issuerOr
  expectedAudience := options.audience
  expectedMethod := options.method
  expectedPath := options.path
  expectedRequestId := some options.requestId
  expectedPurpose := options.purpose
  expectedBodySha256 := options.bodySha256

theorem fits_verification (P : Platform) (options : MintOptions) :
    Fits P options options.verification :=
  ⟨rfl, rfl, rfl, rfl, rfl, fun _ => rfl, fun _ => rfl, fun _ => rfl⟩

/-- Only the minted payload is opened. -/
theorem openContext_minted {now : Int} (h : Minted P options now token) :
    openContext P (some token) options.signingSecret =
      .ok (options.payload P now).toValue.parsed := by
  rw [h.token]
  exact openContext_signed (options.payload P now) h.secret

/-- A minted payload is accepted while it lives, when its scopes are. -/
theorem accepts_minted {expected : VerifyInternalOptions} {minted : Int}
    (h : Minted P options minted token) (hfits : Fits P options expected) :
    Accepts P expected now (options.payload P minted).toValue.parsed ↔
      (∀ scope ∈ options.principal.scopes, Bounded 128 scope) ∧
        (minted : ℚ) ≤ now ∧ now < minted + options.ttl := by
  obtain ⟨hiss, haud, hmethod, hpath, hrequestId, hbinding⟩ :=
    text_payload (options.payload P minted)
  obtain ⟨hpurpose, hbodySha256⟩ := text_optional (options.payload P minted)
  obtain ⟨hgetPurpose, hgetBody⟩ := get_optional (options.payload P minted)
  obtain ⟨hiat, hexp⟩ := integer_payload (options.payload P minted)
  have hprincipal : isPrincipal (options.payload P minted).toValue.parsed = true ↔
      ∀ scope ∈ options.principal.scopes, Bounded 128 scope := isPrincipal_payload h.owner h.scopes
  have hend : ((minted + options.ttl.num : Int) : ℚ) = minted + options.ttl := by
    rw [Int.cast_add, ← h.ttl.1]
  constructor
  · intro haccepts
    obtain ⟨_, _, hiat', hexp', ⟨hafter, hbefore⟩, -⟩ := haccepts.time
    obtain rfl := Option.some.inj (hiat.symm.trans hiat')
    obtain rfl := Option.some.inj (hexp.symm.trans hexp')
    exact ⟨hprincipal.1 haccepts.principal, hafter, lt_of_lt_of_eq hbefore hend⟩
  · rintro ⟨hscopes, hafter, hbefore⟩
    exact
      { issuer := hiss.trans (congrArg some hfits.issuer.symm)
        audience := haud.trans (congrArg some hfits.audience.symm)
        method := hmethod.trans (congrArg some hfits.method.symm)
        path := hpath.trans (congrArg some hfits.path.symm)
        bound := by
          rw [hrequestId]
          exact Nat.one_le_iff_ne_zero.1 h.requestId.1
        principal := hprincipal.2 hscopes
        purposeFormat := isOptional_of hgetPurpose h.purpose
        bodyFormat := isOptional_of hgetBody h.bodySha256
        purpose := fun hne => hpurpose.trans (hfits.purpose hne).symm
        bodySha256 := fun hne => hbodySha256.trans (hfits.bodySha256 hne).symm
        credentialBinding := by
          rw [hbinding]
          exact h.credentialBinding
        requestId := fun hne => hrequestId.trans (hfits.requestId hne).symm
        time := by
          refine ⟨minted, minted + options.ttl.num, hiat, hexp, ⟨hafter, ?_⟩, ?_⟩
          · exact lt_of_lt_of_eq hbefore hend.symm
          · rw [add_sub_cancel_left]
            exact h.ttl.2.2 }

/-! ## The guarantees -/

/-- A token is accepted exactly while it lives, with the payload that was minted. -/
def Completes (P : Platform) (options : MintOptions) (minted : Int) (token : Text) : Prop :=
  ∀ expected, Fits P options expected → ∀ (now : ℚ) (payload : Parsed),
    verifyInternalContext P (some token) expected now = .ok payload ↔
      ((minted : ℚ) ≤ now ∧ now < minted + options.ttl) ∧
        payload = (options.payload P minted).toValue.parsed

/-- Only what was minted with the secret carries a valid signature. -/
def Unforged (P : Platform) (minted : List (MintOptions × Int)) (token : Option Text)
    (secret : Text) : Prop :=
  ∀ payloadB64, token = some (contextToken payloadB64 (computeSignature P payloadB64 secret)) →
    ∃ entry ∈ minted, entry.1.signingSecret = secret ∧
      mintInternalContext P entry.1 entry.2 =
        .ok (contextToken payloadB64 (computeSignature P payloadB64 secret))

/-- A request carries a token that was minted for it, and no other credential. -/
def BoundTo (P : Platform) (minted : List (MintOptions × Int)) (headers : Headers)
    (options : ContainerAuthOptions) : Prop :=
  headers "authorization" = none ∧ ∃ entry ∈ minted, ∃ token,
    headers internalContextHeader = some token ∧
      mintInternalContext P entry.1 entry.2 = .ok token ∧
      entry.1.audience = options.expectedAudience ∧
      P.toUpperCase entry.1.method = P.toUpperCase options.expectedMethod ∧
      entry.1.path = options.expectedPath ∧
      headers internalRequestIdHeader = some entry.1.requestId

/-- Minting counts scopes, verification looks into them. -/
theorem completes_iff {minted : Int} (h : mintInternalContext P options minted = .ok token) :
    Completes P options minted token ↔
      ∀ scope ∈ options.principal.scopes, Bounded 128 scope := by
  have hminted := minted_of_mint h
  constructor
  · intro hcompletes
    have hpos : (0 : ℚ) < options.ttl := by
      rw [hminted.ttl.1]
      exact_mod_cast hminted.ttl.2.1
    have hnow : (minted : ℚ) ≤ minted ∧ (minted : ℚ) < minted + options.ttl :=
      ⟨le_refl _, lt_add_of_pos_right _ hpos⟩
    have hok := (hcompletes _ (fits_verification P options) minted _).2 ⟨hnow, rfl⟩
    have haccepts := (verifyInternalContext_eq_ok.1 hok).2
    exact ((accepts_minted hminted (fits_verification P options)).1 haccepts).1
  · intro hscopes expected hfits now payload
    rw [verifyInternalContext_eq_ok, hfits.signingSecret, openContext_minted hminted]
    constructor
    · rintro ⟨hopen, haccepts⟩
      obtain rfl := Except.ok.inj hopen
      exact ⟨((accepts_minted hminted hfits).1 haccepts).2, rfl⟩
    · rintro ⟨hnow, rfl⟩
      exact ⟨rfl, (accepts_minted hminted hfits).2 ⟨hscopes, hnow⟩⟩

/-- What the listener accepts has been verified. -/
theorem verified_of_accepted {options : ContainerAuthOptions}
    (h : (verifyContainerAuth P headers .workerInternalContext options now).ok = true) :
    headers "authorization" = none ∧ ∃ payload, verifyInternalContext P
      (headers internalContextHeader) (options.verification headers) now = .ok payload := by
  unfold verifyContainerAuth at h
  cases hverified : verifyInternalContext P (headers internalContextHeader)
      (options.verification headers) now with
  | error reason =>
    simp only [hverified] at h
    cases h
  | ok payload =>
    simp only [hverified] at h
    cases hauthorization : headers "authorization" with
    | none => exact ⟨rfl, payload, rfl⟩
    | some authorization =>
      rw [hauthorization] at h
      cases h

theorem accepted_of_verified {options : ContainerAuthOptions} {payload : Parsed}
    (hauthorization : headers "authorization" = none)
    (hverified : verifyInternalContext P (headers internalContextHeader)
      (options.verification headers) now = .ok payload) :
    (verifyContainerAuth P headers .workerInternalContext options now).ok = true := by
  unfold verifyContainerAuth
  simp only [hverified, hauthorization]
  rfl

/-- The request identifier is compared when the request names one. -/
theorem bound_iff {minted : List (MintOptions × Int)} {options : ContainerAuthOptions}
    (hunforged : Unforged P minted (headers internalContextHeader) (options.signingSecret.getD []))
    (h : (verifyContainerAuth P headers .workerInternalContext options now).ok = true) :
    BoundTo P minted headers options ↔ headers internalRequestIdHeader ≠ none := by
  obtain ⟨hauthorization, payload, hverified⟩ := verified_of_accepted h
  obtain ⟨hopen, haccepts⟩ := verifyInternalContext_eq_ok.1 hverified
  obtain ⟨-, payloadB64, htoken⟩ := signed_of_openContext hopen
  obtain ⟨entry, hentry, hsecret, hmint⟩ := hunforged payloadB64 htoken
  have hminted := minted_of_mint hmint
  -- the payload that was opened is the one that was minted
  have hpayload : payload = (entry.1.payload P entry.2).toValue.parsed := by
    rw [htoken] at hopen
    have hsecret' : (options.verification headers).signingSecret = entry.1.signingSecret :=
      hsecret.symm
    rw [hsecret', openContext_minted (hsecret ▸ hminted)] at hopen
    exact (Except.ok.inj hopen).symm
  obtain ⟨-, haud, hmethod, hpath, hrequestId, -⟩ := text_payload (entry.1.payload P entry.2)
  rw [← hpayload] at haud hmethod hpath hrequestId
  constructor
  · rintro ⟨-, _, -, _, -, -, -, -, -, hheader⟩
    rw [hheader]
    exact Option.some_ne_none _
  · intro hheader
    refine ⟨hauthorization, entry, hentry, _, htoken, hmint, ?_, ?_, ?_, ?_⟩
    · exact Option.some.inj (haud.symm.trans haccepts.audience)
    · exact Option.some.inj (hmethod.symm.trans haccepts.method)
    · exact Option.some.inj (hpath.symm.trans haccepts.path)
    · exact (haccepts.requestId hheader).symm.trans hrequestId

/-- Minted tokens are accepted for as long as they live exactly when verification accepts their
scopes, and accepted requests are bound to what they carry exactly when they name themselves. -/
theorem contexts_bind (P : Platform) :
    (∀ (options : MintOptions) (minted : Int) (token : Text),
      mintInternalContext P options minted = .ok token →
        (Completes P options minted token ↔
          ∀ scope ∈ options.principal.scopes, Bounded 128 scope)) ∧
    ∀ (minted : List (MintOptions × Int)) (headers : Headers) (options : ContainerAuthOptions)
      (now : ℚ),
      Unforged P minted (headers internalContextHeader) (options.signingSecret.getD []) →
      (verifyContainerAuth P headers .workerInternalContext options now).ok = true →
        (BoundTo P minted headers options ↔ headers internalRequestIdHeader ≠ none) :=
  ⟨fun _ _ _ h => completes_iff h, fun _ _ _ _ hunforged h => bound_iff hunforged h⟩

/-! ## A sample -/

/-- Options with one scope. -/
def sampleOptions (scope : Text) : MintOptions where
  issuer := none
  signingSecret := ascii "s"
  audience := ascii "c"
  method := ascii "get"
  path := ascii "/"
  requestId := ascii "r"
  principal := { createStaticPrincipal with scopes := [scope] }
  credentialBinding := ascii "b"
  ttlMs := none
  purpose := none
  bodySha256 := none

/-- What the encoded payloads of the sample have in common. -/
def samplePayload : String :=
  "eyJpc3MiOiJncm91bmRsYW5lLXdvcmtlciIsImF1ZCI6ImMiLCJpYXQiOjAsImV4cCI6MzAwMDAsIm1ldGhvZCI6" ++
    "IkdFVCIsInBhdGgiOiIvIiwicmVxdWVzdElkIjoiciIsInByaW5jaXBhbCI6eyJwcmluY2lwYWxJZCI6Im93bmVy" ++
    "IiwiYXV0aE1ldGhvZCI6InN0YXRpY19iZWFyZXIiLCJzY29wZXMi"

/-- The signatures under the key `s` of the two payloads of the sample, and upper-casing of
ASCII letters. -/
def samplePlatform : Platform where
  hmac key message :=
    if key = [0x73] ∧ message = encode (ascii (samplePayload ++
        "OlsiIl19LCJjcmVkZW50aWFsQmluZGluZyI6ImIifQ")) then
      [103, 18, 218, 8, 82, 54, 174, 49, 253, 230, 245, 254, 30, 109, 42, 196, 132, 72, 100, 196,
        184, 15, 79, 43, 198, 63, 219, 83, 144, 213, 137, 87]
    else if key = [0x73] ∧ message = encode (ascii (samplePayload ++
        "OlsibSJdfSwiY3JlZGVudGlhbEJpbmRpbmciOiJiIn0")) then
      [142, 104, 187, 226, 197, 166, 112, 249, 108, 38, 192, 146, 163, 251, 42, 40, 86, 234, 203,
        201, 114, 60, 244, 94, 197, 67, 80, 175, 203, 122, 19, 130]
    else []
  digest message :=
    if message =
        encode (ascii "6712da085236ae31fde6f5fe1e6d2ac4844864c4b80f4f2bc63fdb5390d58957") then
      [120, 169, 247, 154, 254, 69, 110, 5, 21, 130, 75, 105, 44, 147, 97, 223, 16, 80, 132, 141,
        47, 222, 198, 131, 136, 71, 121, 221, 83, 137, 121, 115]
    else if message =
        encode (ascii "8e68bbe2c5a670f96c26c092a3fb2a2856eacbc9723cf45ec54350afcb7a1382") then
      [16, 139, 50, 134, 4, 230, 23, 32, 156, 13, 170, 29, 51, 123, 229, 75, 11, 123, 153, 114,
        161, 74, 104, 134, 130, 98, 27, 194, 122, 102, 177, 180]
    else []
  toUpperCase value := value.map fun unit =>
    if 0x61 ≤ unit && unit ≤ 0x7a then unit - 0x20 else unit

/-- The token of the sample. -/
def sampleToken (scope : Text) : Text :=
  let payloadB64 :=
    base64UrlEncodeString ((sampleOptions scope).payload samplePlatform 0).toValue.stringify
  contextToken payloadB64 (computeSignature samplePlatform payloadB64 (ascii "s"))

/-- A request with a token of the sample. -/
def sampleHeaders (requestId : Option Text) : Headers := fun name =>
  if name = internalContextHeader then some (sampleToken (ascii "m"))
  else if name = internalRequestIdHeader then requestId
  else none

/-- The options of the listener of the sample. -/
def sampleListener : ContainerAuthOptions where
  legacyToken := none
  signingSecret := some (ascii "s")
  expectedAudience := ascii "c"
  expectedMethod := ascii "GET"
  expectedPath := ascii "/"
  expectedPurpose := none
  expectedBodySha256 := none

theorem mint_sample (scope : Text) :
    mintInternalContext samplePlatform (sampleOptions scope) 0 = .ok (sampleToken scope) := by
  unfold mintInternalContext
  simp only [check_bind_eq_ok, throwIf_eq_ok]
  refine ⟨?_, ?_, ?_, ?_, ?_, ?_, ?_, ?_, ?_, ?_, rfl⟩
  · show ¬ (ascii "s").length = 0
    decide
  · show ¬ ¬ isLabel internalIssuer
    decide
  · show ¬ ¬ Bounded 128 (ascii "c")
    decide
  · show ¬ ¬ Bounded 128 (ascii "r")
    decide
  · exact not_not.2 rfl
  · show ¬ (1 = 0 ∨ 32 < 1)
    decide
  · show ¬ ¬ Bounded 256 (ascii "b")
    decide
  · exact not_not.2 rfl
  · rintro ⟨purpose, hpurpose, -⟩
    exact absurd hpurpose (Option.not_mem_none purpose)
  · show ¬ (((30000 : Int) : ℚ).den ≠ 1 ∨ ((30000 : Int) : ℚ) ≤ 0 ∨
      ((60000 : Int) : ℚ) < (30000 : Int))
    decide +kernel

theorem unforged_sample (requestId : Option Text) :
    Unforged samplePlatform [(sampleOptions (ascii "m"), 0)]
      (sampleHeaders requestId internalContextHeader) (sampleListener.signingSecret.getD []) := by
  intro payloadB64 htoken
  refine ⟨_, List.mem_cons_self, rfl, ?_⟩
  rw [← Option.some.inj htoken]
  exact mint_sample (ascii "m")

/-- The token of the sample is accepted without the header that it is bound to. -/
theorem accepted_sample {requestId : Option Text}
    (hrequestId : requestId ≠ none → requestId = some (ascii "r")) :
    (verifyContainerAuth samplePlatform (sampleHeaders requestId) .workerInternalContext
      sampleListener 0).ok = true := by
  have hscopes : ∀ scope ∈ (sampleOptions (ascii "m")).principal.scopes, Bounded 128 scope := by
    show ∀ scope ∈ [ascii "m"], Bounded 128 scope
    decide
  have hcompletes := (completes_iff (mint_sample (ascii "m"))).2 hscopes
  have hfits : Fits samplePlatform (sampleOptions (ascii "m"))
      (sampleListener.verification (sampleHeaders requestId)) :=
    { signingSecret := rfl
      issuer := rfl
      audience := rfl
      method := by
        show samplePlatform.toUpperCase (ascii "GET") = samplePlatform.toUpperCase (ascii "get")
        decide
      path := rfl
      requestId := hrequestId
      purpose := fun hne => absurd rfl hne
      bodySha256 := fun hne => absurd rfl hne }
  have hnow : ((0 : Int) : ℚ) ≤ 0 ∧
      (0 : ℚ) < ((0 : Int) : ℚ) + (sampleOptions (ascii "m")).ttl := by
    decide +kernel
  exact accepted_of_verified rfl ((hcompletes _ hfits 0 _).2 ⟨hnow, rfl⟩)

theorem contexts_bind_sample :
    Completes samplePlatform (sampleOptions (ascii "m")) 0 (sampleToken (ascii "m")) ∧
      BoundTo samplePlatform [(sampleOptions (ascii "m"), 0)] (sampleHeaders (some (ascii "r")))
        sampleListener :=
  ⟨((contexts_bind samplePlatform).1 _ _ _ (mint_sample (ascii "m"))).2 (by
      show ∀ scope ∈ [ascii "m"], Bounded 128 scope
      decide),
    ((contexts_bind samplePlatform).2 _ _ _ _ (unforged_sample (some (ascii "r")))
      (accepted_sample fun _ => rfl)).2 (Option.some_ne_none _)⟩

/-- A token with an empty scope is minted and never accepted, and a request without an identifier
is accepted with any token that was minted for its audience, method and path. -/
theorem contexts_unbound :
    (mintInternalContext samplePlatform (sampleOptions []) 0 = .ok (sampleToken []) ∧
      ¬ Completes samplePlatform (sampleOptions []) 0 (sampleToken [])) ∧
    (Unforged samplePlatform [(sampleOptions (ascii "m"), 0)]
        (sampleHeaders none internalContextHeader) (sampleListener.signingSecret.getD []) ∧
      (verifyContainerAuth samplePlatform (sampleHeaders none) .workerInternalContext
        sampleListener 0).ok = true ∧
      ¬ BoundTo samplePlatform [(sampleOptions (ascii "m"), 0)] (sampleHeaders none)
        sampleListener) := by
  refine ⟨⟨mint_sample [], fun hcompletes => ?_⟩, unforged_sample none,
    accepted_sample fun hne => absurd rfl hne, fun hbound => ?_⟩
  · have hscope := (completes_iff (mint_sample [])).1 hcompletes [] List.mem_cons_self
    exact absurd hscope (by decide)
  · obtain ⟨-, entry, -, token, -, -, -, -, -, hheader⟩ := hbound
    exact absurd hheader (Option.some_ne_none _).symm

end Groundlane.InternalContext
