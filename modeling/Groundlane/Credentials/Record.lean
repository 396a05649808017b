import Groundlane.Json.Value
import Groundlane.Sql.Table

/-!
# Managed credentials

The records of `worker/managed-tokens.ts`, the checks on what a caller asks for, and the tokens
that are handed out. A credential is known by its public identifier; of its secret only a digest
is stored.
-/

namespace Groundlane.Credentials

/-! ## Records -/

inductive ManagedStoredStatus where
  | active
  | rotating
  | revoked
  | disabled
deriving DecidableEq, Repr

def ManagedStoredStatus.text : ManagedStoredStatus → String
  | active => "active"
  | rotating => "rotating"
  | revoked => "revoked"
  | disabled => "disabled"

inductive ManagedEffectiveStatus where
  | active
  | rotating
  | expired
  | rotationExpired
  | revoked
  | disabled
deriving DecidableEq, Repr

/-- The only principal that credentials are issued to. -/
inductive PrincipalId where
  | owner
deriving DecidableEq, Repr

structure ManagedCredentialRecord where
  id : String
  verifier : String
  principalId : PrincipalId
  scopes : List String
  label : String
  status : ManagedStoredStatus
  createdAt : Int
  updatedAt : Int
  expiresAt : Int
  validUntil : Option Int
  rotatedTo : Option String
  rotatedFrom : Option String
  revokedAt : Option Int
deriving DecidableEq, Repr

/-- `ManagedTokenError.code`. -/
inductive ErrorCode where
  | validation
  | notFound
  | conflict
  | duplicateId
  | storageUnavailable
deriving DecidableEq, Repr

structure ManagedTokenError where
  code : ErrorCode
  message : String
deriving DecidableEq, Repr

/-- The status at a time, and whether the credential can be used then. -/
def getEffectiveStatus (record : ManagedCredentialRecord) (now : Int) :
    ManagedEffectiveStatus × Bool :=
  match record.status with
  | .revoked => (.revoked, false)
  | .disabled => (.disabled, false)
  | .active => if now < record.expiresAt then (.active, true) else (.expired, false)
  | .rotating =>
    match record.validUntil with
    | none => (.rotationExpired, false)
    | some validUntil =>
      if now < min validUntil record.expiresAt then (.rotating, true)
      else if now < record.expiresAt then (.rotationExpired, false)
      else (.expired, false)

/-! ## Identifiers, secrets and tokens -/

/-- The length of a secret in bytes. -/
def minSecretBytes : Nat := 32

def base64UrlAlphabet : List Char :=
  "ABCDEFGHIJKLMNOPQRSTUVWXYZabcdefghijklmnopqrstuvwxyz0123456789-_".toList

/-- The character for six bits. -/
def base64UrlChar (n : Nat) : Char :=
  base64UrlAlphabet.getD (n % 64) 'A'

/-- `encodeBase64Url`: three bytes at a time, without padding. -/
def base64UrlChars : List UInt8 → List Char
  | a :: b :: c :: rest =>
    let n := a.toNat * 65536 + b.toNat * 256 + c.toNat
    base64UrlChar (n / 262144) :: base64UrlChar (n / 4096) :: base64UrlChar (n / 64) ::
      base64UrlChar n :: base64UrlChars rest
  | [a, b] =>
    let n := a.toNat * 65536 + b.toNat * 256
    [base64UrlChar (n / 262144), base64UrlChar (n / 4096), base64UrlChar (n / 64)]
  | [a] =>
    let n := a.toNat * 65536
    [base64UrlChar (n / 262144), base64UrlChar (n / 4096)]
  | [] => []

def encodeBase64Url (bytes : List UInt8) : String :=
  String.ofList (base64UrlChars bytes)

example : encodeBase64Url [255, 0] = "_wA" := by decide +kernel

/-- A letter, a digit, `_` or `-`. -/
def isTokenChar (c : Char) : Bool :=
  c.isAlphanum || c == '_' || c == '-'

def isValidCredentialId (id : String) : Bool :=
  decide (8 ≤ id.toList.length) && decide (id.toList.length ≤ 64) && id.toList.all isTokenChar

/-- The identifier made of twelve random bytes. -/
def credentialIdOf (bytes : List UInt8) : String :=
  "cred_" ++ String.ofList ((base64UrlChars bytes).take 16)

def managedTokenPrefix : String := "glmt_"

def formatManagedToken (id rawSecret : String) : String :=
  managedTokenPrefix ++ id ++ "." ++ rawSecret

/-- A presented token, taken apart. -/
structure ParsedToken where
  id : String
  secret : String
deriving DecidableEq, Repr

def parseManagedToken (rawToken : String) : Option ParsedToken :=
  if !managedTokenPrefix.toList.isPrefixOf rawToken.toList then none
  else
    let rest := rawToken.toList.drop managedTokenPrefix.toList.length
    let id := rest.takeWhile fun c => c != '.'
    let secret := (rest.dropWhile fun c => c != '.').drop 1
    if id = [] ∨ secret = [] then none
    else if !isValidCredentialId (String.ofList id) then none
    else if utf16Length (String.ofList secret) < 43 ∨ 128 < utf16Length (String.ofList secret) then
      none
    else if !secret.all isTokenChar then none
    else some ⟨String.ofList id, String.ofList secret⟩

/-- A token is taken apart into an identifier and a secret exactly if it was made of them and both
are well formed. -/
theorem parseManagedToken_eq_iff {rawToken id secret : String} :
    parseManagedToken rawToken = some ⟨id, secret⟩ ↔
      rawToken = formatManagedToken id secret ∧ isValidCredentialId id = true ∧
        43 ≤ utf16Length secret ∧ utf16Length secret ≤ 128 ∧
        secret.toList.all isTokenChar = true := by
  constructor
  · intro h
    simp only [parseManagedToken] at h
    split at h
    · cases h
    rename_i hstart
    split at h
    · cases h
    rename_i hnil
    split at h
    · cases h
    rename_i hid
    split at h
    · cases h
    rename_i hlength
    split at h
    · cases h
    rename_i hsecret
    obtain ⟨rfl, rfl⟩ := ParsedToken.mk.inj (Option.some.inj h)
    obtain ⟨rest, hrest⟩ : managedTokenPrefix.toList <+: rawToken.toList := by simpa using hstart
    rw [← hrest, List.drop_left] at hnil hid hlength hsecret ⊢
    rw [not_or] at hnil hlength
    -- What is behind the identifier starts with the separator.
    obtain ⟨c, tail, htail⟩ := List.exists_cons_of_ne_nil
      (l := rest.dropWhile fun c => c != '.') (by rintro heq; simp [heq] at hnil)
    have hc := List.head?_dropWhile_not (fun c : Char => c != '.') rest
    rw [htail] at hnil hlength hsecret ⊢
    obtain rfl : c = '.' := by simpa [htail] using hc
    refine ⟨String.toList_inj.1 ?_, by simpa using hid, by omega, by omega,
      by simpa using hsecret⟩
    rw [← hrest]
    conv_lhs => rw [← List.takeWhile_append_dropWhile (p := fun c => c != '.') (l := rest), htail]
    simp [formatManagedToken, String.toList_append]
  · rintro ⟨rfl, hid, hmin, hmax, hsecret⟩
    have hidAll := (Bool.and_eq_true_iff.1 hid).2
    have hnodot : ∀ c ∈ id.toList, (c != '.') = true := by
      intro c hc
      have htoken := List.all_eq_true.1 hidAll c hc
      by_contra hdot
      obtain rfl : c = '.' := by simpa using hdot
      exact absurd htoken (by decide)
    have htext : (formatManagedToken id secret).toList =
        managedTokenPrefix.toList ++ (id.toList ++ '.' :: secret.toList) := by
      simp [formatManagedToken, String.toList_append]
    have hidNil : id.toList ≠ [] := by
      intro hnil
      simp [isValidCredentialId, hnil] at hid
    have hsecretNil : secret.toList ≠ [] := by
      intro hnil
      simp [utf16Length, hnil] at hmin
    simp only [parseManagedToken, htext, List.drop_left, List.takeWhile_append_of_pos hnodot,
      List.dropWhile_append_of_pos hnodot]
    rw [if_neg (by simp)]
    simp [hidNil, hsecretNil, hid, hsecret, hmin, hmax]

/-! ## What callers ask for -/

/-- A value of type `unknown`, as far as the checks tell values apart; an entry of an array that
is not a string is `none`. -/
inductive Unknown where
  | undefined
  | integer (value : Int)
  | string (value : String)
  | array (entries : List (Option String))
  | other
deriving DecidableEq, Repr

/-- A failed check. -/
def invalid {α : Type} (message : String) : Except ManagedTokenError α :=
  .error ⟨.validation, message⟩

def parseOverlapSeconds : Unknown → Except ManagedTokenError Int
  | .integer value =>
    if value < 0 ∨ 86400 < value then invalid "overlapSeconds must be an integer 0..86400"
    else .ok value
  | _ => invalid "overlapSeconds must be an integer 0..86400"

/-- One hour unless the caller says otherwise. -/
def normalizeOverlapSeconds : Unknown → Except ManagedTokenError Int
  | .undefined => .ok 3600
  | input => parseOverlapSeconds input

def isScopeChar (c : Char) : Bool :=
  isTokenChar c || c == ':'

def validateScope : Option String → Except ManagedTokenError String
  | some entry =>
    if entry.toList = [] ∨ 64 < utf16Length entry ∨ ¬ entry.toList.all isScopeChar then
      invalid "invalid scope entry"
    else .ok entry
  | none => invalid "invalid scope entry"

def validateScopes : Unknown → Except ManagedTokenError (List String)
  | .undefined => .ok ["mcp"]
  | .array entries =>
    if 16 < entries.length then invalid "too many scopes" else entries.mapM validateScope
  | _ => invalid "scopes must be an array"

def validateLabel : Unknown → Except ManagedTokenError String
  | .undefined => .ok ""
  | .string label => if 64 < utf16Length label then invalid "invalid label" else .ok label
  | _ => invalid "invalid label"

def validateIdempotencyKey : Unknown → Except ManagedTokenError (Option String)
  | .undefined => .ok none
  | .string key =>
    if key.toList = [] ∨ 128 < utf16Length key ∨ ¬ key.toList.all isTokenChar then
      invalid "invalid idempotency key"
    else .ok (some key)
  | _ => invalid "invalid idempotency key"

end Groundlane.Credentials
