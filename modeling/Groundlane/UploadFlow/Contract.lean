import Groundlane.Sequential.Checks
import Groundlane.Text.Sanitize

/-!
# Upload intents, artifact references and the types of uploaded bytes

The types and the checks of `core/upload-intent.ts` that its two runtimes share: the upload flow
and the artifact lifecycle. Byte arrays are lists of bytes. The regular expressions that an
artifact reference must not match are written out as tests of characters.
-/

namespace Groundlane

open Sequential

abbrev Bytes := List UInt8

inductive UploadIntentStatus where
  | pending
  | uploading
  | completing
  | finalized
  | expired
  | failed
deriving DecidableEq, Repr

def UploadIntentStatus.text : UploadIntentStatus → String
  | pending => "pending"
  | uploading => "uploading"
  | completing => "completing"
  | finalized => "finalized"
  | expired => "expired"
  | failed => "failed"

structure UploadIntent where
  intentId : String
  ownershipScope : String
  declaredMime : String
  declaredSize : Int
  maxSize : Int
  expectedDigest : Option String
  expiresAt : Int
  status : UploadIntentStatus
  multipart : Bool
deriving DecidableEq, Repr

structure CompleteUploadRequest where
  intentId : String
  actualSize : Nat
  sniffedMime : String
  contentHash : String

/-- 15 minutes. -/
def uploadIntentDefaultTtlMs : Int := 15 * 60 * 1000

def validateCreateIntent (intent : UploadIntent) (nowMs : Int) : Except Fault Unit := do
  throwIf (intent.intentId = "") (.error "Upload intent must have a non-empty intentId")
  throwIf (intent.ownershipScope = "") (.error "Upload intent must have a non-empty ownershipScope")
  throwIf (intent.declaredSize ≤ 0) (.error "Upload intent declaredSize must be positive")
  throwIf (intent.declaredSize > intent.maxSize)
    (.error ("Declared size " ++ toString intent.declaredSize ++ " exceeds max size " ++
      toString intent.maxSize))
  throwIf (intent.expiresAt ≤ nowMs) (.error "Upload intent is already expired at creation time")
  throwIf intent.multipart (.error "V1 only supports single PUT upload; multipart is rejected")

/-- The comparison of a content hash with the expected digest, if there is one. -/
def checkDigest (expectedDigest : Option String) (contentHash : String) (error : String → Fault) :
    Except Fault Unit :=
  match expectedDigest with
  | none => .ok ()
  | some expectedDigest =>
    throwIf (contentHash ≠ expectedDigest)
      (error ("Content hash mismatch: expected \"" ++ expectedDigest ++ "\", got \"" ++
        contentHash ++ "\""))

def validateCompleteUpload (intent : UploadIntent) (req : CompleteUploadRequest) (nowMs : Int) :
    Except Fault Unit := do
  throwIf (nowMs ≥ intent.expiresAt) (.error "Upload intent has expired")
  throwIf (intent.status = .finalized) (.error "Cannot overwrite a finalized staging object")
  throwIf (intent.status = .expired) (.error "Upload intent has expired")
  throwIf (intent.status = .failed) (.error "Upload intent has failed")
  throwIf (intent.status ≠ .uploading ∧ intent.status ≠ .pending)
    (.error ("Upload intent is in unexpected status: \"" ++ intent.status.text ++ "\""))
  throwIf (req.intentId ≠ intent.intentId) (.error "Intent ID mismatch: possible replay attack")
  throwIf (req.actualSize > intent.maxSize)
    (.error ("Actual size " ++ toString req.actualSize ++ " exceeds max size " ++
      toString intent.maxSize))
  checkDigest intent.expectedDigest req.contentHash .error
  throwIf (req.sniffedMime ≠ intent.declaredMime)
    (.error ("MIME type mismatch: declared \"" ++ intent.declaredMime ++ "\", sniffed \"" ++
      req.sniffedMime ++ "\""))

def validateCrossOwnership (intent : UploadIntent) (callerScope : String) : Except Fault Unit :=
  if intent.ownershipScope ≠ callerScope then
    .error (.error ("Cross-ownership access denied: intent scope \"" ++ intent.ownershipScope ++
      "\" does not match caller scope \"" ++ callerScope ++ "\""))
  else .ok ()

/-! ## Artifact references -/

inductive ArtifactKind where
  | source
  | canonicalDocument
  | projection
deriving DecidableEq, Repr

inductive RetentionPolicy where
  | transient
  | retained
  | permanent
deriving DecidableEq, Repr

structure ArtifactRef where
  refId : String
  artifactKind : ArtifactKind
  ownershipScope : String
  contentHash : String
  byteSize : Nat
  createdAt : Int
  expiresAt : Int
  retentionPolicy : RetentionPolicy
  verified : Bool
deriving DecidableEq, Repr

/-- 24 hours. -/
def verifiedArtifactDefaultTtlMs : Int := 24 * 60 * 60 * 1000

/-- `R2_KEY_RE`: `^[0-9a-f]{32}\/[0-9a-f-]{36}`. -/
def isR2Key (refId : List Char) : Bool :=
  (refId.take 32).length == 32 && (refId.take 32).all isHexChar &&
    (refId.drop 32).head? == some '/' &&
    ((refId.drop 33).take 36).length == 36 &&
    ((refId.drop 33).take 36).all fun c => isHexChar c || c == '-'

/-- A letter of a pattern that ignores case, in a pattern with the flag `u`: the long s and the
Kelvin sign fold to `s` and `k`. -/
def foldCase (c : Char) : Char :=
  if c.toNat = 0x17f then 's' else if c.toNat = 0x212a then 'k' else c.toLower

/-- The parameters that `PRESIGNED_URL_RE` looks for, folded to lower case. -/
def presignedParameters : List (List Char) :=
  ["x-amz-credential=".toList, "x-goog-credential=".toList, "sig=".toList, "se=".toList]

/-- `PRESIGNED_URL_RE`: `[?&](?:X-Amz-Credential|X-Goog-Credential|sig|se)=`, ignoring case. -/
def isPresignedUrl : List Char → Bool
  | [] => false
  | c :: rest =>
    ((c == '?' || c == '&') &&
      presignedParameters.any fun parameter => parameter.isPrefixOf (rest.map foldCase)) ||
      isPresignedUrl rest

/-- `FILESYSTEM_PATH_RE`: `^(?:\/|\\|[A-Za-z]:\\)`. -/
def isFilesystemPath : List Char → Bool
  | '/' :: _ => true
  | '\\' :: _ => true
  | drive :: ':' :: '\\' :: _ => drive.isAlpha
  | _ => false

/-- `PROVIDER_NATIVE_ID_RE`: `^(?:arn:|projects\/|accounts\/)`. -/
def isProviderNativeId (refId : List Char) : Bool :=
  ["arn:", "projects/", "accounts/"].any fun start => start.toList.isPrefixOf refId

def validateArtifactRefId (refId : String) : Except Fault Unit := do
  throwIf (refId = "") (.error "ArtifactRef must have a non-empty refId")
  throwIf (isR2Key refId.toList) (.error "ArtifactRef refId must not be an R2 key pattern")
  throwIf (isPresignedUrl refId.toList) (.error "ArtifactRef refId must not be a presigned URL")
  throwIf (isFilesystemPath refId.toList) (.error "ArtifactRef refId must not be a filesystem path")
  throwIf (isProviderNativeId refId.toList)
    (.error "ArtifactRef refId must not be a provider-native ID")

def createArtifactRef (params : ArtifactRef) : Except Fault ArtifactRef := do
  throwIf (¬ params.verified) (.error "Cannot create ArtifactRef from unverified upload")
  validateArtifactRefId params.refId
  return params

/-! ## Cleanup windows -/

/-- 1 hour. -/
def stagingCleanupWindowMs : Int := 3600000

def validateCleanupWindow (windowMs : Int) : Except Fault Unit := do
  throwIf (windowMs > stagingCleanupWindowMs)
    (.error ("Staging cleanup window " ++ toString windowMs ++ "ms exceeds maximum " ++
      toString stagingCleanupWindowMs ++ "ms"))
  throwIf (windowMs ≤ 0) (.error "Staging cleanup window must be positive")

/-! ## The declared type and the type of the bytes -/

/-- 10 MiB. -/
def maxUploadBytes : Int := 10 * 1024 * 1024

/-- 1 hour. -/
def maxUploadTtlMs : Int := 60 * 60 * 1000

def maxIntentIdChars : Nat := 128

def maxMimeChars : Nat := 128

def maxOwnershipScopeChars : Nat := 64

def maxStagingEntries : Nat := 1000

def allowedUploadMimes : List String :=
  ["application/pdf", "image/png", "image/jpeg", "image/jpg", "image/webp", "image/gif",
    "application/vnd.openxmlformats-officedocument.wordprocessingml.document",
    "application/vnd.openxmlformats-officedocument.spreadsheetml.sheet",
    "application/vnd.openxmlformats-officedocument.presentationml.presentation",
    "application/msword",
    "application/vnd.ms-excel",
    "application/vnd.ms-powerpoint",
    "text/plain",
    "text/markdown",
    "text/csv",
    "text/html",
    "audio/mpeg",
    "audio/ogg",
    "audio/wav"]

def uploadInputError (message : String) : Fault := .groundlane .invalidInput "upload-intent" message

def assertBoundedOwnershipScope (scope : String) : Except Fault Unit := do
  throwIf (scope = "" ∨ trimSpace scope.toList = [])
    (uploadInputError "Upload intent must have a non-empty ownershipScope")
  throwIf (utf16Length scope > maxOwnershipScopeChars)
    (uploadInputError "ownershipScope exceeds maximum length")

def assertUploadMime (mime : String) : Except Fault String := do
  let trimmed := String.ofList (trimSpace mime.toList)
  throwIf (trimmed = "") (uploadInputError "Upload intent must declare a MIME type")
  throwIf (utf16Length trimmed > maxMimeChars)
    (uploadInputError "Declared MIME type exceeds maximum length")
  throwIf (¬ allowedUploadMimes.contains trimmed)
    (uploadInputError ("Unsupported upload MIME type \"" ++ trimmed ++ "\""))
  return trimmed

/-- The type that the first bytes show. -/
def sniffUploadMime (data : Bytes) : Option String :=
  if [0x25, 0x50, 0x44, 0x46].isPrefixOf data then some "application/pdf"
  else if data.length ≥ 8 ∧ [0x89, 0x50, 0x4e, 0x47].isPrefixOf data then some "image/png"
  else if [0xff, 0xd8, 0xff].isPrefixOf data then some "image/jpeg"
  -- "GIF87a" and "GIF89a"
  else if [0x47, 0x49, 0x46, 0x38, 0x37, 0x61].isPrefixOf data ∨
      [0x47, 0x49, 0x46, 0x38, 0x39, 0x61].isPrefixOf data then some "image/gif"
  else if [0x52, 0x49, 0x46, 0x46].isPrefixOf data ∧
      [0x57, 0x45, 0x42, 0x50].isPrefixOf (data.drop 8) then some "image/webp"
  else if [0x50, 0x4b, 0x03, 0x04].isPrefixOf data then some "application/zip"
  else if data.length ≥ 8 ∧ [0xd0, 0xcf, 0x11, 0xe0].isPrefixOf data then
    some "application/x-ole-storage"
  else if [0x1f, 0x8b].isPrefixOf data then some "application/gzip"
  else none

def normalizeMimeForCompare (mime : String) : String :=
  if mime = "image/jpg" then "image/jpeg" else mime

def isOoxmlMime (mime : String) : Bool :=
  mime == "application/vnd.openxmlformats-officedocument.wordprocessingml.document" ||
  mime == "application/vnd.openxmlformats-officedocument.spreadsheetml.sheet" ||
  mime == "application/vnd.openxmlformats-officedocument.presentationml.presentation"

/-- The types of the legacy Office formats, which are stored as OLE containers. -/
def isLegacyOfficeMime (mime : String) : Bool :=
  mime == "application/msword" || mime == "application/vnd.ms-excel" ||
    mime == "application/vnd.ms-powerpoint"

def checkSniffMatchesDeclared (sniffed : Option String) (declared : String) :
    Except Fault Unit :=
  match sniffed with
  | none => .ok ()
  | some sniffed =>
    if sniffed = "application/gzip" then
      .error (uploadInputError "Archive content rejected on complete")
    else if sniffed = "application/zip" then
      if isOoxmlMime declared then .ok ()
      else .error (uploadInputError ("MIME type mismatch: declared \"" ++ declared ++
        "\" does not match archive content"))
    else if sniffed = "application/x-ole-storage" then
      if isLegacyOfficeMime declared then .ok ()
      else .error (uploadInputError ("MIME type mismatch: declared \"" ++ declared ++
        "\" does not match legacy Office content"))
    else if normalizeMimeForCompare declared ≠ normalizeMimeForCompare sniffed then
      .error (uploadInputError ("MIME type mismatch: declared \"" ++ declared ++
        "\", sniffed \"" ++ sniffed ++ "\""))
    else .ok ()

def hashUploadBytes (sha256 : Sha256 Bytes) (bytes : Bytes) : String :=
  "sha256-" ++ sha256.bytes bytes

end Groundlane
