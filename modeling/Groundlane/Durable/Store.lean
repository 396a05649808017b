import Groundlane.Fenced.Store
import Groundlane.Interleaving.RelyGuarantee
import Groundlane.Json.Value

/-!
# The durable record store and the immutable blob store

The two storage ports of `core/durable-store.ts` and `core/immutable-blob.ts` as operations of
an interleaved program, together with the checks that every adapter makes before it touches
its database. What a subsystem asks of anyone else (a provider, a random number generator) is
an operation `port`, whose answer is not determined by the stores.

A record value is a typed value together with the JSON text that is written for it; the text
counts for the size limit and for nothing else.
-/

namespace Groundlane

open Fenced Interleaving

/-- The codes of `GroundlaneError` that this development raises. -/
inductive ErrorCode where
  | invalidInput
  | urlBlocked
  | deadlineExceeded
  | cancelled
  | outputLimit
  | concurrencyLimit
  | providerUnavailable
  | rateLimited
  | upstreamError
deriving DecidableEq, Repr

/-- Something that was thrown: a `GroundlaneError`, an `Error`, a string, or anything else. -/
inductive Fault where
  | groundlane (code : ErrorCode) (stage message : String)
  | error (message : String)
  | text (message : String)
  | other
deriving DecidableEq, Repr

/-- `Number.isSafeInteger`. -/
def isSafeInteger (n : Int) : Bool :=
  -9007199254740991 ≤ n && n ≤ 9007199254740991

/-- The number of bytes of a text in UTF-8. -/
def utf8Length (text : List Char) : Nat :=
  (text.map Char.utf8Size).sum

/-- The nul character between the parts of a digested text. -/
def nul : String := String.ofList [Char.ofNat 0]

/-- `[a-f0-9]`. -/
def isHexChar (c : Char) : Bool :=
  c.isDigit || ('a' ≤ c && c ≤ 'f')

/-- The SHA-256 digest in hexadecimal of a text and of a byte string, and the test for a
hexadecimal digest of full length, which every digest passes. -/
structure Sha256 (B : Type) where
  text : String → String
  bytes : B → String
  isHex : String → Bool
  isHex_text : ∀ value, isHex (text value) = true
  isHex_bytes : ∀ value, isHex (bytes value) = true
  isHex_chars : ∀ value, isHex value = true → value.toList.all isHexChar = true

/-- Byte strings, of which the stores need the length. -/
class ByteString (B : Type) where
  byteLength : B → Nat

/-- A text stands for the bytes of its UTF-8 encoding. -/
instance : ByteString String := ⟨fun text => utf8Length text.toList⟩

/-- Values that can be written into a durable record, as the text that is written. -/
class Stored (V : Type) where
  text : V → List Char

/-! ## Checks of the adapters -/

/-- The characters of a durable key. -/
def isDurableKeyChar (c : Char) : Bool :=
  c.isAlphanum || c == '.' || c == '_' || c == ':' || c == '-'

def validateDurableKey (key : String) : Except Fault Unit :=
  if key.toList.length = 0 ∨ 240 < key.toList.length ∨ key.toList.all isDurableKeyChar = false then
    .error (.error "durable metadata key is invalid")
  else .ok ()

def validateDurableValue {V : Type} [Stored V] (value : V) : Except Fault Unit :=
  if 64 * 1024 < utf8Length (Stored.text value) then
    .error (.error
      "durable metadata exceeds the 64 KiB limit; store large content as an ArtifactRef")
  else .ok ()

def validateDurableWrite {V : Type} [Stored V] (value : V) (nowMs : Int)
    (expiresAt : Option Int) : Except Fault Unit := do
  validateDurableValue value
  if ¬ isSafeInteger nowMs ∨ nowMs < 0 then
    throw (.error "durable metadata timestamp is invalid")
  if expiresAt.any fun expiresAt => ¬ isSafeInteger expiresAt ∨ expiresAt ≤ nowMs then
    throw (.error "durable metadata expiry must be later than nowMs")

def validateExpectedRevision (expectedRevision : Nat) : Except Fault Unit :=
  if ¬ isSafeInteger expectedRevision ∨ expectedRevision < 1 then
    .error (.error "expected revision is invalid")
  else .ok ()

def validateScan (nowMs : Int) (cursor : Option String) (limit : Nat) : Except Fault Unit := do
  if ¬ isSafeInteger nowMs ∨ nowMs < 0 then
    throw (.error "expiry scan timestamp is invalid")
  if let some last := cursor then validateDurableKey last
  if limit < 1 ∨ 1000 < limit then
    throw (.error "expiry scan limit must be 1..1000")

/-- 32 MiB. -/
def maxImmutableBlobBytes : Nat := 32 * 1024 * 1024

/-- Whether `value` is `tag` followed by a hexadecimal digest. -/
def Sha256.isTagged {B : Type} (sha256 : Sha256 B) (tag value : String) : Bool :=
  tag.toList.isPrefixOf value.toList &&
    sha256.isHex (String.ofList (value.toList.drop tag.toList.length))

def validateInternalBlobKey {B : Type} (sha256 : Sha256 B) (blobKey : String) :
    Except Fault Unit :=
  if sha256.isTagged "blobs/" blobKey then .ok ()
  else .error (.error "internal blob key is invalid")

def validateBlobIdentity {B : Type} (sha256 : Sha256 B) (ownerId digest : String) :
    Except Fault Unit := do
  if utf16Length ownerId = 0 ∨ 160 < utf16Length ownerId then
    throw (.error "blob owner is invalid")
  if ¬ sha256.isTagged "sha256-" digest then
    throw (.error "blob digest is invalid")

def validateSize (byteSize : Int) : Except Fault Unit :=
  if byteSize < 1 ∨ maxImmutableBlobBytes < byteSize then
    .error (.error "immutable blob size is outside the supported bounds")
  else .ok ()

/-- Keys of two families differ when neither prefix starts the other. -/
theorem append_ne_append {first second : String}
    (h : ¬ first.toList <+: second.toList ∧ ¬ second.toList <+: first.toList)
    (left right : String) : first ++ left ≠ second ++ right := by
  intro heq
  have htext := congrArg String.toList heq
  rw [String.toList_append, String.toList_append] at htext
  rcases List.prefix_or_prefix_of_prefix (List.prefix_append first.toList left.toList)
    (htext ▸ List.prefix_append second.toList right.toList) with hstart | hstart
  · exact h.1 hstart
  · exact h.2 hstart

/-! ## The stores -/

/-- A stored blob. -/
structure Blob (B : Type) where
  ownerId : String
  digest : String
  bytes : B
deriving DecidableEq

/-- `ImmutableBlobStat`. -/
structure ImmutableBlobStat where
  blobKey : String
  ownerId : String
  digest : String
  byteSize : Nat
deriving DecidableEq, Repr

/-- `ImmutableBlobPutResult`. -/
inductive BlobPutResult where
  | created (stat : ImmutableBlobStat)
  | exists (stat : ImmutableBlobStat)
  | conflict (stat : ImmutableBlobStat)
deriving DecidableEq, Repr

/-- The outcomes of `deleteIfOwner`. -/
inductive BlobDeleteResult where
  | deleted
  | missing
  | ownerMismatch
deriving DecidableEq, Repr

/-- What is stored: records and blobs. -/
structure Disk (V B : Type) where
  records : Store String V
  blobs : String → Option (Blob B)

/-- Nothing stored yet. -/
def Disk.empty {V B : Type} : Disk V B := ⟨.empty, fun _ => none⟩

/-- One operation on the stores, the choice of the next of two parallel operations, or a
question to someone else. -/
inductive Op (V B P : Type) where
  | get (key : String)
  | createIfAbsent (key : String) (value : V) (nowMs : Int) (expiresAt : Option Int)
  | compareAndSwap (key : String) (expectedRevision : Nat) (value : V) (nowMs : Int)
    (expiresAt : Option Int)
  | deleteIfRevision (key : String) (expectedRevision : Nat)
  | scanExpired (nowMs : Int) (cursor : Option String) (limit : Nat)
  | putIfAbsent (blobKey ownerId digest : String) (bytes : B)
  | stat (blobKey : String)
  | getBlob (blobKey ownerId digest : String) (maxBytes : Int)
  | deleteIfOwner (blobKey ownerId : String)
  | order
  | port (request : P)

/-- The answer to each operation; `PR` gives the answers of the ports. -/
abbrev Op.Res {V B P : Type} (PR : P → Type) : Op V B P → Type
  | get _ => Option (Record String V)
  | createIfAbsent .. => CreateResult String V
  | compareAndSwap .. => CasResult String V
  | deleteIfRevision .. => DeleteResult
  | scanExpired .. => List (Record String V) × Option String
  | putIfAbsent .. => BlobPutResult
  | stat _ => Option ImmutableBlobStat
  | getBlob .. => Except Fault (Option B)
  | deleteIfOwner .. => BlobDeleteResult
  | order => Bool
  | port request => PR request

/-- What the stores do not determine: the answers of the ports and the order of parallel
operations. -/
structure Oracle {P : Type} (PR : P → Type) where
  answer : ∀ request, PR request
  order : Bool

section Execution

variable {V B P : Type} {PR : P → Type} [ByteString B]

/-- The description of a stored blob. -/
def Blob.stat (blob : Blob B) (blobKey : String) : ImmutableBlobStat :=
  ⟨blobKey, blob.ownerId, blob.digest, ByteString.byteLength blob.bytes⟩

/-- The blob as `get` returns it to a reader who names its owner and digest. -/
def Blob.read (sha256 : Sha256 B) (blob : Blob B) (ownerId digest : String) (maxBytes : Int) :
    Except Fault (Option B) :=
  if blob.ownerId ≠ ownerId ∨ blob.digest ≠ digest then
    .error (.error "immutable blob owner or digest mismatch")
  else if maxBytes < ByteString.byteLength blob.bytes then
    .error (.error "immutable blob exceeds the read limit")
  else if "sha256-" ++ sha256.bytes blob.bytes ≠ blob.digest then
    .error (.error "immutable blob integrity check failed")
  else .ok (some blob.bytes)

/-- `putIfAbsent` of the blob store. -/
def putBlob (blobs : String → Option (Blob B)) (blobKey : String) (blob : Blob B) :
    (String → Option (Blob B)) × BlobPutResult :=
  match blobs blobKey with
  | none => (Function.update blobs blobKey (some blob), .created (blob.stat blobKey))
  | some existing =>
    (blobs, if existing.stat blobKey = blob.stat blobKey then .exists (existing.stat blobKey)
      else .conflict (existing.stat blobKey))

/-- `deleteIfOwner` of the blob store. -/
def deleteBlob (blobs : String → Option (Blob B)) (blobKey ownerId : String) :
    (String → Option (Blob B)) × BlobDeleteResult :=
  match blobs blobKey with
  | none => (blobs, .missing)
  | some existing =>
    if existing.ownerId ≠ ownerId then (blobs, .ownerMismatch)
    else (Function.update blobs blobKey none, .deleted)

/-- What each operation does to the stores, and its answer. -/
def exec (sha256 : Sha256 B) (oracle : Oracle PR) (op : Op V B P) (disk : Disk V B) :
    Disk V B × op.Res PR :=
  match op with
  | .get key => (disk, disk.records.get key)
  | .createIfAbsent key value nowMs expiresAt =>
    let result := disk.records.createIfAbsent key value nowMs expiresAt
    ({ disk with records := result.1 }, result.2)
  | .compareAndSwap key expectedRevision value nowMs expiresAt =>
    let result := disk.records.compareAndSwap key expectedRevision value nowMs expiresAt
    ({ disk with records := result.1 }, result.2)
  | .deleteIfRevision key expectedRevision =>
    let result := disk.records.deleteIfRevision key expectedRevision
    ({ disk with records := result.1 }, result.2)
  | .scanExpired nowMs cursor limit =>
    (disk, disk.records.scanExpired (fun left right => decide (left < right)) nowMs cursor limit)
  | .putIfAbsent blobKey ownerId digest bytes =>
    let result := putBlob disk.blobs blobKey ⟨ownerId, digest, bytes⟩
    ({ disk with blobs := result.1 }, result.2)
  | .stat blobKey => (disk, (disk.blobs blobKey).map fun blob => blob.stat blobKey)
  | .getBlob blobKey ownerId digest maxBytes =>
    (disk, match disk.blobs blobKey with
      | none => .ok none
      | some blob => blob.read sha256 ownerId digest maxBytes)
  | .deleteIfOwner blobKey ownerId =>
    let result := deleteBlob disk.blobs blobKey ownerId
    ({ disk with blobs := result.1 }, result.2)
  | .order => (disk, oracle.order)
  | .port request => (disk, oracle.answer request)

end Execution

/-! ## The ports as programs -/

/-- A program over the stores with the ports `PR`. -/
abbrev Io {P : Type} (PR : P → Type) (V B : Type) : Type → Type :=
  Program (Op V B P) (Op.Res PR) Fault

section Ports

variable {V B P : Type} {PR : P → Type}

def get (key : String) : Io PR V B (Option (Record String V)) := do
  validateDurableKey key
  Program.request (Op.get key)

def createIfAbsent [Stored V] (key : String) (value : V) (nowMs : Int)
    (expiresAt : Option Int) : Io PR V B (CreateResult String V) := do
  validateDurableKey key
  validateDurableWrite value nowMs expiresAt
  Program.request (Op.createIfAbsent key value nowMs expiresAt)

def compareAndSwap [Stored V] (key : String) (expectedRevision : Nat) (value : V) (nowMs : Int)
    (expiresAt : Option Int) : Io PR V B (CasResult String V) := do
  validateDurableKey key
  validateDurableWrite value nowMs expiresAt
  validateExpectedRevision expectedRevision
  Program.request (Op.compareAndSwap key expectedRevision value nowMs expiresAt)

def deleteIfRevision (key : String) (expectedRevision : Nat) : Io PR V B DeleteResult := do
  validateDurableKey key
  validateExpectedRevision expectedRevision
  Program.request (Op.deleteIfRevision key expectedRevision)

def scanExpired (nowMs : Int) (cursor : Option String) (limit : Nat) :
    Io PR V B (List (Record String V) × Option String) := do
  validateScan nowMs cursor limit
  Program.request (Op.scanExpired nowMs cursor limit)

def putIfAbsent [ByteString B] (sha256 : Sha256 B) (blobKey ownerId digest : String)
    (bytes : B) : Io PR V B BlobPutResult := do
  validateInternalBlobKey sha256 blobKey
  validateBlobIdentity sha256 ownerId digest
  validateSize (ByteString.byteLength bytes)
  if "sha256-" ++ sha256.bytes bytes ≠ digest then
    Program.raise (.error "immutable blob digest mismatch")
  else Program.request (Op.putIfAbsent blobKey ownerId digest bytes)

def stat (sha256 : Sha256 B) (blobKey : String) : Io PR V B (Option ImmutableBlobStat) := do
  validateInternalBlobKey sha256 blobKey
  Program.request (Op.stat blobKey)

def getBlob (sha256 : Sha256 B) (blobKey ownerId digest : String) (maxBytes : Int) :
    Io PR V B (Option B) := do
  validateInternalBlobKey sha256 blobKey
  validateBlobIdentity sha256 ownerId digest
  validateSize maxBytes
  (Program.request (Op.getBlob blobKey ownerId digest maxBytes)).bind Program.ofExcept

def deleteIfOwner (sha256 : Sha256 B) (blobKey ownerId : String) :
    Io PR V B BlobDeleteResult := do
  validateInternalBlobKey sha256 blobKey
  Program.request (Op.deleteIfOwner blobKey ownerId)

/-- Ask someone else. -/
def ask (request : P) : Io PR V B (PR request) :=
  Program.request (Op.port request)

/-- Two programs awaited together. -/
def both {α β : Type} (left : Io PR V B α) (right : Io PR V B β) : Io PR V B (α × β) :=
  Program.both .order id left right

end Ports

end Groundlane
