import Groundlane.Calendar.Reading
import Groundlane.Durable.Store
import Groundlane.Sequential.Checks

/-!
# Durable corpus records

The record of a corpus in `core/durable-corpora.ts` and `core/corpus-contract.ts`, with the checks
that it passes before it is written and after it is read. `validateSource_ok`,
`validateSources_ok` and `validateRecord_ok` say what the checks ask for.
-/

namespace Groundlane.Corpora

open Calendar Fenced Interleaving Sequential

/-! ## Records -/

inductive CorpusState where
  | active
  | syncing
  | degraded
  | deleting
  | deleted
deriving DecidableEq, Repr

/-- Whether the state withdraws access to the corpus. -/
def CorpusState.withdrawn : CorpusState → Bool
  | deleting | deleted => true
  | active | syncing | degraded => false

structure DeletionStatus where
  derivedIndexDeleted : Bool
  artifactDeleted : Bool
  isComplete : Bool
deriving DecidableEq, Repr

structure CorpusSourceManifestEntry where
  sourceId : String
  contentHash : String
  acl : List String
  retentionPolicy : String
  deletionPolicy : String
  lifecycleProvenance : String
  citationProvenance : String
  backendProvenance : String
deriving DecidableEq, Repr

structure CorpusManifest where
  corpusId : String
  updatedAt : String
  sources : List CorpusSourceManifestEntry
deriving DecidableEq, Repr

structure DurableCorpusBinding where
  tenantId : String
  ownerId : String
  credentialBinding : String
deriving DecidableEq, Repr

structure DurableCorpusRecord extends DurableCorpusBinding where
  corpusId : String
  displayName : String
  state : CorpusState
  manifest : CorpusManifest
  deletion : DeletionStatus
  createdAt : Int
  updatedAt : Int
  expiresAt : Option Int
deriving DecidableEq, Repr

structure DurableCorpusView where
  record : DurableCorpusRecord
  revision : Nat
deriving DecidableEq, Repr

/-! ## Checks -/

/-- `Date.parse`, which reads what `toISOString` writes. -/
structure DateParser where
  parse : String → Option Int
  isTimeValue : ∀ text time, parse text = some time → IsTimeValue time
  parse_toISOString : ∀ time, IsTimeValue time → parse (toISOString time) = some time

/-- A parser that reads nothing else. -/
def DateParser.iso : DateParser where
  parse := parseIso
  isTimeValue := fun _ _ h => isTimeValue_parseIso h
  parse_toISOString := fun _ h => parseIso_toISOString h

def maxIdChars : Nat := 160

def maxDisplayNameChars : Nat := 200

def maxManifestSources : Nat := 500

def maxFieldChars : Nat := 500

def assertBoundedText (value label : String) (max : Nat) : Except Fault Unit :=
  throwIf (utf16Length value = 0 ∨ max < utf16Length value) (.error (label ++ " is invalid"))

def assertTimestamp (value : Int) (label : String) : Except Fault Unit :=
  throwIf (¬ isSafeInteger value ∨ value < 0) (.error (label ++ " is invalid"))

/-- The loop over the entries of an access list. -/
def validateAcl : List String → Except Fault Unit
  | [] => pure ()
  | acl :: rest => do
    assertBoundedText acl "corpus source ACL entry" maxIdChars
    validateAcl rest

def validateSource (entry : CorpusSourceManifestEntry) : Except Fault Unit := do
  assertBoundedText entry.sourceId "corpus source ID" maxIdChars
  assertBoundedText entry.contentHash "corpus content hash" maxIdChars
  throwIf (64 < entry.acl.length) (.error "corpus source ACL is invalid")
  validateAcl entry.acl
  assertBoundedText entry.retentionPolicy "corpus retention policy" maxFieldChars
  assertBoundedText entry.deletionPolicy "corpus deletion policy" maxFieldChars
  assertBoundedText entry.lifecycleProvenance "corpus lifecycle provenance" maxFieldChars
  assertBoundedText entry.citationProvenance "corpus citation provenance" maxFieldChars
  assertBoundedText entry.backendProvenance "corpus backend provenance" maxFieldChars

/-- The loop over the sources of a manifest, with the IDs seen so far. -/
def validateSources (ids : List String) : List CorpusSourceManifestEntry → Except Fault Unit
  | [] => pure ()
  | source :: rest => do
    validateSource source
    throwIf (source.sourceId ∈ ids) (.error "corpus manifest has duplicate source IDs")
    validateSources (source.sourceId :: ids) rest

def validateManifest (dates : DateParser) (manifest : CorpusManifest) (corpusId : String) :
    Except Fault Unit := do
  throwIf (manifest.corpusId ≠ corpusId ∨ maxManifestSources < manifest.sources.length)
    (.error "corpus manifest is invalid")
  throwIf (dates.parse manifest.updatedAt = none) (.error "corpus manifest updatedAt is invalid")
  validateSources [] manifest.sources

/-- What the IDs of backends begin with, in lower case. -/
def backendPatterns : List String :=
  ["idx-", "idx_", "job-", "job_", "vec-", "vec_", "ns-", "ns_", "vs_", "coll-", "coll_",
    "pinecone-", "pinecone_", "weaviate-", "weaviate_", "qdrant-", "qdrant_"]

def validateCorpusIdentity (corpusId : String) : Except Fault Unit :=
  throwIf (backendPatterns.any fun pattern =>
      pattern.toList.isPrefixOf (corpusId.toList.map Char.toLower))
    (.error ("Corpus ID \"" ++ corpusId ++ "\" appears to be a backend internal ID; " ++
      "use an opaque Groundlane-generated ID"))

def validateDeletionStatus (status : DeletionStatus) : Except Fault Unit :=
  throwIf (status.isComplete = true ∧
      (status.derivedIndexDeleted = false ∨ status.artifactDeleted = false))
    (.error
      "Deletion cannot be reported as complete when derived index or artifact deletion is pending")

def validateRecord (dates : DateParser) (record : DurableCorpusRecord) : Except Fault Unit := do
  assertBoundedText record.corpusId "corpus ID" maxIdChars
  assertBoundedText record.displayName "corpus display name" maxDisplayNameChars
  assertBoundedText record.tenantId "corpus tenant ID" maxIdChars
  assertBoundedText record.ownerId "corpus owner ID" maxIdChars
  assertBoundedText record.credentialBinding "corpus credential binding" maxIdChars
  validateCorpusIdentity record.corpusId
  validateManifest dates record.manifest record.corpusId
  validateDeletionStatus record.deletion
  assertTimestamp record.createdAt "corpus createdAt"
  assertTimestamp record.updatedAt "corpus updatedAt"
  throwIf (record.updatedAt < record.createdAt) (.error "corpus updatedAt precedes createdAt")
  throwIf (record.expiresAt.any fun expiresAt =>
      ¬ isSafeInteger expiresAt ∨ expiresAt ≤ record.createdAt)
    (.error "corpus expiresAt is invalid")
  throwIf (record.state = .deleted ∧ record.deletion.isComplete = false)
    (.error "deleted corpus requires completed deletion")

def decode (dates : DateParser) (stored : Record String DurableCorpusRecord) :
    Except Fault DurableCorpusRecord :=
  match validateRecord dates stored.value with
  | .error _ => .error (.error "durable corpus record is malformed")
  | .ok () =>
    if stored.expiresAt ≠ stored.value.expiresAt then
      .error (.error "durable corpus expiry metadata is inconsistent")
    else .ok stored.value

/-- `[A-Za-z0-9._-]`. -/
def isCorpusIdChar (c : Char) : Bool :=
  c.isAlphanum || c == '.' || c == '_' || c == '-'

def keyFor (corpusId : String) : Except Fault String := do
  assertBoundedText corpusId "corpus ID" maxIdChars
  throwIf (¬ corpusId.toList.all isCorpusIdChar) (.error "corpus ID is invalid")
  pure ("corpus:" ++ corpusId)

def assertBinding (record : DurableCorpusRecord) (binding : DurableCorpusBinding) :
    Except Fault Unit :=
  throwIf (record.toDurableCorpusBinding ≠ binding)
    (.error "corpus ownership or credential binding mismatch")

/-! ## What the checks ask for -/

/-- The text is there and within the bound. -/
def Bounded (text : String) (max : Nat) : Prop :=
  0 < utf16Length text ∧ utf16Length text ≤ max

structure ValidSource (entry : CorpusSourceManifestEntry) : Prop where
  sourceId : Bounded entry.sourceId maxIdChars
  contentHash : Bounded entry.contentHash maxIdChars
  aclLength : entry.acl.length ≤ 64
  acl : ∀ acl ∈ entry.acl, Bounded acl maxIdChars
  retentionPolicy : Bounded entry.retentionPolicy maxFieldChars
  deletionPolicy : Bounded entry.deletionPolicy maxFieldChars
  lifecycleProvenance : Bounded entry.lifecycleProvenance maxFieldChars
  citationProvenance : Bounded entry.citationProvenance maxFieldChars
  backendProvenance : Bounded entry.backendProvenance maxFieldChars

structure ValidManifest (dates : DateParser) (manifest : CorpusManifest) (corpusId : String) :
    Prop where
  corpusId : manifest.corpusId = corpusId
  length : manifest.sources.length ≤ maxManifestSources
  updatedAt : dates.parse manifest.updatedAt ≠ none
  source : ∀ source ∈ manifest.sources, ValidSource source
  nodup : (manifest.sources.map CorpusSourceManifestEntry.sourceId).Nodup

/-- A time of a record. -/
def Timestamp (value : Int) : Prop :=
  isSafeInteger value = true ∧ 0 ≤ value

structure ValidRecord (dates : DateParser) (record : DurableCorpusRecord) : Prop where
  corpusId : Bounded record.corpusId maxIdChars
  displayName : Bounded record.displayName maxDisplayNameChars
  tenantId : Bounded record.tenantId maxIdChars
  ownerId : Bounded record.ownerId maxIdChars
  credentialBinding : Bounded record.credentialBinding maxIdChars
  identity : validateCorpusIdentity record.corpusId = .ok ()
  manifest : ValidManifest dates record.manifest record.corpusId
  deletion : record.deletion.isComplete = true →
    record.deletion.derivedIndexDeleted = true ∧ record.deletion.artifactDeleted = true
  createdAt : Timestamp record.createdAt
  updatedAt : Timestamp record.updatedAt
  order : record.createdAt ≤ record.updatedAt
  expiresAt : ∀ expiresAt, record.expiresAt = some expiresAt →
    isSafeInteger expiresAt = true ∧ record.createdAt < expiresAt
  deleted : record.state = .deleted → record.deletion.isComplete = true

section Checks

variable {dates : DateParser} {record : DurableCorpusRecord} {corpusId : String}

@[simp] theorem assertBoundedText_ok {value label : String} {max : Nat} :
    assertBoundedText value label max = .ok () ↔ Bounded value max := by
  unfold assertBoundedText Bounded
  rw [throwIf_eq_ok, not_or]
  omega

@[simp] theorem assertTimestamp_ok {value : Int} {label : String} :
    assertTimestamp value label = .ok () ↔ Timestamp value := by
  unfold assertTimestamp Timestamp
  rw [throwIf_eq_ok, not_or, not_not, not_lt]

@[simp] theorem validateAcl_ok {acl : List String} :
    validateAcl acl = .ok () ↔ ∀ entry ∈ acl, Bounded entry maxIdChars := by
  induction acl with
  | nil => exact ⟨fun _ _ h => absurd h List.not_mem_nil, fun _ => rfl⟩
  | cons entry rest ih =>
    rw [validateAcl, check_bind_eq_ok, assertBoundedText_ok, ih, List.forall_mem_cons]

theorem validateSource_ok {entry : CorpusSourceManifestEntry} :
    validateSource entry = .ok () ↔ ValidSource entry := by
  unfold validateSource
  simp only [check_bind_eq_ok, assertBoundedText_ok, throwIf_eq_ok, validateAcl_ok, not_lt]
  constructor
  · rintro ⟨h₁, h₂, h₃, h₄, h₅, h₆, h₇, h₈, h₉⟩
    exact ⟨h₁, h₂, h₃, h₄, h₅, h₆, h₇, h₈, h₉⟩
  · rintro ⟨h₁, h₂, h₃, h₄, h₅, h₆, h₇, h₈, h₉⟩
    exact ⟨h₁, h₂, h₃, h₄, h₅, h₆, h₇, h₈, h₉⟩

/-- The loop accepts valid sources whose IDs differ from each other and from those seen. -/
theorem validateSources_ok {ids : List String} {sources : List CorpusSourceManifestEntry} :
    validateSources ids sources = .ok () ↔ (∀ source ∈ sources, ValidSource source) ∧
      (sources.map CorpusSourceManifestEntry.sourceId).Nodup ∧
      ∀ source ∈ sources, source.sourceId ∉ ids := by
  induction sources generalizing ids with
  | nil =>
    simp only [validateSources, List.not_mem_nil, false_implies, implies_true, List.map_nil,
      List.nodup_nil, and_self, iff_true]
    rfl
  | cons source rest ih =>
    rw [validateSources, check_bind_eq_ok, check_bind_eq_ok, validateSource_ok, throwIf_eq_ok,
      ih, List.forall_mem_cons, List.forall_mem_cons, List.map_cons, List.nodup_cons]
    constructor
    · rintro ⟨hvalid, hfresh, hrest, hnodup, hdiffer⟩
      refine ⟨⟨hvalid, hrest⟩, ⟨?_, hnodup⟩, hfresh, fun other hother hmem =>
        hdiffer other hother (List.mem_cons_of_mem _ hmem)⟩
      intro hmem
      obtain ⟨other, hother, heq⟩ := List.mem_map.1 hmem
      exact hdiffer other hother (heq ▸ List.mem_cons_self)
    · rintro ⟨⟨hvalid, hrest⟩, ⟨hnew, hnodup⟩, hfresh, hdiffer⟩
      refine ⟨hvalid, hfresh, hrest, hnodup, fun other hother hmem => ?_⟩
      rcases List.mem_cons.1 hmem with heq | hmem
      · exact hnew (List.mem_map.2 ⟨other, hother, heq⟩)
      · exact hdiffer other hother hmem

theorem validateManifest_ok {manifest : CorpusManifest} :
    validateManifest dates manifest corpusId = .ok () ↔
      ValidManifest dates manifest corpusId := by
  unfold validateManifest
  rw [check_bind_eq_ok, check_bind_eq_ok, throwIf_eq_ok, throwIf_eq_ok, validateSources_ok,
    not_or, not_not, not_lt]
  constructor
  · rintro ⟨⟨hid, hlength⟩, hupdated, hvalid, hnodup, -⟩
    exact ⟨hid, hlength, hupdated, hvalid, hnodup⟩
  · rintro ⟨hid, hlength, hupdated, hvalid, hnodup⟩
    exact ⟨⟨hid, hlength⟩, hupdated, hvalid, hnodup, fun _ _ => List.not_mem_nil⟩

theorem validateRecord_ok : validateRecord dates record = .ok () ↔ ValidRecord dates record := by
  have hdeletion : (¬ (record.deletion.isComplete = true ∧
      (record.deletion.derivedIndexDeleted = false ∨
        record.deletion.artifactDeleted = false))) ↔ (record.deletion.isComplete = true →
        record.deletion.derivedIndexDeleted = true ∧ record.deletion.artifactDeleted = true) := by
    rw [not_and, not_or, Bool.not_eq_false, Bool.not_eq_false]
  have hexpiry : (¬ (record.expiresAt.any fun expiresAt =>
      decide (¬ isSafeInteger expiresAt ∨ expiresAt ≤ record.createdAt)) = true) ↔
      ∀ expiresAt, record.expiresAt = some expiresAt →
        isSafeInteger expiresAt = true ∧ record.createdAt < expiresAt := by
    cases record.expiresAt with
    | none => simp
    | some expiresAt => simp
  unfold validateRecord validateDeletionStatus
  simp only [check_bind_eq_ok, assertBoundedText_ok, assertTimestamp_ok, throwIf_eq_ok,
    validateManifest_ok]
  rw [hdeletion, hexpiry, not_lt, not_and, Bool.not_eq_false]
  constructor
  · rintro ⟨h₁, h₂, h₃, h₄, h₅, h₆, h₇, h₈, h₉, h₁₀, h₁₁, h₁₂, h₁₃⟩
    exact ⟨h₁, h₂, h₃, h₄, h₅, h₆, h₇, h₈, h₉, h₁₀, h₁₁, h₁₂, h₁₃⟩
  · rintro ⟨h₁, h₂, h₃, h₄, h₅, h₆, h₇, h₈, h₉, h₁₀, h₁₁, h₁₂, h₁₃⟩
    exact ⟨h₁, h₂, h₃, h₄, h₅, h₆, h₇, h₈, h₉, h₁₀, h₁₁, h₁₂, h₁₃⟩

/-- What is read is the stored value, which is valid and has the expiry of its row. -/
theorem decode_ok {stored : Record String DurableCorpusRecord} :
    decode dates stored = .ok record ↔
      ValidRecord dates record ∧ stored.value = record ∧ stored.expiresAt = record.expiresAt := by
  unfold decode
  cases hvalid : validateRecord dates stored.value with
  | error fault =>
    refine ⟨nofun, ?_⟩
    rintro ⟨h, rfl, -⟩
    rw [validateRecord_ok.2 h] at hvalid
    cases hvalid
  | ok _ =>
    dsimp only
    by_cases hexpiry : stored.expiresAt = stored.value.expiresAt
    · rw [if_neg (not_not.2 hexpiry)]
      constructor
      · intro h
        cases h
        exact ⟨validateRecord_ok.1 hvalid, rfl, hexpiry⟩
      · rintro ⟨-, rfl, -⟩
        rfl
    · rw [if_pos hexpiry]
      refine ⟨nofun, ?_⟩
      rintro ⟨-, rfl, h⟩
      exact absurd h hexpiry

end Checks

end Groundlane.Corpora
