import Mathlib.Data.List.Infix
import Groundlane.Canonical.Envelope
import Groundlane.Json.Strings

/-!
# The cacheable core

`extractCacheableCore` and `rebuildEnvelopeFromCacheHit` of `core/canonical-document.ts`. The source
identity is looked for in the JSON text of the core, where some characters are escaped. So a core
that is returned is free of the identity exactly for those envelopes in which every part of the
identity that is escaped stays out of the strings of the core, or another part is found
(`cacheable_core_clean_iff`).
-/

namespace Groundlane.Canonical

open Sequential Utf16

/-! ## Extracting and rebuilding -/

def extractContentCore (envelope : CanonicalDocumentEnvelope) : CanonicalContentCore :=
  envelope.toCanonicalContentCore

/-- The parts of the identity that are looked for. -/
def SourceIdentity.secrets (identity : SourceIdentity) : List Text :=
  [identity.url, identity.filename, identity.artifactRef].filterMap fun secret =>
    secret.filter fun text => text ≠ []

/-- The core has no members for the source binding by its type. -/
def extractCacheableCore (envelope : CanonicalDocumentEnvelope) : Checked CanonicalContentCore := do
  let core := extractContentCore envelope
  let serialized := core.toTree.text
  refuseIf (∃ secret ∈ envelope.sourceIdentity.secrets, secret <:+: serialized)
    "Cacheable core must not contain source-specific identity"
  pure core

def rebuildSourceBinding (core : CanonicalContentCore) (sourceIdentity : SourceIdentity)
    (documentId : Text) : CanonicalDocumentEnvelope :=
  ⟨core, documentId, sourceIdentity⟩

def rebuildEnvelopeFromCacheHit (core : CanonicalContentCore) (sourceIdentity : SourceIdentity)
    (documentId : Text) : Checked CanonicalDocumentEnvelope := do
  let envelope := rebuildSourceBinding core sourceIdentity documentId
  validateEnvelope envelope
  pure envelope

/-! ## When the core is free of the identity -/

/-- What is claimed of an envelope. -/
def CoreClean (envelope : CanonicalDocumentEnvelope) : Prop :=
  ∀ core, extractCacheableCore envelope = .ok core →
    (∀ secret ∈ envelope.sourceIdentity.secrets, ¬ core.toTree.Contains secret) ∧
    rebuildEnvelopeFromCacheHit core envelope.sourceIdentity envelope.documentId = .ok envelope

/-- No part of the identity that JSON escapes is in a string of the core, unless the JSON text of
the core shows a part of the identity as it is. -/
def Unescaped (envelope : CanonicalDocumentEnvelope) : Prop :=
  ∀ secret ∈ envelope.sourceIdentity.secrets, isPlain secret = false →
    envelope.toCanonicalContentCore.toTree.Contains secret →
    ∃ shown ∈ envelope.sourceIdentity.secrets,
      shown <:+: envelope.toCanonicalContentCore.toTree.text

theorem extractCacheableCore_ok {envelope : CanonicalDocumentEnvelope}
    {core : CanonicalContentCore} : extractCacheableCore envelope = .ok core ↔
      (∀ secret ∈ envelope.sourceIdentity.secrets,
        ¬ secret <:+: envelope.toCanonicalContentCore.toTree.text) ∧
      core = envelope.toCanonicalContentCore := by
  unfold extractCacheableCore refuseIf
  rw [check_bind_eq_ok, throwIf_eq_ok]
  constructor
  · rintro ⟨hnone, hcore⟩
    exact ⟨fun secret hsecret hinfix => hnone ⟨secret, hsecret, hinfix⟩, (Except.ok.inj hcore).symm⟩
  · rintro ⟨hnone, rfl⟩
    exact ⟨fun ⟨secret, hsecret, hinfix⟩ => hnone secret hsecret hinfix, rfl⟩

/-- The envelope is built again from its core. -/
theorem rebuild_core {envelope : CanonicalDocumentEnvelope}
    (h : validateEnvelope envelope = .ok ()) :
    rebuildEnvelopeFromCacheHit envelope.toCanonicalContentCore envelope.sourceIdentity
      envelope.documentId = .ok envelope := by
  unfold rebuildEnvelopeFromCacheHit
  exact check_bind_eq_ok.2 ⟨h, rfl⟩

/-- A core that is returned for a valid envelope contains no part of the source identity and gives
the envelope back, exactly if no escaped part of the identity is in its strings unless another part
is found. -/
theorem cacheable_core_clean_iff (envelope : CanonicalDocumentEnvelope)
    (h : validateEnvelope envelope = .ok ()) : CoreClean envelope ↔ Unescaped envelope := by
  constructor
  · intro hclean secret hsecret _ hcontains
    by_contra hshown
    have hcore := extractCacheableCore_ok.2
      ⟨fun other hother hinfix => hshown ⟨other, hother, hinfix⟩, rfl⟩
    exact (hclean _ hcore).1 secret hsecret hcontains
  · intro hunescaped core hcore
    obtain ⟨hnone, rfl⟩ := extractCacheableCore_ok.1 hcore
    refine ⟨fun secret hsecret hcontains => ?_, rebuild_core h⟩
    cases hplain : isPlain secret with
    | true => exact hnone secret hsecret (Tree.infix_text_of_contains hplain hcontains)
    | false =>
        obtain ⟨shown, hmem, hinfix⟩ := hunescaped secret hsecret hplain hcontains
        exact hnone shown hmem hinfix

/-! ## A file name with a quotation mark -/

/-- An envelope with one block of text. -/
def sampleEnvelope (content : Text) (filename : Option Text) : CanonicalDocumentEnvelope where
  schemaVersion := ascii "1"
  canonicalContentId := ascii "c"
  blocks := [⟨ascii "b", .text content, none⟩]
  readingOrder := [ascii "b"]
  status := .success
  capabilityStates := []
  warnings := []
  errors := []
  provenance := ⟨ascii "e", ascii "m", ascii "v", none, none⟩
  metadata := none
  citations := none
  documentId := ascii "d"
  sourceIdentity := ⟨ascii "h", none, filename, none⟩

example : (extractContentCore (sampleEnvelope (ascii "x") none)).blocks.length = 1 := by
  decide +kernel

/-- A file name without escapes stays out of the core. -/
theorem cacheable_core_clean_sample : CoreClean (sampleEnvelope (ascii "x") (some (ascii "f!"))) :=
  (cacheable_core_clean_iff (sampleEnvelope (ascii "x") (some (ascii "f!"))) (by decide +kernel)).2
    (by
      intro secret hsecret hplain
      obtain rfl := List.mem_singleton.1 (show secret ∈ [ascii "f!"] from hsecret)
      exact absurd hplain (by decide))

/-- A file name with a quotation mark is not found in the core that contains it. -/
theorem quoted_filename_kept : ∃ envelope, validateEnvelope envelope = .ok () ∧
    ¬ CoreClean envelope := by
  refine ⟨sampleEnvelope (ascii "a\"b") (some (ascii "a\"b")), by decide +kernel, fun h => ?_⟩
  have hcore := h _ (extractCacheableCore_ok.2 ⟨by decide +kernel, rfl⟩)
  refine hcore.1 (ascii "a\"b") (by decide +kernel) ⟨ascii "a\"b", by decide +kernel, ?_⟩
  exact List.infix_rfl

end Groundlane.Canonical
