import Groundlane.Email.Extract

/-!
# The limits of email extraction

The attachments of a message come from its first levels, the characters of the result are limited,
and its counts are those of its entries. The count of attachments is looked at before a part is
entered and grows behind, so that one attachment more than the limit is returned
(`within_limits_iff`).
-/

namespace Groundlane.Email

open Utf16

variable {toLowerCase : Text → Text}

/-! ## The parts of a message -/

/-- The recursion of the source. -/
theorem extractParts_eq (source : Text) (depth count : Nat) :
    extractParts toLowerCase source depth count =
      if maxMimeDepth < depth ∨ maxAttachments < count then (.empty, count)
      else
        match readPart toLowerCase source with
        | .multipart pieces =>
          extractPieces (fun piece count => extractParts toLowerCase piece (depth + 1) count)
            pieces count
        | .attachment filename mimeType bytes =>
          (⟨[], [], [⟨filename.getD (ascii ("attachment-" ++ toString (count + 1))), mimeType,
            bytes⟩]⟩, count + 1)
        | .plain content => (⟨[content], [], []⟩, count)
        | .html content => (⟨[], [content], []⟩, count)
        | .other => (.empty, count) := by
  unfold extractParts
  by_cases hdepth : maxMimeDepth < depth
  · rw [if_pos (.inl hdepth), show maxMimeDepth + 1 - depth = 0 by omega]
    rfl
  · rw [show maxMimeDepth + 1 - depth = (maxMimeDepth + 1 - (depth + 1)) + 1 by omega]
    by_cases hcount : maxAttachments < count
    · rw [if_pos (.inr hcount), extractLevels, if_pos hcount]
    · rw [if_neg (not_or.2 ⟨hdepth, hcount⟩), extractLevels]
      exact (if_neg hcount).trans rfl

/-- The parts of a message and their levels. -/
inductive IsPart (toLowerCase : Text → Text) (message : Text) : Nat → Text → Prop
  | message : IsPart toLowerCase message 0 message
  | piece {level : Nat} {part piece : Text} {pieces : List Text}
    (h : IsPart toLowerCase message level part)
    (hread : readPart toLowerCase part = .multipart pieces) (hpiece : piece ∈ pieces) :
    IsPart toLowerCase message (level + 1) piece

/-- The attachment is what a part is read as. -/
def ReadAs (toLowerCase : Text → Text) (part : Text) (attachment : Attachment) : Prop :=
  ∃ filename, readPart toLowerCase part =
    .attachment filename attachment.mimeType attachment.bytes

/-- The parts in the first levels that are attachments. -/
def attachmentParts (toLowerCase : Text → Text) : Nat → Text → List Text
  | 0, _ => []
  | levels + 1, source =>
    match readPart toLowerCase source with
    | .multipart pieces => pieces.flatMap (attachmentParts toLowerCase levels)
    | .attachment _ _ _ => [source]
    | _ => []

/-! ## The number of attachments -/

/-- The attachments are counted, and those that come when the count is over the limit are left
out. -/
def Counts (extract : Text → Nat → ExtractedParts × Nat) (source : Text) (found : Nat) : Prop :=
  ∀ count, (extract source count).1.attachments.length =
      min found (maxAttachments + 1 - count) ∧
    (extract source count).2 = count + (extract source count).1.attachments.length

variable {attachment : Attachment} {extract : Text → Nat → ExtractedParts × Nat}

theorem extractPieces_counts {found : Text → Nat} {pieces : List Text}
    (h : ∀ piece ∈ pieces, Counts extract piece (found piece)) (count : Nat) :
    (extractPieces extract pieces count).1.attachments.length =
        min (pieces.map found).sum (maxAttachments + 1 - count) ∧
      (extractPieces extract pieces count).2 =
        count + (extractPieces extract pieces count).1.attachments.length := by
  induction pieces generalizing count with
  | nil => exact ⟨(Nat.zero_min _).symm, rfl⟩
  | cons piece rest ih =>
    obtain ⟨hlength, hcount⟩ := h piece List.mem_cons_self count
    obtain ⟨hrest, hlast⟩ :=
      ih (fun other hother => h other (List.mem_cons_of_mem _ hother)) (extract piece count).2
    show (((extract piece count).1.append
          (extractPieces extract rest (extract piece count).2).1).attachments.length = _) ∧
      (extractPieces extract rest (extract piece count).2).2 = _ +
        ((extract piece count).1.append
          (extractPieces extract rest (extract piece count).2).1).attachments.length
    rw [hlast, ExtractedParts.append, List.length_append, hrest, hcount, hlength, List.map_cons,
      List.sum_cons]
    omega

theorem extractLevels_counts (levels : Nat) (source : Text) :
    Counts (extractLevels toLowerCase levels) source
      (attachmentParts toLowerCase levels source).length := by
  induction levels generalizing source with
  | zero => exact fun count => ⟨(Nat.zero_min _).symm, rfl⟩
  | succ levels ih =>
    intro count
    unfold extractLevels attachmentParts
    by_cases hcount : maxAttachments < count
    · rw [if_pos hcount]
      refine ⟨?_, rfl⟩
      show 0 = _
      omega
    · rw [if_neg hcount]
      cases readPart toLowerCase source with
      | multipart pieces =>
        simp only [List.length_flatMap]
        exact extractPieces_counts (fun piece _ => ih piece) count
      | attachment filename mimeType bytes =>
        refine ⟨?_, rfl⟩
        show 1 = min 1 (maxAttachments + 1 - count)
        omega
      | plain content => exact ⟨(Nat.zero_min _).symm, rfl⟩
      | html content => exact ⟨(Nat.zero_min _).symm, rfl⟩
      | other => exact ⟨(Nat.zero_min _).symm, rfl⟩

/-! ## Where attachments come from -/

theorem mem_extractPieces {pieces : List Text} {count : Nat}
    (h : attachment ∈ (extractPieces extract pieces count).1.attachments) :
    ∃ piece ∈ pieces, ∃ count, attachment ∈ (extract piece count).1.attachments := by
  induction pieces generalizing count with
  | nil => cases h
  | cons piece rest ih =>
    rcases List.mem_append.1 h with h | h
    · exact ⟨piece, List.mem_cons_self, count, h⟩
    · obtain ⟨found, hfound, hmem⟩ := ih h
      exact ⟨found, List.mem_cons_of_mem _ hfound, hmem⟩

/-- An attachment that is extracted with some levels left comes from a part inside them. -/
theorem mem_extractLevels {message source : Text} {level levels count : Nat}
    (hsource : IsPart toLowerCase message level source)
    (h : attachment ∈ (extractLevels toLowerCase levels source count).1.attachments) :
    ∃ level' part, level' + 1 ≤ level + levels ∧ IsPart toLowerCase message level' part ∧
      ReadAs toLowerCase part attachment := by
  induction levels generalizing source level count with
  | zero => cases h
  | succ levels ih =>
    unfold extractLevels at h
    split at h
    · cases h
    · cases hread : readPart toLowerCase source with
      | multipart pieces =>
        rw [hread] at h
        obtain ⟨piece, hpiece, _, hmem⟩ := mem_extractPieces h
        obtain ⟨level', part, _, hpart⟩ := ih (.piece hsource hread hpiece) hmem
        exact ⟨level', part, by omega, hpart⟩
      | attachment filename mimeType bytes =>
        rw [hread] at h
        cases List.mem_singleton.1 h
        exact ⟨level, source, by omega, hsource, filename, hread⟩
      | plain content =>
        rw [hread] at h
        cases h
      | html content =>
        rw [hread] at h
        cases h
      | other =>
        rw [hread] at h
        cases h

/-! ## The characters of the result -/

/-- The characters of the contents. -/
def contentChars : List AttachmentResult → Nat
  | [] => 0
  | result :: rest => (result.content.getD []).length + contentChars rest

/-- How many entries have a content. -/
def contentCount : List AttachmentResult → Nat
  | [] => 0
  | result :: rest => (if result.content.isSome then 1 else 0) + contentCount rest

namespace Tool

variable {tool : Tool}

/-- A content fits into the output. -/
theorem attachmentResult_content {outputChars : Nat} {content : Text}
    (h : (tool.attachmentResult outputChars attachment).content = some content) :
    outputChars + content.length ≤ tool.maxOutputChars := by
  unfold attachmentResult at h
  simp only at h
  split at h
  · cases h
  · split at h
    · cases h
    · split at h
      · cases h
      · cases h
        omega

/-- Every attachment has an entry, those with a content are counted, and unless there is none the
characters fit. -/
theorem attachmentResults_ok {attachments : List Attachment} {index parsedCount outputChars : Nat}
    {results : List AttachmentResult} {parsed : Nat}
    (h : tool.attachmentResults attachments index parsedCount outputChars =
      .ok (results, parsed)) :
    results.length = attachments.length ∧ parsed = parsedCount + contentCount results ∧
      (contentChars results = 0 ∨ outputChars + contentChars results ≤ tool.maxOutputChars) := by
  induction attachments generalizing index parsedCount outputChars results parsed with
  | nil =>
    cases h
    exact ⟨rfl, rfl, .inl rfl⟩
  | cons attachment rest ih =>
    unfold attachmentResults at h
    split at h
    · cases h
    · simp only at h
      split at h
      · rename_i others parsed' hrest
        cases h
        unfold contentCount contentChars
        cases hcontent : (tool.attachmentResult outputChars attachment).content with
        | none =>
          simp only [hcontent] at hrest
          obtain ⟨hlength, hparsed, hchars⟩ := ih hrest
          refine ⟨congrArg Nat.succ hlength, ?_, ?_⟩
          · rw [hparsed]
            exact congrArg (parsedCount + ·) (Nat.zero_add _).symm
          · rcases hchars with hnone | hfits
            · exact .inl ((Nat.zero_add _).trans hnone)
            · refine .inr ?_
              show outputChars + (0 + contentChars others) ≤ _
              omega
        | some content =>
          simp only [hcontent] at hrest
          obtain ⟨hlength, _, hchars⟩ := ih hrest
          have hfits := attachmentResult_content hcontent
          refine ⟨congrArg Nat.succ hlength, ?_, .inr ?_⟩
          · show parsed = parsedCount + (1 + contentCount others)
            omega
          · show outputChars + (content.length + contentChars others) ≤ _
            rcases hchars with hnone | hmore
            · omega
            · omega
      · cases h

/-- The entries of attachments that are not parsed have no content. -/
theorem contentChars_unparsed (attachments : List Attachment) :
    contentChars (attachments.map unparsed) = 0 ∧ contentCount (attachments.map unparsed) = 0 := by
  induction attachments with
  | nil => exact ⟨rfl, rfl⟩
  | cons attachment rest ih => refine ⟨(Nat.zero_add _).trans ih.1, (Nat.zero_add _).trans ih.2⟩

/-- The result stays within the limit of characters, and its counts are those of its entries. -/
theorem documentEmailExtract_ok {bytes : List UInt8} {parseAttachments : Bool} {data : EmailData}
    (h : tool.documentEmailExtract bytes parseAttachments = .ok data) :
    data.bodyText.length + contentChars data.attachments ≤ tool.maxOutputChars ∧
      data.attachmentCount = data.attachments.length ∧
      data.parsedAttachments = contentCount data.attachments := by
  unfold documentEmailExtract at h
  split at h
  · cases h
  · simp only at h
    split at h
    · cases hresults : tool.attachmentResults
          (extractParts tool.toLowerCase (Utf8.decode bytes) 0 0).1.attachments 0 0
          (bodyOf (extractParts tool.toLowerCase (Utf8.decode bytes) 0 0).1).length with
      | error failure =>
        rw [hresults] at h
        cases h
      | ok found =>
        rw [hresults] at h
        cases h
        obtain ⟨hlength, hparsed, hchars⟩ := attachmentResults_ok hresults
        refine ⟨?_, hlength.symm, hparsed.trans (Nat.zero_add _)⟩
        show (List.take _ _).length + contentChars found.1 ≤ _
        rw [List.length_take]
        rcases hchars with hnone | hfits
        · omega
        · omega
    · cases h
      obtain ⟨hchars, hcount⟩ := contentChars_unparsed
        (extractParts tool.toLowerCase (Utf8.decode bytes) 0 0).1.attachments
      refine ⟨?_, (List.length_map unparsed).symm, hcount.symm⟩
      show (List.take _ _).length + _ ≤ _
      rw [List.length_take, hchars]
      omega

end Tool

/-! ## The limits -/

/-- What is extracted from the source stays within the limits. -/
structure WithinLimits (toLowerCase : Text → Text) (source : Text) : Prop where
  few : (extractParts toLowerCase source 0 0).1.attachments.length ≤ maxAttachments
  shallow : ∀ attachment ∈ (extractParts toLowerCase source 0 0).1.attachments,
    ∃ level part, level ≤ maxMimeDepth ∧ IsPart toLowerCase source level part ∧
      ReadAs toLowerCase part attachment
  result : ∀ (tool : Tool) (bytes : List UInt8) (parseAttachments : Bool) (data : EmailData),
    tool.toLowerCase = toLowerCase → Utf8.decode bytes = source →
      tool.documentEmailExtract bytes parseAttachments = .ok data →
        data.bodyText.length + contentChars data.attachments ≤ tool.maxOutputChars ∧
          data.attachmentCount = data.attachments.length ∧
          data.parsedAttachments = contentCount data.attachments

/-- Extraction stays within its limits if and only if the message has at most as many attachments
in its first levels as are allowed. -/
theorem within_limits_iff (toLowerCase : Text → Text) (source : Text) :
    WithinLimits toLowerCase source ↔
      (attachmentParts toLowerCase (maxMimeDepth + 1) source).length ≤ maxAttachments := by
  have hcounts : Counts (extractLevels toLowerCase (maxMimeDepth + 1)) source _ :=
    extractLevels_counts (maxMimeDepth + 1) source
  have hlength : (extractParts toLowerCase source 0 0).1.attachments.length =
      min (attachmentParts toLowerCase (maxMimeDepth + 1) source).length (maxAttachments + 1) :=
    (hcounts 0).1
  constructor
  · intro h
    have hfew := h.few
    omega
  · intro h
    refine ⟨by omega, fun attachment hmem => ?_, fun tool bytes parseAttachments data _ _ hdata =>
      Tool.documentEmailExtract_ok hdata⟩
    obtain ⟨level, part, hlevel, hpart⟩ := mem_extractLevels .message hmem
    exact ⟨level, part, by omega, hpart⟩

/-! ## A message with one attachment too many -/

/-- A part that is an attachment. -/
def sampleAttachment : Text := ascii "content-disposition:attachment\n\nx"

/-- A message with as many attachments. -/
def sampleMessage (count : Nat) : Text :=
  ascii "content-type:multipart/x;boundary=b\n\n" ++
    (List.replicate count (ascii "--b" ++ sampleAttachment)).flatten

theorem readPart_sampleMessage : readPart (List.map lowerAscii) (sampleMessage 51) =
    .multipart (List.replicate 51 sampleAttachment) := by
  decide +kernel

theorem readPart_sampleAttachment : readPart (List.map lowerAscii) sampleAttachment =
    .attachment none (ascii "text/plain") [0x78] := by
  decide +kernel

/-- All attachments of the sample message are returned. -/
theorem attachments_exceed_limit : ¬ WithinLimits (List.map lowerAscii) (sampleMessage 51) := by
  intro h
  have hone : (attachmentParts (List.map lowerAscii) maxMimeDepth sampleAttachment).length = 1 := by
    unfold maxMimeDepth attachmentParts
    rw [readPart_sampleAttachment]
    rfl
  have hparts : (attachmentParts (List.map lowerAscii) (maxMimeDepth + 1)
      (sampleMessage 51)).length = 51 := by
    unfold attachmentParts
    rw [readPart_sampleMessage, List.length_flatMap, List.map_replicate, hone]
    rfl
  have hcounts : Counts (extractLevels (List.map lowerAscii) (maxMimeDepth + 1))
      (sampleMessage 51) _ := extractLevels_counts (maxMimeDepth + 1) (sampleMessage 51)
  have hlength := (hcounts 0).1
  rw [hparts] at hlength
  have hfew := h.few
  unfold extractParts at hfew
  rw [Nat.sub_zero, hlength] at hfew
  exact absurd hfew (by decide)

end Groundlane.Email
