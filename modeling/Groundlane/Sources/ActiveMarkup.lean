import Mathlib.Data.List.TakeWhile
import Groundlane.Parser.Bounded
import Groundlane.Sequential.Checks
import Groundlane.Sources.Classification

/-!
# Active markup in HTML

A document that is classified as HTML has the MIME type of HTML, but the parser resolves its
profile by the extension first. The check for active markup is bypassed if and only if the extension
names another profile whose parser accepts the document (`checked_iff`).
-/

namespace Groundlane.Sources

open Utf16 Groundlane.Parser Sequential

/-! ## What is classified as HTML -/

/-- The MIME type of HTML. -/
def htmlMime : Text := ascii "text/html"

theorem withoutAlias_eq_html {mime : Text} (h : withoutAlias mime = htmlMime) :
    mime = htmlMime := by
  unfold withoutAlias at h
  split at h
  · exact absurd h (by decide +kernel)
  · exact h

/-- HTML is neither a package nor a legacy Office type. -/
theorem html_apart : zipMimeExtension.lookup htmlMime = none ∧ htmlMime ∉ legacyOfficeMimes := by
  decide +kernel

variable {toLowerCase : Text → Text} {data : Bytes} {declaredMime filename : Text}

/-- What is classified as HTML is declared as HTML, and no other type is sniffed. -/
theorem classify_html {classification : DocumentClassification}
    (h : classifyDocumentBytes toLowerCase data declaredMime filename = .ok classification)
    (hhtml : classification.sniffedMime = htmlMime) :
    trim declaredMime = htmlMime ∧ ∀ sniffed, sniffMimeFromBytes toLowerCase data = some sniffed →
      sniffed = htmlMime := by
  unfold classifyDocumentBytes at h
  obtain ⟨mime, hmime, h⟩ := bind_eq_ok.1 h
  have htrim : trim declaredMime = mime := by
    unfold validateDeclaredMimeShape at hmime
    simp only at hmime
    split at hmime
    · cases hmime
    · split at hmime
      · cases hmime
      · exact Except.ok.inj hmime
  rw [htrim]
  split at h
  · cases h
  · simp only at h
    split at h
    · cases h
    · split at h
      · rename_i sniffed hsniffed
        split at h
        · cases h
        · split at h
          · split at h
            · cases h
            · rename_i hpackage
              split at h
              · cases h
              · -- A package has the MIME type of a package.
                cases h
                obtain rfl : mime = htmlMime := hhtml
                rw [html_apart.1] at hpackage
                exact absurd rfl hpackage
          · split at h
            · split at h
              · cases h
              · rename_i hlegacy
                cases h
                obtain rfl : mime = htmlMime := hhtml
                exact absurd html_apart.2 hlegacy
            · split at h
              · cases h
              · rename_i hmatch
                split at h
                · cases h
                · cases h
                  obtain rfl : sniffed = htmlMime := hhtml
                  refine ⟨?_, fun other hother => Option.some.inj (hother.symm.trans hsniffed)⟩
                  by_contra hne
                  exact hmatch ⟨Ne.symm hne, fun heq => hne (withoutAlias_eq_html heq)⟩
      · rename_i hnone
        split at h
        · cases h
        · split at h
          · cases h
          · split at h
            · cases h
            · cases h
              exact ⟨hhtml, fun sniffed hsome => by cases hnone.symm.trans hsome⟩

/-! ## The profile -/

/-- The units of a text are those of the trimmed text, and white space. -/
theorem mem_trim {text : Text} {unit : UInt16} (h : unit ∈ text) :
    unit ∈ trim text ∨ isWhiteSpace unit = true := by
  have hdrop : ∀ {text : Text}, unit ∈ text →
      unit ∈ text.dropWhile isWhiteSpace ∨ isWhiteSpace unit = true := by
    intro text hmem
    rw [← List.takeWhile_append_dropWhile (p := isWhiteSpace) (l := text)] at hmem
    rcases List.mem_append.1 hmem with hfront | hback
    · exact .inr (List.mem_takeWhile_imp hfront)
    · exact .inl hback
  unfold trim
  rw [List.mem_reverse]
  rcases hdrop h with hback | hblank
  · exact hdrop (List.mem_reverse.2 hback)
  · exact .inr hblank

variable {beyondAscii : Text → Text}

/-- The parser reads the declared type as that of HTML, too. -/
theorem mimeOf_html (h : trim declaredMime = htmlMime) :
    mimeOf (lowerCase beyondAscii) declaredMime = htmlMime := by
  have hsemicolon : ∀ unit ∈ declaredMime, decide (unit ≠ 0x3b) = true := by
    intro unit hunit
    rw [decide_eq_true_eq]
    rintro rfl
    rcases mem_trim hunit with hmem | hblank
    · rw [h] at hmem
      exact absurd hmem (by decide +kernel)
    · exact absurd hblank (by decide)
  unfold mimeOf
  rw [List.takeWhile_eq_self_iff.2 hsemicolon, h]
  unfold lowerCase
  rw [if_pos (by decide +kernel)]
  decide +kernel

example : mimeOf (lowerCase id) (ascii "text/html; charset=utf-8") = htmlMime := by
  decide +kernel

/-- The parsers that the extension of a document with the MIME type of HTML can choose. -/
theorem profileOf_html (extension : Text) :
    profileOf htmlMime extension ∈ [DocumentParserProfile.pdf, .docx, .xlsx, .pptx, .epub, .odf,
      .csv, .rtf, .eml, .html] := by
  unfold profileOf
  split
  · decide
  · split
    · split
      · decide
      · split
        · decide
        · split
          · decide
          · split <;> decide
    · split
      · decide
      · split
        · decide
        · split
          · decide
          · rw [if_pos (.inr (.inr rfl))]
            decide

/-- What starts as a PDF is sniffed as one. -/
theorem sniff_pdf (h : hasBytesAt data 0 [0x25, 0x50, 0x44, 0x46] = true) :
    sniffMimeFromBytes toLowerCase data = some (ascii "application/pdf") := by
  have hlength : 4 ≤ data.length := (List.isPrefixOf_iff_prefix.1 h).length_le
  have hmatches : Signature.matches ⟨4, [(0, [0x25, 0x50, 0x44, 0x46])],
      ascii "application/pdf"⟩ data = true := by
    unfold Signature.matches
    rw [List.all_cons, List.all_nil, Bool.and_true, Bool.and_eq_true, decide_eq_true_eq]
    exact ⟨hlength, h⟩
  unfold sniffMimeFromBytes signatures
  rw [List.find?_cons, hmatches]

/-- Bytes that are not sniffed as a PDF are no PDF. -/
theorem parsePdf_error (engines : Engines) (contentHash : Text) (maxPages : Nat)
    (h : hasBytesAt data 0 [0x25, 0x50, 0x44, 0x46] = false) :
    ∃ error, parsePdf engines data contentHash maxPages = .error error := by
  have hstart : startsWith (Utf8.latin1 data) (ascii "%PDF-") = false := by
    rw [Bool.eq_false_iff]
    intro hstart
    have hprefix := (List.isPrefixOf_iff_prefix.1 hstart).map fun unit => UInt8.ofNat unit.toNat
    rw [show (Utf8.latin1 data).map (fun unit => UInt8.ofNat unit.toNat) = data from
      Utf8.toLatin1_latin1 data] at hprefix
    have hbytes : [0x25, 0x50, 0x44, 0x46] <+: data :=
      List.IsPrefix.trans ⟨[0x2d], by decide +kernel⟩ hprefix
    exact Bool.false_ne_true (h.symm.trans (List.isPrefixOf_iff_prefix.2 hbytes))
  unfold parsePdf
  simp only [hstart]
  split
  · exact ⟨_, rfl⟩
  · exact ⟨_, rfl⟩

/-! ## The check -/

/-- `classifyDocumentBytes` accepts the document as HTML. -/
def AcceptedAsHtml (toLowerCase : Text → Text) (input : Input) : Prop :=
  ∃ classification, classifyDocumentBytes toLowerCase input.bytes input.declaredMime
    input.filename = .ok classification ∧ classification.sniffedMime = htmlMime

/-- Whatever is returned for the document, its text has no active markup. -/
def Checked (engines : Engines) (input : Input) : Prop :=
  ∀ parsed, parseBoundedDocument engines input = .ok parsed →
    hasActiveMarkup (Utf8.decode input.bytes) = false

/-- The extension names another format, and its parser reads the document. -/
def ReadOtherwise (engines : Engines) (input : Input) : Prop :=
  let source := Utf8.decode input.bytes
  let contentHash := engines.sha256 input.bytes
  match profileOf htmlMime (extensionOf engines.toLowerCase input.filename) with
  | .csv => ∃ blocks, parseCsv source contentHash = .ok blocks
  | .rtf => startsWith source (ascii "\x7b\\rtf") = true
  | .eml => ∃ text, parseMimeText engines.toLowerCase engines.htmlText source 0 0 = .ok text
  | .html | .pdf => False
  | profile => ∃ content, engines.package profile input.bytes contentHash
    (min (input.maxPages.getD 500) 500) = .ok content ∧ content.1.length ≤ maxDocumentBlocks

/-- The parser returns something if and only if the profile's parser does, within the limits. -/
theorem parseBoundedDocument_ok_iff (engines : Engines) (input : Input) :
    (∃ parsed, parseBoundedDocument engines input = .ok parsed) ↔
      input.cancelled = none ∧ input.bytes ≠ [] ∧ input.bytes.length ≤ maxDocumentBytes ∧
        ∃ content, parseProfile engines (resolveDocumentParserProfile engines.toLowerCase
          input.declaredMime input.filename) input (engines.sha256 input.bytes) = .ok content ∧
          content.1.length ≤ maxDocumentBlocks := by
  unfold parseBoundedDocument
  cases input.cancelled with
  | some error =>
    constructor
    · rintro ⟨_, h⟩
      cases h
    · rintro ⟨h, -⟩
      cases h
  | none =>
    simp only [true_and]
    by_cases hsize : input.bytes.length = 0 ∨ maxDocumentBytes < input.bytes.length
    · rw [if_pos hsize]
      constructor
      · rintro ⟨_, h⟩
        cases h
      · rintro ⟨hne, _, -⟩
        rcases hsize with hempty | hlarge
        · exact absurd (List.length_eq_zero_iff.1 hempty) hne
        · omega
    · rw [if_neg hsize]
      have hne : input.bytes ≠ [] := fun hempty =>
        hsize (.inl (List.length_eq_zero_iff.2 hempty))
      constructor
      · rintro ⟨_, h⟩
        obtain ⟨content, hcontent, h⟩ := bind_eq_ok.1 h
        refine ⟨hne, by omega, content, hcontent, ?_⟩
        by_contra hmany
        simp only [if_pos (Nat.lt_of_not_le hmany)] at h
        cases h
      · rintro ⟨-, -, _, hcontent, hfew⟩
        rw [hcontent]
        simp only [bind, Except.bind, if_neg (Nat.not_lt_of_le hfew)]
        exact ⟨_, rfl⟩

variable {engines : Engines} {input : Input}

theorem length_blocksOf (content : Text) (blockId : String) (contentHash : Text) :
    (blocksOf content blockId contentHash).length ≤ maxDocumentBlocks := by
  unfold blocksOf
  split
  · exact Nat.zero_le _
  · exact (by decide : 1 ≤ maxDocumentBlocks)

/-- A mapped result, if its blocks are never too many. -/
theorem map_ok_iff {α : Type} {outcome : Parsed α}
    {f : α → List DocumentBlock × List MetadataRecord}
    (hfew : ∀ value, outcome = .ok value → (f value).1.length ≤ maxDocumentBlocks) :
    (∃ content, outcome.map f = .ok content ∧ content.1.length ≤ maxDocumentBlocks) ↔
      ∃ value, outcome = .ok value := by
  cases outcome with
  | error error =>
    constructor
    · rintro ⟨_, h, -⟩
      cases h
    · rintro ⟨_, h⟩
      cases h
  | ok value => exact ⟨fun _ => ⟨value, rfl⟩, fun _ => ⟨f value, rfl, hfew value rfl⟩⟩

variable {source contentHash : Text}

theorem parseCsv_few {blocks : List DocumentBlock} (h : parseCsv source contentHash = .ok blocks) :
    blocks.length ≤ maxDocumentBlocks := by
  unfold parseCsv at h
  obtain ⟨_, -, h⟩ := bind_eq_ok.1 h
  obtain ⟨_, -, h⟩ := bind_eq_ok.1 h
  cases h
  exact (by decide : 1 ≤ maxDocumentBlocks)

theorem parseRtf_ok_iff : (∃ blocks, parseRtf source contentHash = .ok blocks) ↔
      startsWith source (ascii "\x7b\\rtf") = true := by
  unfold parseRtf
  cases startsWith source (ascii "\x7b\\rtf") with
  | false =>
    constructor
    · rintro ⟨_, h⟩
      cases h
    · intro h
      cases h
  | true => exact ⟨fun _ => rfl, fun _ => ⟨_, rfl⟩⟩

theorem parseRtf_few {blocks : List DocumentBlock} (h : parseRtf source contentHash = .ok blocks) :
    blocks.length ≤ maxDocumentBlocks := by
  unfold parseRtf at h
  split at h
  · cases h
  · cases h
    exact length_blocksOf _ _ _

theorem parseEml_ok_iff : (∃ content, parseEml engines source contentHash = .ok content ∧
        content.1.length ≤ maxDocumentBlocks) ↔
      ∃ text, parseMimeText engines.toLowerCase engines.htmlText source 0 0 = .ok text := by
  unfold parseEml
  constructor
  · rintro ⟨_, h, -⟩
    obtain ⟨text, htext, -⟩ := bind_eq_ok.1 h
    exact ⟨text, htext⟩
  · rintro ⟨_, htext⟩
    rw [htext]
    exact ⟨_, rfl, length_blocksOf _ _ _⟩

/-- Unless the markup is checked, the profile's parser reads the document as another format. -/
theorem parseProfile_active (hactive : hasActiveMarkup (Utf8.decode input.bytes) = true)
    (hpdf : hasBytesAt input.bytes 0 [0x25, 0x50, 0x44, 0x46] = false) :
    (∃ content, parseProfile engines
        (profileOf htmlMime (extensionOf engines.toLowerCase input.filename)) input
        (engines.sha256 input.bytes) = .ok content ∧ content.1.length ≤ maxDocumentBlocks) ↔
      ReadOtherwise engines input := by
  have hmem := profileOf_html (extensionOf engines.toLowerCase input.filename)
  unfold ReadOtherwise
  simp only
  generalize profileOf htmlMime (extensionOf engines.toLowerCase input.filename) = profile at hmem
  unfold parseProfile
  cases profile with
  | pdf =>
    obtain ⟨_, herror⟩ := parsePdf_error engines (engines.sha256 input.bytes)
      (min (input.maxPages.getD 500) 500) hpdf
    simp only [herror]
    exact ⟨fun ⟨_, h, _⟩ => (by cases h), False.elim⟩
  | html =>
    have hrefused : parseHtml engines (Utf8.decode input.bytes) (engines.sha256 input.bytes) =
        documentError "Active markup content is not supported" "document.active_content" := by
      unfold parseHtml assertNoActiveMarkup
      rw [if_pos hactive]
      rfl
    simp only [hrefused]
    exact ⟨fun ⟨_, h, _⟩ => (by cases h), False.elim⟩
  | csv => exact map_ok_iff fun blocks h => parseCsv_few h
  | rtf => exact (map_ok_iff fun blocks h => parseRtf_few h).trans parseRtf_ok_iff
  | eml => exact parseEml_ok_iff
  | docx => exact Iff.rfl
  | xlsx => exact Iff.rfl
  | pptx => exact Iff.rfl
  | odf => exact Iff.rfl
  | epub => exact Iff.rfl
  | json => exact absurd hmem (by decide)
  | xml => exact absurd hmem (by decide)
  | text => exact absurd hmem (by decide)
  | unsupported => exact absurd hmem (by decide)

/-- The check is not bypassed if and only if the document has no active markup, or the call is
cancelled, or the document is too large, or no parser of another format reads it. -/
theorem checked_iff (engines : Engines) (input : Input)
    (h : AcceptedAsHtml engines.toLowerCase input) :
    Checked engines input ↔
      ¬ (hasActiveMarkup (Utf8.decode input.bytes) = true ∧ input.cancelled = none ∧
        input.bytes.length ≤ maxDocumentBytes ∧ ReadOtherwise engines input) := by
  obtain ⟨classification, hclassify, hhtml⟩ := h
  obtain ⟨hmime, hsniffed⟩ := classify_html hclassify hhtml
  have hpdf : hasBytesAt input.bytes 0 [0x25, 0x50, 0x44, 0x46] = false := by
    by_contra hpdf
    rw [Bool.not_eq_false] at hpdf
    exact absurd (hsniffed _ (sniff_pdf hpdf)) (by decide +kernel)
  have hprofile : resolveDocumentParserProfile engines.toLowerCase input.declaredMime
      input.filename = profileOf htmlMime (extensionOf engines.toLowerCase input.filename) := by
    unfold resolveDocumentParserProfile Engines.toLowerCase
    rw [mimeOf_html hmime]
  have hok := parseBoundedDocument_ok_iff engines input
  rw [hprofile] at hok
  constructor
  · rintro hchecked ⟨hactive, hcancelled, hsize, hread⟩
    have hne : input.bytes ≠ [] := by
      intro hempty
      rw [hempty] at hactive
      exact absurd hactive (by decide)
    obtain ⟨parsed, hparsed⟩ :=
      hok.2 ⟨hcancelled, hne, hsize, (parseProfile_active hactive hpdf).2 hread⟩
    exact Bool.false_ne_true ((hchecked parsed hparsed).symm.trans hactive)
  · intro hother parsed hparsed
    rw [Bool.eq_false_iff]
    intro hactive
    obtain ⟨hcancelled, -, hsize, hcontent⟩ := hok.1 ⟨parsed, hparsed⟩
    exact hother ⟨hactive, hcancelled, hsize, (parseProfile_active hactive hpdf).1 hcontent⟩

/-! ## A page with a script -/

/-- Engines for the page below, which is neither a PDF, a package, JSON nor well-formed XML. -/
def sampleEngines : Engines where
  beyondAscii := id
  sha256 _ := ascii "sha256-4469bf674aa013a23defe5ddcb1a256b60d09cc17f74358adc138ecc4a2aab30"
  pdf _ := .error (ascii "Invalid PDF structure.")
  package _ _ _ _ := documentError "Malformed document archive" "document.malformed"
  page _ := ([], [])
  htmlText _ := []
  formatJson _ := none
  xml _ := none

/-- A page with a script, under a filename. -/
def sampleInput (filename : String) : Input where
  bytes := Utf8.toLatin1 (ascii "<html><script>")
  declaredMime := htmlMime
  filename := ascii filename
  cancelled := none
  maxPages := none

theorem acceptedAsHtml_sample : AcceptedAsHtml sampleEngines.toLowerCase (sampleInput "a.csv") ∧
    AcceptedAsHtml sampleEngines.toLowerCase (sampleInput "a.html") :=
  ⟨⟨classified htmlMime htmlMime, by decide +kernel, rfl⟩,
    ⟨classified htmlMime htmlMime, by decide +kernel, rfl⟩⟩

example : hasActiveMarkup (Utf8.decode (sampleInput "a.csv").bytes) = true := by decide +kernel

/-- The parser of CSV reads the page, whose markup is active. -/
theorem readOtherwise_sample : hasActiveMarkup (Utf8.decode (sampleInput "a.csv").bytes) = true ∧
    ReadOtherwise sampleEngines (sampleInput "a.csv") := by
  have hprofile : profileOf htmlMime
      (extensionOf sampleEngines.toLowerCase (sampleInput "a.csv").filename) = .csv := by
    decide +kernel
  refine ⟨by decide +kernel, ?_⟩
  unfold ReadOtherwise
  simp only [hprofile]
  exact ⟨[⟨ascii "table-1", .table [⟨0, 0, ascii "<html><script>"⟩],
    some (charSpan (ascii "<html><script>") (sampleEngines.sha256 []))⟩], by decide +kernel⟩

example : extensionOf sampleEngines.toLowerCase (ascii "a.html") = ascii "html" := by
  decide +kernel

/-- Under the name of an HTML file the page is checked, under that of a CSV file it is not. -/
theorem checked_sample : Checked sampleEngines (sampleInput "a.html") ∧
    ¬ Checked sampleEngines (sampleInput "a.csv") := by
  have hprofile : profileOf htmlMime
      (extensionOf sampleEngines.toLowerCase (sampleInput "a.html").filename) = .html := by
    decide +kernel
  constructor
  · refine (checked_iff sampleEngines (sampleInput "a.html") acceptedAsHtml_sample.2).2 ?_
    rintro ⟨-, -, -, hread⟩
    unfold ReadOtherwise at hread
    simp only [hprofile] at hread
  · intro hchecked
    exact (checked_iff sampleEngines (sampleInput "a.csv") acceptedAsHtml_sample.1).1 hchecked
      ⟨readOtherwise_sample.1, rfl, by decide +kernel, readOtherwise_sample.2⟩

/-- A page with a script is accepted as HTML and returned as a table. -/
theorem html_read_as_csv : AcceptedAsHtml sampleEngines.toLowerCase (sampleInput "a.csv") ∧
    ¬ Checked sampleEngines (sampleInput "a.csv") := by
  refine ⟨acceptedAsHtml_sample.1, fun hchecked => ?_⟩
  have hparsed :
      (parseBoundedDocument sampleEngines (sampleInput "a.csv")).toOption.isSome = true := by
    decide +kernel
  cases hresult : parseBoundedDocument sampleEngines (sampleInput "a.csv") with
  | error error =>
      rw [hresult] at hparsed
      cases hparsed
  | ok parsed =>
      have hinactive := hchecked parsed hresult
      exact Bool.false_ne_true (hinactive.symm.trans readOtherwise_sample.1)

end Groundlane.Sources
