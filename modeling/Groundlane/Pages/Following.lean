import Groundlane.Pages.ContentResult
import Groundlane.Pages.DocumentProjection
import Groundlane.Paging.Follow

/-!
# Following pages reconstructs the text

Every page of both paginations is a slice of the code points of the text that starts at its offset
and is not empty before the end (`documentPage_spec`, `contentPage_spec`), whatever the search for
its length finds. So the pages that are read by following `nextContentOffset` from the start to the
end make up the text, under any limits (`following_pages_reconstructs`).
-/

namespace Groundlane

open Paging Sequential Utf16

/-- What is read by following the pages: every page that names a next one makes progress, every
page fits its limit, and the pages make up the text, code point by code point. -/
structure ReadsBack {L P : Type} (text : Text) (maxOutputChars : L → Int) (content : P → Text)
    (contentOffset : P → Nat) (next : P → Option Nat) (outputChars : P → Nat) (limits : List L)
    (pages : List P) : Prop where
  progress : ∀ page ∈ pages, ∀ after, next page = some after → contentOffset page < after
  within : List.Forall₂ (fun limits page => outputChars page ≤ maxOutputChars limits) limits pages
  content_eq : (pages.map content).flatten = text
  codePoints_eq : (pages.map fun page => codePoints (content page)).flatten = codePoints text

/-- What is known of one page is enough. -/
theorem readsBack_of_pages {L P ε : Type} {text : Text} {maxOutputChars : L → Int}
    {content : P → Text} {contentOffset : P → Nat} {next : P → Option Nat} {outputChars : P → Nat}
    {paginate : Nat → L → Except ε P} {limits : List L} {pages : List P}
    (hpage : ∀ offset limits page, paginate offset limits = .ok page →
      contentOffset page = offset ∧ outputChars page ≤ maxOutputChars limits ∧
        ∃ length, content page = (((codePoints text).drop offset).take length).flatten ∧
          IsSlice (codePoints text) offset length (codePoints (content page)) (next page))
    (h : Paging.Follows paginate next 0 limits pages) :
    ReadsBack text maxOutputChars content contentOffset next outputChars limits pages where
  progress := by
    have hforall : List.Forall₂ (fun (_ : L) page =>
        ∀ after, next page = some after → contentOffset page < after) limits pages := by
      refine h.forall₂ fun offset limits page hok after hnext => ?_
      obtain ⟨hoffset, -, _, -, hslice⟩ := hpage offset limits page hok
      rw [hoffset]
      exact hslice.lt_next hnext
    intro page hmem
    obtain ⟨i, hi, rfl⟩ := List.mem_iff_getElem.1 hmem
    exact (List.forall₂_iff_get.1 hforall).2 i (hforall.length_eq ▸ hi) hi
  within := h.forall₂ fun offset limits page hok => (hpage offset limits page hok).2.1
  content_eq := by
    have hpoints : (pages.map fun page => codePoints (content page)).flatten = codePoints text :=
      h.content_eq fun offset limits page hok =>
        (hpage offset limits page hok).2.2.imp fun _ hslice => hslice.2
    calc (pages.map content).flatten
        = (pages.map fun page => (codePoints (content page)).flatten).flatten := by simp
      _ = (pages.map fun page => codePoints (content page)).flatten.flatten := by
          rw [List.flatten_flatten, List.map_map]
          rfl
      _ = text := by rw [hpoints, flatten_codePoints]
  codePoints_eq := h.content_eq fun offset limits page hok =>
    (hpage offset limits page hok).2.2.imp fun _ hslice => hslice.2

/-! ## Document projections -/

namespace PageRequest

variable {request : PageRequest} {metadata : PageMetadata} {maxOutputChars : Int} {length : Nat}

/-- The content of a page is a slice of the text. -/
theorem build_content (h : length ≤ request.points.length) :
    (request.build metadata length).content =
      (((codePoints request.projection.content).drop request.contentOffset).take length).flatten := by
  unfold build points at *
  rw [List.length_take] at h
  dsimp only
  rw [List.take_take, Nat.min_eq_left (h.trans (Nat.min_le_left _ _))]

/-- A page of an admissible length is a slice. -/
theorem build_isSlice (h : length ≤ request.points.length)
    (hprogress : request.contentOffset < request.totalContentChars → 0 < length) :
    IsSlice (codePoints request.projection.content) request.contentOffset length
      (codePoints (request.build metadata length).content)
      (request.build metadata length).nextContentOffset where
  content_eq := by
    rw [build_content h]
    exact codePoints_slice _ _ _
  next_eq := rfl
  progress := hprogress

/-- Between the offset and the end there is at least one code point. -/
theorem minimum_le (hmax : 1 ≤ request.maxContentChars) :
    request.minimum ≤ request.points.length := by
  unfold minimum points totalContentChars
  rw [List.length_take, List.length_drop]
  split <;> omega

theorem minimum_pos (h : request.contentOffset < request.totalContentChars) :
    0 < request.minimum := by
  unfold minimum
  rw [if_pos h]
  exact Nat.one_pos

/-- What is returned is a page of an admissible length that fits. -/
theorem of_page_ok {page : DocumentTextPage} (hmax : 1 ≤ request.maxContentChars)
    (h : request.page maxOutputChars = .ok page) :
    ∃ metadata length, page = request.build metadata length ∧ request.minimum ≤ length ∧
      length ≤ request.points.length ∧ fits maxOutputChars page = true := by
  have hminimum := minimum_le hmax
  unfold PageRequest.page at h
  dsimp only at h
  split at h
  · rename_i hfirst
    obtain rfl := Except.ok.inj h
    exact ⟨_, _, rfl, hminimum, le_refl _, hfirst⟩
  · split at h
    · rename_i hhigh
      obtain rfl := Except.ok.inj h
      exact ⟨_, _, rfl, hminimum, le_refl _, hhigh⟩
    · split at h
      · cases h
      · rename_i hsmallest
        obtain rfl := Except.ok.inj h
        refine ⟨_, _, rfl, le_lastFitting _ hminimum, lastFitting_le _ hminimum, ?_⟩
        exact @lastFitting_fits (fun length =>
          fits maxOutputChars (request.build (request.keptMetadata maxOutputChars) length))
          _ _ hminimum (not_not.1 hsmallest)

end PageRequest

variable {page : PaginatedContentResult} {offset : Nat}

/-- What is known of a page of a document projection. -/
theorem documentPage_spec {refId contentHash : Text} {projection : StoredProjection}
    {maxContentChars maxOutputChars : Int} {extractionStatus : ExtractionStatus}
    {page : DocumentTextPage}
    (h : paginateDocumentProjection refId contentHash projection offset maxContentChars
      maxOutputChars extractionStatus = .ok page) :
    page.contentOffset = offset ∧ page.outputChars ≤ maxOutputChars ∧
      ∃ length, page.content = (((codePoints projection.content).drop offset).take length).flatten ∧
        IsSlice (codePoints projection.content) offset length (codePoints page.content)
          page.nextContentOffset := by
  unfold paginateDocumentProjection at h
  simp only [check_bind_eq_ok, throwIf_eq_ok, not_or, not_lt] at h
  obtain ⟨⟨-, -, -, hmax, -⟩, -, h⟩ := h
  obtain ⟨_, length, rfl, hminimum, hlength, hfits⟩ := PageRequest.of_page_ok hmax h
  refine ⟨rfl, of_decide_eq_true hfits, length, PageRequest.build_content hlength, ?_⟩
  exact PageRequest.build_isSlice hlength fun hmore =>
    (PageRequest.minimum_pos hmore).trans_le hminimum

/-! ## Content results -/

theorem lineCount_le (characters : List Text) : lineCount characters ≤ characters.length := by
  unfold lineCount lastNewline
  dsimp only
  by_cases hfound : (characters.reverse.takeWhile fun character => character ≠ [10]).length <
      characters.length
  · rw [if_pos hfound]
    dsimp only
    split <;> omega
  · rw [if_neg hfound]

/-- A page that is cut at a line is not cut to nothing. -/
theorem lineCount_pos {characters : List Text} (h : 0 < characters.length) :
    0 < lineCount characters := by
  unfold lineCount
  split
  · split
    · exact Nat.succ_pos _
    · exact h
  · exact h

/-- The content of a page that has one. -/
def pageContent (page : PaginatedContentResult) : Text :=
  (page.contents.head?.map fun content => content.content).getD []

def pageOffset (page : PaginatedContentResult) : Nat :=
  (page.contents.head?.map fun content => content.contentOffset).getD 0

def pageNext (page : PaginatedContentResult) : Option Nat :=
  page.contents.head?.bind fun content => content.nextContentOffset

namespace ContentPageRequest

variable {request : ContentPageRequest} {maxContentChars maxOutputChars : Int} {count : Nat}

/-- A page of an admissible length is a slice. -/
theorem makePage_isSlice
    (hprogress : request.offset < request.characters.length → 0 < count) :
    IsSlice (codePoints request.source.content) request.offset count
      (codePoints (pageContent (request.makePage count))) (pageNext (request.makePage count)) where
  content_eq := codePoints_slice _ _ _
  next_eq := rfl
  progress := hprogress

/-- What is returned is a page of an admissible length that fits. -/
theorem of_page_ok (h : request.page maxContentChars maxOutputChars = .ok page) :
    ∃ count, page = request.makePage count ∧ fits maxOutputChars page = true ∧
      (request.offset < request.characters.length → 0 < count) := by
  unfold ContentPageRequest.page at h
  simp only [check_bind_eq_ok, throwIf_eq_ok, not_not] at h
  obtain ⟨-, hempty, hfits, h⟩ := h
  obtain rfl := Except.ok.inj h
  refine ⟨_, rfl, hfits, fun hmore => ?_⟩
  have hlow : 0 < request.searchCount maxContentChars maxOutputChars := by
    by_contra hzero
    exact hempty ⟨Nat.eq_zero_of_not_pos hzero, hmore⟩
  split
  · -- The characters that the line is looked for in are not fewer than the count.
    refine lineCount_pos ?_
    rw [List.length_take, List.length_drop]
    omega
  · exact hlow

end ContentPageRequest

/-- What is known of a page of a content result. -/
theorem contentPage_spec {digest : Text → Text} {result : ContentResult}
    {maxContentChars maxOutputChars : Int} {expectedContentHash : Option Text}
    (h : paginateContentResult digest result
      { offset, maxContentChars, maxOutputChars, expectedContentHash } = .ok page) :
    ∃ source, result.contents = [source] ∧ pageOffset page = offset ∧
      PaginatedContentResult.outputChars page ≤ maxOutputChars ∧
      ∃ length, pageContent page =
          (((codePoints source.content).drop offset).take length).flatten ∧
        IsSlice (codePoints source.content) offset length (codePoints (pageContent page))
          (pageNext page) := by
  unfold paginateContentResult at h
  dsimp only at h
  split at h
  · rename_i source hcontents
    simp only [check_bind_eq_ok] at h
    obtain ⟨-, -, -, h⟩ := h
    obtain ⟨count, rfl, hfits, hprogress⟩ := ContentPageRequest.of_page_ok h
    exact ⟨source, hcontents, rfl, of_decide_eq_true hfits, count, rfl,
      ContentPageRequest.makePage_isSlice hprogress⟩
  · cases h

/-! ## Following the pages -/

/-- The limits of one call for a page of a document projection. -/
structure DocumentPageLimits where
  maxContentChars : Int
  maxOutputChars : Int

/-- The limits of one call for a page of a content result, and the hash it expects. -/
structure ContentPageLimits where
  maxContentChars : Int
  maxOutputChars : Int
  expectedContentHash : Option Text

/-- Both paginations: the pages that are read by following `nextContentOffset` from 0 to the end,
under any limits, make progress, fit their limits and make up the retained text. -/
theorem following_pages_reconstructs :
    (∀ (refId contentHash : Text) (projection : StoredProjection)
        (extractionStatus : ExtractionStatus) (limits : List DocumentPageLimits)
        (pages : List DocumentTextPage),
      Paging.Follows (fun offset limits => paginateDocumentProjection refId contentHash projection offset
          limits.maxContentChars limits.maxOutputChars extractionStatus)
        DocumentTextPage.nextContentOffset 0 limits pages →
      ReadsBack projection.content DocumentPageLimits.maxOutputChars DocumentTextPage.content
        DocumentTextPage.contentOffset DocumentTextPage.nextContentOffset
        DocumentTextPage.outputChars limits pages) ∧
    ∀ (digest : Text → Text) (result : ContentResult) (limits : List ContentPageLimits)
        (pages : List PaginatedContentResult),
      Paging.Follows (fun offset limits => paginateContentResult digest result
          { offset
            maxContentChars := limits.maxContentChars
            maxOutputChars := limits.maxOutputChars
            expectedContentHash := limits.expectedContentHash })
        pageNext 0 limits pages →
      ∃ source, result.contents = [source] ∧
        ReadsBack source.content ContentPageLimits.maxOutputChars pageContent pageOffset pageNext
          PaginatedContentResult.outputChars limits pages := by
  constructor
  · intro refId contentHash projection extractionStatus limits pages h
    exact readsBack_of_pages (fun offset limits page hok => documentPage_spec hok) h
  · intro digest result limits pages h
    obtain ⟨source, hsource⟩ : ∃ source, result.contents = [source] := by
      cases h with
      | last hok => exact (contentPage_spec hok).imp fun _ hpage => hpage.1
      | more hok => exact (contentPage_spec hok).imp fun _ hpage => hpage.1
    refine ⟨source, hsource, readsBack_of_pages (fun offset limits page hok => ?_) h⟩
    obtain ⟨other, hother, hpage⟩ := contentPage_spec hok
    obtain rfl := List.singleton_inj.1 (hother.symm.trans hsource)
    exact hpage

/-! ## Samples -/

/-- The letter a, a surrogate pair, a line feed and the letter b. -/
def sampleText : Text := [0x61, 0xd83d, 0xde00, 0x0a, 0x62]

def sampleProjection : StoredProjection where
  kind := .text
  content := sampleText
  lossy := false
  omissions := []
  warnings := []

/-- A page of the sample projection. -/
def sampleDocumentPage (content : Text) (contentOffset : Nat) (nextContentOffset : Option Nat)
    (instruction : String) (nextAction : Option NextAction) : DocumentTextPage where
  refId := ascii "r"
  content := content
  projectionKind := .text
  contentOffset := contentOffset
  nextContentOffset := nextContentOffset
  totalContentChars := 4
  contentHash := ascii "h"
  extractionStatus := .success
  lossy := false
  omissions := []
  warnings := []
  metadataTruncated := false
  instruction := instruction
  nextAction := nextAction

def sampleDocumentPages : List DocumentTextPage :=
  [sampleDocumentPage [0x61, 0xd83d, 0xde00] 0 (some 2)
      "Follow nextAction until nextContentOffset is null. This page is not the full saved projection."
      (some ⟨ascii "r", 2, 2⟩),
    sampleDocumentPage [0x0a, 0x62] 2 none
      "End of saved projection; this does not certify complete extraction of the source." none]

def sampleSource : ContentProviderResult where
  provider := ascii "x"
  url := ascii "u"
  finalUrl := ascii "f"
  title := none
  content := sampleText
  format := .text
  truncated := false
  durationMs := Numeral.ofNat 1
  warnings := []

/-- A result with the given contents. -/
def sampleResult {Content : Type} (contents : List Content) : ContentResultOf Content where
  url := ascii "u"
  strategy := .fallback
  providersSelected := []
  providersAttempted := []
  providersSucceeded := []
  contents := contents
  durationMs := Numeral.ofNat 1
  warnings := []

/-- The digest of what was retrieved in the sample. -/
def sampleHash : Text :=
  ascii "f59329e5e9c51cfa9c6c8b4d45e54a66ed15b310e9768a1e2273ddc8e53a109f"

/-- A page of the sample result. -/
def sampleContentPage (content : Text) (contentOffset : Nat) (nextContentOffset : Option Nat) :
    PaginatedContentResult :=
  sampleResult [{ sampleSource with
    content := content
    contentOffset := contentOffset
    totalContentChars := 4
    nextContentOffset := nextContentOffset
    contentHash := sampleHash
    sourceTruncated := false
    truncated := true }]

/-- Two pages of each kind. -/
theorem following_pages_reconstructs_sample :
    ReadsBack sampleText DocumentPageLimits.maxOutputChars DocumentTextPage.content
        DocumentTextPage.contentOffset DocumentTextPage.nextContentOffset
        DocumentTextPage.outputChars [⟨2, 1000⟩, ⟨9, 1000⟩] sampleDocumentPages ∧
      ∃ source, (sampleResult [sampleSource]).contents = [source] ∧
        ReadsBack source.content ContentPageLimits.maxOutputChars pageContent pageOffset pageNext
          PaginatedContentResult.outputChars [⟨3, 1000, none⟩, ⟨9, 1000, some sampleHash⟩]
          [sampleContentPage [0x61, 0xd83d, 0xde00, 0x0a] 0 (some 3),
            sampleContentPage [0x62] 3 none] :=
  ⟨following_pages_reconstructs.1 (ascii "r") (ascii "h") sampleProjection .success
      [⟨2, 1000⟩, ⟨9, 1000⟩] sampleDocumentPages
      (.more (by decide +kernel) rfl (.last (by decide +kernel) rfl)),
    following_pages_reconstructs.2 (fun _ => sampleHash) (sampleResult [sampleSource])
      [⟨3, 1000, none⟩, ⟨9, 1000, some sampleHash⟩] _
      (.more (by decide +kernel) rfl (.last (by decide +kernel) rfl))⟩

end Groundlane
