import Groundlane.Durable.Store
import Groundlane.Paging.Search
import Groundlane.Sequential.Checks
import Groundlane.Text.Utf16

/-!
# Pages of a document projection

`paginateDocumentProjection` of `core/document-result-text.ts`: the page of a retained text from
an offset in code points, as long as its serialized form fits the output limit. Metadata is bounded
first, and dropped when not even one code point fits beside it.
-/

namespace Groundlane

open Paging Sequential Utf16

inductive ProjectionKind where
  | markdown
  | text
  | structured
  | all
deriving DecidableEq

def ProjectionKind.name : ProjectionKind → String
  | markdown => "markdown"
  | text => "text"
  | structured => "structured"
  | all => "all"

inductive ExtractionStatus where
  | success
  | partly
  | unsupported
  | failed
  | unknown
deriving DecidableEq

def ExtractionStatus.name : ExtractionStatus → String
  | success => "success"
  | partly => "partial"
  | unsupported => "unsupported"
  | failed => "failed"
  | unknown => "unknown"

structure StoredProjection where
  kind : ProjectionKind
  content : Text
  lossy : Bool
  omissions : List Text
  warnings : List Text

/-- The arguments of the call that reads the next page. -/
structure NextAction where
  refId : Text
  contentOffset : Nat
  maxContentChars : Int
deriving DecidableEq

structure DocumentTextPage where
  refId : Text
  content : Text
  projectionKind : ProjectionKind
  contentOffset : Nat
  nextContentOffset : Option Nat
  totalContentChars : Nat
  contentHash : Text
  extractionStatus : ExtractionStatus
  lossy : Bool
  omissions : List Text
  warnings : List Text
  metadataTruncated : Bool
  instruction : String
  nextAction : Option NextAction
deriving DecidableEq

namespace DocumentTextPage

def documentStage : String := "document_result_read_text"

def NextAction.toValue (action : NextAction) : Value :=
  .obj [("tool", .str (ascii documentStage)),
    ("arguments", .obj [("refId", .str action.refId), ("contentOffset", .nat action.contentOffset),
      ("maxContentChars", .num (Numeral.ofInt action.maxContentChars))])]

/-- The page as it is serialized; a last page has no `nextAction`. -/
def toValue (page : DocumentTextPage) : Value :=
  .obj ([("refId", .str page.refId), ("content", .str page.content),
    ("projectionKind", .str (ascii page.projectionKind.name)),
    ("contentOffset", .nat page.contentOffset),
    ("nextContentOffset", page.nextContentOffset.elim .null .nat),
    ("totalContentChars", .nat page.totalContentChars),
    ("contentHash", .str page.contentHash),
    ("extractionStatus", .str (ascii page.extractionStatus.name)),
    ("lossy", .bool page.lossy),
    ("omissions", .arr (page.omissions.map .str)),
    ("warnings", .arr (page.warnings.map .str)),
    ("metadataTruncated", .bool page.metadataTruncated),
    ("instruction", .str (ascii page.instruction))] ++
    page.nextAction.toList.map fun action => ("nextAction", NextAction.toValue action))

/-- `JSON.stringify({ ok: true, data: page }).length`. -/
def outputChars (page : DocumentTextPage) : Nat :=
  (Value.obj [("ok", .bool true), ("data", page.toValue)]).stringify.length

end DocumentTextPage

/-- What bounded metadata is left of the omissions and warnings. -/
structure PageMetadata where
  omissions : List Text
  warnings : List Text
  metadataTruncated : Bool
deriving DecidableEq

namespace PageMetadata

/-- The first 120 code points of the first three values. -/
def boundMetadata (values : List Text) : List Text :=
  (values.take 3).map fun value => ((codePoints value).take 120).flatten

/-- The bounded metadata of a projection, truncated if it is not all of it. -/
def ofProjection (projection : StoredProjection) : PageMetadata :=
  let omissions := boundMetadata projection.omissions
  let warnings := boundMetadata projection.warnings
  { omissions, warnings
    metadataTruncated := omissions ≠ projection.omissions || warnings ≠ projection.warnings }

/-- No metadata, which is truncated if there was any. -/
def dropped (metadata : PageMetadata) : PageMetadata where
  omissions := []
  warnings := []
  metadataTruncated := metadata.metadataTruncated ||
    (metadata.omissions.length > 0 || metadata.warnings.length > 0)

end PageMetadata

/-- What the pages of one call have in common. -/
structure PageRequest where
  refId : Text
  contentHash : Text
  projection : StoredProjection
  contentOffset : Nat
  maxContentChars : Int
  extractionStatus : ExtractionStatus

namespace PageRequest

variable (request : PageRequest)

def totalContentChars : Nat :=
  (codePoints request.projection.content).length

/-- The code points that the page may hold. -/
def points : List Text :=
  ((codePoints request.projection.content).drop request.contentOffset).take
    request.maxContentChars.toNat

/-- The page with the first `length` of these code points. -/
def build (metadata : PageMetadata) (length : Nat) : DocumentTextPage :=
  let last := request.contentOffset + length
  let nextContentOffset := if last < request.totalContentChars then some last else none
  { refId := request.refId
    content := (request.points.take length).flatten
    projectionKind := request.projection.kind
    contentOffset := request.contentOffset
    nextContentOffset
    totalContentChars := request.totalContentChars
    contentHash := request.contentHash
    extractionStatus := request.extractionStatus
    lossy := request.projection.lossy
    omissions := metadata.omissions
    warnings := metadata.warnings
    metadataTruncated := metadata.metadataTruncated
    instruction := if nextContentOffset = none then
        "End of saved projection; this does not certify complete extraction of the source."
      else
        "Follow nextAction until nextContentOffset is null. This page is not the full saved projection."
    nextAction := nextContentOffset.map fun contentOffset =>
      { refId := request.refId, contentOffset, maxContentChars := request.maxContentChars } }

def fits (maxOutputChars : Int) (page : DocumentTextPage) : Bool :=
  page.outputChars ≤ maxOutputChars

/-- At least one code point, unless the offset is at the end. -/
def minimum : Nat :=
  if request.contentOffset < request.totalContentChars then 1 else 0

/-- The metadata that stays: none if the smallest page does not fit with it. -/
def keptMetadata (maxOutputChars : Int) : PageMetadata :=
  let metadata := PageMetadata.ofProjection request.projection
  if fits maxOutputChars (request.build metadata request.minimum) then metadata
  else metadata.dropped

/-- The page that is returned for a request within range. A last page has no continuation, and may
fit when a shorter one does not, so the longest page is tried first. -/
def page (maxOutputChars : Int) : Except Fault DocumentTextPage :=
  let high := request.points.length
  let first := request.build (PageMetadata.ofProjection request.projection) high
  let metadata := request.keptMetadata maxOutputChars
  if fits maxOutputChars first then .ok first
  else if fits maxOutputChars (request.build metadata high) then .ok (request.build metadata high)
  else if ¬ fits maxOutputChars (request.build metadata request.minimum) then
    .error (.groundlane .outputLimit DocumentTextPage.documentStage
      "Document text response metadata exceeds the configured output limit")
  else
    .ok (request.build metadata
      (lastFitting (fun length => fits maxOutputChars (request.build metadata length))
        request.minimum high))

end PageRequest

def documentRangeError : Fault :=
  .groundlane .invalidInput DocumentTextPage.documentStage "Document text range is invalid"

def paginateDocumentProjection (refId contentHash : Text) (projection : StoredProjection)
    (contentOffset maxContentChars maxOutputChars : Int) (extractionStatus : ExtractionStatus) :
    Except Fault DocumentTextPage := do
  throwIf (¬ isSafeInteger contentOffset ∨ contentOffset < 0 ∨ ¬ isSafeInteger maxContentChars ∨
      maxContentChars < 1 ∨ maxContentChars > 50000 ∨ ¬ isSafeInteger maxOutputChars ∨
      maxOutputChars < 1) documentRangeError
  let request : PageRequest :=
    { refId, contentHash, projection, contentOffset := contentOffset.toNat, maxContentChars
      extractionStatus }
  throwIf (contentOffset > request.totalContentChars) documentRangeError
  request.page maxOutputChars

end Groundlane
