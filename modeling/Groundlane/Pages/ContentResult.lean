import Groundlane.Durable.Store
import Groundlane.Paging.Search
import Groundlane.Sequential.Checks
import Groundlane.Text.Utf16

/-!
# Pages of a content result

`paginateContentResult` of `core/content-pagination.ts`: the page of retrieved content from an
offset in code points. A continuation is fenced by the hash of what was retrieved, the page is as
long as its serialized form fits the output limit, and it ends behind a line when that costs at
most a fifth of it.
-/

namespace Groundlane

open Paging Sequential Utf16

inductive ContentStrategy where
  | fallback
  | parallel
deriving DecidableEq

def ContentStrategy.name : ContentStrategy → String
  | fallback => "fallback"
  | parallel => "parallel"

inductive ContentFormat where
  | markdown
  | text
deriving DecidableEq

def ContentFormat.name : ContentFormat → String
  | markdown => "markdown"
  | text => "text"

structure ContentProviderResult where
  provider : Text
  url : Text
  finalUrl : Text
  title : Option Text
  content : Text
  format : ContentFormat
  truncated : Bool
  durationMs : Numeral
  warnings : List Text
deriving DecidableEq

structure PaginatedContent extends ContentProviderResult where
  contentOffset : Nat
  totalContentChars : Nat
  nextContentOffset : Option Nat
  contentHash : Text
  sourceTruncated : Bool
deriving DecidableEq

/-- `ContentResult` and `PaginatedContentResult`, by what their contents are. -/
structure ContentResultOf (Content : Type) where
  url : Text
  strategy : ContentStrategy
  providersSelected : List Text
  providersAttempted : List Text
  providersSucceeded : List Text
  contents : List Content
  durationMs : Numeral
  warnings : List Text
deriving DecidableEq

abbrev ContentResult := ContentResultOf ContentProviderResult

abbrev PaginatedContentResult := ContentResultOf PaginatedContent

structure ContentPageOptions where
  offset : Int
  maxContentChars : Int
  maxOutputChars : Int
  expectedContentHash : Option Text

/-- The members of a provider result, as far as they are serialized. -/
def ContentProviderResult.members (source : ContentProviderResult) : List (String × Value) :=
  [("provider", .str source.provider), ("url", .str source.url),
    ("finalUrl", .str source.finalUrl)] ++
    (source.title.toList.map fun title => ("title", .str title)) ++
    [("content", .str source.content), ("format", .str (ascii source.format.name)),
    ("truncated", .bool source.truncated), ("durationMs", .num source.durationMs),
    ("warnings", .arr (source.warnings.map .str))]

def PaginatedContent.toValue (content : PaginatedContent) : Value :=
  .obj (content.toContentProviderResult.members ++
    [("contentOffset", .nat content.contentOffset),
      ("totalContentChars", .nat content.totalContentChars),
      ("nextContentOffset", content.nextContentOffset.elim .null .nat),
      ("contentHash", .str content.contentHash),
      ("sourceTruncated", .bool content.sourceTruncated)])

def PaginatedContentResult.toValue (page : PaginatedContentResult) : Value :=
  .obj [("url", .str page.url), ("strategy", .str (ascii page.strategy.name)),
    ("providersSelected", .arr (page.providersSelected.map .str)),
    ("providersAttempted", .arr (page.providersAttempted.map .str)),
    ("providersSucceeded", .arr (page.providersSucceeded.map .str)),
    ("contents", .arr (page.contents.map PaginatedContent.toValue)),
    ("durationMs", .num page.durationMs), ("warnings", .arr (page.warnings.map .str))]

/-- `Array.from(JSON.stringify(page)).length`. -/
def PaginatedContentResult.outputChars (page : PaginatedContentResult) : Nat :=
  (codePoints (PaginatedContentResult.toValue page).stringify).length

def contentError (message : String) : Fault :=
  .groundlane .invalidInput "web_content" message

def contentLimitError (message : String) : Fault :=
  .groundlane .outputLimit "web_content" message

/-- `^[a-f0-9]{64}$`. -/
def isContentHash (hash : Text) : Bool :=
  hash.length == 64 && hash.all fun unit =>
    (0x30 ≤ unit && unit ≤ 0x39) || (0x61 ≤ unit && unit ≤ 0x66)

/-- The text whose digest is the content hash. -/
def ContentProviderResult.fingerprint (source : ContentProviderResult) : Text :=
  (Value.arr [.str source.provider, .str source.url, .str source.finalUrl,
    .str (ascii source.format.name), .bool source.truncated, .str source.content]).stringify

/-- `lastIndexOf` of the line feed, before which nothing is found at `none`. -/
def lastNewline (characters : List Text) : Option Nat :=
  let behind := characters.reverse.takeWhile fun character => character ≠ [10]
  if behind.length < characters.length then some (characters.length - behind.length - 1) else none

/-- The count of characters up to the last line feed, if it is in the last fifth. -/
def lineCount (characters : List Text) : Nat :=
  match lastNewline characters with
  | some last => if last ≥ characters.length * 4 / 5 then last + 1 else characters.length
  | none => characters.length

/-- What the pages of one call have in common. -/
structure ContentPageRequest where
  result : ContentResult
  source : ContentProviderResult
  offset : Nat
  contentHash : Text

namespace ContentPageRequest

variable (request : ContentPageRequest)

def characters : List Text := codePoints request.source.content

/-- The page with `count` characters. -/
def makePage (count : Nat) : PaginatedContentResult :=
  let last := request.offset + count
  { url := request.result.url
    strategy := request.result.strategy
    providersSelected := request.result.providersSelected
    providersAttempted := request.result.providersAttempted
    providersSucceeded := request.result.providersSucceeded
    contents := [{ request.source with
      content := ((request.characters.drop request.offset).take count).flatten
      contentOffset := request.offset
      totalContentChars := request.characters.length
      nextContentOffset := if last < request.characters.length then some last else none
      contentHash := request.contentHash
      sourceTruncated := request.source.truncated
      truncated := request.source.truncated || request.offset > 0 ||
        last < request.characters.length }]
    durationMs := request.result.durationMs
    warnings := request.result.warnings }

def fits (maxOutputChars : Int) (page : PaginatedContentResult) : Bool :=
  PaginatedContentResult.outputChars page ≤ maxOutputChars

/-- The longest count the search finds. -/
def searchCount (maxContentChars maxOutputChars : Int) : Nat :=
  lastFitting (fun count => fits maxOutputChars (request.makePage count)) 0
    (min maxContentChars.toNat (request.characters.length - request.offset))

/-- The page that is returned, from the page without content on. -/
def page (maxContentChars maxOutputChars : Int) : Except Fault PaginatedContentResult := do
  throwIf (¬ fits maxOutputChars (request.makePage 0))
    (contentLimitError "Pagination metadata exceeds the configured output limit")
  let low := request.searchCount maxContentChars maxOutputChars
  throwIf (low = 0 ∧ request.offset < request.characters.length)
    (contentLimitError "Output limit cannot fit a non-empty content page")
  -- Prefer complete lines without allowing a long line to stall progress.
  let count := if request.offset + low < request.characters.length then
      lineCount ((request.characters.drop request.offset).take low)
    else low
  throwIf (¬ fits maxOutputChars (request.makePage count))
    (contentLimitError "Content page exceeds the configured output limit")
  return request.makePage count

end ContentPageRequest

/-- The digest of a text in hexadecimal is a parameter. -/
def paginateContentResult (digest : Text → Text) (result : ContentResult)
    (options : ContentPageOptions) : Except Fault PaginatedContentResult :=
  let invalid := contentError
    "Pagination requires one provider, valid limits, and a content hash for continuation"
  match result.contents with
  | [source] => do
    throwIf (¬ isSafeInteger options.offset ∨ options.offset < 0 ∨ options.offset > 200000 ∨
      ¬ isSafeInteger options.maxContentChars ∨ options.maxContentChars < 1 ∨
      options.maxContentChars > 200000 ∨ ¬ isSafeInteger options.maxOutputChars ∨
      options.maxOutputChars < 1 ∨
      (options.expectedContentHash.any fun hash => ¬ isContentHash hash) ∨
      (options.offset > 0 ∧ options.expectedContentHash = none)) invalid
    let request : ContentPageRequest :=
      { result, source, offset := options.offset.toNat, contentHash := digest source.fingerprint }
    throwIf (options.offset > request.characters.length)
      (contentError "Content offset exceeds the retrieved source length")
    throwIf (options.expectedContentHash.any fun hash => hash ≠ request.contentHash)
      (contentError "Content changed since the previous page")
    request.page options.maxContentChars options.maxOutputChars
  | _ => .error invalid

end Groundlane
