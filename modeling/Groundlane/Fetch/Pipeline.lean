import Groundlane.Budget.Steady
import Groundlane.Text.Sanitize

/-!
# The fetch pipeline

`core/fetch-pipeline.ts`: a document is fetched over HTTP, by a reader backend or by a browser
backend, the latter two within a budget that all calls share. What runs between two awaits is one
operation: the look at the remaining budget together with the invocation of the backend behind it,
and the end of a backend's work together with the count of the attempt.
-/

namespace Groundlane

open Interleaving

/-! ## Requests and documents -/

/-- `FetchFormat`. -/
inductive FetchFormat where
  | html
  | text
  | markdown
deriving DecidableEq, Repr

/-- `RenderMode`. -/
inductive RenderMode where
  | auto
  | never
  | always
deriving DecidableEq, Repr

/-- `ExtractMode`. -/
inductive ExtractMode where
  | article
  | full
deriving DecidableEq, Repr

/-- `FetchPipelineRequest`, without the deadline. -/
structure FetchPipelineRequest where
  url : String
  format : FetchFormat
  render : RenderMode
  extract : Option ExtractMode
  selector : Option String
  waitFor : Option String
  maxBytes : Int
  maxOutputChars : Int
  maxRedirects : Int
deriving DecidableEq, Repr

/-- `RawDocument`, as far as the pipeline reads it. -/
structure RawDocument (B : Type) where
  finalUrl : String
  status : Nat
  contentType : String
  body : B

/-- `NormalizedDocument`, as far as the pipeline reads it. -/
structure NormalizedDocument where
  title : Option String
  content : String
deriving DecidableEq, Repr

/-- `FetchPipelineResult`. -/
structure FetchPipelineResult (B : Type) where
  document : NormalizedDocument
  raw : RawDocument B
  fallbackReason : Option String

/-- `SourceAwareResolution`. -/
structure SourceAwareResolution (B : Type) where
  raw : RawDocument B
  reason : String

/-- The parts of a URL that the check for documentation reads. -/
structure UrlParts where
  hostname : String
  pathname : String

/-- The libraries that the pipeline rests on: decoding of bytes, lower case, URLs, and the
extraction of a document from what was fetched. -/
structure FetchLibraries (B : Type) where
  decode : B → String
  toLowerCase : String → String
  parseUrl : String → Option UrlParts
  normalizeDocument : RawDocument B → FetchFormat → Int → Option String → Option ExtractMode →
    Except Fault NormalizedDocument

/-- Which optional parts a pipeline was built with. -/
structure FetchPipeline (B : Type) where
  libraries : FetchLibraries B
  reader : Bool
  sourceResolver : Bool
  resolveProactively : Bool
  resolveManifests : Bool

/-! ## Checks -/

/-- A selector of at most 500 code units that is not blank. -/
def selectorInRange (selector : String) : Bool :=
  !(trimSpace selector.toList).isEmpty && utf16Length selector ≤ 500

/-- `validateFetchPipelineRequest`. -/
def validateFetchPipelineRequest (request : FetchPipelineRequest) : Except Fault Unit :=
  if request.maxBytes < 1 || request.maxOutputChars < 1 || request.maxRedirects < 0 ||
      20 < request.maxRedirects then
    .error (.groundlane .invalidInput "fetch" "Fetch limits are outside the allowed range")
  else if request.selector.any fun selector => !selectorInRange selector then
    .error (.groundlane .invalidInput "selector" "Selector is outside the allowed range")
  else if request.waitFor.any fun selector => !selectorInRange selector then
    .error (.groundlane .invalidInput "selector" "Wait selector is outside the allowed range")
  else .ok ()

/-- Whether a text contains another. -/
def containsText (text part : String) : Bool :=
  text.toList.tails.any fun rest => part.toList.isPrefixOf rest

/-- `detectChallenge`. -/
def detectChallenge (toLowerCase : String → String) (title bodyStart : String) : Bool :=
  let content := toLowerCase (title ++ String.ofList [Char.ofNat 10] ++ bodyStart)
  ["just a moment", "attention required", "checking your browser", "verify you are human",
    "performing security verification"].any (containsText content)

/-- `/<script\b/i`. -/
def hasScriptTag (source : String) : Bool :=
  source.toList.tails.any fun rest =>
    match matchPieces (word "<script") rest with
    | none => false
    | some [] => true
    | some (next :: _) => !(next.isAlphanum || next == '_')

/-- The first code units of a text, `slice(0, limit)`. -/
def sliceText (limit : Nat) (text : String) : String :=
  String.ofList (sliceUtf16 limit text.toList)

/-- `fallbackReason`. -/
def fallbackReason {B : Type} (libraries : FetchLibraries B) (raw : RawDocument B)
    (normalized : NormalizedDocument) (request : FetchPipelineRequest) : Option String :=
  let source := libraries.decode raw.body
  if [403, 429, 503].contains raw.status &&
      detectChallenge libraries.toLowerCase (normalized.title.getD "")
        (sliceText 1000 normalized.content ++ String.ofList [Char.ofNat 10] ++
          sliceText 4000 source) then
    some "challenge_response"
  else if request.waitFor.any (· != "") || request.selector.any (· != "") then none
  else if containsText raw.contentType "html" &&
      utf16Length (String.ofList (trimSpace normalized.content.toList)) < 80 &&
      hasScriptTag source then
    some "js_empty_document"
  else none

/-- `isLikelyDocumentationUrl`. A text that is no URL throws. -/
def isLikelyDocumentationUrl (parseUrl : String → Option UrlParts) (url : String) :
    Except Fault Bool :=
  match parseUrl url with
  | none => .error (.error "Invalid URL")
  | some parsed =>
    let hostname := parsed.hostname.toLower
    let pathSegments := (parsed.pathname.toLower.splitOn "/").filter (· != "")
    .ok (hostname == "developers.cloudflare.com" || hostname.endsWith ".readthedocs.io" ||
      hostname.startsWith "docs." || hostname.startsWith "developer." ||
      hostname.startsWith "developers." ||
      pathSegments.any fun segment =>
        ["reference", "references", "docs", "documentation", "guide", "guides"].contains segment)

/-- `canUseSourceAwareDocs`. -/
def canUseSourceAwareDocs (request : FetchPipelineRequest) : Bool :=
  request.render != .always && request.selector.isNone && request.waitFor.isNone &&
    request.extract != some .full && (request.format == .markdown || request.format == .text)

/-- `isRetryableRetrievalFailure`. -/
def isRetryableRetrievalFailure : Fault → Bool
  | .groundlane code _ _ => [.providerUnavailable, .rateLimited, .upstreamError].contains code
  | _ => false

/-! ## Operations -/

/-- The paid backends. -/
inductive Backend where
  | reader
  | browser
deriving DecidableEq, Repr

/-- The provider under which the attempts of a backend are budgeted. -/
def Backend.provider : Backend → SearchProviderId
  | reader => "jina"
  | browser => "browserless"

/-- What a backend is asked for. -/
inductive BackendRequest where
  | reader (url : String) (maxBytes : Int)
  | browser (url : String) (maxBytes : Int) (selector waitFor : Option String)

/-- The backend that a request is for. -/
def BackendRequest.backend : BackendRequest → Backend
  | reader .. => .reader
  | browser .. => .browser

/-- What a call does between its awaits. `start` looks at the remaining budget and, if there is
any, invokes the backend; `settle` is where the invocation has ended and, if it succeeded, the
attempt is counted. -/
inductive FetchQuery where
  | resolveProactively (request : FetchPipelineRequest)
  | resolveManifests (request : FetchPipelineRequest)
  | resolve (request : FetchPipelineRequest)
  | http (url : String) (maxBytes maxRedirects : Int)
  | start (request : BackendRequest)
  | settle (backend : Backend)

/-- The answers. -/
def FetchQuery.Res (B : Type) : FetchQuery → Type
  | resolveProactively _ => Except Fault (Option (SourceAwareResolution B))
  | resolveManifests _ => Except Fault (Option (SourceAwareResolution B))
  | resolve _ => Except Fault (Option (SourceAwareResolution B))
  | http .. => Except Fault (RawDocument B)
  | start _ => Bool
  | settle _ => Except Fault (RawDocument B)

/-- A call in progress. -/
abbrev FetchIo (B α : Type) : Type := Program FetchQuery (FetchQuery.Res B) Fault α

/-- What parties outside the pipeline answer. -/
structure FetchOutside (B : Type) where
  resolution : Except Fault (Option (SourceAwareResolution B))
  document : Except Fault (RawDocument B)

/-! ## The pipeline -/

namespace FetchPipeline

variable {B : Type} (pipeline : FetchPipeline B)

/-- `normalizeDocument` of what was fetched, without a selector. -/
def present (request : FetchPipelineRequest) (raw : RawDocument B) (reason : Option String) :
    Except Fault (FetchPipelineResult B) := do
  let document ← pipeline.libraries.normalizeDocument raw request.format request.maxOutputChars
    none request.extract
  pure ⟨document, raw, reason⟩

/-- `browserFetch`. Empty selectors are not passed on. -/
def browserFetch (request : FetchPipelineRequest) (reason : Option String) :
    FetchIo B (FetchPipelineResult B) := do
  let started : Bool ← Program.request (FetchQuery.start (.browser request.url request.maxBytes
    (request.selector.filter (· != "")) (request.waitFor.filter (· != ""))))
  if started = true then
    let outcome : Except Fault (RawDocument B) ← Program.request (FetchQuery.settle .browser)
    let raw ← Program.ofExcept outcome
    Program.ofExcept (pipeline.present request raw reason)
  else
    .raise (.groundlane .rateLimited "browser-budget"
      "Browserless monthly unit budget is exhausted")

/-- The part of `canUseReader` that does not look at the budget. -/
def suitsReader (request : FetchPipelineRequest) : Bool :=
  pipeline.reader && request.format == .markdown && request.selector.isNone &&
    request.waitFor.isNone && request.extract != some .full

/-- `canUseReader` and, in the same turn, `readerFetch`; the browser follows when the reader cannot
be used or has failed in a way that may be retried. -/
def readerOrBrowser (request : FetchPipelineRequest) (reason : String) :
    FetchIo B (FetchPipelineResult B) := do
  if pipeline.suitsReader request then
    let started : Bool ← Program.request (FetchQuery.start (.reader request.url request.maxBytes))
    if started = true then
      let outcome : Except Fault (RawDocument B) ← Program.request (FetchQuery.settle .reader)
      match outcome >>= fun raw => pipeline.present request raw (some reason) with
      | .ok result => pure result
      | .error error =>
        if isRetryableRetrievalFailure error then pipeline.browserFetch request (some reason)
        else .raise error
    else pipeline.browserFetch request (some reason)
  else pipeline.browserFetch request (some reason)

/-- The branch of `fetch` behind a failed HTTP request, after the source resolver was asked. -/
def afterHttpFailure (request : FetchPipelineRequest) (error : Fault) :
    FetchIo B (FetchPipelineResult B) :=
  if request.render != .auto || !isRetryableRetrievalFailure error then .raise error
  else pipeline.readerOrBrowser request "http_upstream_failure"

/-- The branch of `fetch` behind a failed HTTP request. -/
def httpFailure (request : FetchPipelineRequest) (triedProactiveSource : Bool) (error : Fault) :
    FetchIo B (FetchPipelineResult B) := do
  match error with
  | .groundlane .outputLimit _ _ =>
    if pipeline.sourceResolver then
      let outcome : Except Fault (Option (SourceAwareResolution B)) ←
        if triedProactiveSource && pipeline.resolveManifests then
          Program.request (FetchQuery.resolveManifests request)
        else Program.request (FetchQuery.resolve request)
      let sourceAware ← Program.ofExcept outcome
      match sourceAware with
      | some source => Program.ofExcept (pipeline.present request source.raw (some source.reason))
      | none => pipeline.afterHttpFailure request error
    else pipeline.afterHttpFailure request error
  | error => pipeline.afterHttpFailure request error

/-- The branch of `fetch` behind a successful HTTP request. -/
def httpSuccess (request : FetchPipelineRequest) (raw : RawDocument B) :
    FetchIo B (FetchPipelineResult B) :=
  match pipeline.libraries.normalizeDocument raw request.format request.maxOutputChars
      request.selector request.extract with
  | .error error =>
    match error with
    | .groundlane _ "selector" _ =>
      if request.render = .auto then pipeline.browserFetch request (some "selector_unmet")
      else .raise error
    | error => .raise error
  | .ok normalized =>
    let reason := fallbackReason pipeline.libraries raw normalized request
    if request.render = .auto ∧ (reason.isSome ∨ request.waitFor.any (· != "")) then
      pipeline.readerOrBrowser request (reason.getD "wait_condition")
    else pure ⟨normalized, raw, none⟩

/-- `fetch`. -/
def fetch (request : FetchPipelineRequest) : FetchIo B (FetchPipelineResult B) := do
  Program.ofExcept (validateFetchPipelineRequest request)
  if request.render = .always then pipeline.browserFetch request none
  else
    let triedProactiveSource ←
      if pipeline.sourceResolver && pipeline.resolveProactively &&
          canUseSourceAwareDocs request then
        Program.ofExcept (isLikelyDocumentationUrl pipeline.libraries.parseUrl request.url)
      else pure false
    let proactiveSource ←
      if pipeline.sourceResolver && pipeline.resolveProactively then do
        let outcome : Except Fault (Option (SourceAwareResolution B)) ←
          Program.request (FetchQuery.resolveProactively request)
        Program.ofExcept outcome
      else pure none
    match proactiveSource with
    | some source => Program.ofExcept (pipeline.present request source.raw (some source.reason))
    | none =>
      let outcome : Except Fault (RawDocument B) ←
        Program.request (FetchQuery.http request.url request.maxBytes request.maxRedirects)
      match outcome with
      | .error error => pipeline.httpFailure request triedProactiveSource error
      | .ok raw => pipeline.httpSuccess request raw

end FetchPipeline

/-- The effect of an operation on the budget that all calls share. -/
def FetchQuery.exec {B : Type} (clock : Clock) (outside : FetchOutside B) :
    (query : FetchQuery) → BackendBudget → BackendBudget × query.Res B
  | resolveProactively _, budget => (budget, outside.resolution)
  | resolveManifests _, budget => (budget, outside.resolution)
  | resolve _, budget => (budget, outside.resolution)
  | http .., budget => (budget, outside.document)
  | start request, budget =>
    let (left, budget) := budget.remaining clock request.backend.provider
    (budget, decide (left ≠ some 0))
  | settle backend, budget =>
    match outside.document with
    | .error error => (budget, .error error)
    | .ok raw => ((budget.tryConsume clock backend.provider).2, .ok raw)

/-- Any number of calls of one pipeline. -/
def FetchPipeline.calls {B : Type} (pipeline : FetchPipeline B) (clock : Clock) :
    System FetchPipelineRequest FetchQuery (FetchQuery.Res B) Fault (FetchPipelineResult B)
      BackendBudget (FetchOutside B) where
  main := pipeline.fetch
  exec := FetchQuery.exec clock

end Groundlane
