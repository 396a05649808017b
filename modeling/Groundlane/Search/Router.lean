import Groundlane.Budget.Tracker
import Groundlane.Search.Fusion
import Groundlane.Sequential.Checks
import Groundlane.Text.Utf16

/-!
# The search router

`SearchRouter` of `core/search-router.ts` with `selectSearchProviders`. What runs between two
awaits is one turn: a turn asks the budget for providers and calls them until the search waits for
an answer or ends. The abort signal can change while the search waits. The providers, the trackers
and the check of the domain filters are parameters, and what a turn reads of the trackers is given
with it.
-/

namespace Groundlane.Search

open Sequential Utf16

/-! ## Requests -/

/-- `SearchStrategy`. -/
inductive SearchStrategy where
  | fallback
  | balanced
  | deep
deriving DecidableEq, Repr

/-- `SearchRequest`. -/
structure SearchRequest where
  query : Text
  maxResults : ConfiguredNumber
  provider : Option SearchProviderId
  providers : Option (List SearchProviderId)
  strategy : Option SearchStrategy
  domains : Option (List Text)
  excludeDomains : Option (List Text)
  timeRange : Option Text

/-- The provider that a request names. -/
def SearchRequest.explicitProvider (request : SearchRequest) : Option SearchProviderId :=
  request.provider.filter fun provider => provider ≠ "auto"

/-- `strategy` of `search`. -/
def SearchRequest.searchStrategy (request : SearchRequest) : SearchStrategy :=
  match request.explicitProvider with
  | none => request.strategy.getD .balanced
  | some _ => .fallback

/-- `maxResults` of a request that was validated. -/
def SearchRequest.limit (request : SearchRequest) : Nat :=
  match request.maxResults with
  | .integer value => value.toNat
  | .other => 0

/-- `Number.isInteger` and between 1 and 50. -/
def SearchRequest.hasLimit (request : SearchRequest) : Bool :=
  match request.maxResults with
  | .integer value => 1 ≤ value && value ≤ 50
  | .other => false

/-! ## Selection -/

/-- `PROVIDER_FAMILIES`. -/
def providerFamilies : List (SearchProviderId × String) :=
  [("tavily", "research"), ("exa", "semantic"), ("linkup", "research"), ("tinyfish", "general-web"),
    ("parallel", "research"), ("browserbase", "serp"), ("brave", "independent-index"),
    ("firecrawl", "extraction-backed"), ("serpapi", "serp"), ("searchapi", "serp"),
    ("keenable", "independent-index"), ("serper", "serp"), ("you", "general-web"),
    ("searxng", "general-web"), ("crawl4ai", "extraction-backed")]

def searchProviderFamily (provider : SearchProviderId) : String :=
  (providerFamilies.lookup provider).getD "general-web"

/-- `PROVIDER_WEIGHTS`. -/
def providerWeights : List (SearchProviderId × ℚ) :=
  [("tavily", 1), ("exa", 1), ("linkup", 9 / 10), ("tinyfish", 9 / 10), ("brave", 9 / 10),
    ("parallel", 8 / 10), ("browserbase", 8 / 10), ("firecrawl", 8 / 10), ("serpapi", 7 / 10),
    ("searchapi", 7 / 10), ("serper", 7 / 10), ("you", 7 / 10), ("searxng", 8 / 10),
    ("crawl4ai", 7 / 10)]

def searchProviderWeight (provider : SearchProviderId) : ℚ :=
  (providerWeights.lookup provider).getD (1 / 2)

/-- The first loop of the selection: one provider of each family. -/
def selectFamilies (limit : Nat) (selected : List SearchProviderId) (families : List String) :
    List SearchProviderId → List SearchProviderId
  | [] => selected
  | provider :: rest =>
    if families.contains (searchProviderFamily provider) then
      selectFamilies limit selected families rest
    else
      let selected := selected ++ [provider]
      if selected.length = limit then selected
      else selectFamilies limit selected (searchProviderFamily provider :: families) rest

/-- The second loop of the selection: any others. -/
def selectOthers (limit : Nat) (selected : List SearchProviderId) :
    List SearchProviderId → List SearchProviderId
  | [] => selected
  | provider :: rest =>
    if selected.contains provider then selectOthers limit selected rest
    else
      let selected := selected ++ [provider]
      if selected.length = limit then selected else selectOthers limit selected rest

def selectSearchProviders (candidates : List SearchProviderId) (strategy : SearchStrategy) :
    List SearchProviderId :=
  let unique := candidates.eraseDups
  let limited (limit : Nat) : List SearchProviderId :=
    let selected := selectFamilies limit [] [] unique
    if selected.length = limit then selected else selectOthers limit selected unique
  match strategy with
  | .fallback => unique
  | .balanced => limited 2
  | .deep => limited 3

/-! ## The router and its surroundings -/

/-- `SearchRouter`. -/
structure SearchRouter where
  registered : SearchProviderId → Bool
  supports : SearchProviderId → SearchRequest → Bool
  order : List SearchProviderId
  health : Bool
  budget : Bool
  validateDomainFilters :
    SearchRequest → Option SearchProviderId → List SearchProviderId → Except Fault Unit
  parser : UrlParser
  localeCompare : String → String → Int

/-- What a turn reads of the health tracker and the budget. -/
structure Surroundings where
  isHealthy : SearchProviderId → Bool
  penalty : SearchProviderId → ℚ
  remaining : SearchProviderId → Option Nat
  tryConsume : SearchProviderId → Bool

/-- How a provider answers. -/
inductive ProviderAnswer where
  | result (results : List SearchResultItem) (warnings : List String)
  | thrown (fault : Fault) (retryable : Bool)

/-- `toGroundlaneError` and whether the error is retryable. -/
def toGroundlaneError (fault : Fault) (retryable : Bool) : Fault × Bool :=
  match fault with
  | .groundlane code stage message => (.groundlane code stage message, retryable)
  | _ => (.groundlane .upstreamError "search" "The upstream operation failed", true)

/-- The `SearchResult` of the router. -/
structure RoutedResult where
  query : Text
  provider : SearchProviderId
  results : List SearchResultItem
  warnings : List String
  strategy : SearchStrategy
  providersSelected : List SearchProviderId
  providersAttempted : List SearchProviderId
  providersSucceeded : List SearchProviderId

/-- What is seen of a search from outside: `consumed` is a call of `tryConsume` that lets the
attempt through, and `succeeded` and `failed` are what the health tracker is told. -/
inductive Event where
  | aborted
  | consumed (provider : SearchProviderId)
  | refused (provider : SearchProviderId)
  | called (provider : SearchProviderId)
  | succeeded (provider : SearchProviderId)
  | failed (provider : SearchProviderId)
deriving DecidableEq, Repr

def searchError (code : ErrorCode) (message : String) : Fault := .groundlane code "search" message

def exhausted (provider : SearchProviderId) : Fault :=
  .groundlane .providerUnavailable "search-budget" (provider ++ " request budget is exhausted")

namespace SearchRouter

variable (router : SearchRouter) (surroundings : Surroundings)

/-- Whether the budget lets an attempt through. -/
def grants (provider : SearchProviderId) : Bool :=
  !router.budget || surroundings.tryConsume provider

/-- `this.budget?.remaining(provider) === 0`. -/
def isExhausted (provider : SearchProviderId) : Bool :=
  router.budget && surroundings.remaining provider == some 0

def validateRequest (request : SearchRequest) : Except Fault Unit :=
  throwIf (Utf16.trim request.query = [] ∨
      ¬ request.hasLimit ∨ request.providers = some [] ∨
      (request.explicitProvider.isSome ∧ request.providers.isSome))
    (searchError .invalidInput "Search query, result limit, or provider selection is invalid")

/-- One provider of `resolveProviders`: the providers and the warnings. -/
def resolveProvider (request : SearchRequest)
    (resolved : List SearchProviderId × List String) (provider : SearchProviderId) :
    List SearchProviderId × List String :=
  if ¬ router.registered provider ∨ (router.health ∧ ¬ surroundings.isHealthy provider) ∨
      ¬ router.supports provider request then resolved
  else if router.isExhausted surroundings provider then
    (resolved.1, resolved.2 ++ [provider ++ " budget exhausted"])
  else (resolved.1 ++ [provider], resolved.2)

def resolveProviders (request : SearchRequest) : List SearchProviderId × List String :=
  let requested := match request.explicitProvider with
    | none => request.providers.getD router.order
    | some provider => [provider]
  requested.eraseDups.foldl (router.resolveProvider surroundings request) ([], [])

def selectProviderBatch (providers : List SearchProviderId) (strategy : SearchStrategy) :
    List SearchProviderId :=
  (selectSearchProviders providers strategy).filter router.registered

/-- `selected` of `search`. -/
def selected (request : SearchRequest) : List SearchProviderId :=
  let providers := (router.resolveProviders surroundings request).1
  if request.searchStrategy = .fallback then providers
  else router.selectProviderBatch providers request.searchStrategy

def normalizeProviderResult (provider : SearchProviderId) (results : List SearchResultItem)
    (maxResults : Nat) : SearchResult where
  provider := provider
  results := (results.take maxResults).map fun item => { item with provider := provider }

def effectiveWeights (provider : SearchProviderId) : Option ℚ :=
  let penalty := if router.health then surroundings.penalty provider else 0
  some (searchProviderWeight provider / (1 + penalty * (1 / 10)))

/-! ## One search -/

/-- What a search keeps in `searchWithFallback`. -/
structure FallbackCall where
  request : SearchRequest
  explicitProvider : Bool
  warnings : List String
  attempted : List SearchProviderId

/-- What has become of a provider of a batch. -/
inductive Outcome where
  | refused
  | waiting
  | result (result : SearchResult) (warnings : List String)
  | unavailable

/-- What a search keeps in `searchFederated`. -/
structure FederatedCall where
  request : SearchRequest
  strategy : SearchStrategy
  warnings : List String
  selectedIds : List SearchProviderId
  attemptedIds : List SearchProviderId
  remaining : List SearchProviderId

/-- Where a search is: it waits for one provider, with those behind it untried, it waits for the
providers of a batch, or it is done. -/
inductive Control where
  | fallback (call : FallbackCall) (tried : List SearchProviderId) (current : SearchProviderId)
    (rest : List SearchProviderId)
  | federated (call : FederatedCall) (outcomes : List (SearchProviderId × Outcome))
  | done (result : Except Fault RoutedResult)

/-- The loop of `searchWithFallback` from its top, with the providers that are tried and those
that are left. -/
def fallbackFrom (call : FallbackCall) (tried : List SearchProviderId) :
    List SearchProviderId → Control × List Event
  | [] => (.done (.error (searchError .providerUnavailable
    "All matching search providers were unavailable")), [])
  | provider :: rest =>
    if router.grants surroundings provider then
      (.fallback { call with attempted := call.attempted ++ [provider] } tried provider rest,
        (if router.budget then [.consumed provider] else []) ++ [.called provider])
    else if (tried ++ provider :: rest).length = 1 then
      (.done (.error (exhausted provider)), [.refused provider])
    else
      let next := fallbackFrom
        { call with warnings := call.warnings ++ [provider ++ " budget exhausted"] }
        (tried ++ [provider]) rest
      (next.1, .refused provider :: next.2)

/-- A provider has answered in `searchWithFallback`. -/
def fallbackAnswer (call : FallbackCall) (tried : List SearchProviderId)
    (current : SearchProviderId) (rest : List SearchProviderId) (answer : ProviderAnswer) :
    Control × List Event :=
  match answer with
  | .result results warnings =>
    let normalized := normalizeProviderResult current results call.request.limit
    (.done (.ok
      { query := call.request.query
        provider := current
        results := normalized.results
        warnings := call.warnings ++ warnings
        strategy := .fallback
        providersSelected := tried ++ current :: rest
        providersAttempted := call.attempted
        providersSucceeded := [current] }), [.succeeded current])
  | .thrown fault retryable =>
    let (safe, retryable) := toGroundlaneError fault retryable
    if call.explicitProvider ∨ ((tried ++ current :: rest).length = 1 ∧ ¬ retryable) then
      (.done (.error safe), [.failed current])
    else
      let next := router.fallbackFrom surroundings
        { call with warnings := call.warnings ++ [current ++ " unavailable"] }
        (tried ++ [current]) rest
      (next.1, .failed current :: next.2)

/-- A provider of a batch is asked. -/
def startAttempt (provider : SearchProviderId) : (SearchProviderId × Outcome) × List Event :=
  if router.grants surroundings provider then
    ((provider, .waiting),
      (if router.budget then [.consumed provider] else []) ++ [.called provider])
  else ((provider, .refused), [.refused provider])

/-- The loop of `searchFederated` from its top: the next batch. -/
def federatedFrom (call : FederatedCall) : Control × List Event :=
  let batch := router.selectProviderBatch call.remaining call.strategy
  if batch = [] then
    (.done (.error (searchError .providerUnavailable
      "All selected search providers were unavailable")), [])
  else
    let attempts := batch.map (router.startAttempt surroundings)
    (.federated
      { call with
        selectedIds := call.selectedIds ++ batch
        remaining := call.remaining.filter fun provider => ¬ batch.contains provider }
      (attempts.map Prod.fst), attempts.flatMap Prod.snd)

/-- A provider of the batch has answered. -/
def settle (call : FederatedCall) (provider : SearchProviderId) (answer : ProviderAnswer) :
    Outcome × List Event :=
  match answer with
  | .result results warnings =>
    (.result (normalizeProviderResult provider results call.request.limit) warnings,
      [.succeeded provider])
  | .thrown _ _ => (.unavailable, [.failed provider])

def Outcome.attempted : Outcome → Bool
  | .refused => false
  | .waiting | .result .. | .unavailable => true

/-- The warning of an outcome. -/
def Outcome.warning (provider : SearchProviderId) : Outcome → List String
  | .refused => [provider ++ " budget exhausted"]
  | .unavailable => [provider ++ " unavailable"]
  | .waiting | .result .. => []

/-- The result of an outcome, with its warnings. -/
def Outcome.success : Outcome → Option (SearchResult × List String)
  | .result found warnings => some (found, warnings)
  | .refused | .waiting | .unavailable => none

/-- All providers of the batch have answered and the signal is not aborted. -/
def gathered (call : FederatedCall) (outcomes : List (SearchProviderId × Outcome)) :
    Control × List Event :=
  let attemptedIds := call.attemptedIds ++
    (outcomes.filter fun outcome => outcome.2.attempted).map Prod.fst
  let warnings := call.warnings ++ outcomes.flatMap fun outcome => outcome.2.warning outcome.1
  let successes := outcomes.filterMap fun outcome => outcome.2.success
  match successes with
  | [] => router.federatedFrom surroundings { call with attemptedIds, warnings }
  | first :: others =>
    let results := (first :: others).map Prod.fst
    (.done (.ok
      { query := call.request.query
        provider := if others = [] then first.1.provider else "federated"
        results := fuseSearchResults router.parser router.localeCompare
          (some (router.effectiveWeights surroundings)) results call.request.limit
        warnings := warnings ++ (first :: others).flatMap Prod.snd
        strategy := call.strategy
        providersSelected := call.selectedIds
        providersAttempted := attemptedIds
        providersSucceeded := results.map SearchResult.provider }), [])

/-- The first turn of a search, once the request is checked. -/
def begin (request : SearchRequest) : Control × List Event :=
  let strategy := request.searchStrategy
  let (providers, warnings) := router.resolveProviders surroundings request
  if router.selected surroundings request = [] then
    match request.explicitProvider.filter (router.isExhausted surroundings) with
    | some provider => (.done (.error (exhausted provider)), [])
    | none => (.done (.error (searchError .providerUnavailable
      "No configured provider supports this request")), [])
  else if strategy = .fallback then
    router.fallbackFrom surroundings ⟨request, request.explicitProvider.isSome, warnings, []⟩ []
      providers
  else router.federatedFrom surroundings ⟨request, strategy, warnings, [], [], providers⟩

/-- The checks before the first turn. -/
def check (request : SearchRequest) : Except Fault Unit := do
  validateRequest request
  router.validateDomainFilters request request.explicitProvider
    (match request.explicitProvider with
      | none => request.providers.getD router.order
      | some provider => [provider])

end SearchRouter

/-! ## Runs -/

/-- A search: where it is, the reason for which its signal is aborted, and what has been seen. -/
structure SearchRun where
  control : SearchRouter.Control
  signal : Option Fault
  trace : List Event

/-- What can happen to a search that waits: the signal is aborted, a provider answers, or all
answers of a batch are taken together. -/
inductive Move where
  | abort (reason : Fault)
  | answer (provider : SearchProviderId) (answer : ProviderAnswer) (surroundings : Surroundings)
  | gather (surroundings : Surroundings)

namespace SearchRouter

variable (router : SearchRouter)

/-- `search`, to its first wait or its end. -/
def search (request : SearchRequest) (signal : Option Fault) (surroundings : Surroundings) :
    SearchRun :=
  let first := match router.check request with
    | .error fault => (Control.done (.error fault), [])
    | .ok () => router.begin surroundings request
  { control := first.1
    signal := signal
    trace := (if signal.isSome then [.aborted] else []) ++ first.2 }

/-- The error for a signal that is aborted. -/
def cancelled : Fault → Fault
  | .groundlane code stage message => .groundlane code stage message
  | _ => searchError .cancelled "The request was cancelled"

/-- One move; a move that is not possible changes nothing. -/
def step (state : SearchRun) : Move → SearchRun
  | .abort reason =>
    match state.signal with
    | some _ => state
    | none => { state with signal := some reason, trace := state.trace ++ [.aborted] }
  | .answer provider answer surroundings =>
    match state.control with
    | .fallback call tried current rest =>
      if provider = current then
        let next := router.fallbackAnswer surroundings call tried current rest answer
        { state with control := next.1, trace := state.trace ++ next.2 }
      else state
    | .federated call outcomes =>
      match outcomes.find? fun outcome => outcome.1 = provider with
      | some (_, .waiting) =>
        let settled := settle call provider answer
        { state with
          control := .federated call (outcomes.map fun outcome =>
            if outcome.1 = provider then (provider, settled.1) else outcome)
          trace := state.trace ++ settled.2 }
      | _ => state
    | .done _ => state
  | .gather surroundings =>
    match state.control with
    | .federated call outcomes =>
      if outcomes.any fun outcome => outcome.2 matches .waiting then state
      else
        match state.signal with
        | some reason => { state with control := .done (.error (cancelled reason)) }
        | none =>
          let next := router.gathered surroundings call outcomes
          { state with control := next.1, trace := state.trace ++ next.2 }
    | _ => state

end SearchRouter

end Groundlane.Search
