import Mathlib.Data.Rat.Init
import Mathlib.Algebra.Order.Ring.Unbundled.Rat
import Groundlane.Durable.Store
import Groundlane.Sequential.Checks

/-!
# The HTTP fetchers

The URL policy of `core/url-policy.ts`, and `SafeHttpFetcher` and `WorkersFetcher` of
`adapters/http`, which follow redirects by one loop. What the outside answers is given for each
round of the loop. A fetch returns what it returned or threw together with the requests that it
sent.
-/

namespace Groundlane.Fetchers

open Sequential

/-! ## The platform -/

/-- What the fetchers read of a URL. -/
structure Url where
  protocol : String
  username : String
  password : String
  hostname : String
  port : Option Nat
  href : String
deriving DecidableEq, Repr

structure ResolvedAddress where
  address : String
  family : Nat
deriving DecidableEq, Repr

/-- A subnet of a `BlockList`. -/
structure Subnet where
  address : String
  prefixLength : Nat
  type : String
deriving DecidableEq, Repr

/-- The functions of the platform: `new URL`, `new URL(location, base).href`, `isIP`, `check` of a
`BlockList`, `toLowerCase`, and whether `fetch` sends a request to a URL. -/
structure Platform where
  parse : String → Option Url
  resolve : String → Url → Option String
  isIP : String → Nat
  check : List Subnet → String → String → Bool
  toLowerCase : String → String
  sends : Url → Bool

/-! ## The URL policy -/

def ipv4Subnets : List (String × Nat) :=
  [("0.0.0.0", 8), ("10.0.0.0", 8), ("100.64.0.0", 10), ("127.0.0.0", 8), ("169.254.0.0", 16),
    ("172.16.0.0", 12), ("192.0.0.0", 24), ("192.0.2.0", 24), ("192.168.0.0", 16),
    ("198.18.0.0", 15), ("198.51.100.0", 24), ("203.0.113.0", 24), ("224.0.0.0", 4),
    ("240.0.0.0", 4)]

def ipv6Subnets : List (String × Nat) :=
  [("::", 128), ("::1", 128), ("64:ff9b::", 96), ("64:ff9b:1::", 48), ("100::", 64),
    ("2001::", 32), ("2001:db8::", 32), ("2002::", 16), ("fc00::", 7), ("fe80::", 10),
    ("ff00::", 8)]

def blocked : List Subnet :=
  ipv4Subnets.map (fun (address, length) => ⟨address, length, "ipv4"⟩) ++
    ipv6Subnets.map fun (address, length) => ⟨address, length, "ipv6"⟩

def defaultPorts : List Nat := [80, 443]

def urlBlocked (stage message : String) : Fault := .groundlane .urlBlocked stage message

def upstreamError (stage message : String) : Fault := .groundlane .upstreamError stage message

namespace Platform

variable (platform : Platform)

/-- The port of a URL that names none. -/
def portOf (url : Url) : Nat :=
  url.port.getD (if url.protocol = "https:" then 443 else 80)

def parsePublicUrl (value : String) (allowedPorts : List Nat) : Except Fault Url :=
  match platform.parse value with
  | none => .error (.groundlane .invalidInput "url" "URL must be valid")
  | some url => do
    throwIf (url.protocol ≠ "http:" ∧ url.protocol ≠ "https:")
      (urlBlocked "url" "Only HTTP and HTTPS URLs are allowed")
    throwIf (url.username ≠ "" ∨ url.password ≠ "")
      (urlBlocked "url" "URLs containing credentials are not allowed")
    throwIf (portOf url ∉ allowedPorts) (urlBlocked "url" "Destination port is not allowed")
    pure url

def isPublicAddress (address : String) : Bool :=
  let family := platform.isIP address
  family != 0 && !platform.check blocked address (if family = 4 then "ipv4" else "ipv6")

/-- `hostname.replace(/^\[|\]$/g, "").toLowerCase()`. -/
def bareHostname (url : Url) : String :=
  let opened := match url.hostname.toList with
    | '[' :: rest => rest
    | chars => chars
  platform.toLowerCase (String.ofList (match opened.reverse with
    | ']' :: rest => rest.reverse
    | _ => opened))

/-- `localhost` and the names below it. -/
def isLocalhost (hostname : String) : Bool :=
  hostname = "localhost" || ".localhost".toList.isSuffixOf hostname.toList

example : isLocalhost "api.localhost" = true ∧ isLocalhost "localhost.org" = false := by
  decide +kernel

/-- What the outside answers while a URL is validated: the reason of the signal before and behind
the lookup, and the lookup. -/
structure Validation where
  signalBefore : Option Fault
  lookup : String → Except Fault (List ResolvedAddress)
  signalBehind : Option Fault

/-- `throwIfAborted`, with the stage and the message of the URL policy. -/
def throwIfAborted : Option Fault → Except Fault Unit
  | none => .ok ()
  | some (.groundlane code stage message) => .error (.groundlane code stage message)
  | some _ => .error (.groundlane .cancelled "url" "URL validation was cancelled")

structure SafeDestination where
  url : Url
  hostname : String
  addresses : List ResolvedAddress

/-- The addresses that a hostname had before in the same fetch. -/
abbrev Cache : Type := List (String × List ResolvedAddress)

/-- The addresses of a hostname. -/
def addressesOf (validation : Validation) (cache : Cache) (hostname : String) :
    Except Fault (List ResolvedAddress) :=
  match cache.lookup hostname with
  | some addresses => pure addresses
  | none =>
    if platform.isIP hostname ≠ 0 then pure [⟨hostname, platform.isIP hostname⟩]
    else
      match validation.lookup hostname with
      | .error _ => .error (upstreamError "dns" "Destination hostname could not be resolved")
      | .ok addresses => do
        throwIfAborted validation.signalBehind
        pure addresses

/-- The destination, and the cache with its addresses. -/
def resolvePublicUrl (allowedPorts : List Nat) (validation : Validation) (cache : Cache)
    (value : String) : Except Fault (SafeDestination × Cache) := do
  throwIfAborted validation.signalBefore
  let url ← platform.parsePublicUrl value allowedPorts
  let hostname := platform.bareHostname url
  throwIf (isLocalhost hostname = true) (urlBlocked "dns" "Local destinations are not allowed")
  let addresses ← platform.addressesOf validation cache hostname
  throwIf (addresses = [] ∨ addresses.any (fun resolved =>
      !platform.isPublicAddress resolved.address) = true)
    (urlBlocked "dns" "Private or reserved destinations are not allowed")
  pure (⟨url, hostname, addresses⟩, (hostname, addresses) :: cache)

def resolveRedirect (base : Url) (location : String) : Except Fault String :=
  match platform.resolve location base with
  | some href => .ok href
  | none => .error (upstreamError "redirect" "Upstream returned an invalid redirect")

end Platform

/-! ## Requests and responses -/

/-- `HttpFetchRequest`, without the deadline and the headers. -/
structure HttpFetchRequest where
  url : String
  maxBytes : Int
  maxRedirects : Int
deriving DecidableEq, Repr

abbrev Bytes : Type := List UInt8

/-- A response: `declared` is `content-length` if it is a finite number, and the body is read in
chunks until it ends or fails. -/
structure Response where
  status : Nat
  location : Option String
  declared : Option ℚ
  contentType : Option String
  headers : List (String × String)
  chunks : List Bytes
  failure : Option Fault

structure RawDocument where
  requestedUrl : String
  finalUrl : String
  status : Nat
  headers : List (String × String)
  contentType : String
  body : Bytes
  engine : String
  backend : String
deriving DecidableEq, Repr

/-- What the outside answers in one round: to the validation of the URL, or an error for its
deadline, and to each attempt at a connection. -/
structure Round where
  validation : Platform.Validation
  late : Option Fault
  connect : Nat → Except Fault Response

/-- The requests to one URL, with the addresses that were tried, if these are pinned. -/
structure Sent where
  url : String
  addresses : List String
deriving DecidableEq, Repr

/-- `readBounded`: the bytes read so far and the chunks that follow. -/
def readChunks (maxBytes : Int) (failure : Option Fault) (body : Bytes) :
    List Bytes → Except Fault Bytes
  | [] =>
    match failure with
    | some fault => .error fault
    | none => .ok body
  | chunk :: rest =>
    if maxBytes < ((body ++ chunk).length : Int) then
      .error (.groundlane .outputLimit "response" "Upstream response exceeds the byte limit")
    else readChunks maxBytes failure (body ++ chunk) rest

def readBounded (maxBytes : Int) (response : Response) : Except Fault Bytes :=
  if response.declared.any (fun declared => (maxBytes : ℚ) < declared) = true then
    .error (.groundlane .outputLimit "response" "Upstream response exceeds the byte limit")
  else readChunks maxBytes response.failure [] response.chunks

/-- Where a response redirects to. -/
def Response.redirect (response : Response) : Option String :=
  if [301, 302, 303, 307, 308].contains response.status then
    response.location.filter fun location => location ≠ ""
  else none

/-! ## Following redirects -/

/-- What a round of a fetcher has reached: its state, the URL of the response for redirects and for
the document, and the response. -/
structure Reached (σ : Type) where
  state : σ
  base : Url
  finalUrl : String
  response : Response

/-- The part of a round in which a fetcher differs from the other. -/
abbrev Visit (σ : Type) : Type := Nat → σ → String → Except Fault (Reached σ) × List Sent

/-- The document of a response. -/
def documentOf (request : HttpFetchRequest) (backend finalUrl : String) (response : Response)
    (body : Bytes) : RawDocument where
  requestedUrl := request.url
  finalUrl := finalUrl
  status := response.status
  headers := response.headers
  contentType := response.contentType.getD "application/octet-stream"
  body := body
  engine := "http"
  backend := backend

/-- The loop of both fetchers, with the rounds that are left before `redirects > maxRedirects`, and
the redirects so far. -/
def follow {σ : Type} (platform : Platform) (visit : Visit σ) (request : HttpFetchRequest)
    (backend : String) : Nat → Nat → σ → String → Except Fault RawDocument × List Sent
  | 0, _, _, _ => (.error (upstreamError "redirect" "Upstream exceeded the redirect limit"), [])
  | left + 1, redirects, state, current =>
    match visit redirects state current with
    | (.error fault, sent) => (.error fault, sent)
    | (.ok reached, sent) =>
      match reached.response.redirect with
      | some location =>
        match platform.resolveRedirect reached.base location with
        | .error fault => (.error fault, sent)
        | .ok next =>
          let rest := follow platform visit request backend left (redirects + 1)
            reached.state next
          (rest.1, sent ++ rest.2)
      | none =>
        match readBounded request.maxBytes reached.response with
        | .error fault => (.error fault, sent)
        | .ok body =>
          (.ok (documentOf request backend reached.finalUrl reached.response body), sent)

/-- The rounds before `redirects > maxRedirects`. -/
def HttpFetchRequest.rounds (request : HttpFetchRequest) : Nat :=
  (request.maxRedirects + 1).toNat

/-! ## The two fetchers -/

/-- The loop over the addresses, with the number of the next one and those tried. -/
def connectTo (round : Round) (number : Nat) (tried : List String) :
    List ResolvedAddress → Except Fault Response × List String
  | [] => (.error (upstreamError "connect" "Could not connect to the validated destination"), tried)
  | resolved :: rest =>
    match round.connect number with
    | .ok response => (.ok response, tried ++ [resolved.address])
    | .error (.groundlane code stage message) =>
      (.error (.groundlane code stage message), tried ++ [resolved.address])
    | .error _ => connectTo round (number + 1) (tried ++ [resolved.address]) rest

/-- A round of `SafeHttpFetcher`. -/
def SafeHttpFetcher.visit (platform : Platform) (allowedPorts : List Nat)
    (rounds : Nat → Round) : Visit Platform.Cache :=
  fun redirects cache current =>
    let round := rounds redirects
    match platform.resolvePublicUrl allowedPorts round.validation cache current, round.late with
    | _, some fault => (.error fault, [])
    | .error fault, none => (.error fault, [])
    | .ok (destination, cache), none =>
      let (connected, tried) := connectTo round 0 [] destination.addresses
      match connected with
      | .error fault => (.error fault, [⟨current, tried⟩])
      | .ok response =>
        (.ok ⟨cache, destination.url, destination.url.href, response⟩, [⟨current, tried⟩])

/-- `SafeHttpFetcher.fetch`. -/
def SafeHttpFetcher.fetch (platform : Platform) (allowedPorts : List Nat)
    (rounds : Nat → Round) (request : HttpFetchRequest) : Except Fault RawDocument × List Sent :=
  follow platform (visit platform allowedPorts rounds) request "direct" request.rounds 0 []
    request.url

/-- A round of `WorkersFetcher`: `fetch` rejects what is no URL and what it sends no request to. -/
def WorkersFetcher.visit (platform : Platform) (rounds : Nat → Round) : Visit Unit :=
  fun redirects _ current =>
    match (platform.parse current).filter platform.sends with
    | none => (.error .other, [])
    | some url =>
      match (rounds redirects).connect 0 with
      | .error fault => (.error fault, [⟨current, []⟩])
      | .ok response => (.ok ⟨(), url, current, response⟩, [⟨current, []⟩])

/-- `WorkersFetcher.fetch`. -/
def WorkersFetcher.fetch (platform : Platform) (rounds : Nat → Round)
    (request : HttpFetchRequest) : Except Fault RawDocument × List Sent :=
  follow platform (visit platform rounds) request "workers-fetch" request.rounds 0 () request.url

end Groundlane.Fetchers
