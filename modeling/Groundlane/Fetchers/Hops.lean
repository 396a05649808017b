import Groundlane.Fetchers.Http

/-!
# Every hop of a fetch

`hops_checked_iff`: whatever the outside answers, both fetchers send every request to a public URL,
request as many URLs as the redirect limit allows, return bounded bodies, and `SafeHttpFetcher`
connects to addresses of one public resolution, exactly for those requests with which
`WorkersFetcher` sends nothing, or follows no redirect and begins with a public URL.
`SafeHttpFetcher` does so for all requests (`safe_checked`); `WorkersFetcher` looks at no URL.
-/

namespace Groundlane.Fetchers

open Sequential Platform

variable {platform : Platform}

/-! ## What is claimed -/

/-- The URL names `localhost` or an IP address that is not public. -/
def NamesInside (platform : Platform) (url : Url) : Prop :=
  isLocalhost (platform.bareHostname url) = true ∨
    (platform.isIP (platform.bareHostname url) ≠ 0 ∧
      platform.isPublicAddress (platform.bareHostname url) = false)

/-- The URL passes the policy and names nothing inside. -/
def PublicUrl (platform : Platform) (allowedPorts : List Nat) (value : String) : Prop :=
  ∃ url, platform.parsePublicUrl value allowedPorts = .ok url ∧ ¬ NamesInside platform url

/-- What both fetchers have to do. -/
structure Checked (platform : Platform) (allowedPorts : List Nat) (request : HttpFetchRequest)
    (fetched : Except Fault RawDocument × List Sent) : Prop where
  urls : (fetched.2.length : Int) ≤ max (request.maxRedirects + 1) 0
  body : ∀ document, fetched.1 = .ok document →
    (document.body.length : Int) ≤ max request.maxBytes 0
  policy : ∀ sent ∈ fetched.2, PublicUrl platform allowedPorts sent.url

/-- The addresses are those of an IP address itself or of one lookup. -/
def Resolves (platform : Platform) (rounds : Nat → Round) (hostname : String)
    (addresses : List ResolvedAddress) : Prop :=
  if platform.isIP hostname ≠ 0 then addresses = [⟨hostname, platform.isIP hostname⟩]
  else ∃ round, (rounds round).validation.lookup hostname = .ok addresses

/-- The addresses were resolved once, and all of them are public. -/
structure Settled (platform : Platform) (rounds : Nat → Round) (hostname : String)
    (addresses : List ResolvedAddress) : Prop where
  resolves : Resolves platform rounds hostname addresses
  isPublic : ∀ resolved ∈ addresses, platform.isPublicAddress resolved.address = true

/-- The addresses that were tried are from one resolution that is public throughout. -/
def Pinned (platform : Platform) (rounds : Nat → Round) (sent : Sent) : Prop :=
  ∃ url addresses, platform.parse sent.url = some url ∧
    Settled platform rounds (platform.bareHostname url) addresses ∧
      ∀ address ∈ sent.addresses, ∃ resolved ∈ addresses, resolved.address = address

/-- `WorkersFetcher` sends nothing, or it follows no redirect and begins with a public URL. -/
def Confined (platform : Platform) (request : HttpFetchRequest) : Prop :=
  request.maxRedirects < 0 ∨ (platform.parse request.url).filter platform.sends = none ∨
    (request.maxRedirects = 0 ∧ PublicUrl platform defaultPorts request.url)

/-- What is claimed of both fetchers for a request, whatever the outside answers. -/
def HopsChecked (platform : Platform) (allowedPorts : List Nat) (request : HttpFetchRequest) :
    Prop :=
  (∀ rounds, Checked platform allowedPorts request
      (SafeHttpFetcher.fetch platform allowedPorts rounds request) ∧
    ∀ sent ∈ (SafeHttpFetcher.fetch platform allowedPorts rounds request).2,
      Pinned platform rounds sent) ∧
  ∀ rounds, Checked platform defaultPorts request (WorkersFetcher.fetch platform rounds request)

/-- A URL of the machine itself. -/
def loopback : Url := ⟨"http:", "", "", "127.0.0.1", none, "http://127.0.0.1/"⟩

/-- The platform reads an absolute location behind every base, `127.0.0.1` is an IPv4 address in
the subnet `127.0.0.0/8`, and `fetch` sends requests to it. -/
structure LoopbackReachable (platform : Platform) : Prop where
  parse : platform.parse loopback.href = some loopback
  resolve : ∀ base, platform.resolve loopback.href base = some loopback.href
  sends : platform.sends loopback = true
  toLowerCase : platform.toLowerCase "127.0.0.1" = "127.0.0.1"
  isIP : platform.isIP "127.0.0.1" = 4
  check : platform.check blocked "127.0.0.1" "ipv4" = true

/-! ## The loop -/

section Loop

variable {σ : Type} {visit : Visit σ} {request : HttpFetchRequest} {backend : String}

/-- A condition on the requests of every round holds of all requests. -/
theorem follow_sent (Inv : σ → Prop) (Good : Sent → Prop)
    (hvisit : ∀ redirects state current, Inv state →
      (∀ sent ∈ (visit redirects state current).2, Good sent) ∧
        ∀ reached, (visit redirects state current).1 = .ok reached → Inv reached.state)
    (left redirects : Nat) {state : σ} (current : String) (hinv : Inv state) :
    ∀ sent ∈ (follow platform visit request backend left redirects state current).2, Good sent := by
  induction left generalizing redirects state current with
  | zero => exact fun sent hsent => absurd hsent List.not_mem_nil
  | succ left ih =>
    obtain ⟨hgood, hstate⟩ := hvisit redirects state current hinv
    unfold follow
    split
    · next fault sent hvisited =>
        rw [hvisited] at hgood
        exact hgood
    · next reached sent hvisited =>
        rw [hvisited] at hgood hstate
        split
        · split
          · exact hgood
          · next next hnext =>
              intro request hrequest
              rcases List.mem_append.1 hrequest with hmem | hmem
              · exact hgood request hmem
              · exact ih (redirects + 1) next (hstate reached rfl) request hmem
        · split <;> exact hgood

/-- There are no more URLs than rounds. -/
theorem follow_length
    (hvisit : ∀ redirects state current, (visit redirects state current).2.length ≤ 1)
    (left redirects : Nat) (state : σ) (current : String) :
    (follow platform visit request backend left redirects state current).2.length ≤ left := by
  induction left generalizing redirects state current with
  | zero => exact le_rfl
  | succ left ih =>
    have hone := hvisit redirects state current
    unfold follow
    split
    · next fault sent hvisited =>
        rw [hvisited] at hone
        exact hone.trans (Nat.le_add_left 1 left)
    · next reached sent hvisited =>
        rw [hvisited] at hone
        split
        · split
          · exact hone.trans (Nat.le_add_left 1 left)
          · next next hnext =>
              have hrest := ih (redirects + 1) reached.state next
              dsimp only at hone ⊢
              rw [List.length_append]
              omega
        · split <;> exact hone.trans (Nat.le_add_left 1 left)

variable {maxBytes : Int}

/-- What is read in chunks is bounded. -/
theorem readChunks_length {failure : Option Fault} {body result : Bytes} {chunks : List Bytes}
    (hbody : (body.length : Int) ≤ max maxBytes 0)
    (h : readChunks maxBytes failure body chunks = .ok result) :
    (result.length : Int) ≤ max maxBytes 0 := by
  induction chunks generalizing body with
  | nil =>
    unfold readChunks at h
    split at h
    · cases h
    · cases h
      exact hbody
  | cons chunk rest ih =>
    unfold readChunks at h
    split at h
    · cases h
    · exact ih (by omega) h

theorem readBounded_length {response : Response} {result : Bytes}
    (h : readBounded maxBytes response = .ok result) : (result.length : Int) ≤ max maxBytes 0 := by
  unfold readBounded at h
  split at h
  · cases h
  · have hempty : (([] : Bytes).length : Int) ≤ max maxBytes 0 := le_max_right maxBytes 0
    exact readChunks_length hempty h

/-- A returned body is bounded. -/
theorem follow_body (left redirects : Nat) (state : σ) (current : String)
    {document : RawDocument}
    (h : (follow platform visit request backend left redirects state current).1 =
      .ok document) :
    (document.body.length : Int) ≤ max request.maxBytes 0 := by
  induction left generalizing redirects state current with
  | zero => cases h
  | succ left ih =>
    unfold follow at h
    split at h
    · cases h
    · next reached sent hvisited =>
        split at h
        · split at h
          · cases h
          · next next hnext => exact ih (redirects + 1) reached.state next h
        · split at h
          · cases h
          · next body hbody =>
              cases h
              exact readBounded_length hbody

theorem rounds_le (request : HttpFetchRequest) {count : Nat} (h : count ≤ request.rounds) :
    (count : Int) ≤ max (request.maxRedirects + 1) 0 := by
  unfold HttpFetchRequest.rounds at h
  omega

end Loop

/-! ## `SafeHttpFetcher` -/

variable {url : Url}

section Safe

variable {allowedPorts : List Nat} {rounds : Nat → Round} {request : HttpFetchRequest}

/-- The addresses in a cache were resolved and are public. -/
def CacheSettled (platform : Platform) (rounds : Nat → Round) (cache : Cache) : Prop :=
  ∀ hostname addresses, cache.lookup hostname = some addresses →
    Settled platform rounds hostname addresses

variable {addresses : List ResolvedAddress} {value : String}

theorem parsePublicUrl_parse (h : platform.parsePublicUrl value allowedPorts = .ok url) :
    platform.parse value = some url := by
  unfold parsePublicUrl at h
  cases hparse : platform.parse value with
  | none =>
    rw [hparse] at h
    cases h
  | some parsed =>
    rw [hparse] at h
    dsimp only at h
    rw [check_bind_eq_ok, check_bind_eq_ok, check_bind_eq_ok] at h
    cases h.2.2.2
    rfl

/-- The addresses of a hostname come from one resolution. -/
theorem addressesOf_resolves {cache : Cache} {hostname : String} (number : Nat)
    (hcache : CacheSettled platform rounds cache)
    (h : platform.addressesOf (rounds number).validation cache hostname = .ok addresses) :
    Resolves platform rounds hostname addresses := by
  unfold addressesOf at h
  split at h
  · next found hfound =>
      cases h
      exact (hcache hostname addresses hfound).resolves
  · unfold Resolves
    split at h
    · next hliteral =>
        rw [if_pos hliteral]
        cases h
        rfl
    · next hname =>
        rw [if_neg hname]
        split at h
        · cases h
        · next found hlookup =>
            rw [check_bind_eq_ok] at h
            cases h.2
            exact ⟨number, hlookup⟩

/-- A destination is public, and the cache stays settled. -/
theorem resolvePublicUrl_ok {cache cache' : Cache} {destination : SafeDestination} (number : Nat)
    (hcache : CacheSettled platform rounds cache)
    (h : platform.resolvePublicUrl allowedPorts (rounds number).validation cache value =
      .ok (destination, cache')) :
    platform.parsePublicUrl value allowedPorts = .ok destination.url ∧
      ¬ NamesInside platform destination.url ∧
      Settled platform rounds (platform.bareHostname destination.url) destination.addresses ∧
      CacheSettled platform rounds cache' := by
  unfold resolvePublicUrl at h
  rw [check_bind_eq_ok] at h
  obtain ⟨-, h⟩ := h
  obtain ⟨url, hurl, h⟩ := bind_eq_ok.1 h
  rw [check_bind_eq_ok, throwIf_eq_ok] at h
  obtain ⟨hlocal, h⟩ := h
  obtain ⟨addresses, haddresses, h⟩ := bind_eq_ok.1 h
  rw [check_bind_eq_ok, throwIf_eq_ok, not_or] at h
  obtain ⟨⟨_, hpublic⟩, h⟩ := h
  cases h
  have hresolves := addressesOf_resolves number hcache haddresses
  have hsettled : Settled platform rounds (platform.bareHostname url) addresses := by
    refine ⟨hresolves, fun resolved hresolved => ?_⟩
    by_contra hprivate
    exact hpublic (List.any_eq_true.2 ⟨resolved, hresolved, by simpa using hprivate⟩)
  refine ⟨hurl, ?_, hsettled, fun hostname found hfound => ?_⟩
  · rintro (hinside | ⟨hliteral, hprivate⟩)
    · exact hlocal hinside
    · -- An IP address is its own resolution.
      have haddress := hresolves
      unfold Resolves at haddress
      rw [if_pos hliteral] at haddress
      have hpublic' := hsettled.isPublic ⟨_, _⟩ (haddress ▸ List.mem_singleton_self _)
      rw [hprivate] at hpublic'
      cases hpublic'
  · by_cases heq : hostname = platform.bareHostname url
    · subst heq
      rw [List.lookup_cons_self] at hfound
      cases hfound
      exact hsettled
    · rw [List.lookup_cons, beq_eq_false_iff_ne.2 heq] at hfound
      exact hcache hostname found hfound

/-- The addresses that are tried are among those of the destination. -/
theorem connectTo_tried {round : Round} {number : Nat} {tried : List String} :
    ∀ address ∈ (connectTo round number tried addresses).2,
      address ∈ tried ∨ ∃ resolved ∈ addresses, resolved.address = address := by
  induction addresses generalizing number tried with
  | nil => exact fun address h => .inl h
  | cons resolved rest ih =>
    have hnext : ∀ address ∈ tried ++ [resolved.address],
        address ∈ tried ∨ ∃ other ∈ resolved :: rest, other.address = address := by
      intro address h
      rcases List.mem_append.1 h with h | h
      · exact .inl h
      · exact .inr ⟨resolved, List.mem_cons_self, (List.mem_singleton.1 h).symm⟩
    unfold connectTo
    split
    · exact hnext
    · exact hnext
    · intro address h
      rcases ih address h with h | ⟨other, hother, heq⟩
      · exact hnext address h
      · exact .inr ⟨other, List.mem_cons_of_mem _ hother, heq⟩

variable (platform allowedPorts rounds) in
/-- A round of `SafeHttpFetcher` sends to a public URL, to addresses of its resolution. -/
theorem safe_visit (redirects : Nat) (cache : Cache) (current : String)
    (hcache : CacheSettled platform rounds cache) :
    (∀ sent ∈ (SafeHttpFetcher.visit platform allowedPorts rounds redirects cache current).2,
      PublicUrl platform allowedPorts sent.url ∧ Pinned platform rounds sent) ∧
    ∀ reached, (SafeHttpFetcher.visit platform allowedPorts rounds redirects cache current).1 =
      .ok reached → CacheSettled platform rounds reached.state := by
  unfold SafeHttpFetcher.visit
  dsimp only
  split
  · exact ⟨fun sent h => absurd h List.not_mem_nil, fun reached h => by cases h⟩
  · exact ⟨fun sent h => absurd h List.not_mem_nil, fun reached h => by cases h⟩
  · next destination cache' hresolved hlate =>
      obtain ⟨hurl, hinside, hsettled, hcache'⟩ := resolvePublicUrl_ok redirects hcache hresolved
      have hsent : PublicUrl platform allowedPorts current ∧
          Pinned platform rounds
            ⟨current, (connectTo (rounds redirects) 0 [] destination.addresses).2⟩ := by
        refine ⟨⟨destination.url, hurl, hinside⟩, destination.url, destination.addresses,
          parsePublicUrl_parse hurl, hsettled, fun address haddress => ?_⟩
        exact (connectTo_tried address haddress).resolve_left List.not_mem_nil
      split
      · refine ⟨fun sent h => ?_, fun reached h => by cases h⟩
        rw [List.mem_singleton.1 h]
        exact hsent
      · refine ⟨fun sent h => ?_, fun reached hreached => ?_⟩
        · rw [List.mem_singleton.1 h]
          exact hsent
        · cases hreached
          exact hcache'

theorem safe_visit_length (redirects : Nat) (cache : Cache) (current : String) :
    (SafeHttpFetcher.visit platform allowedPorts rounds redirects cache current).2.length ≤ 1 := by
  unfold SafeHttpFetcher.visit
  dsimp only
  split
  · exact Nat.zero_le 1
  · exact Nat.zero_le 1
  · split <;> exact le_rfl

variable (platform allowedPorts rounds request) in
/-- `SafeHttpFetcher` does what is claimed, whatever the outside answers. -/
theorem safe_checked :
    Checked platform allowedPorts request
        (SafeHttpFetcher.fetch platform allowedPorts rounds request) ∧
      ∀ sent ∈ (SafeHttpFetcher.fetch platform allowedPorts rounds request).2,
        Pinned platform rounds sent := by
  have hempty : CacheSettled platform rounds [] := fun _ _ h => nomatch h
  have hgood : ∀ sent ∈ (SafeHttpFetcher.fetch platform allowedPorts rounds request).2,
      PublicUrl platform allowedPorts sent.url ∧ Pinned platform rounds sent :=
    follow_sent (CacheSettled platform rounds) _ (safe_visit platform allowedPorts rounds) _ _ _
      hempty
  refine ⟨⟨rounds_le request ?_, fun document h => ?_, fun sent hsent => (hgood sent hsent).1⟩,
    fun sent hsent => (hgood sent hsent).2⟩
  · exact follow_length safe_visit_length _ _ _ _
  · exact follow_body _ _ _ _ h

end Safe

/-! ## `WorkersFetcher` -/

section Workers

variable {rounds : Nat → Round} {request : HttpFetchRequest}

theorem workers_visit_length (redirects : Nat) (state : Unit) (current : String) :
    (WorkersFetcher.visit platform rounds redirects state current).2.length ≤ 1 := by
  unfold WorkersFetcher.visit
  split
  · exact Nat.zero_le 1
  · split <;> exact le_rfl

/-- The first request, when there is a round for it and the platform sends one. -/
theorem workers_sends_first (hrounds : 0 ≤ request.maxRedirects)
    (hsends : (platform.parse request.url).filter platform.sends = some url) :
    ⟨request.url, []⟩ ∈ (WorkersFetcher.fetch platform rounds request).2 := by
  obtain ⟨left, hleft⟩ : ∃ left, request.rounds = left + 1 :=
    ⟨request.maxRedirects.toNat, by unfold HttpFetchRequest.rounds; omega⟩
  unfold WorkersFetcher.fetch
  rw [hleft]
  unfold follow WorkersFetcher.visit
  rw [hsends]
  dsimp only
  cases (rounds 0).connect 0 with
  | error fault => exact List.mem_singleton_self _
  | ok response =>
    dsimp only
    split
    · split
      · exact List.mem_singleton_self _
      · exact List.mem_cons_self
    · split <;> exact List.mem_singleton_self _

/-- A response that redirects to the machine itself. -/
def inward : Response where
  status := 302
  location := some loopback.href
  declared := none
  contentType := none
  headers := []
  chunks := []
  failure := none

/-- Every request is answered by a redirect to the machine itself. -/
def inwardRounds : Nat → Round := fun _ =>
  { validation := ⟨none, fun _ => .error .other, none⟩
    late := none
    connect := fun _ => .ok inward }

/-- A redirect is followed wherever it leads. -/
theorem workers_sends_second (hloopback : LoopbackReachable platform)
    (hrounds : 1 ≤ request.maxRedirects)
    (hsends : (platform.parse request.url).filter platform.sends = some url) :
    ⟨loopback.href, []⟩ ∈ (WorkersFetcher.fetch platform inwardRounds request).2 := by
  obtain ⟨left, hleft⟩ : ∃ left, request.rounds = left + 2 :=
    ⟨(request.maxRedirects - 1).toNat, by unfold HttpFetchRequest.rounds; omega⟩
  have hredirect : inward.redirect = some loopback.href := by decide +kernel
  have hinside : (platform.parse loopback.href).filter platform.sends = some loopback := by
    rw [hloopback.parse]
    exact Option.filter_some_pos hloopback.sends
  have hvisit : ∀ redirects current url,
      (platform.parse current).filter platform.sends = some url →
        WorkersFetcher.visit platform inwardRounds redirects () current =
          (.ok ⟨(), url, current, inward⟩, [⟨current, []⟩]) := by
    intro redirects current url hsends
    unfold WorkersFetcher.visit
    rw [hsends]
    rfl
  have hfollows : platform.resolveRedirect url loopback.href = .ok loopback.href := by
    unfold resolveRedirect
    rw [hloopback.resolve]
  unfold WorkersFetcher.fetch
  rw [hleft, follow, hvisit 0 _ _ hsends]
  dsimp only
  rw [hredirect]
  dsimp only
  rw [hfollows]
  refine List.mem_append_right _ ?_
  rw [follow, hvisit 1 _ _ hinside]
  dsimp only
  split
  · split
    · exact List.mem_singleton_self _
    · exact List.mem_cons_self
  · split <;> exact List.mem_singleton_self _

/-- The policy blocks the machine itself. -/
theorem not_publicUrl_loopback (hloopback : LoopbackReachable platform) :
    ¬ PublicUrl platform defaultPorts loopback.href := by
  rintro ⟨_, hurl, houtside⟩
  cases (parsePublicUrl_parse hurl).symm.trans hloopback.parse
  have hname : platform.bareHostname loopback = "127.0.0.1" := by
    unfold bareHostname
    exact (congrArg platform.toLowerCase (by decide +kernel)).trans hloopback.toLowerCase
  refine houtside (.inr ⟨?_, ?_⟩)
  · rw [hname, hloopback.isIP]
    decide
  · unfold isPublicAddress
    rw [hname, hloopback.isIP]
    simp [hloopback.check]

/-- With one round at most, the only request is to the first URL. -/
theorem workers_sent_of_confined (hconfined : Confined platform request) :
    ∀ sent ∈ (WorkersFetcher.fetch platform rounds request).2,
      PublicUrl platform defaultPorts sent.url := by
  intro sent hsent
  unfold WorkersFetcher.fetch at hsent
  rcases hconfined with hnone | hnothing | ⟨_, hpublic⟩
  · have hrounds : request.rounds = 0 := by
      unfold HttpFetchRequest.rounds
      omega
    rw [hrounds] at hsent
    exact absurd hsent List.not_mem_nil
  · cases hleft : request.rounds with
    | zero =>
      rw [hleft] at hsent
      exact absurd hsent List.not_mem_nil
    | succ left =>
      rw [hleft] at hsent
      unfold follow WorkersFetcher.visit at hsent
      rw [hnothing] at hsent
      exact absurd hsent List.not_mem_nil
  · have hrounds : request.rounds = 1 := by
      unfold HttpFetchRequest.rounds
      omega
    have hfirst : ∀ sent ∈ (WorkersFetcher.visit platform rounds 0 () request.url).2,
        sent.url = request.url := by
      intro sent hsent
      unfold WorkersFetcher.visit at hsent
      split at hsent
      · exact absurd hsent List.not_mem_nil
      · split at hsent <;> rw [List.mem_singleton.1 hsent]
    suffices hurl : sent.url = request.url from hurl ▸ hpublic
    rw [hrounds] at hsent
    unfold follow at hsent
    split at hsent
    · next fault sents hvisited => exact hfirst sent (by rw [hvisited]; exact hsent)
    · next reached sents hvisited =>
        refine hfirst sent ?_
        rw [hvisited]
        split at hsent
        · split at hsent
          · exact hsent
          · -- Behind the redirect there is no round left.
            exact (List.mem_append.1 hsent).resolve_right List.not_mem_nil
        · split at hsent <;> exact hsent

/-- `WorkersFetcher` does what is claimed, whatever the outside answers, for those requests only. -/
theorem workers_checked_iff (hloopback : LoopbackReachable platform) :
    (∀ rounds, Checked platform defaultPorts request
        (WorkersFetcher.fetch platform rounds request)) ↔ Confined platform request := by
  constructor
  · intro h
    unfold Confined
    by_contra hnot
    rw [not_or, not_or, not_lt] at hnot
    obtain ⟨hrounds, hsome, hnot⟩ := hnot
    obtain ⟨_, hsends⟩ := Option.ne_none_iff_exists'.1 hsome
    have hpublic := (h inwardRounds).policy _ (workers_sends_first hrounds hsends)
    have hmore : 1 ≤ request.maxRedirects := by
      have hne : request.maxRedirects ≠ 0 := fun hzero => hnot ⟨hzero, hpublic⟩
      omega
    exact not_publicUrl_loopback hloopback
      ((h inwardRounds).policy _ (workers_sends_second hloopback hmore hsends))
  · intro hconfined rounds
    refine ⟨rounds_le request ?_, fun document h => ?_, workers_sent_of_confined hconfined⟩
    · exact follow_length workers_visit_length _ _ _ _
    · exact follow_body _ _ _ _ h

end Workers

/-- Every hop of every fetch is checked exactly for the requests that confine `WorkersFetcher`. -/
theorem hops_checked_iff (hloopback : LoopbackReachable platform) (allowedPorts : List Nat)
    (request : HttpFetchRequest) :
    HopsChecked platform allowedPorts request ↔ Confined platform request := by
  unfold HopsChecked
  rw [and_iff_right fun rounds => safe_checked platform allowedPorts rounds request]
  exact workers_checked_iff hloopback

/-! ## A sample -/

def sampleUrl : Url := ⟨"http:", "", "", "example.com", none, "http://example.com/"⟩

/-- A platform that knows two URLs. -/
def samplePlatform : Platform where
  parse value := [loopback, sampleUrl].find? fun url => url.href = value
  resolve location _ := ([loopback, sampleUrl].find? fun url => url.href = location).map Url.href
  isIP address := if address = "127.0.0.1" then 4 else 0
  check subnets address type := address = "127.0.0.1" &&
    subnets.contains ⟨"127.0.0.0", 8, "ipv4"⟩ && type = "ipv4"
  toLowerCase := id
  sends _ := true

theorem loopbackReachable_sample : LoopbackReachable samplePlatform where
  parse := by decide +kernel
  resolve _ := by
    show ([loopback, sampleUrl].find? fun url => url.href = loopback.href).map Url.href =
      some loopback.href
    decide +kernel
  sends := rfl
  toLowerCase := rfl
  isIP := by decide +kernel
  check := by decide +kernel

/-- A request that may follow one redirect. -/
def sampleRequest : HttpFetchRequest := ⟨sampleUrl.href, 1000, 1⟩

theorem hops_checked_sample :
    HopsChecked samplePlatform defaultPorts sampleRequest ↔
      Confined samplePlatform sampleRequest :=
  hops_checked_iff loopbackReachable_sample defaultPorts sampleRequest

/-- A redirect to the machine itself is followed. -/
theorem inward_redirect_followed : ¬ HopsChecked samplePlatform defaultPorts sampleRequest := by
  intro h
  have hsent : ⟨loopback.href, []⟩ ∈
      (WorkersFetcher.fetch samplePlatform inwardRounds sampleRequest).2 := by
    decide +kernel
  exact not_publicUrl_loopback loopbackReachable_sample ((h.2 inwardRounds).policy _ hsent)

example : samplePlatform.isPublicAddress "127.0.0.1" = false := by decide +kernel

end Groundlane.Fetchers
