import Groundlane.Ordered.Lexicographic
import Groundlane.Ordered.Map
import Groundlane.Ordered.Quota
import Mathlib.Algebra.BigOperators.Group.List.Basic
import Mathlib.Algebra.Order.Ring.Rat
import Mathlib.Data.List.Induction
import Mathlib.Data.List.Sort
import Mathlib.Data.String.Basic
import Mathlib.Tactic.Linarith

/-!
# Fusing search results

`fuseSearchResults` of `core/search-fusion.ts`: the results of several providers are merged by
canonical URL, ranked by reciprocal rank fusion, and thinned out to two per hostname. The scores
are exact rationals; the parser of URLs and the locale's comparison of strings are parameters. The
candidates are the canonical URLs that are listed, each with everything that is listed under it
(`collect_entries`), and the output is the first of each hostname in their ranking
(`fuseSearchResults_eq`).
-/

namespace Groundlane.Search

open Ordered Quota

/-! ## URLs -/

/-- The parts of a parsed URL that the canonical form is made from. -/
structure Url where
  protocol : String
  username : String
  password : String
  hostname : String
  port : String
  pathname : String
  searchParams : List (String × String)
  hash : String

/-- `new URL(value)`, if it does not throw, and `toString`. -/
structure UrlParser where
  parse : String → Option Url
  toString : Url → String

/-- `toLowerCase` of a character, as far as the result can be an ASCII letter. -/
def lowerCase (c : Char) : Char :=
  if c = '\u212A' then 'k' else c.toLower

/-- `TRACKING_PARAMETERS`. -/
def trackingParameters : List String :=
  ["dclid", "fbclid", "gclid", "mc_cid", "mc_eid", "msclkid"]

def isTrackingParameter (name : String) : Bool :=
  let normalized := name.toList.map lowerCase
  "utm_".toList.isPrefixOf normalized ||
    trackingParameters.any fun parameter => parameter.toList = normalized

/-- `searchParams.delete(name)` for each tracking parameter. -/
def deleteTracking (searchParams : List (String × String)) : List (String × String) :=
  (searchParams.map Prod.fst).foldl (fun params name =>
    if isTrackingParameter name then params.filter fun param => param.1 ≠ name else params)
    searchParams

def canonicalSearchResultUrl (parser : UrlParser) (value : String) : Option String :=
  match parser.parse value with
  | none => none
  | some url =>
    if (url.protocol ≠ "http:" ∧ url.protocol ≠ "https:") ∨ url.username ≠ "" ∨
        url.password ≠ "" then none
    else some (parser.toString { url with
      hash := ""
      searchParams := (deleteTracking url.searchParams).insertionSort fun left right =>
        left.1 ≤ right.1 })

/-- `new URL(canonicalUrl).hostname`; a canonical URL can be parsed again. -/
def hostnameOf (parser : UrlParser) (canonicalUrl : String) : String :=
  ((parser.parse canonicalUrl).map Url.hostname).getD ""

/-! ## Results -/

/-- `SearchResultSource`. -/
structure SearchResultSource where
  provider : String
  rank : Nat
  rawScore : Option ℚ

/-- `SearchResultItem`. -/
structure SearchResultItem where
  title : String
  url : String
  snippet : String
  publishedAt : Option String
  score : Option ℚ
  provider : String
  fusionScore : Option ℚ
  sources : Option (List SearchResultSource)

/-- The part of a `SearchResult` that is fused. -/
structure SearchResult where
  provider : String
  results : List SearchResultItem

/-- `FusedCandidate`. -/
structure FusedCandidate where
  item : SearchResultItem
  canonicalUrl : String
  hostname : String
  fusionScore : ℚ
  sources : List SearchResultSource
  firstProviderIndex : Nat

/-- `RRF_K`. -/
def rrfK : ℚ := 60

/-- `MAX_CANDIDATES_PER_PROVIDER`. -/
def maxCandidatesPerProvider : Nat := 50

/-- `MAX_RESULTS_PER_HOSTNAME`. -/
def maxResultsPerHostname : Nat := 2

/-- `weights?.[provider] ?? 1`. -/
def weightOf (weights : Option (String → Option ℚ)) (provider : String) : ℚ :=
  (weights.bind fun weights => weights provider).getD 1

section

variable (parser : UrlParser) (localeCompare : String → String → Int)
  (weights : Option (String → Option ℚ))

/-- One item of a provider's result. -/
def addItem (result : SearchResult) (providerIndex : Nat)
    (candidates : OrderedMap String FusedCandidate) (item : SearchResultItem × Nat) :
    OrderedMap String FusedCandidate :=
  let (item, itemIndex) := item
  match canonicalSearchResultUrl parser item.url with
  | none => candidates
  | some canonicalUrl =>
    let weight := weightOf weights result.provider
    let rank := itemIndex + 1
    match candidates.get? canonicalUrl with
    | some existing => candidates.set canonicalUrl { existing with
      fusionScore := existing.fusionScore + weight / (rrfK + rank)
      sources := existing.sources ++ [⟨result.provider, rank, item.score⟩] }
    | none => candidates.set canonicalUrl
      { item := { item with url := canonicalUrl, provider := result.provider }
        canonicalUrl := canonicalUrl
        hostname := hostnameOf parser canonicalUrl
        fusionScore := weight / (rrfK + rank)
        sources := [⟨result.provider, rank, item.score⟩]
        firstProviderIndex := providerIndex }

/-- One provider's result. -/
def addResult (candidates : OrderedMap String FusedCandidate) (result : SearchResult × Nat) :
    OrderedMap String FusedCandidate :=
  (result.1.results.take maxCandidatesPerProvider).zipIdx.foldl
    (addItem parser weights result.1 result.2) candidates

/-- All providers' results. -/
def collect (providerResults : List SearchResult) : OrderedMap String FusedCandidate :=
  providerResults.zipIdx.foldl (addResult parser weights) .empty

/-- `Math.min(...sources.map((item) => item.rank))`. -/
def bestRank (candidate : FusedCandidate) : Nat :=
  ((candidate.sources.map SearchResultSource.rank).min?).getD 0

/-- What the candidates are sorted by. -/
def compareCandidates (left right : FusedCandidate) : ℚ :=
  if left.fusionScore ≠ right.fusionScore then right.fusionScore - left.fusionScore
  else if left.sources.length ≠ right.sources.length then
    right.sources.length - left.sources.length
  else if bestRank left ≠ bestRank right then bestRank left - bestRank right
  else if left.firstProviderIndex ≠ right.firstProviderIndex then
    left.firstProviderIndex - right.firstProviderIndex
  else localeCompare left.canonicalUrl right.canonicalUrl

/-- `[...candidates.values()].sort(..)`. -/
def sortCandidates (candidates : List FusedCandidate) : List FusedCandidate :=
  candidates.insertionSort fun left right => compareCandidates localeCompare left right ≤ 0

/-- The item that is returned for a candidate. -/
def FusedCandidate.toItem (candidate : FusedCandidate) : SearchResultItem :=
  { candidate.item with
    fusionScore := some candidate.fusionScore
    sources := some candidate.sources }

/-- The loop over the sorted candidates. -/
def pick (maxResults : Nat) (hostnameCounts : String → Nat) (output : List SearchResultItem) :
    List FusedCandidate → List SearchResultItem
  | [] => output
  | candidate :: rest =>
    let count := hostnameCounts candidate.hostname
    if count ≥ maxResultsPerHostname then pick maxResults hostnameCounts output rest
    else
      let hostnameCounts := fun hostname =>
        if hostname = candidate.hostname then count + 1 else hostnameCounts hostname
      let output := output ++ [candidate.toItem]
      if output.length = maxResults then output
      else pick maxResults hostnameCounts output rest

def fuseSearchResults (providerResults : List SearchResult) (maxResults : Nat) :
    List SearchResultItem :=
  let candidates := collect parser weights providerResults
  pick maxResults (fun _ => 0) [] (sortCandidates localeCompare (candidates.entries.map Prod.snd))

end

/-! ## What is listed -/

/-- An item that is fused: where it is listed, and under which canonical URL. -/
structure Listing where
  providerIndex : Nat
  provider : String
  rank : Nat
  canonicalUrl : String
  item : SearchResultItem

/-- The entry of `sources` for a listing. -/
def Listing.source (listing : Listing) : SearchResultSource :=
  ⟨listing.provider, listing.rank, listing.item.score⟩

section

variable (parser : UrlParser) (localeCompare : String → String → Int)
  (weights : Option (String → Option ℚ))

/-- The listings of one provider's result. -/
def listingsOf (result : SearchResult × Nat) : List Listing :=
  (result.1.results.take maxCandidatesPerProvider).zipIdx.filterMap fun item =>
    (canonicalSearchResultUrl parser item.1.url).map fun canonicalUrl =>
      ⟨result.2, result.1.provider, item.2 + 1, canonicalUrl, item.1⟩

/-- All listings, in the order in which they are merged. -/
def listings (providerResults : List SearchResult) : List Listing :=
  providerResults.zipIdx.flatMap (listingsOf parser)

/-- The score of an entry of `sources`. -/
def sourceScore (source : SearchResultSource) : ℚ :=
  weightOf weights source.provider / (rrfK + source.rank)

/-- The candidate that everything listed under a URL makes up. -/
def candidateFrom (canonicalUrl : String) : List Listing → Option FusedCandidate
  | [] => none
  | first :: rest => some
    { item := { first.item with url := canonicalUrl, provider := first.provider }
      canonicalUrl := canonicalUrl
      hostname := hostnameOf parser canonicalUrl
      fusionScore := (((first :: rest).map Listing.source).map (sourceScore weights)).sum
      sources := (first :: rest).map Listing.source
      firstProviderIndex := first.providerIndex }

/-- The listings under a URL. -/
def listedUnder (listed : List Listing) (canonicalUrl : String) : List Listing :=
  listed.filter fun listing => listing.canonicalUrl = canonicalUrl

/-- The candidate of a URL. -/
def candidateOf (listed : List Listing) (canonicalUrl : String) : Option FusedCandidate :=
  candidateFrom parser weights canonicalUrl (listedUnder listed canonicalUrl)

/-- The candidates in the order in which their URLs are first listed. -/
def candidatesOf (listed : List Listing) : List FusedCandidate :=
  (listed.map Listing.canonicalUrl).eraseDups.filterMap (candidateOf parser weights listed)

/-- One listing. -/
def addListing (candidates : OrderedMap String FusedCandidate) (listing : Listing) :
    OrderedMap String FusedCandidate :=
  match candidates.get? listing.canonicalUrl with
  | some existing => candidates.set listing.canonicalUrl { existing with
    fusionScore := existing.fusionScore + sourceScore weights listing.source
    sources := existing.sources ++ [listing.source] }
  | none => candidates.set listing.canonicalUrl
    { item := { listing.item with url := listing.canonicalUrl, provider := listing.provider }
      canonicalUrl := listing.canonicalUrl
      hostname := hostnameOf parser listing.canonicalUrl
      fusionScore := sourceScore weights listing.source
      sources := [listing.source]
      firstProviderIndex := listing.providerIndex }

variable {parser weights}

theorem addResult_eq (candidates : OrderedMap String FusedCandidate)
    (result : SearchResult × Nat) :
    addResult parser weights candidates result =
      (listingsOf parser result).foldl (addListing parser weights) candidates := by
  unfold addResult listingsOf
  rw [List.foldl_filterMap]
  congr 1
  funext candidates item
  obtain ⟨item, itemIndex⟩ := item
  unfold addItem
  dsimp only
  cases canonicalSearchResultUrl parser item.url with
  | none => rfl
  | some canonicalUrl => rfl

/-- The passes over the results are one pass over the listings. -/
theorem collect_eq (providerResults : List SearchResult) :
    collect parser weights providerResults =
      (listings parser providerResults).foldl (addListing parser weights) .empty := by
  unfold collect listings
  rw [List.foldl_flatMap]
  congr 1
  funext candidates result
  exact addResult_eq candidates result

/-- One more listing under a URL. -/
theorem candidateFrom_concat (canonicalUrl : String) (entries : List Listing) (listing : Listing) :
    candidateFrom parser weights canonicalUrl (entries ++ [listing]) =
      match candidateFrom parser weights canonicalUrl entries with
      | some existing => some { existing with
        fusionScore := existing.fusionScore + sourceScore weights listing.source
        sources := existing.sources ++ [listing.source] }
      | none => candidateFrom parser weights canonicalUrl [listing] := by
  cases entries with
  | nil => rfl
  | cons first rest => simp [candidateFrom, add_assoc]

/-- What has been collected after some listings. -/
structure Collected (parser : UrlParser) (weights : Option (String → Option ℚ))
    (listed : List Listing) (candidates : OrderedMap String FusedCandidate) : Prop where
  keys : candidates.keys = (listed.map Listing.canonicalUrl).eraseDups
  read : ∀ canonicalUrl, candidates.get? canonicalUrl =
    candidateOf parser weights listed canonicalUrl

theorem Collected.add {listed : List Listing} {candidates : OrderedMap String FusedCandidate}
    (h : Collected parser weights listed candidates) (listing : Listing) :
    Collected parser weights (listed ++ [listing])
      (addListing parser weights candidates listing) := by
  obtain ⟨value, hadd, hvalue⟩ : ∃ value,
      addListing parser weights candidates listing =
        candidates.set listing.canonicalUrl value ∧
      candidateOf parser weights (listed ++ [listing]) listing.canonicalUrl = some value := by
    have hunder : listedUnder (listed ++ [listing]) listing.canonicalUrl =
        listedUnder listed listing.canonicalUrl ++ [listing] := by
      simp [listedUnder]
    unfold addListing
    rw [h.read]
    unfold candidateOf
    rw [hunder, candidateFrom_concat]
    cases candidateFrom parser weights listing.canonicalUrl
        (listedUnder listed listing.canonicalUrl) with
    | none => exact ⟨_, rfl, by simp [candidateFrom]⟩
    | some existing => exact ⟨_, rfl, rfl⟩
  rw [hadd]
  constructor
  · rw [OrderedMap.keys_set, h.keys, List.map_append, List.eraseDups_append]
    by_cases hlisted : listing.canonicalUrl ∈ listed.map Listing.canonicalUrl
    · rw [if_pos (List.mem_eraseDups.2 hlisted)]
      have hnone : [listing.canonicalUrl].removeAll (listed.map Listing.canonicalUrl) = [] := by
        simpa [List.removeAll] using hlisted
      rw [List.map_singleton, hnone, List.eraseDups_nil, List.append_nil]
    · rw [if_neg (List.mem_eraseDups.not.2 hlisted)]
      have hnew : [listing.canonicalUrl].removeAll (listed.map Listing.canonicalUrl) =
          [listing.canonicalUrl] := by
        simpa [List.removeAll] using hlisted
      rw [List.map_singleton, hnew]
      rfl
  · intro canonicalUrl
    rw [OrderedMap.get?_set]
    by_cases hurl : canonicalUrl = listing.canonicalUrl
    · rw [if_pos hurl, hurl, hvalue]
    · rw [if_neg hurl, h.read]
      simp [candidateOf, listedUnder, Ne.symm hurl]

variable (parser weights) in
/-- All listings have been collected. -/
theorem collected_foldl (listed : List Listing) :
    Collected parser weights listed (listed.foldl (addListing parser weights) .empty) := by
  induction listed using List.reverseRecOn with
  | nil => exact ⟨rfl, fun _ => rfl⟩
  | append_singleton listed listing ih =>
    rw [List.foldl_append]
    exact ih.add listing

/-- The collected candidates are the candidates of the listed URLs. -/
theorem collect_values (providerResults : List SearchResult) :
    (collect parser weights providerResults).entries.map Prod.snd =
      candidatesOf parser weights (listings parser providerResults) := by
  have h := collected_foldl parser weights (listings parser providerResults)
  rw [collect_eq, OrderedMap.values_eq, h.keys, funext h.read]
  rfl

/-- The listed URLs without repetition are the keys of a map. -/
theorem nodup_eraseDups (listed : List Listing) :
    (listed.map Listing.canonicalUrl).eraseDups.Nodup := by
  have h := collected_foldl ⟨fun _ => none, fun _ => ""⟩ none listed
  rw [← h.keys]
  exact OrderedMap.nodup _

end

/-! ## The ranking -/

/-- The order of the candidates: by falling score, by falling number of listings, by best rank, by
first provider, by collation. -/
def Ahead (localeCompare : String → String → Int) : FusedCandidate → FusedCandidate → Prop :=
  ByKey (fun candidate => -candidate.fusionScore) <|
  ByKey (fun candidate => -(candidate.sources.length : ℤ)) <|
  ByKey bestRank <|
  ByKey FusedCandidate.firstProviderIndex fun left right =>
    localeCompare left.canonicalUrl right.canonicalUrl ≤ 0

section

variable {localeCompare : String → String → Int}

/-- One key of the comparison: its difference decides where the keys differ. -/
theorem compare_le_iff {ι : Type} [LinearOrder ι] {key : FusedCandidate → ι}
    {next : FusedCandidate → FusedCandidate → Prop} {left right : FusedCandidate} {same : Prop}
    [Decidable same] {difference rest : ℚ} (hsame : same ↔ key left = key right)
    (hdifference : difference ≤ 0 ↔ key left ≤ key right) (hrest : rest ≤ 0 ↔ next left right) :
    (if ¬ same then difference else rest) ≤ 0 ↔ ByKey key next left right := by
  unfold ByKey
  by_cases h : same
  · have hkeys := hsame.1 h
    rw [if_neg (not_not.2 h), hrest]
    constructor
    · exact fun hnext => .inr ⟨hkeys, hnext⟩
    · rintro (hlt | ⟨-, hnext⟩)
      · exact absurd hkeys hlt.ne
      · exact hnext
  · have hkeys : key left ≠ key right := fun heq => h (hsame.2 heq)
    rw [if_pos h, hdifference]
    constructor
    · exact fun hle => .inl (lt_of_le_of_ne hle hkeys)
    · rintro (hlt | ⟨heq, -⟩)
      · exact hlt.le
      · exact absurd heq hkeys

/-- The comparison of the source is this order. -/
theorem compareCandidates_le_iff (left right : FusedCandidate) :
    compareCandidates localeCompare left right ≤ 0 ↔ Ahead localeCompare left right := by
  refine compare_le_iff neg_inj.symm ?_ (compare_le_iff ?_ ?_ (compare_le_iff Iff.rfl ?_
    (compare_le_iff Iff.rfl ?_ ?_)))
  · rw [sub_nonpos, neg_le_neg_iff]
  · rw [neg_inj, Nat.cast_inj]
  · rw [sub_nonpos, neg_le_neg_iff, Nat.cast_le, Nat.cast_le]
  · rw [sub_nonpos, Nat.cast_le]
  · rw [sub_nonpos, Nat.cast_le]
  · exact Int.cast_nonpos

theorem Ahead.total (hcollation : Collation localeCompare) (left right : FusedCandidate) :
    Ahead localeCompare left right ∨ Ahead localeCompare right left :=
  ByKey.total (ByKey.total (ByKey.total (ByKey.total fun left right =>
    hcollation.total left.canonicalUrl right.canonicalUrl))) left right

theorem Ahead.trans (hcollation : Collation localeCompare) {left middle right : FusedCandidate}
    (h : Ahead localeCompare left middle) (h' : Ahead localeCompare middle right) :
    Ahead localeCompare left right :=
  ByKey.trans (fun _ _ _ => ByKey.trans fun _ _ _ => ByKey.trans fun _ _ _ =>
    ByKey.trans fun left _ _ => hcollation.trans left.canonicalUrl _ _) h h'

/-- The candidates are sorted by the order. -/
theorem pairwise_sortCandidates (hcollation : Collation localeCompare)
    (candidates : List FusedCandidate) :
    (sortCandidates localeCompare candidates).Pairwise (Ahead localeCompare) := by
  have : Std.Total fun left right : FusedCandidate =>
      compareCandidates localeCompare left right ≤ 0 :=
    ⟨fun left right => by
      rw [compareCandidates_le_iff, compareCandidates_le_iff]
      exact Ahead.total hcollation left right⟩
  have : IsTrans FusedCandidate fun left right =>
      compareCandidates localeCompare left right ≤ 0 :=
    ⟨fun left middle right h h' => by
      rw [compareCandidates_le_iff] at h h' ⊢
      exact h.trans hcollation h'⟩
  exact (List.pairwise_insertionSort _ candidates).imp fun {left right} h =>
    (compareCandidates_le_iff left right).1 h

/-! ## The choice -/

/-- The loop takes the first of each hostname, up to the limit. -/
theorem pick_eq {maxResults : Nat} (hostnameCounts : String → Nat)
    {output : List SearchResultItem} (passed : List FusedCandidate)
    (hcounts : ∀ hostname, hostnameCounts hostname =
      min maxResultsPerHostname (countOf FusedCandidate.hostname passed hostname))
    (hroom : output.length < maxResults) (rest : List FusedCandidate) :
    pick maxResults hostnameCounts output rest =
      output ++ ((keepFrom FusedCandidate.hostname maxResultsPerHostname passed rest).take
        (maxResults - output.length)).map FusedCandidate.toItem := by
  induction rest generalizing hostnameCounts output passed with
  | nil => simp [pick, keepFrom]
  | cons candidate rest ih =>
    unfold pick keepFrom
    dsimp only
    have hcount := hcounts candidate.hostname
    by_cases hfull : maxResultsPerHostname ≤
        countOf FusedCandidate.hostname passed candidate.hostname
    · rw [if_pos (by omega), if_neg (by omega)]
      refine ih _ _ (fun hostname => ?_) hroom
      rw [hcounts, countOf_concat]
      split
      · next heq => subst heq; omega
      · rfl
    · rw [if_neg (by omega), if_pos (Nat.lt_of_not_le hfull)]
      obtain ⟨room, hroom'⟩ : ∃ n, maxResults - output.length = n + 1 :=
        ⟨maxResults - output.length - 1, by omega⟩
      have hlength : (output ++ [candidate.toItem]).length = output.length + 1 :=
        List.length_append
      rw [hroom', List.take_succ_cons, List.map_cons, hlength]
      by_cases hlast : output.length + 1 = maxResults
      · have hzero : room = 0 := by omega
        rw [if_pos hlast, hzero]
        rfl
      · have hleft : maxResults - (output ++ [candidate.toItem]).length = room := by omega
        rw [if_neg hlast, ih _ (passed ++ [candidate]) (fun hostname => ?_) (by omega),
          hleft, List.append_assoc]
        · rfl
        · rw [countOf_concat]
          by_cases heq : hostname = candidate.hostname
          · subst heq
            rw [if_pos rfl, if_pos rfl, hcount]
            omega
          · rw [if_neg heq, if_neg (Ne.symm heq), hcounts]
            rfl

/-- The output: of the ranked candidates, the first of each hostname, up to the limit. -/
theorem fuseSearchResults_eq (parser : UrlParser) (weights : Option (String → Option ℚ))
    (providerResults : List SearchResult) {maxResults : Nat} (hmax : 1 ≤ maxResults) :
    fuseSearchResults parser localeCompare weights providerResults maxResults =
      ((firstPerGroup FusedCandidate.hostname maxResultsPerHostname
        (sortCandidates localeCompare
          (candidatesOf parser weights (listings parser providerResults)))).take
        maxResults).map FusedCandidate.toItem := by
  unfold fuseSearchResults firstPerGroup
  dsimp only
  rw [collect_values, pick_eq (fun _ => 0) [] (fun _ => rfl) hmax]
  rfl

end

end Groundlane.Search
