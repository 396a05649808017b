import Groundlane.Search.Fusion
import Mathlib.Data.List.Perm.Subperm

/-!
# Fused results are well-formed

What `fuseSearchResults` returns is limited, has different canonical URLs, at most two results for
a hostname and falling scores that are the sums over the sources, and a candidate is missing only
because of the limit or of two others of its hostname that are ahead of it. A provider can list a
page twice under different URLs; each of them gets an entry in `sources` and adds to the score.
Hence a result has one entry for each provider result at most exactly when no page that is listed
twice is among those returned (`fusion_well_formed_iff`).
-/

namespace Groundlane.Search

open Ordered Quota

variable {parser : UrlParser} {localeCompare : String → String → Int}
  {weights : Option (String → Option ℚ)}

/-! ## Well-formed results -/

/-- The entries of `sources` come from different provider results. -/
def OnePerResult (listed : List Listing) (item : SearchResultItem) : Prop :=
  ∃ sources, item.sources = some sources ∧ ∃ places : List Nat, places.Nodup ∧
    List.Forall₂ (fun place source => ∃ listing ∈ listedUnder listed item.url,
      listing.providerIndex = place ∧ listing.source = source) places sources

/-- Two candidates of the same hostname are ahead of this one. -/
def TwoAhead (localeCompare : String → String → Int) (candidates : List FusedCandidate)
    (candidate : FusedCandidate) : Prop :=
  ∃ first ∈ candidates, ∃ second ∈ candidates, first.canonicalUrl ≠ second.canonicalUrl ∧
    (first.canonicalUrl ≠ candidate.canonicalUrl ∧ first.hostname = candidate.hostname ∧
      Ahead localeCompare first candidate) ∧
    (second.canonicalUrl ≠ candidate.canonicalUrl ∧ second.hostname = candidate.hostname ∧
      Ahead localeCompare second candidate)

/-- The limit is reached by candidates that are ahead of this one. -/
def LimitReached (localeCompare : String → String → Int) (candidates : List FusedCandidate)
    (maxResults : Nat) (output : List SearchResultItem) (candidate : FusedCandidate) : Prop :=
  output.length = maxResults ∧ ∀ item ∈ output, ∃ other ∈ candidates,
    other.canonicalUrl = item.url ∧ Ahead localeCompare other candidate

/-- What is promised of the fused results. -/
structure WellFormed (parser : UrlParser) (localeCompare : String → String → Int)
    (weights : Option (String → Option ℚ)) (listed : List Listing) (maxResults : Nat)
    (output : List SearchResultItem) : Prop where
  limited : output.length ≤ maxResults
  known : ∀ item ∈ output, item.url ∈ listed.map Listing.canonicalUrl
  distinct : (output.map SearchResultItem.url).Nodup
  diverse : ∀ hostname,
    countOf (fun item : SearchResultItem => hostnameOf parser item.url) output hostname ≤ 2
  ordered : output.Pairwise fun item next => ∃ score nextScore,
    item.fusionScore = some score ∧ next.fusionScore = some nextScore ∧ nextScore ≤ score
  onePerResult : ∀ item ∈ output, OnePerResult listed item
  scored : ∀ item ∈ output, ∃ sources, item.sources = some sources ∧
    item.fusionScore = some (sources.map (sourceScore weights)).sum
  absent : ∀ candidate ∈ candidatesOf parser weights listed,
    candidate.canonicalUrl ∉ output.map SearchResultItem.url →
      LimitReached localeCompare (candidatesOf parser weights listed) maxResults output candidate ∨
        TwoAhead localeCompare (candidatesOf parser weights listed) candidate

/-- A provider result lists the URL twice. -/
def Repeated (listed : List Listing) (canonicalUrl : String) : Prop :=
  ∃ place, 2 ≤ ((listedUnder listed canonicalUrl).filter fun listing =>
    listing.providerIndex = place).length

/-- The first `maxResults` of the candidates that come first or second of their hostname. -/
def shortlist (parser : UrlParser) (localeCompare : String → String → Int)
    (weights : Option (String → Option ℚ)) (listed : List Listing) (maxResults : Nat) :
    List FusedCandidate :=
  (firstPerGroup FusedCandidate.hostname maxResultsPerHostname
    (sortCandidates localeCompare (candidatesOf parser weights listed))).take maxResults

/-! ## Candidates -/

variable {candidate : FusedCandidate}

/-- A candidate is made up of what is listed under its URL. -/
theorem candidateOf_eq_some {listed : List Listing} {canonicalUrl : String}
    (h : candidateOf parser weights listed canonicalUrl = some candidate) :
    candidate.canonicalUrl = canonicalUrl ∧ candidate.item.url = canonicalUrl ∧
      candidate.hostname = hostnameOf parser canonicalUrl ∧
      candidate.sources = (listedUnder listed canonicalUrl).map Listing.source ∧
      candidate.fusionScore = (candidate.sources.map (sourceScore weights)).sum := by
  unfold candidateOf at h
  cases hlisted : listedUnder listed canonicalUrl with
  | nil => simp [hlisted, candidateFrom] at h
  | cons first rest =>
    rw [hlisted] at h
    obtain rfl := Option.some.inj h
    exact ⟨rfl, rfl, rfl, rfl, rfl⟩

theorem mem_candidatesOf {listed : List Listing}
    (h : candidate ∈ candidatesOf parser weights listed) :
    candidateOf parser weights listed candidate.canonicalUrl = some candidate ∧
      candidate.canonicalUrl ∈ listed.map Listing.canonicalUrl := by
  obtain ⟨_, hmem, hcandidate⟩ := List.mem_filterMap.1 h
  have hurl := (candidateOf_eq_some hcandidate).1
  rw [hurl]
  exact ⟨hcandidate, List.mem_eraseDups.1 hmem⟩

/-- Candidates have different URLs. -/
theorem nodup_candidatesOf (parser : UrlParser) (weights : Option (String → Option ℚ))
    (listed : List Listing) :
    ((candidatesOf parser weights listed).map FusedCandidate.canonicalUrl).Nodup := by
  have hnodup : (candidatesOf parser weights listed).Nodup := by
    refine (nodup_eraseDups listed).filterMap fun url other candidate hurl hother => ?_
    rw [← (candidateOf_eq_some hurl).1, ← (candidateOf_eq_some hother).1]
  refine List.Nodup.map_on (fun candidate hcandidate other hother heq => ?_) hnodup
  have hread := (mem_candidatesOf hcandidate).1
  rw [heq, (mem_candidatesOf hother).1] at hread
  exact (Option.some.inj hread).symm

/-! ## Entries in `sources` -/

/-- Each provider result has one entry at most exactly if none lists the URL twice. -/
theorem onePerResult_iff {listed : List Listing}
    (h : candidate ∈ candidatesOf parser weights listed) :
    OnePerResult listed candidate.toItem ↔ ¬ Repeated listed candidate.canonicalUrl := by
  obtain ⟨hcandidate, -⟩ := mem_candidatesOf h
  obtain ⟨-, hitem, -, hsources, -⟩ := candidateOf_eq_some hcandidate
  have hurl : candidate.toItem.url = candidate.canonicalUrl := hitem
  have hcount : ∀ place, ((listedUnder listed candidate.canonicalUrl).map
      Listing.providerIndex).count place =
      ((listedUnder listed candidate.canonicalUrl).filter fun listing =>
        listing.providerIndex = place).length := by
    intro place
    rw [List.count_eq_countP, List.countP_map, List.countP_eq_length_filter]
    rfl
  have hrepeated : ¬ Repeated listed candidate.canonicalUrl ↔
      ((listedUnder listed candidate.canonicalUrl).map Listing.providerIndex).Nodup := by
    rw [List.nodup_iff_count_le_one]
    constructor
    · intro hnone place
      rw [hcount]
      exact Nat.le_of_lt_succ (Nat.lt_of_not_le fun htwice => hnone ⟨place, htwice⟩)
    · rintro hone ⟨place, htwice⟩
      have hplace := hone place
      rw [hcount] at hplace
      omega
  rw [hrepeated]
  constructor
  · rintro ⟨sources, hsome, places, hnodup, hplaces⟩
    obtain rfl : candidate.sources = sources := Option.some.inj hsome
    -- The places are as many as the listings, so they are the places of the listings.
    have hsubset : places ⊆ (listedUnder listed candidate.canonicalUrl).map
        Listing.providerIndex := by
      intro place hplace
      obtain ⟨i, hi, rfl⟩ := List.mem_iff_getElem.1 hplace
      obtain ⟨listing, hlisting, hindex, -⟩ := hplaces.get hi (hplaces.length_eq ▸ hi)
      rw [hurl] at hlisting
      exact List.mem_map.2 ⟨listing, hlisting, hindex⟩
    have hlength : ((listedUnder listed candidate.canonicalUrl).map
        Listing.providerIndex).length ≤ places.length := by
      rw [hplaces.length_eq, hsources, List.length_map, List.length_map]
    have hperm := (List.subperm_of_subset hnodup hsubset).perm_of_length_le hlength
    exact hperm.nodup_iff.1 hnodup
  · intro hnodup
    refine ⟨candidate.sources, rfl, _, hnodup, ?_⟩
    rw [hsources, hurl, List.forall₂_map_left_iff, List.forall₂_map_right_iff, List.forall₂_same]
    exact fun listing hlisting => ⟨listing, hlisting, rfl, rfl⟩

/-! ## The output -/

section

variable (parser localeCompare weights) in
/-- The items of the shortlist. -/
def shortlistItems (listed : List Listing) (maxResults : Nat) : List SearchResultItem :=
  (shortlist parser localeCompare weights listed maxResults).map FusedCandidate.toItem

variable {listed : List Listing} {maxResults : Nat}

theorem shortlist_sublist : (shortlist parser localeCompare weights listed maxResults).Sublist
    (sortCandidates localeCompare (candidatesOf parser weights listed)) :=
  (List.take_sublist _ _).trans (firstPerGroup_sublist _)

theorem mem_of_mem_sortCandidates
    (h : candidate ∈ sortCandidates localeCompare (candidatesOf parser weights listed)) :
    candidate ∈ candidatesOf parser weights listed :=
  (List.mem_insertionSort _).1 h

theorem mem_of_mem_shortlist
    (h : candidate ∈ shortlist parser localeCompare weights listed maxResults) :
    candidate ∈ candidatesOf parser weights listed :=
  mem_of_mem_sortCandidates (shortlist_sublist.mem h)

variable (parser localeCompare weights listed maxResults) in
/-- The returned URLs are those of the shortlist. -/
theorem urls_shortlistItems :
    (shortlistItems parser localeCompare weights listed maxResults).map SearchResultItem.url =
      (shortlist parser localeCompare weights listed maxResults).map
        FusedCandidate.canonicalUrl := by
  unfold shortlistItems
  rw [List.map_map]
  refine List.map_congr_left fun candidate hcandidate => ?_
  exact (candidateOf_eq_some (mem_candidatesOf (mem_of_mem_shortlist hcandidate)).1).2.1

variable (parser localeCompare weights listed) in
theorem nodup_sortCandidates :
    ((sortCandidates localeCompare (candidatesOf parser weights listed)).map
      FusedCandidate.canonicalUrl).Nodup :=
  ((List.perm_insertionSort _ _).map _).nodup_iff.2 (nodup_candidatesOf parser weights listed)

theorem count_hostname_le (hostname : String) :
    countOf (fun item : SearchResultItem => hostnameOf parser item.url)
      (shortlistItems parser localeCompare weights listed maxResults) hostname ≤ 2 := by
  have hsame : countOf (fun item : SearchResultItem => hostnameOf parser item.url)
      (shortlistItems parser localeCompare weights listed maxResults) hostname =
      countOf FusedCandidate.hostname
        (shortlist parser localeCompare weights listed maxResults) hostname := by
    unfold countOf shortlistItems
    rw [List.countP_map]
    refine List.countP_congr fun candidate hcandidate => ?_
    obtain ⟨-, hurl, hhostname, -⟩ :=
      candidateOf_eq_some (mem_candidatesOf (mem_of_mem_shortlist hcandidate)).1
    show decide (hostnameOf parser candidate.item.url = hostname) = true ↔
      decide (candidate.hostname = hostname) = true
    rw [hurl, hhostname]
  rw [hsame]
  exact Nat.le_trans (List.Sublist.countP_le (List.take_sublist _ _))
    (count_firstPerGroup_le _ hostname)

/-- Among two elements of a hostname before a candidate, two are ahead of it. -/
theorem twoAhead_of_count {before behind : List FusedCandidate}
    (hsplit : sortCandidates localeCompare (candidatesOf parser weights listed) =
      before ++ candidate :: behind) (hcollation : Collation localeCompare)
    (hcount : 2 ≤ countOf FusedCandidate.hostname before candidate.hostname) :
    TwoAhead localeCompare (candidatesOf parser weights listed) candidate := by
  have hsorted := pairwise_sortCandidates hcollation (candidatesOf parser weights listed)
  have hnodup := nodup_sortCandidates parser localeCompare weights listed
  rw [hsplit] at hsorted hnodup
  rw [List.map_append, List.map_cons] at hnodup
  have hother : ∀ other ∈ before.filter fun other => other.hostname = candidate.hostname,
      other ∈ candidatesOf parser weights listed ∧
        other.canonicalUrl ≠ candidate.canonicalUrl ∧ other.hostname = candidate.hostname ∧
          Ahead localeCompare other candidate := by
    intro other hother
    obtain ⟨hbefore, hhostname⟩ := List.mem_filter.1 hother
    have hranked : other ∈ before ++ candidate :: behind := List.mem_append_left _ hbefore
    rw [← hsplit] at hranked
    refine ⟨mem_of_mem_sortCandidates hranked, ?_, of_decide_eq_true hhostname, ?_⟩
    · exact (List.nodup_append.1 hnodup).2.2 _ (List.mem_map_of_mem hbefore) _ List.mem_cons_self
    · exact (List.pairwise_append.1 hsorted).2.2 other hbefore candidate List.mem_cons_self
  unfold countOf at hcount
  rw [List.countP_eq_length_filter] at hcount
  have hurls := ((List.nodup_append.1 hnodup).1).sublist
    ((List.filter_sublist (p := fun other : FusedCandidate =>
      other.hostname = candidate.hostname)).map FusedCandidate.canonicalUrl)
  match hfilter : before.filter fun other => other.hostname = candidate.hostname with
  | [] | [_] => simp [hfilter] at hcount
  | first :: second :: rest =>
    rw [hfilter] at hother hurls
    have hne : first.canonicalUrl ≠ second.canonicalUrl := fun heq =>
      (List.nodup_cons.1 hurls).1 (heq ▸ List.mem_cons_self)
    obtain ⟨hfirst, hahead⟩ := hother first List.mem_cons_self
    obtain ⟨hsecond, hahead'⟩ := hother second (List.mem_cons_of_mem _ List.mem_cons_self)
    exact ⟨first, hfirst, second, hsecond, hne, hahead, hahead'⟩

/-- A candidate that is not returned has been left out for the limit or for its hostname. -/
theorem absent_reason (hcollation : Collation localeCompare)
    (hcandidate : candidate ∈ candidatesOf parser weights listed)
    (habsent : candidate.canonicalUrl ∉
      (shortlistItems parser localeCompare weights listed maxResults).map SearchResultItem.url) :
    LimitReached localeCompare (candidatesOf parser weights listed) maxResults
        (shortlistItems parser localeCompare weights listed maxResults) candidate ∨
      TwoAhead localeCompare (candidatesOf parser weights listed) candidate := by
  rw [urls_shortlistItems] at habsent
  have hsorted := pairwise_sortCandidates hcollation (candidatesOf parser weights listed)
  have hranked : candidate ∈ sortCandidates localeCompare (candidatesOf parser weights listed) :=
    (List.mem_insertionSort _).2 hcandidate
  by_cases hfirst : candidate ∈ firstPerGroup FusedCandidate.hostname maxResultsPerHostname
      (sortCandidates localeCompare (candidatesOf parser weights listed))
  · -- The candidate comes behind the limit.
    refine .inl ?_
    have hbehind : candidate ∈ (firstPerGroup FusedCandidate.hostname maxResultsPerHostname
        (sortCandidates localeCompare (candidatesOf parser weights listed))).drop maxResults := by
      rw [← List.take_append_drop maxResults (firstPerGroup _ _ _), List.mem_append] at hfirst
      exact hfirst.resolve_left fun htaken => habsent (List.mem_map_of_mem htaken)
    have hsublist : (firstPerGroup FusedCandidate.hostname maxResultsPerHostname
        (sortCandidates localeCompare (candidatesOf parser weights listed))).Sublist
        (sortCandidates localeCompare (candidatesOf parser weights listed)) :=
      firstPerGroup_sublist _
    have hfirstSorted := hsorted.sublist hsublist
    rw [← List.take_append_drop maxResults (firstPerGroup _ _ _)] at hfirstSorted
    refine ⟨?_, fun item hitem => ?_⟩
    · have hlength := List.length_pos_of_mem hbehind
      rw [List.length_drop] at hlength
      unfold shortlistItems shortlist
      rw [List.length_map, List.length_take]
      omega
    · obtain ⟨other, hother, rfl⟩ := List.mem_map.1 hitem
      have hmem := mem_of_mem_shortlist hother
      refine ⟨other, hmem, ?_, ?_⟩
      · obtain ⟨_, hitemUrl, -⟩ := candidateOf_eq_some (mem_candidatesOf hmem).1
        exact hitemUrl.symm
      · exact (List.pairwise_append.1 hfirstSorted).2.2 other hother candidate hbehind
  · obtain ⟨_, _, hsplit, hcount⟩ := quota_le_of_notMem hranked hfirst
    exact .inr (twoAhead_of_count hsplit hcollation hcount)

/-- The scores fall along the shortlist. -/
theorem ordered_shortlistItems (hcollation : Collation localeCompare) :
    (shortlistItems parser localeCompare weights listed maxResults).Pairwise fun item next =>
      ∃ score nextScore, item.fusionScore = some score ∧ next.fusionScore = some nextScore ∧
        nextScore ≤ score := by
  have hsorted := (pairwise_sortCandidates hcollation
    (candidatesOf parser weights listed)).sublist
    (shortlist_sublist : (shortlist parser localeCompare weights listed maxResults).Sublist _)
  unfold shortlistItems
  rw [List.pairwise_map]
  refine hsorted.imp fun {candidate next} hahead => ?_
  exact ⟨candidate.fusionScore, next.fusionScore, rfl, rfl, neg_le_neg_iff.1 hahead.key_le⟩

/-- The shortlist is well-formed exactly if no URL of it is repeated. -/
theorem wellFormed_shortlistItems_iff (hcollation : Collation localeCompare) :
    WellFormed parser localeCompare weights listed maxResults
        (shortlistItems parser localeCompare weights listed maxResults) ↔
      ∀ canonicalUrl, Repeated listed canonicalUrl → canonicalUrl ∉
        (shortlist parser localeCompare weights listed maxResults).map
          FusedCandidate.canonicalUrl := by
  constructor
  · intro h canonicalUrl hrepeated hmem
    obtain ⟨candidate, hcandidate, rfl⟩ := List.mem_map.1 hmem
    have hone := h.onePerResult candidate.toItem (List.mem_map_of_mem hcandidate)
    exact (onePerResult_iff (mem_of_mem_shortlist hcandidate)).1 hone hrepeated
  · intro hnone
    have hurls := urls_shortlistItems parser localeCompare weights listed maxResults
    refine
      { limited := ?_
        known := fun item hitem => ?_
        distinct := ?_
        diverse := count_hostname_le
        ordered := ordered_shortlistItems hcollation
        onePerResult := fun item hitem => ?_
        scored := fun item hitem => ?_
        absent := fun candidate hcandidate => absent_reason hcollation hcandidate }
    · unfold shortlistItems shortlist
      rw [List.length_map]
      exact List.length_take_le _ _
    · have hmem := List.mem_map_of_mem (f := SearchResultItem.url) hitem
      rw [hurls] at hmem
      obtain ⟨candidate, hcandidate, heq⟩ := List.mem_map.1 hmem
      exact heq ▸ (mem_candidatesOf (mem_of_mem_shortlist hcandidate)).2
    · rw [hurls]
      exact (nodup_sortCandidates parser localeCompare weights listed).sublist
        (shortlist_sublist.map _)
    · obtain ⟨candidate, hcandidate, rfl⟩ := List.mem_map.1 hitem
      exact (onePerResult_iff (mem_of_mem_shortlist hcandidate)).2 fun hrepeated =>
        hnone _ hrepeated (List.mem_map_of_mem hcandidate)
    · obtain ⟨candidate, hcandidate, rfl⟩ := List.mem_map.1 hitem
      have hscore := (candidateOf_eq_some
        (mem_candidatesOf (mem_of_mem_shortlist hcandidate)).1).2.2.2.2
      exact ⟨candidate.sources, rfl, congrArg some hscore⟩

end

/-- The fused results are well-formed exactly when no URL that a provider result lists twice is on
the shortlist. -/
theorem fusion_well_formed_iff (parser : UrlParser) (hcollation : Collation localeCompare)
    (weights : Option (String → Option ℚ)) (providerResults : List SearchResult)
    {maxResults : Nat} (hmax : 1 ≤ maxResults) :
    WellFormed parser localeCompare weights (listings parser providerResults) maxResults
        (fuseSearchResults parser localeCompare weights providerResults maxResults) ↔
      ∀ canonicalUrl, Repeated (listings parser providerResults) canonicalUrl →
        canonicalUrl ∉ (shortlist parser localeCompare weights (listings parser providerResults)
          maxResults).map FusedCandidate.canonicalUrl := by
  rw [fuseSearchResults_eq parser weights providerResults hmax]
  exact wellFormed_shortlistItems_iff hcollation

/-! ## A page that is listed twice -/

/-- A parser of two URLs of one page. -/
def sampleParser : UrlParser where
  parse value :=
    if value = "http://a/?utm_id=1" then
      some ⟨"http:", "", "", "a", "", "/", [("utm_id", "1")], ""⟩
    else if value = "http://a/" then some ⟨"http:", "", "", "a", "", "/", [], ""⟩
    else none
  toString url := if url.searchParams = [] then "http://a/" else "http://a/?utm_id=1"

/-- A result for a URL. -/
def sampleItem (url : String) : SearchResultItem := ⟨"", url, "", none, none, "p", none, none⟩

/-- One provider lists the page under both of its URLs. -/
def sampleResults : List SearchResult :=
  [⟨"p", [sampleItem "http://a/?utm_id=1", sampleItem "http://a/"]⟩]

/-- A comparison of strings by code units. -/
def compareUnits (left right : String) : Int :=
  if left < right then -1 else if right < left then 1 else 0

theorem collation_compareUnits : Collation compareUnits := by
  have hle : ∀ left right : String, compareUnits left right ≤ 0 ↔ left ≤ right := by
    intro left right
    unfold compareUnits
    rcases lt_trichotomy left right with hlt | heq | hgt
    · simp [hlt, hlt.le]
    · simp [heq]
    · simp [hgt, not_lt.2 hgt.le]
  refine ⟨fun left right => ?_, fun left middle right h h' => ?_⟩
  · rw [hle, hle]
    exact le_total left right
  · rw [hle] at h h' ⊢
    exact h.trans h'

/-- The instance for one result of that page. -/
theorem fusion_well_formed_sample :
    WellFormed sampleParser compareUnits none
        (listings sampleParser [⟨"p", [sampleItem "http://a/"]⟩]) 1
        (fuseSearchResults sampleParser compareUnits none [⟨"p", [sampleItem "http://a/"]⟩] 1) ↔
      ∀ canonicalUrl, Repeated (listings sampleParser [⟨"p", [sampleItem "http://a/"]⟩])
        canonicalUrl → canonicalUrl ∉ (shortlist sampleParser compareUnits none
          (listings sampleParser [⟨"p", [sampleItem "http://a/"]⟩]) 1).map
          FusedCandidate.canonicalUrl :=
  fusion_well_formed_iff sampleParser collation_compareUnits none _ (le_refl 1)

/-- Both URLs of the page are counted: one result, with two entries of one provider result. -/
theorem page_counted_twice :
    ¬ WellFormed sampleParser compareUnits none (listings sampleParser sampleResults) 1
      (fuseSearchResults sampleParser compareUnits none sampleResults 1) := by
  rw [fuseSearchResults_eq sampleParser none sampleResults (le_refl 1)]
  intro h
  have hrepeated : Repeated (listings sampleParser sampleResults) "http://a/" :=
    ⟨0, by decide +kernel⟩
  refine (wellFormed_shortlistItems_iff collation_compareUnits).1 h "http://a/" hrepeated ?_
  decide +kernel

end Groundlane.Search
