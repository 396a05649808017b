import Groundlane.Corpora.Evaluation

/-!
# What a corpus search returns

The derived index keeps the best matches of a query and `searchCorpus` drops those that the caller
may not see. The results are therefore the best of the visible matches exactly if no hidden match
is among the best, or no visible match is behind them. Under that condition corpora that differ in
unreadable sources only give the same results (`search_sees_exactly`).
-/

namespace Groundlane.Corpora

open Calendar Fenced Interleaving Interleaving.Program Sequential

/-- The platform answers at the time, and the index, the artifacts and the cache work. -/
def Oracle.reliable (time : { time : Int // IsTimeValue time }) : Oracle :=
  ⟨.succeeds, time, ""⟩

/-- Whether the caller may see what the index holds under a source and a content hash. -/
def visible (dates : DateParser) (manifest : CorpusManifest) (caller : DurableCorpusCaller)
    (nowMs : Int) (sourceId contentHash : String) : Bool :=
  manifest.sources.any fun source => source.sourceId = sourceId &&
    source.contentHash = contentHash && canRead source caller && source.live dates nowMs

namespace DurableCorpusRuntime

variable (runtime : DurableCorpusRuntime) (stores : Stores) (corpusId query : String)
  (caller : DurableCorpusCaller) (maxResults : Nat) (time : { time : Int // IsTimeValue time })

/-- What a search returns when the index works. -/
def searchResponse : Except Fault ScopedCorpusSearchResponse :=
  ((runtime.searchCorpus corpusId query caller maxResults).settle
    (exec runtime.ranking (.reliable time)) stores).1

/-- The corpus as the caller finds it. -/
def found : Except Fault DurableCorpusView :=
  look runtime.dates stores.records corpusId caller.toDurableCorpusBinding time.val false

/-- The best of the matching documents that the caller may see. -/
def bestVisible (manifest : CorpusManifest) : List ScopedCorpusSearchResult :=
  ((runtime.ranking.ranked query ((stores.index corpusId).filter fun document =>
    visible runtime.dates manifest caller time.val document.sourceId
      document.contentHash)).take maxResults).map fun hit => ⟨hit, ⟨corpusId, toISOString time.val⟩⟩

/-- Whatever the search returns are exactly the best visible matches. -/
def SeesExactly : Prop :=
  ∀ view response, runtime.found stores corpusId caller time = .ok view →
    runtime.searchResponse stores corpusId query caller maxResults time = .ok response →
    response.results =
      runtime.bestVisible stores corpusId query caller maxResults time view.record.manifest

/-- None of the best matches is hidden from the caller, or none of the others is visible. -/
def Uncrowded : Prop :=
  ∀ view, runtime.found stores corpusId caller time = .ok view →
    runtime.ranking.check query maxResults = .ok () →
    (∀ hit ∈ (runtime.ranking.ranked query (stores.index corpusId)).take maxResults,
      visible runtime.dates view.record.manifest caller time.val hit.sourceId
        hit.contentHash = true) ∨
    ∀ hit ∈ (runtime.ranking.ranked query (stores.index corpusId)).drop maxResults,
      visible runtime.dates view.record.manifest caller time.val hit.sourceId
        hit.contentHash = false

end DurableCorpusRuntime

/-- The sources of a manifest that the caller may read. -/
def readableSources (manifest : CorpusManifest) (caller : DurableCorpusCaller) :
    List CorpusSourceManifestEntry :=
  manifest.sources.filter fun source => canRead source caller

/-- The documents of the index that belong to sources the caller may read. -/
def readableDocuments (manifest : CorpusManifest) (caller : DurableCorpusCaller)
    (documents : List CorpusIndexDocument) : List CorpusIndexDocument :=
  documents.filter fun document =>
    (readableSources manifest caller).any fun source => source.sourceId = document.sourceId

/-- The caller finds the corpus in both stores, in one state, and the stores differ in sources that
the caller may not read only. -/
structure SameReadable (runtime : DurableCorpusRuntime) (corpusId : String)
    (caller : DurableCorpusCaller) (time : { time : Int // IsTimeValue time })
    (first second : Stores) (view other : DurableCorpusView) : Prop where
  foundFirst : runtime.found first corpusId caller time = .ok view
  foundSecond : runtime.found second corpusId caller time = .ok other
  state : view.record.state = other.record.state
  sources : readableSources view.record.manifest caller =
    readableSources other.record.manifest caller
  documents : readableDocuments view.record.manifest caller (first.index corpusId) =
    readableDocuments other.record.manifest caller (second.index corpusId)

/-! ## Rankings -/

section Rankings

variable {ranking : Ranking} {query : String}

/-- The hit that a document gives. -/
def Ranking.hitOf (ranking : Ranking) (query : String) (document : CorpusIndexDocument) :
    Option CorpusIndexHit :=
  (ranking.hit query document).map fun (snippet, score) =>
    ⟨document.sourceId, document.contentHash, snippet, score⟩

theorem Ranking.hitOf_eq {document : CorpusIndexDocument} {hit : CorpusIndexHit}
    (h : ranking.hitOf query document = some hit) :
    hit.sourceId = document.sourceId ∧ hit.contentHash = document.contentHash := by
  obtain ⟨_, -, rfl⟩ := Option.map_eq_some_iff.1 h
  exact ⟨rfl, rfl⟩

/-- Ranking the documents that pass a test of source and hash is filtering the ranking by it. -/
theorem Ranking.ranked_filter (test : String → String → Bool)
    (documents : List CorpusIndexDocument) :
    ranking.ranked query (documents.filter fun document =>
        test document.sourceId document.contentHash) =
      (ranking.ranked query documents).filter fun hit =>
        test hit.sourceId hit.contentHash := by
  have : IsTrans CorpusIndexHit fun first second => ranking.before first second = true :=
    ⟨ranking.trans⟩
  have : Std.Total fun first second : CorpusIndexHit => ranking.before first second = true :=
    ⟨ranking.total⟩
  unfold Ranking.ranked
  rw [Ordered.filter_insertionSort]
  congr 1
  induction documents with
  | nil => rfl
  | cons document rest ih =>
    show (List.filter _ (document :: rest)).filterMap (ranking.hitOf query) =
      ((document :: rest).filterMap (ranking.hitOf query)).filter _
    change (List.filter _ rest).filterMap (ranking.hitOf query) =
      (rest.filterMap (ranking.hitOf query)).filter _ at ih
    cases hhit : ranking.hitOf query document with
    | none =>
      rw [List.filterMap_cons_none hhit, List.filter_cons]
      split
      · rw [List.filterMap_cons_none hhit, ih]
      · exact ih
    | some hit =>
      obtain ⟨hsource, hhash⟩ := Ranking.hitOf_eq hhit
      rw [List.filterMap_cons_some hhit, List.filter_cons, List.filter_cons, hsource, hhash]
      split
      · rw [List.filterMap_cons_some hhit, ih]
      · exact ih

end Rankings

/-! ## Visibility -/

section Visibility

variable {dates : DateParser} {manifest : CorpusManifest} {caller : DurableCorpusCaller}
  {nowMs : Int}

/-- A source that is found by its ID in either direction is the one with the ID. -/
theorem find?_of_nodup {sources : List CorpusSourceManifestEntry}
    (hnodup : (sources.map CorpusSourceManifestEntry.sourceId).Nodup)
    {source : CorpusSourceManifestEntry} (hsource : source ∈ sources) {sourceId : String}
    (hid : source.sourceId = sourceId) :
    (sources.find? fun entry => entry.sourceId = sourceId) = some source := by
  induction sources with
  | nil => cases hsource
  | cons entry rest ih =>
    obtain ⟨hnew, hnodup⟩ := List.nodup_cons.1 hnodup
    rcases List.mem_cons.1 hsource with rfl | hsource
    · rw [List.find?_cons_of_pos (by simpa using hid)]
    · rw [List.find?_cons_of_neg, ih hnodup hsource]
      intro heq
      refine hnew (List.mem_map.2 ⟨source, hsource, ?_⟩)
      rw [hid]
      exact (of_decide_eq_true heq).symm

/-- A hit is shown exactly if the caller may see it. -/
theorem resultOf_eq (hvalid : ValidManifest dates manifest manifest.corpusId) (corpusId : String)
    (hit : CorpusIndexHit) :
    DurableCorpusRuntime.resultOf corpusId caller nowMs (activeSources dates manifest nowMs) hit =
      if visible dates manifest caller nowMs hit.sourceId hit.contentHash then
        some ⟨hit, ⟨corpusId, toISOString nowMs⟩⟩ else none := by
  have hnodup : ((activeSources dates manifest nowMs).reverse.map
      CorpusSourceManifestEntry.sourceId).Nodup := by
    rw [List.map_reverse, List.nodup_reverse]
    exact hvalid.nodup.sublist (List.filter_sublist.map _)
  unfold DurableCorpusRuntime.resultOf
  cases hfind : (activeSources dates manifest nowMs).reverse.find? fun source =>
      source.sourceId = hit.sourceId with
  | none =>
    have hnone := List.find?_eq_none.1 hfind
    rw [if_neg]
    intro hvisible
    obtain ⟨source, hsource, htest⟩ := List.any_eq_true.1 hvisible
    simp only [Bool.and_eq_true, decide_eq_true_eq] at htest
    refine hnone source (List.mem_reverse.2 (List.mem_filter.2 ⟨hsource, htest.2⟩)) ?_
    exact decide_eq_true htest.1.1.1
  | some source =>
    have hmem := List.mem_filter.1 (List.mem_reverse.1 (List.mem_of_find?_eq_some hfind))
    have hid : source.sourceId = hit.sourceId := by simpa using List.find?_some hfind
    dsimp only
    by_cases hshown : source.contentHash = hit.contentHash ∧ canRead source caller = true
    · have hvisible : visible dates manifest caller nowMs hit.sourceId hit.contentHash =
          true := by
        refine List.any_eq_true.2 ⟨source, hmem.1, ?_⟩
        simp [hid, hshown.1, hshown.2, hmem.2]
      rw [if_pos hvisible, if_neg]
      rintro (hhash | hread)
      · exact hhash hshown.1
      · rw [hshown.2] at hread
        cases hread
    · rw [if_pos, if_neg]
      · intro hvisible
        obtain ⟨other, hother, htest⟩ := List.any_eq_true.1 hvisible
        simp only [Bool.and_eq_true, decide_eq_true_eq] at htest
        -- The source that makes the hit visible is the one that was found.
        have hlive : other ∈ (activeSources dates manifest nowMs).reverse :=
          List.mem_reverse.2 (List.mem_filter.2 ⟨hother, htest.2⟩)
        obtain rfl := Option.some.inj
          (hfind.symm.trans (find?_of_nodup hnodup hlive htest.1.1.1))
        exact hshown ⟨htest.1.1.2, htest.1.2⟩
      · by_cases hhash : source.contentHash = hit.contentHash
        · exact .inr (Bool.eq_false_iff.2 fun hread => hshown ⟨hhash, hread⟩)
        · exact .inl hhash

/-- What is visible is decided by the readable sources. -/
theorem visible_eq_any (sourceId contentHash : String) :
    visible dates manifest caller nowMs sourceId contentHash =
      (readableSources manifest caller).any fun source => source.sourceId = sourceId &&
        source.contentHash = contentHash && source.live dates nowMs := by
  unfold visible readableSources
  rw [List.any_filter]
  refine congrArg (fun test => manifest.sources.any test) (funext fun source => ?_)
  cases canRead source caller <;> simp

variable (manifest) in
/-- The documents that are visible belong to readable sources. -/
theorem filter_visible (documents : List CorpusIndexDocument) :
    (documents.filter fun document => visible dates manifest caller nowMs document.sourceId
        document.contentHash) =
      (readableDocuments manifest caller documents).filter fun document =>
        visible dates manifest caller nowMs document.sourceId document.contentHash := by
  unfold readableDocuments
  rw [List.filter_filter]
  refine List.filter_congr fun document _ => ?_
  cases hvisible : visible dates manifest caller nowMs document.sourceId document.contentHash with
  | false => rfl
  | true =>
    rw [visible_eq_any] at hvisible
    obtain ⟨source, hsource, htest⟩ := List.any_eq_true.1 hvisible
    simp only [Bool.and_eq_true, decide_eq_true_eq] at htest
    have hany : ((readableSources manifest caller).any fun source =>
        source.sourceId = document.sourceId) = true :=
      List.any_eq_true.2 ⟨source, hsource, decide_eq_true htest.1.1⟩
    rw [hany]
    rfl

end Visibility

/-! ## The search -/

section Search

variable {runtime : DurableCorpusRuntime} {stores : Stores} {corpusId query : String}
  {caller : DurableCorpusCaller} {maxResults : Nat}
  {time : { time : Int // IsTimeValue time }} {view : DurableCorpusView}

/-- The response of a search in the corpus. -/
def responseOf (runtime : DurableCorpusRuntime) (stores : Stores) (corpusId query : String)
    (caller : DurableCorpusCaller) (maxResults : Nat) (nowMs : Int) (view : DurableCorpusView) :
    ScopedCorpusSearchResponse where
  corpusId := corpusId
  query := query
  results := (((runtime.ranking.ranked query (stores.index corpusId)).take maxResults).filterMap
    (DurableCorpusRuntime.resultOf corpusId caller nowMs
      (activeSources runtime.dates view.record.manifest nowMs))).take maxResults
  warnings := if view.record.state = .degraded then
    ["Corpus derived index is degraded; results may be stale."] else []

theorem searchResponse_eq :
    runtime.searchResponse stores corpusId query caller maxResults time = (do
      let view ← runtime.found stores corpusId caller time
      runtime.ranking.check query maxResults
      pure (responseOf runtime stores corpusId query caller maxResults time.val view)) := by
  unfold DurableCorpusRuntime.searchResponse DurableCorpusRuntime.searchCorpus
    DurableCorpusRuntime.require DurableCorpusRuntime.found now CorpusDerivedIndex.search fallible
  simp only [bind_eq, pure_eq]
  rw [request_bind, settle_perform]
  show (settle _ ((DurableCorpusRepository.present runtime.dates corpusId
    caller.toDurableCorpusBinding time.val false).bind _) stores).1 = _
  cases hlook : look runtime.dates stores.records corpusId caller.toDurableCorpusBinding time.val
      false with
  | error fault =>
    rw [settle_bind_error (settle_present.trans (Prod.ext hlook rfl))]
    rfl
  | ok view =>
    rw [settle_bind_ok (settle_present.trans (Prod.ext hlook rfl)), request_bind,
      perform_bind, settle_perform]
    show (settle _ ((Program.ofExcept (runtime.ranking.check query maxResults >>= _)).bind _)
      stores).1 = _
    cases runtime.ranking.check query maxResults with
    | error fault =>
      show (settle _ ((Program.ofExcept (.error fault)).bind _) stores).1 = _
      rw [settle_check]
      rfl
    | ok _ =>
      show (settle _ ((Program.ofExcept (.ok _)).bind _) stores).1 = _
      rw [settle_check]
      rfl

/-- A response is the one of the corpus that the caller finds. -/
theorem searchResponse_ok {response : ScopedCorpusSearchResponse} :
    runtime.searchResponse stores corpusId query caller maxResults time = .ok response ↔
      ∃ view, runtime.found stores corpusId caller time = .ok view ∧
        runtime.ranking.check query maxResults = .ok () ∧
        responseOf runtime stores corpusId query caller maxResults time.val view = response := by
  rw [searchResponse_eq, bind_eq_ok]
  refine exists_congr fun view => and_congr_right fun _ => ?_
  rw [check_bind_eq_ok]
  exact and_congr_right fun _ => ⟨fun h => Except.ok.inj h, fun h => h ▸ rfl⟩

/-- What the caller finds is valid. -/
theorem found_valid (h : runtime.found stores corpusId caller time = .ok view) :
    ValidRecord runtime.dates view.record := by
  unfold DurableCorpusRuntime.found look at h
  rw [check_bind_eq_ok] at h
  obtain ⟨key, -, h⟩ := bind_eq_ok.1 h.2
  rw [check_bind_eq_ok] at h
  cases hget : stores.records.get key with
  | none =>
    rw [hget] at h
    cases h.2
  | some stored =>
    rw [hget] at h
    obtain ⟨record, hdecode, h⟩ := bind_eq_ok.1 h.2
    rw [check_bind_eq_ok] at h
    cases h.2
    exact (decode_ok.1 hdecode).1

/-- The results are the visible ones among the best matches. -/
theorem responseOf_results (h : runtime.found stores corpusId caller time = .ok view) :
    (responseOf runtime stores corpusId query caller maxResults time.val view).results =
      (((runtime.ranking.ranked query (stores.index corpusId)).take maxResults).filter fun hit =>
        visible runtime.dates view.record.manifest caller time.val hit.sourceId
          hit.contentHash).map fun hit => ⟨hit, ⟨corpusId, toISOString time.val⟩⟩ := by
  have hmanifest := (found_valid h).manifest
  rw [← hmanifest.corpusId] at hmanifest
  show (List.filterMap _ _).take maxResults = _
  rw [List.filterMap_congr fun hit _ => resultOf_eq hmanifest corpusId hit]
  rw [List.take_of_length_le]
  · rw [← List.filterMap_eq_map, List.filterMap_filter]
    rfl
  · exact (List.length_filterMap_le ..).trans (List.length_take_le ..)

/-- The search returns exactly the best visible matches if and only if none of the best matches is
hidden or none of the others is visible. -/
theorem seesExactly_iff :
    runtime.SeesExactly stores corpusId query caller maxResults time ↔
      runtime.Uncrowded stores corpusId query caller maxResults time := by
  unfold DurableCorpusRuntime.SeesExactly DurableCorpusRuntime.Uncrowded
  have hiff : ∀ view, runtime.found stores corpusId caller time = .ok view →
      ((responseOf runtime stores corpusId query caller maxResults time.val view).results =
        runtime.bestVisible stores corpusId query caller maxResults time view.record.manifest ↔
      (∀ hit ∈ (runtime.ranking.ranked query (stores.index corpusId)).take maxResults,
        visible runtime.dates view.record.manifest caller time.val hit.sourceId
          hit.contentHash = true) ∨
      ∀ hit ∈ (runtime.ranking.ranked query (stores.index corpusId)).drop maxResults,
        visible runtime.dates view.record.manifest caller time.val hit.sourceId
          hit.contentHash = false) := by
    intro view hview
    rw [responseOf_results hview, DurableCorpusRuntime.bestVisible, Ranking.ranked_filter,
      ← Ordered.filter_take_eq_iff]
    have hinjective : Function.Injective fun hit : CorpusIndexHit =>
        (⟨hit, ⟨corpusId, toISOString time.val⟩⟩ : ScopedCorpusSearchResult) :=
      fun _ _ heq => congrArg ScopedCorpusSearchResult.toCorpusIndexHit heq
    exact hinjective.list_map.eq_iff
  constructor
  · intro h view hview hcheck
    exact (hiff view hview).1 (h view _ hview (searchResponse_ok.2 ⟨view, hview, hcheck, rfl⟩))
  · intro h view response hview hresponse
    obtain ⟨other, hother, hcheck, rfl⟩ := searchResponse_ok.1 hresponse
    obtain rfl := Except.ok.inj (hother.symm.trans hview)
    exact (hiff other hview).2 (h other hview hcheck)

end Search

section Readable

variable {runtime : DurableCorpusRuntime} {first second : Stores} {corpusId query : String}
  {caller : DurableCorpusCaller} {maxResults : Nat}
  {time : { time : Int // IsTimeValue time }} {view other : DurableCorpusView}

/-- The best visible matches depend on what the caller may read only. -/
theorem SameReadable.bestVisible
    (h : SameReadable runtime corpusId caller time first second view other) :
    runtime.bestVisible first corpusId query caller maxResults time view.record.manifest =
      runtime.bestVisible second corpusId query caller maxResults time other.record.manifest := by
  have hvisible : ∀ sourceId contentHash,
      visible runtime.dates view.record.manifest caller time.val sourceId contentHash =
        visible runtime.dates other.record.manifest caller time.val sourceId contentHash := by
    intro sourceId contentHash
    rw [visible_eq_any, visible_eq_any, h.sources]
  unfold DurableCorpusRuntime.bestVisible
  rw [filter_visible view.record.manifest, filter_visible other.record.manifest, h.documents]
  simp only [hvisible]

/-- Corpora in which the results are exact and that differ in unreadable sources only give the
caller the same outcome. -/
theorem SameReadable.searchResponse
    (h : SameReadable runtime corpusId caller time first second view other)
    (hfirst : runtime.SeesExactly first corpusId query caller maxResults time)
    (hsecond : runtime.SeesExactly second corpusId query caller maxResults time) :
    runtime.searchResponse first corpusId query caller maxResults time =
      runtime.searchResponse second corpusId query caller maxResults time := by
  rw [searchResponse_eq, searchResponse_eq, h.foundFirst, h.foundSecond]
  cases hcheck : runtime.ranking.check query maxResults with
  | error fault => rfl
  | ok _ =>
    have hleft := hfirst view _ h.foundFirst
      (searchResponse_ok.2 ⟨view, h.foundFirst, hcheck, rfl⟩)
    have hright := hsecond other _ h.foundSecond
      (searchResponse_ok.2 ⟨other, h.foundSecond, hcheck, rfl⟩)
    have hresults := hleft.trans (h.bestVisible.trans hright.symm)
    refine congrArg Except.ok ?_
    unfold responseOf at hresults ⊢
    rw [ScopedCorpusSearchResponse.mk.injEq]
    exact ⟨rfl, rfl, hresults, by rw [h.state]⟩

end Readable

/-- What a search in the corpus returns is exactly what the caller may see if and only if none of
the best matches is hidden or no visible match is behind them; and then unreadable sources have no
influence on it. -/
theorem search_sees_exactly (runtime : DurableCorpusRuntime) (stores : Stores)
    (corpusId query : String) (caller : DurableCorpusCaller) (maxResults : Nat)
    (time : { time : Int // IsTimeValue time }) :
    (runtime.SeesExactly stores corpusId query caller maxResults time ↔
      runtime.Uncrowded stores corpusId query caller maxResults time) ∧
    ∀ second view other, SameReadable runtime corpusId caller time stores second view other →
      runtime.Uncrowded stores corpusId query caller maxResults time →
      runtime.Uncrowded second corpusId query caller maxResults time →
      runtime.searchResponse stores corpusId query caller maxResults time =
        runtime.searchResponse second corpusId query caller maxResults time :=
  ⟨seesExactly_iff, fun _ _ _ hsame hfirst hsecond =>
    hsame.searchResponse (seesExactly_iff.2 hfirst) (seesExactly_iff.2 hsecond)⟩

/-! ## A hidden match in front -/

/-- A persistent source that one role may read. -/
def sampleSource (sourceId role : String) : CorpusSourceManifestEntry :=
  ⟨sourceId, "h", [role], "persistent", "d", "l", "c", "b"⟩

/-- A corpus with one source for the others and one for the caller. -/
def sampleRecord : DurableCorpusRecord where
  tenantId := "t"
  ownerId := "o"
  credentialBinding := "k"
  corpusId := "c"
  displayName := "d"
  state := .active
  manifest := ⟨"c", "1970-01-01T00:00:00.000Z", [sampleSource "a" "x", sampleSource "b" "r"]⟩
  deletion := ⟨false, false, false⟩
  createdAt := 0
  updatedAt := 0
  expiresAt := none

/-- The corpus with an index in which both sources match the letter. -/
def sampleStores : Stores where
  records := Store.empty.insert ⟨"corpus:c", sampleRecord, 1, 0, 0, none⟩
  index := fun _ => [⟨"a", "h", "q"⟩, ⟨"b", "h", "q"⟩]
  artifacts := fun _ => none

def sampleCaller : DurableCorpusCaller := ⟨⟨"t", "o", "k"⟩, ["r"]⟩

/-- A search for the best match returns nothing, although the caller may see a match. -/
theorem hidden_match_crowds_out : ¬ ∀ (runtime : DurableCorpusRuntime) (stores : Stores)
    (corpusId query : String) (caller : DurableCorpusCaller) (maxResults : Nat)
    (time : { time : Int // IsTimeValue time }),
    runtime.SeesExactly stores corpusId query caller maxResults time := by
  intro h
  have hfound : sampleRuntime.found sampleStores "c" sampleCaller ⟨1, by decide⟩ =
      .ok ⟨sampleRecord, 1⟩ := by
    decide +kernel
  have hresponse : sampleRuntime.searchResponse sampleStores "c" "q" sampleCaller 1
      ⟨1, by decide⟩ = .ok ⟨"c", "q", [], []⟩ := by
    decide +kernel
  have hbest : sampleRuntime.bestVisible sampleStores "c" "q" sampleCaller 1 ⟨1, by decide⟩
      sampleRecord.manifest ≠ [] := by
    decide +kernel
  exact hbest (h sampleRuntime sampleStores "c" "q" sampleCaller 1 ⟨1, by decide⟩ _ _ hfound
    hresponse).symm

/-- A search for the two best matches returns the one that the caller may see. -/
example : (sampleRuntime.searchResponse sampleStores "c" "q" sampleCaller 2 ⟨1, by decide⟩).map
    (fun response => response.results.length) = .ok 1 := by
  decide +kernel

end Groundlane.Corpora
