import Groundlane.Chunks.Coverage

/-!
# Where the text of a chunk comes from

The levels are built once more over marked characters, each with the block that it comes from; with
the marks left out they are the levels of the tool (`markedLevels_chunks`). A chunk below the first
level lies inside its parent, but it refers to the first block of its parent only. So the
references are complete exactly when no character of another block gets into a chunk of the second
level (`provenance_iff`).
-/

namespace Groundlane.Chunks

open Packing Sequential Trimming Utf16

/-! ## Marked characters -/

/-- A character and the block that it comes from, if it is none of a separator. -/
abbrev Mark := UInt16 × Option String

def isBlank (mark : Mark) : Bool := isWhiteSpace mark.1

/-- The characters without their marks. -/
def plain (text : List Mark) : Text := text.map Prod.fst

structure MarkedSegment where
  text : List Mark
  blockId : String

def MarkedSegment.segment (segment : MarkedSegment) : Segment :=
  ⟨plain segment.text, segment.blockId⟩

/-- A segment of a document: its characters come from its block. -/
def Segment.mark (segment : Segment) : MarkedSegment where
  text := segment.text.map fun unit => (unit, some segment.blockId)
  blockId := segment.blockId

structure MarkedBody where
  text : List Mark
  blockRefs : List String

def MarkedBody.body (body : MarkedBody) : Body := ⟨plain body.text, body.blockRefs⟩

/-- A chunk and its text with the marks. -/
structure MarkedChunk where
  chunk : Chunk
  text : List Mark

/-- The texts of a run, joined. -/
def markedJoined (segments : List MarkedSegment) : List Mark :=
  join ((ascii "\n\n").map fun unit => (unit, none)) (segments.map MarkedSegment.text)

namespace Level

variable (level : Level)

/-- What is emitted for segments that are packed together. -/
def markedBodies : Bin MarkedSegment → List MarkedBody
  | .run segments =>
    if Trimming.trim isBlank (markedJoined segments) ≠ [] then
      [⟨markedJoined segments, (segments.map MarkedSegment.blockId).eraseDups⟩]
    else []
  | .single segment =>
    (windows level.step (level.maxTokens * 4) segment.text).map fun window =>
      ⟨window, [segment.blockId]⟩

/-- The chunk of a text with a number. -/
def markedChunk (idCounter : Nat) (body : MarkedBody) : MarkedChunk where
  chunk := level.newChunk idCounter (plain body.text) body.blockRefs
  text := Trimming.trim isBlank body.text

/-- The chunks of texts, numbered from a counter on. -/
def markedNumber (idCounter : Nat) (bodies : List MarkedBody) : List MarkedChunk :=
  bodies.mapIdx fun i body => level.markedChunk (idCounter + i) body

/-- The texts of the chunks of a level. -/
def markedTexts (segments : List MarkedSegment) : List MarkedBody :=
  (pack (fun segment => estimateTokens segment.segment.text) level.maxTokens [] segments).flatMap
    level.markedBodies

end Level

/-- The segment that is made of a chunk. -/
def MarkedChunk.segment (parent : MarkedChunk) : MarkedSegment :=
  ⟨parent.text, parent.chunk.blockRefs.head?.getD parent.chunk.chunkId⟩

/-- The children of the chunks of a level. -/
def markedParents (size overlap levelIdx : Nat) :
    List MarkedChunk → Nat → List MarkedChunk × Nat
  | [], idCounter => ([], idCounter)
  | parent :: parents, idCounter =>
    let level : Level := ⟨size, overlap, levelIdx, parent.chunk.chunkId⟩
    let bodies := level.markedTexts [parent.segment]
    let rest := markedParents size overlap levelIdx parents (idCounter + bodies.length)
    (level.markedNumber idCounter bodies ++ rest.1, rest.2)

/-- The levels below one level. -/
def markedBelow (overlap : Nat) : List Nat → Nat → List MarkedChunk → Nat → List MarkedChunk
  | [], _, _, _ => []
  | size :: sizes, levelIdx, parents, idCounter =>
    let children := markedParents size overlap levelIdx parents idCounter
    children.1 ++ markedBelow overlap sizes (levelIdx + 1) children.1 children.2

/-- All chunks of a document with their marks. -/
def markedLevels (input : DocumentChunkInput) (segments : List Segment) : List MarkedChunk :=
  let sizes := input.chunkSizes.mergeSort fun a b => b ≤ a
  let level : Level := ⟨sizes.headD 2048, input.overlap, 0, none⟩
  let bodies := level.markedTexts (segments.map Segment.mark)
  let level0 := level.markedNumber 0 bodies
  level0 ++ markedBelow input.overlap sizes.tail 1 level0 bodies.length

/-! ## Without the marks -/

theorem plain_trim (text : List Mark) :
    Utf16.trim (plain text) = plain (Trimming.trim isBlank text) :=
  trim_map Prod.fst text

theorem plain_joined (segments : List MarkedSegment) :
    plain (markedJoined segments) = joined (segments.map MarkedSegment.segment) := by
  unfold markedJoined joined plain
  rw [← join_map, List.map_map, List.map_map, List.map_map]
  congr 1

theorem mark_segment (segment : Segment) : segment.mark.segment = segment := by
  unfold Segment.mark MarkedSegment.segment plain
  rw [List.map_map]
  congr 1
  exact List.map_id _

variable {parents : List MarkedChunk} {input : DocumentChunkInput} {segments : List Segment}
  {body : MarkedBody} {sizes : List Nat} {chunks : List Chunk} {chunk : MarkedChunk}
  {bodies : List MarkedBody}

namespace Level

variable {level : Level}

theorem markedBodies_body (bin : Bin MarkedSegment) :
    (level.markedBodies bin).map MarkedBody.body =
      level.bodies (bin.map MarkedSegment.segment) := by
  cases bin with
  | run segments =>
    have htrim : Utf16.trim (joined (segments.map MarkedSegment.segment)) =
        plain (Trimming.trim isBlank (markedJoined segments)) := by
      rw [← plain_joined, plain_trim]
    unfold markedBodies bodies Bin.map
    dsimp only
    rw [htrim]
    by_cases hblank : Trimming.trim isBlank (markedJoined segments) = []
    · have hnone : plain (Trimming.trim isBlank (markedJoined segments)) = [] := by
        rw [hblank]
        rfl
      rw [if_neg (not_not.2 hblank), if_neg (not_not.2 hnone)]
      rfl
    · have hsome : plain (Trimming.trim isBlank (markedJoined segments)) ≠ [] :=
        mt List.map_eq_nil_iff.1 hblank
      rw [if_pos hblank, if_pos hsome, List.map_singleton, List.map_map, ← plain_joined]
      rfl
  | single segment =>
    show ((windows _ _ _).map _).map _ = (windows _ _ (plain segment.text)).map _
    unfold plain
    rw [windows_map, List.map_map, List.map_map]
    rfl

theorem markedNumber_chunk (idCounter : Nat) (bodies : List MarkedBody) :
    (level.markedNumber idCounter bodies).map MarkedChunk.chunk =
      level.number idCounter (bodies.map MarkedBody.body) := by
  refine List.ext_getElem (by simp [markedNumber, number]) fun i hleft hright => ?_
  simp only [markedNumber, number, List.getElem_map, List.getElem_mapIdx]
  rfl

theorem markedTexts_body (segments : List MarkedSegment) :
    (level.markedTexts segments).map MarkedBody.body =
      (level.bins [] (segments.map MarkedSegment.segment)).flatMap level.bodies := by
  have hpack := @pack_map _ _ (fun segment => estimateTokens segment.segment.text) level.maxTokens
    (fun segment => estimateTokens segment.text) MarkedSegment.segment (fun segment => rfl) []
    segments
  unfold markedTexts bins
  rw [List.map_nil] at hpack
  rw [hpack, List.flatMap_map, List.map_flatMap]
  exact List.flatMap_congr fun bin _ => markedBodies_body bin

theorem mem_markedNumber {idCounter : Nat} (h : chunk ∈ level.markedNumber idCounter bodies) :
    ∃ body ∈ bodies, ∃ n, chunk = level.markedChunk n body := by
  obtain ⟨i, hi, rfl⟩ := List.mem_mapIdx.1 h
  exact ⟨bodies[i], List.getElem_mem hi, idCounter + i, rfl⟩

theorem exists_mem_markedNumber (idCounter : Nat) (h : body ∈ bodies) :
    ∃ n, level.markedChunk n body ∈ level.markedNumber idCounter bodies := by
  obtain ⟨i, hi, rfl⟩ := List.mem_iff_getElem.1 h
  exact ⟨idCounter + i, List.mem_mapIdx.2 ⟨i, hi, rfl⟩⟩

/-- A call that returns gives the chunks of the marked texts. -/
theorem chunkTextAtLevel_marked {fuel : Nat} {segments : List MarkedSegment} {idCounter next : Nat}
    {chunks : List Chunk} (hmax : 0 < level.maxTokens)
    (hresult : level.chunkTextAtLevel fuel (segments.map MarkedSegment.segment) idCounter =
      some (chunks, next)) :
    (level.markedNumber idCounter (level.markedTexts segments)).map MarkedChunk.chunk = chunks ∧
      next = idCounter + (level.markedTexts segments).length := by
  obtain ⟨rfl, rfl⟩ := Prod.mk.inj (chunkTextAtLevel_eq hmax hresult)
  rw [markedNumber_chunk, markedTexts_body]
  refine ⟨rfl, ?_⟩
  rw [← markedTexts_body, List.length_map]

end Level

/-- The marks are those of the text. -/
def Faithful (chunk : MarkedChunk) : Prop := chunk.chunk.text = plain chunk.text

theorem faithful_markedChunk (level : Level) (idCounter : Nat) (body : MarkedBody) :
    Faithful (level.markedChunk idCounter body) :=
  plain_trim body.text

theorem faithful_markedNumber {level : Level} {idCounter : Nat} :
    ∀ chunk ∈ level.markedNumber idCounter bodies, Faithful chunk := by
  intro chunk hchunk
  obtain ⟨body, -, n, rfl⟩ := Level.mem_markedNumber hchunk
  exact faithful_markedChunk level n body

variable {fuel size overlap levelIdx idCounter : Nat}

theorem faithful_markedParents :
    ∀ chunk ∈ (markedParents size overlap levelIdx parents idCounter).1, Faithful chunk := by
  induction parents generalizing idCounter with
  | nil => exact fun chunk hchunk => absurd hchunk List.not_mem_nil
  | cons parent parents ih =>
    intro chunk hchunk
    rcases List.mem_append.1 hchunk with hfirst | hrest
    · exact faithful_markedNumber chunk hfirst
    · exact ih chunk hrest

variable {segment : MarkedSegment} {rest : List Nat} {mark : Mark} {next : Nat}

theorem markedParents_chunks (hsize : 0 < size) (hfaithful : ∀ parent ∈ parents, Faithful parent)
    (hresult : chunkParents fuel size overlap levelIdx (parents.map MarkedChunk.chunk) idCounter =
      some (chunks, next)) :
    (markedParents size overlap levelIdx parents idCounter).1.map MarkedChunk.chunk = chunks ∧
      (markedParents size overlap levelIdx parents idCounter).2 = next := by
  induction parents generalizing idCounter chunks next with
  | nil => exact Prod.mk.inj (Option.some.inj hresult)
  | cons parent parents ih =>
    unfold chunkParents at hresult
    rw [List.map_cons] at hresult
    dsimp only at hresult
    obtain ⟨⟨_, _⟩, hchildren, hresult⟩ := Option.bind_eq_some_iff.1 hresult
    obtain ⟨⟨_, _⟩, hrest, hresult⟩ := Option.bind_eq_some_iff.1 hresult
    obtain ⟨rfl, rfl⟩ := Prod.mk.inj (Option.some.inj hresult)
    rw [hfaithful parent List.mem_cons_self] at hchildren
    obtain ⟨hfirst, rfl⟩ := @Level.chunkTextAtLevel_marked
      ⟨size, overlap, levelIdx, parent.chunk.chunkId⟩ fuel [parent.segment] _ _ _ hsize hchildren
    obtain ⟨hothers, hnext⟩ := ih
      (fun other hother => hfaithful other (List.mem_cons_of_mem _ hother)) hrest
    unfold markedParents
    dsimp only
    rw [List.map_append, hfirst, hothers]
    exact ⟨rfl, hnext⟩

theorem markedBelow_chunks (hsizes : ∀ size ∈ sizes, 0 < size)
    (hfaithful : ∀ parent ∈ parents, Faithful parent)
    (hresult : chunkBelow fuel overlap sizes levelIdx (parents.map MarkedChunk.chunk) idCounter =
      some chunks) :
    (markedBelow overlap sizes levelIdx parents idCounter).map MarkedChunk.chunk = chunks := by
  induction sizes generalizing levelIdx parents idCounter chunks with
  | nil => exact Option.some.inj hresult
  | cons size sizes ih =>
    unfold chunkBelow at hresult
    obtain ⟨⟨_, _⟩, hchildren, hresult⟩ := Option.bind_eq_some_iff.1 hresult
    obtain ⟨_, hbelow, hresult⟩ := Option.bind_eq_some_iff.1 hresult
    obtain rfl := Option.some.inj hresult
    obtain ⟨rfl, rfl⟩ :=
      markedParents_chunks (hsizes size List.mem_cons_self) hfaithful hchildren
    unfold markedBelow
    dsimp only
    rw [List.map_append, ih (fun other hother => hsizes other (List.mem_cons_of_mem _ hother))
      faithful_markedParents hbelow]

theorem faithful_markedBelow :
    ∀ chunk ∈ markedBelow overlap sizes levelIdx parents idCounter, Faithful chunk := by
  induction sizes generalizing levelIdx parents idCounter with
  | nil => exact fun chunk hchunk => absurd hchunk List.not_mem_nil
  | cons size sizes ih =>
    intro chunk hchunk
    rcases List.mem_append.1 hchunk with hfirst | hrest
    · exact faithful_markedParents chunk hfirst
    · exact ih chunk hrest

theorem size_pos {size : Nat}
    (hsort : (input.chunkSizes.mergeSort fun a b => b ≤ a) = size :: sizes) :
    ∀ other ∈ size :: sizes, 0 < other := fun other hother =>
  Nat.lt_of_lt_of_le (by decide)
    (input.chunkSize_range other (List.mem_mergeSort.1 (hsort ▸ hother))).1

/-- Without the marks the levels are the levels of the tool. -/
theorem markedLevels_chunks (hresult : chunkLevels fuel input segments = some chunks) :
    (markedLevels input segments).map MarkedChunk.chunk = chunks ∧
      ∀ chunk ∈ markedLevels input segments, Faithful chunk := by
  obtain ⟨size, _, hsort⟩ := sorted_sizes input
  have hpos := size_pos hsort
  have hsegments : (segments.map Segment.mark).map MarkedSegment.segment = segments := by
    rw [List.map_map]
    exact (List.map_congr_left fun segment _ => mark_segment segment).trans (List.map_id _)
  unfold chunkLevels at hresult
  rw [hsort] at hresult
  obtain ⟨⟨_, _⟩, hlevel0, hresult⟩ := Option.bind_eq_some_iff.1 hresult
  obtain ⟨_, hbelow, hresult⟩ := Option.bind_eq_some_iff.1 hresult
  obtain rfl := Option.some.inj hresult
  rw [← hsegments] at hlevel0
  obtain ⟨rfl, rfl⟩ := Level.chunkTextAtLevel_marked (hpos size List.mem_cons_self) hlevel0
  rw [Nat.zero_add] at hbelow
  have hrest := markedBelow_chunks
    (fun other hother => hpos other (List.mem_cons_of_mem _ hother)) faithful_markedNumber hbelow
  unfold markedLevels
  rw [hsort]
  refine ⟨?_, fun chunk hchunk => ?_⟩
  · rw [List.map_append]
    exact congrArg _ hrest
  · rcases List.mem_append.1 hchunk with hfirst | hbehind
    · exact faithful_markedNumber chunk hfirst
    · exact faithful_markedBelow chunk hbehind

/-! ## Parents and children -/

/-- What a chunk below the first level has of its parent. -/
structure Child (parent child : MarkedChunk) : Prop where
  parentChunkId : child.chunk.parentChunkId = some parent.chunk.chunkId
  level : child.chunk.level = parent.chunk.level + 1
  text : child.text <:+: parent.text
  blockRefs : child.chunk.blockRefs =
    [parent.chunk.blockRefs.head?.getD parent.chunk.chunkId]

/-- The texts that a segment is cut into. -/
theorem Level.markedTexts_singleton {level : Level} (segment : MarkedSegment) :
    level.markedTexts [segment] =
      if level.maxTokens < estimateTokens segment.segment.text then
        (windows level.step (level.maxTokens * 4) segment.text).map fun window =>
          ⟨window, [segment.blockId]⟩
      else if Trimming.trim isBlank segment.text ≠ [] then [⟨segment.text, [segment.blockId]⟩]
      else [] := by
  have hjoined : markedJoined [segment] = segment.text := rfl
  have hempty : level.markedBodies (.run []) = [] := rfl
  unfold markedTexts pack pack
  split
  · rw [List.flatMap_cons, List.flatMap_cons, List.flatMap_singleton, hempty, List.append_nil]
    rfl
  · next hlight =>
      rw [if_neg (by simpa using hlight)]
      rw [List.nil_append, List.flatMap_singleton]
      unfold markedBodies
      dsimp only
      rw [hjoined]
      rfl

theorem Level.of_mem_markedTexts {level : Level} (h : body ∈ level.markedTexts [segment]) :
    body.blockRefs = [segment.blockId] ∧ body.text <:+: segment.text := by
  rw [markedTexts_singleton] at h
  split at h
  · obtain ⟨_, hwindow, rfl⟩ := List.mem_map.1 h
    obtain ⟨k, -, rfl⟩ := List.mem_map.1 hwindow
    exact ⟨rfl, (List.take_prefix _ _).isInfix.trans (List.drop_suffix _ _).isInfix⟩
  · split at h
    · obtain rfl := List.mem_singleton.1 h
      exact ⟨rfl, List.infix_refl _⟩
    · exact absurd h List.not_mem_nil

/-- The chunks below a level are made of the texts of its chunks. -/
theorem mem_markedParents (h : chunk ∈ (markedParents size overlap levelIdx parents idCounter).1) :
    ∃ parent ∈ parents, ∃ body ∈
        Level.markedTexts ⟨size, overlap, levelIdx, parent.chunk.chunkId⟩ [parent.segment],
      ∃ n, chunk = Level.markedChunk ⟨size, overlap, levelIdx, parent.chunk.chunkId⟩ n body := by
  induction parents generalizing idCounter with
  | nil => exact absurd h List.not_mem_nil
  | cons first parents ih =>
    rcases List.mem_append.1 h with hfirst | hrest
    · obtain ⟨body, hbody, n, hchunk⟩ := Level.mem_markedNumber hfirst
      exact ⟨first, List.mem_cons_self, body, hbody, n, hchunk⟩
    · obtain ⟨parent, hparent, hbody⟩ := ih hrest
      exact ⟨parent, List.mem_cons_of_mem _ hparent, hbody⟩

/-- Every text of a chunk has a chunk below it. -/
theorem exists_mem_markedParents {parent : MarkedChunk} (idCounter : Nat)
    (hparent : parent ∈ parents) (hbody : body ∈
      Level.markedTexts ⟨size, overlap, levelIdx, parent.chunk.chunkId⟩ [parent.segment]) :
    ∃ n, Level.markedChunk ⟨size, overlap, levelIdx, parent.chunk.chunkId⟩ n body ∈
      (markedParents size overlap levelIdx parents idCounter).1 := by
  induction parents generalizing idCounter with
  | nil => exact absurd hparent List.not_mem_nil
  | cons first parents ih =>
    rcases List.mem_cons.1 hparent with rfl | hparent
    · obtain ⟨n, hn⟩ := Level.exists_mem_markedNumber idCounter hbody
      exact ⟨n, List.mem_append_left _ hn⟩
    · obtain ⟨n, hn⟩ := ih _ hparent
      exact ⟨n, List.mem_append_right _ hn⟩

theorem child_of_mem_markedParents (hlevel : ∀ parent ∈ parents, parent.chunk.level + 1 = levelIdx)
    (h : chunk ∈ (markedParents size overlap levelIdx parents idCounter).1) :
    ∃ parent ∈ parents, Child parent chunk := by
  obtain ⟨parent, hparent, body, hbody, n, rfl⟩ := mem_markedParents h
  obtain ⟨hrefs, htext⟩ := Level.of_mem_markedTexts hbody
  exact ⟨parent, hparent, rfl, (hlevel parent hparent).symm, (trim_isInfix body.text).trans htext,
    hrefs⟩

/-- Every chunk below a level is a child of a chunk of the level or of a chunk below it. -/
theorem child_of_mem_markedBelow (hlevel : ∀ parent ∈ parents, parent.chunk.level + 1 = levelIdx)
    (h : chunk ∈ markedBelow overlap sizes levelIdx parents idCounter) :
    ∃ parent ∈ parents ++ markedBelow overlap sizes levelIdx parents idCounter,
      Child parent chunk := by
  induction sizes generalizing levelIdx parents idCounter with
  | nil => exact absurd h List.not_mem_nil
  | cons size sizes ih =>
    have hchildren : ∀ child ∈ (markedParents size overlap levelIdx parents idCounter).1,
        child.chunk.level + 1 = levelIdx + 1 := by
      intro child hchild
      obtain ⟨parent, hparent, hfacts⟩ := child_of_mem_markedParents hlevel hchild
      rw [hfacts.level, hlevel parent hparent]
    rcases List.mem_append.1 h with hfirst | hrest
    · obtain ⟨parent, hparent, hfacts⟩ := child_of_mem_markedParents hlevel hfirst
      exact ⟨parent, List.mem_append_left _ hparent, hfacts⟩
    · obtain ⟨parent, hparent, hfacts⟩ := ih hchildren hrest
      exact ⟨parent, List.mem_append_right _ hparent, hfacts⟩

/-! ## References -/

/-- The references of a chunk include every block with a visible character in its text. -/
def RefersToBlocks (chunk : MarkedChunk) : Prop :=
  ∀ mark ∈ chunk.text, isBlank mark = false → ∀ blockId, mark.2 = some blockId →
    blockId ∈ chunk.chunk.blockRefs

/-- A child of a chunk with one reference, which is complete, has a complete reference too. -/
theorem RefersToBlocks.child {parent child : MarkedChunk} (h : RefersToBlocks parent)
    (hchild : Child parent child) {blockId : String} (hone : parent.chunk.blockRefs = [blockId]) :
    RefersToBlocks child ∧ child.chunk.blockRefs = [blockId] := by
  have hrefs : child.chunk.blockRefs = [blockId] := by
    rw [hchild.blockRefs, hone]
    rfl
  refine ⟨fun mark hmark hvisible other hother => ?_, hrefs⟩
  rw [hrefs, ← hone]
  exact h mark (hchild.text.subset hmark) hvisible other hother

/-- The provenance of all chunks: a chunk below the first level names a chunk of the level above
that contains its text, and refers to the blocks that its text comes from. -/
structure KeepsProvenance (chunks : List MarkedChunk) : Prop where
  parent : ∀ chunk ∈ chunks, chunk.chunk.level ≠ 0 →
    ∃ parent ∈ chunks, chunk.chunk.parentChunkId = some parent.chunk.chunkId ∧
      parent.chunk.level + 1 = chunk.chunk.level ∧ chunk.text <:+: parent.text
  blockRefs : ∀ chunk ∈ chunks, chunk.chunk.level ≠ 0 → RefersToBlocks chunk

/-- Below the first level only the first block of a run is seen: the visible characters of the
others all lie between the windows of the second level. -/
def OnlyFirstBlock (input : DocumentChunkInput) (segments : List Segment) : Prop :=
  ∀ size next rest, (input.chunkSizes.mergeSort fun a b => b ≤ a) = size :: next :: rest →
    ∀ first others, .run (first :: others) ∈ Level.bins ⟨size, input.overlap, 0, none⟩ [] segments →
      ∀ (p : Nat) (mark : Mark),
        (Trimming.trim isBlank (markedJoined ((first :: others).map Segment.mark)))[p]? =
          some mark → isBlank mark = false →
        ∀ blockId, mark.2 = some blockId → blockId ≠ first.blockId →
          input.overlap = 0 ∧ (p + 1) % (next * 4 + 1) = 0

/-- A visible character is not trimmed away. -/
theorem mem_trim {text : List Mark} (hmark : mark ∈ text) (hvisible : isBlank mark = false) :
    mark ∈ Trimming.trim isBlank text := by
  have hfilter : mark ∈ text.filter fun mark => !isBlank mark :=
    List.mem_filter.2 ⟨hmark, by simp [hvisible]⟩
  rw [← filter_trim] at hfilter
  exact (List.mem_filter.1 hfilter).1

namespace Level

variable {level : Level}

/-- A position that no window covers. -/
def Skips (level : Level) (p : Nat) : Prop :=
  level.overlapTokens = 0 ∧ (p + 1) % (level.maxTokens * 4 + 1) = 0

theorem long_iff_heavy_marked (segment : MarkedSegment) :
    level.maxTokens < estimateTokens segment.segment.text ↔
      level.maxTokens * 4 < segment.text.length := by
  rw [← long_iff_heavy]
  show _ < (plain segment.text).length ↔ _
  rw [plain, List.length_map]

/-- What is in a text of a segment is at a position that is not skipped. -/
theorem not_skips_of_mem (hbody : body ∈ level.markedTexts [segment]) (hmark : mark ∈ body.text) :
    ∃ p, segment.text[p]? = some mark ∧ ¬ level.Skips p := by
  rw [markedTexts_singleton] at hbody
  split at hbody
  · obtain ⟨_, hwindow, rfl⟩ := List.mem_map.1 hbody
    obtain ⟨p, hp, hlt⟩ := lt_of_mem_windows hwindow hmark
    refine ⟨p, hp, fun ⟨hoverlap, hskipped⟩ => ?_⟩
    unfold step at hlt
    rw [if_pos hoverlap] at hlt
    rw [Nat.succ_mod_succ_eq_zero_iff.1 hskipped] at hlt
    exact absurd hlt (Nat.lt_irrefl _)
  · next hlight =>
      split at hbody
      · obtain rfl := List.mem_singleton.1 hbody
        obtain ⟨p, hp⟩ := List.mem_iff_getElem?.1 hmark
        refine ⟨p, hp, fun ⟨_, hskipped⟩ => ?_⟩
        have hlt : p < segment.text.length := (List.getElem?_eq_some_iff.1 hp).1
        rw [long_iff_heavy_marked] at hlight
        rw [Nat.mod_eq_of_lt (by omega)] at hskipped
        exact absurd hskipped (Nat.succ_ne_zero p)
      · exact absurd hbody List.not_mem_nil

/-- A visible character at a position that is not skipped is in a text of the segment. -/
theorem exists_mem_of_not_skips {segment : MarkedSegment} {mark : Mark} {p : Nat}
    (hadvances : level.overlapTokens < level.maxTokens ∨
      estimateTokens segment.segment.text ≤ level.maxTokens)
    (hp : segment.text[p]? = some mark) (hvisible : isBlank mark = false)
    (hnot : ¬ level.Skips p) :
    ∃ body ∈ level.markedTexts [segment], mark ∈ Trimming.trim isBlank body.text := by
  rw [markedTexts_singleton]
  by_cases hheavy : level.maxTokens < estimateTokens segment.segment.text
  · rw [if_pos hheavy]
    have hless : level.overlapTokens < level.maxTokens := hadvances.resolve_right (by omega)
    have hlt : p % level.step < level.maxTokens * 4 := by
      unfold step
      by_cases hoverlap : level.overlapTokens = 0
      · rw [if_pos hoverlap]
        have hne : p % (level.maxTokens * 4 + 1) ≠ level.maxTokens * 4 := fun heq =>
          hnot ⟨hoverlap, Nat.succ_mod_succ_eq_zero_iff.2 heq⟩
        have hle := Nat.mod_lt p (show 0 < level.maxTokens * 4 + 1 by omega)
        omega
      · rw [if_neg hoverlap]
        have := Nat.mod_lt p (show 0 < level.maxTokens * 4 - level.overlapTokens * 4 by omega)
        omega
    obtain ⟨window, hwindow, hmem⟩ := mem_windows_of_lt (step_pos hless) hp hlt
    exact ⟨_, List.mem_map.2 ⟨window, hwindow, rfl⟩, mem_trim hmem hvisible⟩
  · have hmem : mark ∈ Trimming.trim isBlank segment.text :=
      mem_trim (List.mem_of_getElem? hp) hvisible
    rw [if_neg hheavy, if_pos (List.ne_nil_of_mem hmem)]
    exact ⟨_, List.mem_singleton_self _, hmem⟩

end Level

/-! ## The first level -/

theorem markedTexts_document {level : Level} (segments : List Segment) :
    level.markedTexts (segments.map Segment.mark) =
      (level.bins [] segments).flatMap fun bin => level.markedBodies (bin.map Segment.mark) := by
  have hpack := @pack_map _ _ (fun segment => estimateTokens segment.text) level.maxTokens
    (fun segment => estimateTokens segment.segment.text) Segment.mark
    (fun segment => by rw [mark_segment]) [] segments
  unfold Level.markedTexts
  rw [List.map_nil] at hpack
  rw [hpack, List.flatMap_map]
  rfl

/-- A text of the first level is that of a run, or a window over one block. -/
theorem of_mem_markedTexts_document {level : Level}
    (h : body ∈ level.markedTexts (segments.map Segment.mark)) :
    (∃ first others, .run (first :: others) ∈ level.bins [] segments ∧
        body = ⟨markedJoined ((first :: others).map Segment.mark),
          ((first :: others).map Segment.blockId).eraseDups⟩) ∨
      ∃ blockId, body.blockRefs = [blockId] ∧
        ∀ mark ∈ body.text, ∀ other, mark.2 = some other → other = blockId := by
  rw [markedTexts_document] at h
  obtain ⟨bin, hbin, hbody⟩ := List.mem_flatMap.1 h
  cases bin with
  | run run =>
    unfold Bin.map Level.markedBodies at hbody
    dsimp only at hbody
    split at hbody
    · obtain rfl := List.mem_singleton.1 hbody
      cases run with
      | nil => exact absurd rfl ‹_›
      | cons first others =>
        refine .inl ⟨first, others, hbin, ?_⟩
        rw [List.map_map]
        rfl
    · exact absurd hbody List.not_mem_nil
  | single segment =>
    obtain ⟨_, hwindow, rfl⟩ := List.mem_map.1 hbody
    refine .inr ⟨segment.blockId, rfl, fun mark hmark other hother => ?_⟩
    obtain ⟨p, hp, -⟩ := lt_of_mem_windows hwindow hmark
    obtain ⟨_, -, rfl⟩ := List.mem_map.1 (List.mem_of_getElem? hp)
    exact (Option.some.inj hother).symm

/-- Every run that is not blank has a text of the first level. -/
theorem run_mem_markedTexts {level : Level} {segments run : List Segment}
    (hrun : .run run ∈ level.bins [] segments)
    (hvisible : Trimming.trim isBlank (markedJoined (run.map Segment.mark)) ≠ []) :
    (⟨markedJoined (run.map Segment.mark), (run.map Segment.blockId).eraseDups⟩ : MarkedBody) ∈
      level.markedTexts (segments.map Segment.mark) := by
  rw [markedTexts_document]
  refine List.mem_flatMap.2 ⟨.run run, hrun, ?_⟩
  unfold Bin.map Level.markedBodies
  dsimp only
  rw [if_pos hvisible, List.map_map]
  exact List.mem_singleton_self _

/-- The first reference of a run is its first block. -/
theorem head_eraseDups (first : Segment) (others : List Segment) :
    (((first :: others).map Segment.blockId).eraseDups).head? = some first.blockId := by
  rw [List.map_cons, List.eraseDups_cons]
  rfl

/-- When only the first blocks are seen, the references of the second level are complete. -/
theorem refersToBlocks_second {size next : Nat} (hsort :
      (input.chunkSizes.mergeSort fun a b => b ≤ a) = size :: next :: rest)
    (hfirst : OnlyFirstBlock input segments) {parent child : MarkedChunk} {n : Nat} (hbody : body ∈
      Level.markedTexts ⟨size, input.overlap, 0, none⟩ (segments.map Segment.mark))
    (hparent : parent = Level.markedChunk ⟨size, input.overlap, 0, none⟩ n body) {m : Nat}
    {text : MarkedBody} (htext : text ∈
      Level.markedTexts ⟨next, input.overlap, 1, parent.chunk.chunkId⟩ [parent.segment])
    (hchild : child = Level.markedChunk ⟨next, input.overlap, 1, parent.chunk.chunkId⟩ m text) :
    RefersToBlocks child := by
  subst hchild
  intro mark hmark hvisible blockId hblock
  have hmem : mark ∈ text.text := (trim_isInfix text.text).subset hmark
  obtain ⟨hrefs, -⟩ := Level.of_mem_markedTexts htext
  show blockId ∈ text.blockRefs
  rw [hrefs]
  refine List.mem_singleton.2 ?_
  obtain ⟨p, hp, hseen⟩ := Level.not_skips_of_mem htext hmem
  have hparentText : parent.text = Trimming.trim isBlank body.text := by rw [hparent]; rfl
  have hparentRefs : parent.chunk.blockRefs = body.blockRefs := by rw [hparent]; rfl
  show blockId = parent.chunk.blockRefs.head?.getD parent.chunk.chunkId
  rcases of_mem_markedTexts_document hbody with ⟨first, others, hrun, rfl⟩ | ⟨_, honly, hmarks⟩
  · rw [hparentRefs, head_eraseDups]
    by_contra hne
    refine hseen (hfirst size next rest hsort first others hrun p mark ?_ hvisible blockId hblock
      hne)
    rw [← hparentText]
    exact hp
  · rw [hparentRefs, honly]
    refine hmarks mark ?_ blockId hblock
    have hinside : mark ∈ parent.text := List.mem_of_getElem? hp
    rw [hparentText] at hinside
    exact (trim_isInfix body.text).subset hinside

/-- Complete references stay complete on the way down. -/
theorem refersToBlocks_below (hlevel : ∀ parent ∈ parents, parent.chunk.level + 1 = levelIdx)
    (hparents : ∀ parent ∈ parents, RefersToBlocks parent ∧
      ∃ blockId, parent.chunk.blockRefs = [blockId]) :
    ∀ chunk ∈ markedBelow overlap sizes levelIdx parents idCounter, RefersToBlocks chunk := by
  induction sizes generalizing levelIdx parents idCounter with
  | nil => exact fun chunk hchunk => absurd hchunk List.not_mem_nil
  | cons size sizes ih =>
    have hchildren : ∀ child ∈ (markedParents size overlap levelIdx parents idCounter).1,
        child.chunk.level + 1 = levelIdx + 1 ∧ RefersToBlocks child ∧
          ∃ blockId, child.chunk.blockRefs = [blockId] := by
      intro child hchild
      obtain ⟨parent, hparent, hfacts⟩ := child_of_mem_markedParents hlevel hchild
      obtain ⟨hrefers, blockId, hone⟩ := hparents parent hparent
      obtain ⟨hcomplete, hsame⟩ := hrefers.child hfacts hone
      exact ⟨by rw [hfacts.level, hlevel parent hparent], hcomplete, blockId, hsame⟩
    intro chunk hchunk
    rcases List.mem_append.1 hchunk with hfirst | hrest
    · exact (hchildren chunk hfirst).2.1
    · exact ih (fun child hchild => (hchildren child hchild).1)
        (fun child hchild => (hchildren child hchild).2) chunk hrest

/-- A call for the chunks of a level that returns has advanced its windows, or has cut none. -/
theorem advances_of_chunkParents {parents chunks : List Chunk} (hsize : 0 < size)
    (hresult : chunkParents fuel size overlap levelIdx parents idCounter = some (chunks, next)) :
    ∀ parent ∈ parents, overlap < size ∨ estimateTokens parent.text ≤ size := by
  induction parents generalizing idCounter chunks next with
  | nil => exact fun parent hparent => absurd hparent List.not_mem_nil
  | cons first parents ih =>
    unfold chunkParents at hresult
    obtain ⟨⟨_, _⟩, hchildren, hresult⟩ := Option.bind_eq_some_iff.1 hresult
    obtain ⟨⟨_, _⟩, hrest, -⟩ := Option.bind_eq_some_iff.1 hresult
    intro parent hparent
    rcases List.mem_cons.1 hparent with rfl | hparent
    · exact (Level.advances_of_returns hsize hchildren).imp_right fun hall =>
        hall _ (List.mem_singleton_self _)
    · exact ih hrest parent hparent

/-- The chunks of the first level with their marks. -/
def markedFirst (size overlap : Nat) (segments : List Segment) : List MarkedChunk :=
  Level.markedNumber ⟨size, overlap, 0, none⟩ 0
    (Level.markedTexts ⟨size, overlap, 0, none⟩ (segments.map Segment.mark))

theorem markedLevels_eq (segments : List Segment) {size : Nat}
    (hsort : (input.chunkSizes.mergeSort fun a b => b ≤ a) = size :: sizes) :
    ∃ idCounter, markedLevels input segments =
      markedFirst size input.overlap segments ++
        markedBelow input.overlap sizes 1 (markedFirst size input.overlap segments)
          idCounter := by
  unfold markedLevels
  rw [hsort]
  exact ⟨_, rfl⟩

theorem level_markedFirst : ∀ chunk ∈ markedFirst size overlap segments, chunk.chunk.level = 0 := by
  intro chunk hchunk
  obtain ⟨_, -, n, rfl⟩ := Level.mem_markedNumber hchunk
  rfl

/-- The provenance is kept when only the first blocks are seen. -/
theorem keepsProvenance_of_first (hfirst : OnlyFirstBlock input segments) :
    KeepsProvenance (markedLevels input segments) := by
  obtain ⟨size, sizes, hsort⟩ := sorted_sizes input
  obtain ⟨idCounter, hlevels⟩ := markedLevels_eq segments hsort
  have hone : ∀ parent ∈ markedFirst size input.overlap segments, parent.chunk.level + 1 = 1 :=
    fun parent hparent => congrArg (· + 1) (level_markedFirst parent hparent)
  have hbelow : ∀ chunk ∈ markedLevels input segments, chunk.chunk.level ≠ 0 →
      chunk ∈ markedBelow input.overlap sizes 1 (markedFirst size input.overlap segments)
        idCounter := by
    intro chunk hchunk hlevel
    rw [hlevels] at hchunk
    exact (List.mem_append.1 hchunk).resolve_left fun hfirst =>
      hlevel (level_markedFirst chunk hfirst)
  constructor
  · intro chunk hchunk hlevel
    obtain ⟨parent, hparent, hchild⟩ :=
      child_of_mem_markedBelow hone (hbelow chunk hchunk hlevel)
    refine ⟨parent, ?_, hchild.parentChunkId, hchild.level.symm, hchild.text⟩
    rw [hlevels]
    exact hparent
  · intro chunk hchunk hlevel
    have hmem := hbelow chunk hchunk hlevel
    cases sizes with
    | nil => exact absurd hmem List.not_mem_nil
    | cons next rest =>
      have hsecond : ∀ child ∈ (markedParents next input.overlap 1
          (markedFirst size input.overlap segments) idCounter).1,
          RefersToBlocks child ∧ ∃ blockId, child.chunk.blockRefs = [blockId] := by
        intro child hchild
        obtain ⟨parent, hparent, _, htext, m, hchunk⟩ := mem_markedParents hchild
        obtain ⟨_, hbody, n, hparentChunk⟩ := Level.mem_markedNumber hparent
        refine ⟨refersToBlocks_second hsort hfirst hbody hparentChunk htext hchunk, ?_⟩
        exact ⟨_, by rw [hchunk]; exact (Level.of_mem_markedTexts htext).1⟩
      rcases List.mem_append.1 hmem with hchild | hrest
      · exact (hsecond chunk hchild).1
      · refine refersToBlocks_below (fun child hchild => ?_) hsecond chunk hrest
        obtain ⟨parent, hparent, hfacts⟩ := child_of_mem_markedParents hone hchild
        rw [hfacts.level, hone parent hparent]

/-- The call for the second level returns when the tool does. -/
theorem advances_of_chunkLevels {size next : Nat}
    (hsort : (input.chunkSizes.mergeSort fun a b => b ≤ a) = size :: next :: rest)
    (hresult : chunkLevels fuel input segments = some chunks) :
    ∀ parent ∈ markedFirst size input.overlap segments,
      input.overlap < next ∨ estimateTokens parent.segment.segment.text ≤ next := by
  have hpos := size_pos hsort
  have hsegments : (segments.map Segment.mark).map MarkedSegment.segment = segments := by
    rw [List.map_map]
    exact (List.map_congr_left fun segment _ => mark_segment segment).trans (List.map_id _)
  unfold chunkLevels at hresult
  rw [hsort] at hresult
  obtain ⟨⟨_, _⟩, hlevel0, hresult⟩ := Option.bind_eq_some_iff.1 hresult
  obtain ⟨_, hbelow, -⟩ := Option.bind_eq_some_iff.1 hresult
  unfold chunkBelow at hbelow
  obtain ⟨⟨_, _⟩, hchildren, -⟩ := Option.bind_eq_some_iff.1 hbelow
  rw [← hsegments] at hlevel0
  obtain ⟨rfl, -⟩ := Level.chunkTextAtLevel_marked (hpos size List.mem_cons_self) hlevel0
  intro parent hparent
  have hnext := advances_of_chunkParents
    (hpos next (List.mem_cons_of_mem _ List.mem_cons_self)) hchildren parent.chunk
    (List.mem_map.2 ⟨parent, hparent, rfl⟩)
  rw [faithful_markedNumber parent hparent] at hnext
  exact hnext

/-- Only the first blocks are seen when the provenance is kept. -/
theorem first_of_keepsProvenance (hresult : chunkLevels fuel input segments = some chunks)
    (hkeeps : KeepsProvenance (markedLevels input segments)) : OnlyFirstBlock input segments := by
  intro size next rest hsort first others hrun p mark hp hvisible blockId hblock hne
  by_contra hseen
  obtain ⟨idCounter, hlevels⟩ := markedLevels_eq segments hsort
  have hbody := run_mem_markedTexts hrun (List.ne_nil_of_mem (List.mem_of_getElem? hp))
  obtain ⟨n, hparent⟩ := Level.exists_mem_markedNumber 0 hbody
  let parent := Level.markedChunk ⟨size, input.overlap, 0, none⟩ n
    ⟨markedJoined ((first :: others).map Segment.mark),
      ((first :: others).map Segment.blockId).eraseDups⟩
  have hadvances := advances_of_chunkLevels hsort hresult parent hparent
  -- The character gets into a child of the run's chunk.
  obtain ⟨text, htext, hmark⟩ := @Level.exists_mem_of_not_skips
    ⟨next, input.overlap, 1, parent.chunk.chunkId⟩ _ _ _ hadvances hp hvisible hseen
  obtain ⟨m, hchild⟩ := exists_mem_markedParents idCounter hparent htext
  have hmem : Level.markedChunk ⟨next, input.overlap, 1, parent.chunk.chunkId⟩ m text ∈
      markedLevels input segments := by
    rw [hlevels]
    exact List.mem_append_right _ (List.mem_append_left _ hchild)
  have hrefers := hkeeps.blockRefs _ hmem (Nat.succ_ne_zero 0) mark hmark hvisible blockId hblock
  have hrefs : text.blockRefs = [first.blockId] := by
    rw [(Level.of_mem_markedTexts htext).1]
    show [(((first :: others).map Segment.blockId).eraseDups).head?.getD _] = _
    rw [head_eraseDups]
    rfl
  have hin : blockId ∈ text.blockRefs := hrefers
  rw [hrefs] at hin
  exact hne (List.mem_singleton.1 hin)

/-- The levels with the marks are the levels of the tool, and their provenance is kept exactly when
no visible character of a block that is not the first of its run gets into the second level. -/
theorem provenance_iff (input : DocumentChunkInput) (segments : List Segment) (fuel : Nat)
    (chunks : List Chunk) (h : chunkLevels fuel input segments = some chunks) :
    (markedLevels input segments).map MarkedChunk.chunk = chunks ∧
      (∀ chunk ∈ markedLevels input segments, chunk.chunk.text = plain chunk.text) ∧
      (KeepsProvenance (markedLevels input segments) ↔ OnlyFirstBlock input segments) :=
  ⟨(markedLevels_chunks h).1, (markedLevels_chunks h).2,
    first_of_keepsProvenance h, keepsProvenance_of_first⟩

/-- Only first blocks are seen when all segments are of one block. -/
theorem onlyFirstBlock_of_block {input : DocumentChunkInput} {segments : List Segment}
    {blockId : String} (h : ∀ segment ∈ segments, segment.blockId = blockId) :
    OnlyFirstBlock input segments := by
  intro size next rest hsort first others hrun p mark hp _ other hblock hne
  have hmem := (trim_isInfix _).subset (List.mem_of_getElem? hp)
  rcases mem_join hmem with hseparator | ⟨_, htext, hmark⟩
  · obtain ⟨unit, -, rfl⟩ := List.mem_map.1 hseparator
    exact absurd hblock nofun
  · obtain ⟨_, hmarked, rfl⟩ := List.mem_map.1 htext
    obtain ⟨segment, hsegment, rfl⟩ := List.mem_map.1 hmarked
    obtain ⟨_, -, rfl⟩ := List.mem_map.1 hmark
    obtain rfl := Option.some.inj hblock
    have hfirst := h first (mem_of_mem_bin hrun List.mem_cons_self)
    exact absurd ((h segment (mem_of_mem_bin hrun hsegment)).trans hfirst.symm) hne

/-! ## Samples -/

/-- Two levels with an overlap. -/
def sampleInput : DocumentChunkInput where
  chunkSizes := [32, 16]
  overlap := 1
  length_chunkSizes := by decide
  chunkSize_range := by decide
  overlap_le := by decide

/-- The provenance of the chunks of one block. -/
theorem provenance_sample :
    ∃ fuel chunks, chunkLevels fuel sampleInput [⟨List.replicate 100 0x61, "b1"⟩] = some chunks ∧
      (markedLevels sampleInput [⟨List.replicate 100 0x61, "b1"⟩]).map MarkedChunk.chunk =
        chunks ∧
      KeepsProvenance (markedLevels sampleInput [⟨List.replicate 100 0x61, "b1"⟩]) := by
  obtain ⟨fuel, chunks, hchunks⟩ := chunkLevels_terminates sampleInput (by decide)
    [⟨List.replicate 100 0x61, "b1"⟩]
  obtain ⟨hchunk, -, hkeeps⟩ := provenance_iff sampleInput _ fuel chunks hchunks
  refine ⟨fuel, chunks, hchunks, hchunk, hkeeps.2 ?_⟩
  exact @onlyFirstBlock_of_block _ _ "b1" (by decide)

/-- Two blocks that are merged: a child with the text of the second one refers to the first. -/
theorem child_refers_to_first_block :
    ∃ fuel chunks, chunkLevels fuel sampleInput
        [⟨List.replicate 60 0x61, "b1"⟩, ⟨List.replicate 60 0x62, "b2"⟩] = some chunks ∧
      ¬ KeepsProvenance (markedLevels sampleInput
        [⟨List.replicate 60 0x61, "b1"⟩, ⟨List.replicate 60 0x62, "b2"⟩]) := by
  obtain ⟨fuel, chunks, hchunks⟩ := chunkLevels_terminates sampleInput (by decide)
    [⟨List.replicate 60 0x61, "b1"⟩, ⟨List.replicate 60 0x62, "b2"⟩]
  refine ⟨fuel, chunks, hchunks, fun hkeeps => ?_⟩
  have hfirst := first_of_keepsProvenance hchunks hkeeps
  have hsort : (sampleInput.chunkSizes.mergeSort fun a b => b ≤ a) = [32, 16] :=
    List.mergeSort_of_pairwise (by decide)
  have hoverlap := (hfirst 32 16 [] hsort ⟨List.replicate 60 0x61, "b1"⟩
    [⟨List.replicate 60 0x62, "b2"⟩] (List.mem_singleton_self _) 62 (0x62, some "b2") (by decide)
    (by decide) "b2" rfl (by decide)).1
  exact absurd hoverlap (by decide)

end Groundlane.Chunks
