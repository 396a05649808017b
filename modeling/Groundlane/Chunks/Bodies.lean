import Groundlane.Chunks.Chunking
import Groundlane.Ordered.Packing
import Groundlane.Text.Trimming

/-!
# What a level of chunks is made of

`chunkTextAtLevel` packs the segments in order by their token counts: the texts of a run are
joined, and a segment that is too long is cut into windows at the multiples of a step
(`chunkTextAtLevel_eq`). The run is limited by the sum of rounded token counts, which leaves out
the blank lines between the texts. So a chunk may have more tokens than allowed, and no chunk has
exactly when every joined run is short enough (`chunks_bounded_iff`).
-/

namespace Groundlane.Chunks

open Packing Sequential Trimming Utf16

/-- The text of a chunk before it is trimmed, and the blocks that it refers to. -/
structure Body where
  text : Text
  blockRefs : List String

/-- The texts of a run, joined. -/
def joined (segments : List Segment) : Text :=
  join (ascii "\n\n") (segments.map Segment.text)

namespace Level

variable (level : Level)

/-- The number of code units from the start of a window to the start of the next one. -/
def step : Nat :=
  if level.overlapTokens = 0 then level.maxTokens * 4 + 1
  else level.maxTokens * 4 - level.overlapTokens * 4

/-- What is emitted for segments that are packed together. -/
def bodies : Bin Segment → List Body
  | .run segments =>
    if Utf16.trim (joined segments) ≠ [] then
      [⟨joined segments, (segments.map Segment.blockId).eraseDups⟩]
    else []
  | .single segment =>
    (windows level.step (level.maxTokens * 4) segment.text).map fun window =>
      ⟨window, [segment.blockId]⟩

/-- The chunks of texts, numbered from a counter on. -/
def number (idCounter : Nat) (bodies : List Body) : List Chunk :=
  bodies.mapIdx fun i body => level.newChunk (idCounter + i) body.text body.blockRefs

/-- The segments as they are packed together. -/
def bins (run segments : List Segment) : List (Bin Segment) :=
  pack (fun segment => estimateTokens segment.text) level.maxTokens run segments

variable {level} (idCounter : Nat) {chunks : List Chunk} {fuel : Nat}

theorem number_append (first second : List Body) : level.number idCounter (first ++ second) =
      level.number idCounter first ++ level.number (idCounter + first.length) second := by
  unfold number
  rw [List.mapIdx_append]
  congr 2
  funext i body
  rw [Nat.add_comm i, Nat.add_assoc]

/-- The variables of a call with an open run, behind some chunks. -/
def opened (chunks : List Chunk) (idCounter : Nat) (run : List Segment) : Chunking where
  chunks := chunks
  currentText := joined run
  currentBlockRefs := run.map Segment.blockId
  currentTokens := (run.map fun segment => estimateTokens segment.text).sum
  idCounter := idCounter

variable {result : List Chunk × Nat} {segments : List Segment} {run : List Segment}
  {bodies : List Body} {segment : Segment}

theorem bodies_run (h : Utf16.trim (joined run) ≠ []) :
    level.bodies (.run run) = [⟨joined run, (run.map Segment.blockId).eraseDups⟩] := if_pos h

theorem bodies_run_blank (h : Utf16.trim (joined run) = []) :
    level.bodies (.run run) = [] := if_neg (not_not.2 h)

theorem flush_opened (chunks : List Chunk) (idCounter : Nat) (run : List Segment) :
    level.flush (opened chunks idCounter run) =
      opened (chunks ++ level.number idCounter (level.bodies (.run run)))
        (idCounter + (level.bodies (.run run)).length) [] := by
  have htext : (opened chunks idCounter run).currentText = joined run := rfl
  unfold flush
  rw [htext]
  by_cases hblank : Utf16.trim (joined run) = []
  · rw [if_neg (not_not.2 hblank), bodies_run_blank hblank]
    show _ = opened (chunks ++ []) idCounter []
    rw [List.append_nil]
    rfl
  · rw [if_pos hblank, bodies_run hblank]
    rfl

theorem append_opened (chunks : List Chunk) (idCounter : Nat) (run : List Segment)
    (segment : Segment) : append (opened chunks idCounter run) segment =
      opened chunks idCounter (run ++ [segment]) := by
  unfold append opened
  have htext : joined (run ++ [segment]) =
      (if joined run ≠ [] then joined run ++ ascii "\n\n" else joined run) ++ segment.text := by
    unfold joined
    rw [List.map_append, List.map_singleton, join_concat]
    congr 1
    cases join (ascii "\n\n") (run.map Segment.text) with
    | nil => rfl
    | cons unit rest => rfl
  rw [htext, List.map_append, List.map_append, List.sum_append]
  rfl

theorem step_pos (h : level.overlapTokens < level.maxTokens) : 0 < level.step := by
  unfold step
  split <;> omega

theorem advance_eq (h : level.overlapTokens < level.maxTokens) (offset : Nat) :
    level.advance offset = (offset + level.step : Nat) := by
  unfold advance step
  dsimp only
  by_cases hzero : level.overlapTokens = 0
  · rw [if_pos (by omega), if_pos hzero]
    omega
  · rw [if_neg (by omega), if_neg hzero]
    omega

theorem slice_window {text : Text} {offset : Nat} (maxTokens : Nat) (h : offset < text.length) :
    slice text offset (offset + maxTokens * 4) = (text.drop offset).take (maxTokens * 4) := by
  have hstart : slicePosition text.length offset = offset := by
    unfold slicePosition
    rw [if_neg (by omega)]
    omega
  unfold slice
  rw [hstart]
  unfold slicePosition
  rw [if_neg (by omega)]
  by_cases hwidth : offset + maxTokens * 4 ≤ text.length
  · rw [show min ((offset : Int) + maxTokens * 4).toNat text.length - offset = maxTokens * 4 by
      omega]
  · rw [List.take_of_length_le (by rw [List.length_drop]; omega),
      List.take_of_length_le (by rw [List.length_drop]; omega)]

/-- What is emitted in two parts. -/
theorem opened_append (chunks : List Chunk) (idCounter : Nat) (first second : List Body)
    (run : List Segment) : opened (chunks ++ level.number idCounter first ++
        level.number (idCounter + first.length) second)
      (idCounter + first.length + second.length) run =
      opened (chunks ++ level.number idCounter (first ++ second))
        (idCounter + (first ++ second).length) run := by
  rw [number_append, List.append_assoc, List.length_append, Nat.add_assoc]

/-- The window at a multiple of the step. -/
def windowBody (level : Level) (segment : Segment) (k : Nat) : Body :=
  ⟨(segment.text.drop (k * level.step)).take (level.maxTokens * 4), [segment.blockId]⟩

/-- The count of the windows of a segment. -/
def windowCount (level : Level) (segment : Segment) : Nat :=
  (segment.text.length + level.step - 1) / level.step

theorem bodies_single (segment : Segment) :
    level.bodies (.single segment) =
      (List.range (level.windowCount segment)).map (level.windowBody segment) := by
  show (windows _ _ _).map _ = _
  unfold windows
  rw [List.map_map]
  rfl

/-- The first windows of a segment have been emitted. -/
def Passed (level : Level) (segment : Segment) (chunks : List Chunk) (idCounter k : Nat)
    (state : Int × Chunking) : Prop :=
  k ≤ level.windowCount segment ∧ state.1 = ((k * level.step : Nat) : Int) ∧
    state.2 = opened
      (chunks ++ level.number idCounter ((List.range k).map (level.windowBody segment)))
      (idCounter + k) []

/-- A round of the loop emits the next window. -/
theorem Passed.window {idCounter k : Nat} {state : Int × Chunking}
    (h : level.overlapTokens < level.maxTokens)
    (hpassed : Passed level segment chunks idCounter k state) (htest : inside segment state = true) :
    Passed level segment chunks idCounter (k + 1) (level.window segment state) := by
  obtain ⟨offset, state⟩ := state
  obtain ⟨_, hoffset, hstate⟩ := hpassed
  obtain rfl : offset = ((k * level.step : Nat) : Int) := hoffset
  obtain rfl : state = _ := hstate
  have hinside : k * level.step < segment.text.length := Int.ofNat_lt.1 (of_decide_eq_true htest)
  refine ⟨(lt_count_iff (step_pos h) k _).2 hinside, ?_, ?_⟩
  · show level.advance _ = _
    rw [advance_eq h, Nat.succ_mul]
  · rw [List.range_succ, List.map_append, number_append, List.length_map, List.length_range,
      ← List.append_assoc]
    unfold Level.window
    dsimp only
    rw [slice_window _ hinside]
    rfl

/-- The window loop emits the windows at the multiples of the step. -/
theorem window_loop {idCounter fuel : Nat} {result : Int × Chunking}
    (h : level.overlapTokens < level.maxTokens)
    (hloop : loop (inside segment) (level.window segment) fuel (0, opened chunks idCounter []) =
      some result) :
    result.2 = opened (chunks ++ level.number idCounter (level.bodies (.single segment)))
      (idCounter + (level.bodies (.single segment)).length) [] := by
  have hstart : Passed level segment chunks idCounter 0 (0, opened chunks idCounter []) := by
    refine ⟨Nat.zero_le _, by rw [Nat.zero_mul]; rfl, ?_⟩
    show opened chunks idCounter [] = opened (chunks ++ []) idCounter []
    rw [List.append_nil]
  obtain ⟨⟨k, hk, _, hstate⟩, htest⟩ := loop_invariant
    (fun state => ∃ k, Passed level segment chunks idCounter k state)
    (fun state ⟨k, hk⟩ htest => ⟨k + 1, hk.window h htest⟩) ⟨0, hstart⟩ hloop
  have hdone : k = level.windowCount segment := by
    have hnot : ¬ k * level.step < segment.text.length := by
      have := of_decide_eq_false htest
      omega
    have := mt (lt_count_iff (step_pos h) k segment.text.length).1 hnot
    unfold windowCount at *
    omega
  rw [hstate, bodies_single, List.length_map, List.length_range, hdone]

/-- The segments behind an open run. -/
theorem segmentSteps_opened {segments run : List Segment} {idCounter : Nat} {state : Chunking}
    (h : level.overlapTokens < level.maxTokens ∨
      ∀ segment ∈ segments, estimateTokens segment.text ≤ level.maxTokens)
    (hsteps : level.segmentSteps fuel (opened chunks idCounter run) segments = some state) :
    level.flush state = opened
      (chunks ++ level.number idCounter ((level.bins run segments).flatMap level.bodies))
      (idCounter + ((level.bins run segments).flatMap level.bodies).length) [] := by
  induction segments generalizing run chunks idCounter with
  | nil =>
    obtain rfl := Option.some.inj hsteps
    rw [flush_opened]
    show _ = opened (chunks ++ level.number idCounter (level.bodies (.run run) ++ []))
      (idCounter + (level.bodies (.run run) ++ []).length) []
    rw [List.append_nil]
  | cons segment rest ih =>
    unfold segmentSteps at hsteps
    obtain ⟨_, hnext, hrest⟩ := Option.bind_eq_some_iff.1 hsteps
    have hothers := h.imp_right fun hall other hother =>
      hall other (List.mem_cons_of_mem _ hother)
    unfold segmentStep at hnext
    unfold bins pack
    by_cases hheavy : level.maxTokens < estimateTokens segment.text
    · rw [if_pos hheavy] at hnext ⊢
      obtain ⟨_, hloop, rfl⟩ := Option.map_eq_some_iff.1 hnext
      have hadvances := h.resolve_right fun hall =>
        Nat.not_le.2 hheavy (hall segment List.mem_cons_self)
      rw [flush_opened] at hloop
      rw [window_loop hadvances hloop] at hrest
      rw [ih hothers hrest, opened_append, opened_append]
      rfl
    · rw [if_neg hheavy] at hnext ⊢
      have htokens : (opened chunks idCounter run).currentTokens =
          (run.map fun segment => estimateTokens segment.text).sum := rfl
      rw [htokens] at hnext
      by_cases hfull : level.maxTokens <
          (run.map fun segment => estimateTokens segment.text).sum + estimateTokens segment.text
      · rw [if_pos hfull] at hnext ⊢
        rw [flush_opened, append_opened] at hnext
        obtain rfl := Option.some.inj hnext
        rw [ih hothers hrest, opened_append]
        rfl
      · rw [if_neg hfull] at hnext ⊢
        rw [append_opened] at hnext
        obtain rfl := Option.some.inj hnext
        exact ih hothers hrest

/-- A call that returns has advanced its windows, or has cut none. -/
theorem advances_of_returns {idCounter : Nat} (hmax : 0 < level.maxTokens)
    (hresult : level.chunkTextAtLevel fuel segments idCounter = some result) :
    level.overlapTokens < level.maxTokens ∨
      ∀ segment ∈ segments, estimateTokens segment.text ≤ level.maxTokens := by
  obtain ⟨_, hsteps, -⟩ := Option.map_eq_some_iff.1 hresult
  by_contra hstuck
  obtain ⟨hoverlap, hlong⟩ := not_or.1 hstuck
  obtain ⟨segment, hmem, hcut⟩ : ∃ segment ∈ segments,
      level.maxTokens < estimateTokens segment.text := by
    simpa using hlong
  rw [segmentSteps_eq_none level hmax (Nat.le_of_not_lt hoverlap) hmem hcut] at hsteps
  cases hsteps

/-- A call that returns emits what the packed segments say, numbered from its counter on. -/
theorem chunkTextAtLevel_eq {idCounter : Nat} (hmax : 0 < level.maxTokens)
    (hresult : level.chunkTextAtLevel fuel segments idCounter = some result) :
    result = (level.number idCounter ((level.bins [] segments).flatMap level.bodies),
      idCounter + ((level.bins [] segments).flatMap level.bodies).length) := by
  have hreturns := advances_of_returns hmax hresult
  obtain ⟨state, hsteps, rfl⟩ := Option.map_eq_some_iff.1 hresult
  have hopened : level.segmentSteps fuel (opened [] idCounter []) segments = some state := hsteps
  rw [segmentSteps_opened hreturns hopened]
  rfl

/-- A call ends and emits what the packed segments say. -/
theorem chunkTextAtLevel_emits (h : level.overlapTokens < level.maxTokens)
    (segments : List Segment) (idCounter : Nat) :
    Settles (fun fuel => level.chunkTextAtLevel fuel segments idCounter)
      (level.number idCounter ((level.bins [] segments).flatMap level.bodies),
        idCounter + ((level.bins [] segments).flatMap level.bodies).length) := by
  obtain ⟨_, fuel, hfuel⟩ := chunkTextAtLevel_settles level segments idCounter (.inl h)
  rw [← chunkTextAtLevel_eq (Nat.zero_lt_of_lt h) (hfuel fuel (le_refl fuel))]
  exact ⟨fuel, hfuel⟩

/-- The chunks are those of the texts with some numbers. -/
theorem mem_number {idCounter : Nat} {chunk : Chunk} (h : chunk ∈ level.number idCounter bodies) :
    ∃ body ∈ bodies, ∃ n, chunk = level.newChunk n body.text body.blockRefs := by
  obtain ⟨i, hi, rfl⟩ := List.mem_mapIdx.1 h
  exact ⟨bodies[i], List.getElem_mem hi, idCounter + i, rfl⟩

/-- Every text has a chunk. -/
theorem exists_mem_number {body : Body} (h : body ∈ bodies) :
    ∃ n, level.newChunk n body.text body.blockRefs ∈ level.number idCounter bodies := by
  obtain ⟨i, hi, rfl⟩ := List.mem_iff_getElem.1 h
  exact ⟨idCounter + i, List.mem_mapIdx.2 ⟨i, hi, rfl⟩⟩

end Level

/-! ## The size of the chunks -/

theorem length_trim_le (text : Text) : (Utf16.trim text).length ≤ text.length :=
  (trim_isInfix text).length_le

theorem estimateTokens_le_iff (text : Text) (maxTokens : Nat) :
    estimateTokens text ≤ maxTokens ↔ text.length ≤ maxTokens * 4 := by
  unfold estimateTokens
  omega

/-- A window is not too long. -/
theorem length_le_of_mem_windows {step width : Nat} {text window : Text}
    (h : window ∈ windows step width text) : window.length ≤ width := by
  obtain ⟨k, -, rfl⟩ := List.mem_map.1 h
  rw [List.length_take]
  exact Nat.min_le_left _ _

end Groundlane.Chunks
