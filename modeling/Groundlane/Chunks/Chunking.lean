import Groundlane.Sequential.Loop
import Groundlane.Text.Utf16

/-!
# Chunking documents

`chunkTextAtLevel` of `tools/document-chunk.ts` and the levels that the tool builds with it. A
segment that is longer than a chunk is cut into windows by a loop that may not terminate, so the
functions take a number of rounds. Every level terminates when the overlap is smaller than each
chunk size (`chunkLevels_terminates`). One call terminates exactly when the overlap is smaller
than the chunk size or no segment is cut into windows (`chunkTextAtLevel_terminates_iff`): with a
larger overlap the window does not advance, and the guard in the loop is about an overlap of zero.
-/

namespace Groundlane.Chunks

open Sequential Utf16

/-! ## The tool's input -/

/-- The part of `documentChunkInputSchema` that chunking reads. -/
structure DocumentChunkInput where
  chunkSizes : List Nat
  overlap : Nat
  length_chunkSizes : 1 ≤ chunkSizes.length ∧ chunkSizes.length ≤ 5
  chunkSize_range : ∀ size ∈ chunkSizes, 16 ≤ size ∧ size ≤ 32768
  overlap_le : overlap ≤ 512

/-- A text and the block that it comes from. -/
structure Segment where
  text : Text
  blockId : String

/-- `Chunk`. -/
structure Chunk where
  chunkId : String
  parentChunkId : Option String
  level : Nat
  text : Text
  tokenCount : Nat
  blockRefs : List String

/-- `estimateTokens`. -/
def estimateTokens (text : Text) : Nat := (text.length + 3) / 4

/-! ## One level -/

/-- The arguments of a call that stay the same. -/
structure Level where
  maxTokens : Nat
  overlapTokens : Nat
  level : Nat
  parentChunkId : Option String

/-- The variables of a call; `idCounter` is shared between the calls of the tool. -/
structure Chunking where
  chunks : List Chunk
  currentText : Text
  currentBlockRefs : List String
  currentTokens : Nat
  idCounter : Nat

namespace Level

variable (level : Level)

/-- The chunk with the next number. -/
def newChunk (idCounter : Nat) (text : Text) (blockRefs : List String) : Chunk where
  chunkId := "chunk-L" ++ toString level.level ++ "-" ++ toString idCounter
  parentChunkId := level.parentChunkId
  level := level.level
  text := trim text
  tokenCount := estimateTokens (trim text)
  blockRefs := blockRefs

/-- `flush`. -/
def flush (state : Chunking) : Chunking :=
  if trim state.currentText ≠ [] then
    { chunks := state.chunks ++
        [level.newChunk state.idCounter state.currentText state.currentBlockRefs.eraseDups]
      currentText := []
      currentBlockRefs := []
      currentTokens := 0
      idCounter := state.idCounter + 1 }
  else { state with currentText := [], currentBlockRefs := [], currentTokens := 0 }

/-- The next offset of the window; the last case is the guard of the loop. -/
def advance (offset : Int) : Int :=
  let next := offset + ((level.maxTokens * 4 : Int) - level.overlapTokens * 4)
  if level.overlapTokens * 4 = 0 then max next (next + 1) else next

/-- One round of the window loop over a segment. -/
def window (segment : Segment) (state : Int × Chunking) : Int × Chunking :=
  let (offset, state) := state
  let slice := slice segment.text offset (offset + level.maxTokens * 4)
  (level.advance offset,
    { state with
      chunks := state.chunks ++ [level.newChunk state.idCounter slice [segment.blockId]]
      idCounter := state.idCounter + 1 })

/-- `offset < chars.length`. -/
def inside (segment : Segment) (state : Int × Chunking) : Bool :=
  decide (state.1 < segment.text.length)

/-- A segment that fits into a chunk. -/
def append (state : Chunking) (segment : Segment) : Chunking :=
  { state with
    currentText := (if state.currentText ≠ [] then state.currentText ++ ascii "\n\n"
      else state.currentText) ++ segment.text
    currentBlockRefs := state.currentBlockRefs ++ [segment.blockId]
    currentTokens := state.currentTokens + estimateTokens segment.text }

/-- One segment. -/
def segmentStep (fuel : Nat) (state : Chunking) (segment : Segment) : Option Chunking :=
  if level.maxTokens < estimateTokens segment.text then
    (loop (inside segment) (level.window segment) fuel (0, level.flush state)).map Prod.snd
  else if level.maxTokens < state.currentTokens + estimateTokens segment.text then
    some (append (level.flush state) segment)
  else some (append state segment)

/-- The segments one after another. -/
def segmentSteps (fuel : Nat) : Chunking → List Segment → Option Chunking
  | state, [] => some state
  | state, segment :: rest => (level.segmentStep fuel state segment).bind fun next =>
    segmentSteps fuel next rest

/-- `chunkTextAtLevel`: the chunks and the counter behind them. -/
def chunkTextAtLevel (fuel : Nat) (segments : List Segment) (idCounter : Nat) :
    Option (List Chunk × Nat) :=
  (level.segmentSteps fuel ⟨[], [], [], 0, idCounter⟩ segments).map fun state =>
    ((level.flush state).chunks, (level.flush state).idCounter)

end Level

/-! ## All levels -/

/-- The children of the chunks of a level. -/
def chunkParents (fuel size overlap levelIdx : Nat) : List Chunk → Nat → Option (List Chunk × Nat)
  | [], idCounter => some ([], idCounter)
  | parent :: parents, idCounter => do
    let (children, idCounter) ← Level.chunkTextAtLevel ⟨size, overlap, levelIdx, parent.chunkId⟩
      fuel [⟨parent.text, parent.blockRefs.head?.getD parent.chunkId⟩] idCounter
    let (rest, idCounter) ← chunkParents fuel size overlap levelIdx parents idCounter
    some (children ++ rest, idCounter)

/-- The levels below one level: each splits the chunks of the one above. -/
def chunkBelow (fuel overlap : Nat) : List Nat → Nat → List Chunk → Nat → Option (List Chunk)
  | [], _, _, _ => some []
  | size :: sizes, levelIdx, parents, idCounter => do
    let (children, idCounter) ← chunkParents fuel size overlap levelIdx parents idCounter
    let below ← chunkBelow fuel overlap sizes (levelIdx + 1) children idCounter
    some (children ++ below)

/-- All chunks of a document, the largest sizes first. -/
def chunkLevels (fuel : Nat) (input : DocumentChunkInput) (segments : List Segment) :
    Option (List Chunk) := do
  let sizes := input.chunkSizes.mergeSort fun a b => b ≤ a
  let (level0, idCounter) ←
    Level.chunkTextAtLevel ⟨sizes.headD 2048, input.overlap, 0, none⟩ fuel segments 0
  let below ← chunkBelow fuel input.overlap sizes.tail 1 level0 idCounter
  some (level0 ++ below)

/-! ## Termination -/

namespace Level

variable {level : Level}

theorem advance_gt (h : level.overlapTokens < level.maxTokens) (offset : Int) :
    offset < level.advance offset := by
  unfold advance
  split
  · exact Int.lt_of_lt_of_le (by omega) (Int.le_max_left _ _)
  · show offset < offset + ((level.maxTokens * 4 : Int) - level.overlapTokens * 4)
    omega

theorem advance_le (hmax : 0 < level.maxTokens) (h : level.maxTokens ≤ level.overlapTokens)
    (offset : Int) : level.advance offset ≤ offset := by
  have hguard : level.overlapTokens * 4 ≠ 0 := by omega
  unfold advance
  rw [if_neg hguard]
  omega

/-- A window that advances reaches the end of the segment. -/
theorem window_settles (h : level.overlapTokens < level.maxTokens) (segment : Segment)
    (state : Int × Chunking) :
    ∃ result, Settles (fun fuel => loop (inside segment) (level.window segment) fuel state)
      result := by
  refine loop_of_measure (fun _ => True) (fun state => ((segment.text.length : Int) - state.1).toNat)
    (fun state _ htest => ⟨trivial, ?_⟩) trivial
  have hinside : state.1 < segment.text.length := of_decide_eq_true htest
  have hadvance := advance_gt h state.1
  show ((segment.text.length : Int) - level.advance state.1).toNat <
    ((segment.text.length : Int) - state.1).toNat
  omega

variable {segment : Segment} {segments : List Segment}

/-- A window that does not advance stays before the end of the segment. -/
theorem window_eq_none (hmax : 0 < level.maxTokens) (h : level.maxTokens ≤ level.overlapTokens)
    (hlong : level.maxTokens < estimateTokens segment.text) (state : Chunking) (fuel : Nat) :
    loop (inside segment) (level.window segment) fuel (0, state) = none := by
  have hlength : 0 < segment.text.length := by
    unfold estimateTokens at hlong
    omega
  refine loop_eq_none (fun state => state.1 ≤ 0) (fun state hle => ⟨?_, ?_⟩) (Int.le_refl 0) fuel
  · exact decide_eq_true (show state.1 < segment.text.length by omega)
  · exact Int.le_trans (advance_le hmax h state.1) hle

/-- A segment is done with when the window advances or the segment is not cut. -/
theorem segmentStep_settles (state : Chunking)
    (h : level.overlapTokens < level.maxTokens ∨ estimateTokens segment.text ≤ level.maxTokens) :
    ∃ next, Settles (fun fuel => level.segmentStep fuel state segment) next := by
  unfold segmentStep
  by_cases hlong : level.maxTokens < estimateTokens segment.text
  · have hadvances : level.overlapTokens < level.maxTokens := h.resolve_right (by omega)
    obtain ⟨result, hresult⟩ := window_settles hadvances segment (0, level.flush state)
    simp only [if_pos hlong]
    exact ⟨result.2, hresult.map Prod.snd⟩
  · simp only [if_neg hlong]
    split
    · exact ⟨_, .pure _⟩
    · exact ⟨_, .pure _⟩

theorem segmentSteps_settles (state : Chunking) (h : level.overlapTokens < level.maxTokens ∨
      ∀ segment ∈ segments, estimateTokens segment.text ≤ level.maxTokens) :
    ∃ result, Settles (fun fuel => level.segmentSteps fuel state segments) result := by
  induction segments generalizing state with
  | nil => exact ⟨state, .pure state⟩
  | cons segment rest ih =>
    have hfirst := h.imp id fun hall => hall segment List.mem_cons_self
    have hrest := h.imp id fun hall other hother => hall other (List.mem_cons_of_mem _ hother)
    obtain ⟨next, hnext⟩ := segmentStep_settles state hfirst
    obtain ⟨result, hresult⟩ := ih next hrest
    exact ⟨result, hnext.bind hresult⟩

/-- A call is done when the window advances or no segment is cut. -/
theorem chunkTextAtLevel_settles (level : Level) (segments : List Segment) (idCounter : Nat)
    (h : level.overlapTokens < level.maxTokens ∨
      ∀ segment ∈ segments, estimateTokens segment.text ≤ level.maxTokens) :
    ∃ result, Settles (fun fuel => level.chunkTextAtLevel fuel segments idCounter) result := by
  obtain ⟨state, hstate⟩ := segmentSteps_settles ⟨[], [], [], 0, idCounter⟩ h
  exact ⟨_, hstate.map fun state => ((level.flush state).chunks, (level.flush state).idCounter)⟩

/-- A call gets stuck at the first segment that is cut, when the window does not advance. -/
theorem segmentSteps_eq_none (level : Level) (hmax : 0 < level.maxTokens)
    (h : level.maxTokens ≤ level.overlapTokens) (hmem : segment ∈ segments)
    (hlong : level.maxTokens < estimateTokens segment.text) (state : Chunking) (fuel : Nat) :
    level.segmentSteps fuel state segments = none := by
  induction segments generalizing state with
  | nil => exact absurd hmem List.not_mem_nil
  | cons first rest ih =>
    unfold segmentSteps
    by_cases hfirst : level.maxTokens < estimateTokens first.text
    · have hstuck : level.segmentStep fuel state first = none := by
        unfold segmentStep
        rw [if_pos hfirst, window_eq_none hmax h hfirst]
        rfl
      rw [hstuck]
      rfl
    · have hrest : segment ∈ rest := by
        rcases List.mem_cons.1 hmem with rfl | hrest
        · exact absurd hlong hfirst
        · exact hrest
      cases hstep : level.segmentStep fuel state first with
      | none => rfl
      | some next => exact ih hrest next

end Level

/-- A call terminates exactly when the window advances or there is nothing to cut. -/
theorem chunkTextAtLevel_terminates_iff (input : DocumentChunkInput) {size : Nat}
    (hsize : size ∈ input.chunkSizes) (levelIdx : Nat) (parentChunkId : Option String)
    (segments : List Segment) (idCounter : Nat) :
    (∃ fuel result, Level.chunkTextAtLevel ⟨size, input.overlap, levelIdx, parentChunkId⟩ fuel
      segments idCounter = some result) ↔
      input.overlap < size ∨ ∀ segment ∈ segments, estimateTokens segment.text ≤ size := by
  have hmax : 0 < size := Nat.lt_of_lt_of_le (by decide) (input.chunkSize_range size hsize).1
  constructor
  · rintro ⟨fuel, result, hresult⟩
    by_contra hstuck
    obtain ⟨hoverlap, hlong⟩ := not_or.1 hstuck
    obtain ⟨segment, hmem, hcut⟩ : ∃ segment ∈ segments, size < estimateTokens segment.text := by
      simpa using hlong
    unfold Level.chunkTextAtLevel at hresult
    rw [Level.segmentSteps_eq_none _ hmax (Nat.le_of_not_lt hoverlap) hmem hcut] at hresult
    cases hresult
  · intro h
    obtain ⟨result, fuel, hfuel⟩ := Level.chunkTextAtLevel_settles
      ⟨size, input.overlap, levelIdx, parentChunkId⟩ segments idCounter h
    exact ⟨fuel, result, hfuel fuel (le_refl fuel)⟩

/-- The call terminates for the smallest chunk size with the largest overlap that advances. -/
theorem chunkTextAtLevel_terminates_sample :
    ∃ fuel result, Level.chunkTextAtLevel ⟨16, 15, 0, none⟩ fuel
      [⟨List.replicate 65 0x61, "b1"⟩] 0 = some result :=
  (chunkTextAtLevel_terminates_iff
    ⟨[16], 15, by decide, by decide, by decide⟩ List.mem_cons_self 0 none _ 0).2 (.inl (by decide))

/-- With an overlap of the chunk size the first window is cut again and again. -/
theorem chunkTextAtLevel_stuck :
    ∃ input : DocumentChunkInput, input.chunkSizes = [16] ∧ input.overlap = 16 ∧
      ∀ fuel, Level.chunkTextAtLevel ⟨16, input.overlap, 0, none⟩ fuel
        [⟨List.replicate 65 0x61, "b1"⟩] 0 = none := by
  refine ⟨⟨[16], 16, by decide, by decide, by decide⟩, rfl, rfl, fun fuel => ?_⟩
  have hlong : 16 < estimateTokens (List.replicate 65 0x61) := by decide
  have hstuck := Level.segmentSteps_eq_none ⟨16, 16, 0, none⟩ (by decide) (by decide)
    (List.mem_singleton_self (⟨List.replicate 65 0x61, "b1"⟩ : Segment)) hlong
    ⟨[], [], [], 0, 0⟩ fuel
  unfold Level.chunkTextAtLevel
  rw [hstuck]
  rfl

/-! ## All levels -/

theorem chunkParents_settles {size overlap : Nat} (h : overlap < size) (levelIdx : Nat)
    (parents : List Chunk) (idCounter : Nat) :
    ∃ result, Settles (fun fuel => chunkParents fuel size overlap levelIdx parents idCounter)
      result := by
  induction parents generalizing idCounter with
  | nil => exact ⟨_, .pure _⟩
  | cons parent parents ih =>
    obtain ⟨children, hchildren⟩ := Level.chunkTextAtLevel_settles
      ⟨size, overlap, levelIdx, parent.chunkId⟩
      [⟨parent.text, parent.blockRefs.head?.getD parent.chunkId⟩] idCounter (.inl h)
    obtain ⟨_, hrest⟩ := ih children.2
    exact ⟨_, hchildren.bind (hrest.bind (.pure _))⟩

theorem chunkBelow_settles {overlap : Nat} {sizes : List Nat} (h : ∀ size ∈ sizes, overlap < size)
    (levelIdx : Nat) (parents : List Chunk) (idCounter : Nat) :
    ∃ result, Settles (fun fuel => chunkBelow fuel overlap sizes levelIdx parents idCounter)
      result := by
  induction sizes generalizing levelIdx parents idCounter with
  | nil => exact ⟨_, .pure _⟩
  | cons size sizes ih =>
    obtain ⟨children, hchildren⟩ :=
      chunkParents_settles (h size List.mem_cons_self) levelIdx parents idCounter
    obtain ⟨_, hbelow⟩ := ih (fun other hother => h other (List.mem_cons_of_mem _ hother))
      (levelIdx + 1) children.1 children.2
    exact ⟨_, hchildren.bind (hbelow.bind (.pure _))⟩

/-- Every level terminates when the overlap is smaller than each chunk size. -/
theorem chunkLevels_terminates (input : DocumentChunkInput)
    (h : ∀ size ∈ input.chunkSizes, input.overlap < size) (segments : List Segment) :
    ∃ fuel result, chunkLevels fuel input segments = some result := by
  have hsizes : ∀ size ∈ input.chunkSizes.mergeSort fun a b => b ≤ a, input.overlap < size :=
    fun size hsize => h size (List.mem_mergeSort.1 hsize)
  have hne : (input.chunkSizes.mergeSort fun a b => b ≤ a) ≠ [] := by
    intro hnil
    have hlength := congrArg List.length hnil
    rw [List.length_mergeSort, List.length_nil] at hlength
    have := input.length_chunkSizes.1
    omega
  obtain ⟨size, _, hsort⟩ := List.exists_cons_of_ne_nil hne
  rw [hsort] at hsizes
  obtain ⟨level0, hlevel0⟩ := Level.chunkTextAtLevel_settles ⟨size, input.overlap, 0, none⟩
    segments 0 (.inl (hsizes size List.mem_cons_self))
  obtain ⟨below, hbelow⟩ := chunkBelow_settles
    (fun other hother => hsizes other (List.mem_cons_of_mem _ hother)) 1 level0.1 level0.2
  obtain ⟨fuel, hfuel⟩ : Settles (fun fuel => chunkLevels fuel input segments)
      (level0.1 ++ below) := by
    unfold chunkLevels
    rw [hsort]
    exact hlevel0.bind (hbelow.bind (.pure _))
  exact ⟨fuel, _, hfuel fuel (le_refl fuel)⟩

end Groundlane.Chunks
