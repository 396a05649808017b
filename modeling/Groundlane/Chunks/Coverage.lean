import Groundlane.Chunks.Bodies
import Mathlib.Data.List.Nodup
import Mathlib.Logic.Function.Iterate

/-!
# The text that a level keeps

The characters of the segments that are not white space are found in the chunks of a level, in
their order, when the windows over a segment that is too long overlap. Without an overlap the guard
of the loop moves each window one code unit too far, and the code unit between two windows is lost;
the exact condition is `chunking_keeps_text_iff`. The numbers of the chunks go up through all
levels, so no chunk ID is given twice (`chunkIds_nodup`).
-/

namespace Groundlane.Chunks

open Packing Sequential Trimming Utf16

/-- The characters that are not white space. -/
def visible (text : Text) : Text := text.filter fun unit => !isWhiteSpace unit

theorem visible_trim (text : Text) : visible (Utf16.trim text) = visible text :=
  filter_trim text

theorem visible_sublist (text : Text) : (visible text).Sublist text :=
  List.filter_sublist

theorem visible_append (left right : Text) :
    visible (left ++ right) = visible left ++ visible right :=
  List.filter_append _ _

theorem visible_flatMap {α : Type} (pieces : List α) (text : α → Text) :
    visible (pieces.flatMap text) = pieces.flatMap fun piece => visible (text piece) :=
  List.filter_flatMap

theorem visible_joined (segments : List Segment) :
    visible (joined segments) = segments.flatMap fun segment => visible segment.text := by
  have hseparator : ∀ unit ∈ ascii "\n\n", isWhiteSpace unit = true :=
    List.all_eq_true.1 (by decide +kernel)
  have hjoin := filter_join hseparator (segments.map Segment.text)
  rw [List.flatMap_map] at hjoin
  exact hjoin

/-! ## Lists that are put together from parts -/

variable {α β : Type} {f g : α → List β} {pieces : List α} {fuel : Nat}

theorem sublist_flatMap (h : ∀ piece ∈ pieces, (f piece).Sublist (g piece)) :
    (pieces.flatMap f).Sublist (pieces.flatMap g) := by
  induction pieces with
  | nil => exact .slnil
  | cons piece rest ih =>
    rw [List.flatMap_cons, List.flatMap_cons]
    exact (h piece List.mem_cons_self).append
      (ih fun other hother => h other (List.mem_cons_of_mem _ hother))

/-- No part is shorter when the whole is the same. -/
theorem eq_of_flatMap_eq (h : ∀ piece ∈ pieces, (f piece).Sublist (g piece))
    (heq : pieces.flatMap f = pieces.flatMap g) : ∀ piece ∈ pieces, f piece = g piece := by
  induction pieces with
  | nil => exact fun piece hpiece => absurd hpiece List.not_mem_nil
  | cons first rest ih =>
    have hfirst := h first List.mem_cons_self
    have hothers : ∀ piece ∈ rest, (f piece).Sublist (g piece) :=
      fun piece hpiece => h piece (List.mem_cons_of_mem _ hpiece)
    have hrest := sublist_flatMap hothers
    have hlength := congrArg List.length heq
    rw [List.flatMap_cons, List.flatMap_cons, List.length_append, List.length_append] at hlength
    have hle := hfirst.length_le
    have hle' := hrest.length_le
    have hsame := hrest.eq_of_length (by omega)
    intro piece hpiece
    rcases List.mem_cons.1 hpiece with rfl | hpiece
    · exact hfirst.eq_of_length (by omega)
    · exact ih hothers hsame piece hpiece

/-! ## What is kept -/

/-- What a level keeps of its segments: their visible characters are found in the chunks in their
order, and the windows over a segment that is too long, which start at the offsets to which the
loop advances, leave no gap between them. -/
structure KeepsText (level : Level) (segments : List Segment) (chunks : List Chunk) : Prop where
  covered : (segments.flatMap fun segment => visible segment.text).Sublist
    (chunks.flatMap Chunk.text)
  noGap : ∀ segment ∈ segments, level.maxTokens < estimateTokens segment.text →
    ∀ k, level.advance^[k + 1] 0 < segment.text.length →
      level.advance^[k + 1] 0 ≤ level.advance^[k] 0 + level.maxTokens * 4

variable {segments : List Segment} (idCounter : Nat) {chunks : List Chunk}

namespace Level

variable {level : Level}

theorem flatMap_text_number (bodies : List Body) :
    (level.number idCounter bodies).flatMap Chunk.text =
      bodies.flatMap fun body => Utf16.trim body.text := by
  have htexts : (level.number idCounter bodies).map Chunk.text =
      bodies.map fun body => Utf16.trim body.text := by
    refine List.ext_getElem (by simp [number]) fun i hleft hright => ?_
    simp [number, newChunk]
  rw [List.flatMap_def, List.flatMap_def, htexts]

theorem advance_iterate (h : level.overlapTokens < level.maxTokens) (k : Nat) :
    level.advance^[k] 0 = ((k * level.step : Nat) : Int) := by
  induction k with
  | zero => rw [Nat.zero_mul]; rfl
  | succ k ih => rw [Function.iterate_succ_apply', ih, advance_eq h, Nat.succ_mul]

/-- The text of the chunks of what is packed together. -/
def chunkText (level : Level) (bin : Bin Segment) : Text :=
  (level.bodies bin).flatMap fun body => Utf16.trim body.text

/-- The visible characters of what is packed together. -/
def visibleItems (bin : Bin Segment) : Text :=
  bin.items.flatMap fun segment => visible segment.text

theorem visible_chunkText_run (run : List Segment) :
    visible (level.chunkText (.run run)) = visibleItems (.run run) := by
  have hitems : visibleItems (.run run) = visible (Utf16.trim (joined run)) := by
    rw [visible_trim, visible_joined]
    rfl
  unfold chunkText
  rw [hitems]
  by_cases hblank : Utf16.trim (joined run) = []
  · rw [bodies_run_blank hblank, hblank]
    rfl
  · rw [bodies_run hblank, List.flatMap_singleton]

theorem visible_chunkText_single (segment : Segment) :
    visible (level.chunkText (.single segment)) =
      visible (windows level.step (level.maxTokens * 4) segment.text).flatten := by
  unfold chunkText bodies
  rw [List.flatMap_map, visible_flatMap, ← List.flatMap_id, visible_flatMap]
  exact List.flatMap_congr fun window _ => visible_trim window

theorem visibleItems_single (segment : Segment) :
    visibleItems (.single segment) = visible segment.text :=
  List.flatMap_singleton _ _

theorem visible_visibleItems (bin : Bin Segment) :
    visible (visibleItems bin) = visibleItems bin := by
  unfold visibleItems
  rw [visible_flatMap]
  refine List.flatMap_congr fun segment _ => ?_
  show (visible segment.text).filter _ = _
  exact List.filter_eq_self.2 fun unit hunit => (List.mem_filter.1 hunit).2

/-- With an overlap the windows keep the visible characters. -/
theorem visibleItems_sublist (h : level.overlapTokens < level.maxTokens)
    (hoverlap : level.overlapTokens ≠ 0) (bin : Bin Segment) :
    (visibleItems bin).Sublist (level.chunkText bin) := by
  cases bin with
  | run run =>
    rw [← visible_chunkText_run]
    exact visible_sublist _
  | single segment =>
    have hstep : level.step ≤ level.maxTokens * 4 := by
      unfold step
      rw [if_neg hoverlap]
      omega
    have hcovered := (sublist_windows (step_pos h) hstep segment.text).filter
      fun unit => !isWhiteSpace unit
    refine List.Sublist.trans ?_ (visible_sublist _)
    rw [visibleItems_single, visible_chunkText_single]
    exact hcovered

/-- Without an overlap a segment that is one code unit too long has one window, and its last code
unit is lost. -/
theorem visible_chunkText_last (hoverlap : level.overlapTokens = 0) {segment : Segment}
    {unit : UInt16} (hlength : segment.text.length = level.maxTokens * 4 + 1)
    (hlast : segment.text.getLast? = some unit) :
    visibleItems (.single segment) =
      visible (level.chunkText (.single segment)) ++ visible [unit] := by
  have hstep : level.step = level.maxTokens * 4 + 1 := if_pos hoverlap
  have hne : segment.text ≠ [] := by
    intro hnil
    rw [hnil] at hlength
    exact absurd hlength.symm (Nat.succ_ne_zero _)
  have hwindows : windows level.step (level.maxTokens * 4) segment.text =
      [segment.text.take (level.maxTokens * 4)] := by
    rw [hstep, windows_of_ne_nil (Nat.succ_pos _) hne,
      List.drop_eq_nil_of_le (by omega), windows_nil]
  have hsplit : segment.text = segment.text.take (level.maxTokens * 4) ++ [unit] := by
    have hdrop := List.dropLast_append_getLast? unit hlast
    rw [List.dropLast_eq_take, hlength, Nat.add_sub_cancel] at hdrop
    exact hdrop.symm
  rw [visible_chunkText_single, hwindows, List.flatten_singleton, ← visible_append, ← hsplit]
  exact visibleItems_single segment

/-- What is packed together makes up the segments. -/
theorem visibleItems_bins (level : Level) (segments : List Segment) :
    (level.bins [] segments).flatMap visibleItems =
      segments.flatMap fun segment => visible segment.text := by
  have hitems := @pack_items _ (fun segment => estimateTokens segment.text) level.maxTokens []
    segments
  conv_rhs => rw [← List.nil_append segments, ← hitems]
  rw [List.flatMap_assoc]
  rfl

theorem flatMap_text_chunks (level : Level) (segments : List Segment) (idCounter : Nat) :
    (level.number idCounter ((level.bins [] segments).flatMap level.bodies)).flatMap Chunk.text =
      (level.bins [] segments).flatMap level.chunkText := by
  rw [flatMap_text_number, List.flatMap_assoc]
  rfl

end Level

/-- Every segment that is cut into windows loses no visible character: the windows overlap, or
there is one window, and only white space behind it. -/
def WindowsKeepText (level : Level) (segments : List Segment) : Prop :=
  level.overlapTokens ≠ 0 ∨
    ∀ segment ∈ segments, level.maxTokens * 4 < segment.text.length →
      segment.text.length = level.maxTokens * 4 + 1 ∧
        ∃ unit, segment.text.getLast? = some unit ∧ isWhiteSpace unit = true

theorem long_iff_heavy (segment : Segment) (maxTokens : Nat) :
    maxTokens * 4 < segment.text.length ↔ maxTokens < estimateTokens segment.text := by
  rw [← Nat.not_le, ← Nat.not_le, estimateTokens_le_iff]

theorem keepsText_of_windows {level : Level} (h : level.overlapTokens < level.maxTokens)
    (idCounter : Nat) (hwindows : WindowsKeepText level segments) : KeepsText level segments
      (level.number idCounter ((level.bins [] segments).flatMap level.bodies)) where
  covered := by
    rw [Level.flatMap_text_chunks, ← Level.visibleItems_bins level]
    refine sublist_flatMap fun bin hbin => ?_
    by_cases hoverlap : level.overlapTokens = 0
    · cases bin with
      | run run =>
        rw [← Level.visible_chunkText_run]
        exact visible_sublist _
      | single segment =>
        obtain ⟨hmem, hheavy⟩ := heavy_of_single_mem hbin
        obtain ⟨hlength, unit, hlast, hblank⟩ := hwindows.resolve_left (not_not.2 hoverlap)
          segment hmem ((long_iff_heavy segment _).2 hheavy)
        have hunit : visible [unit] = [] := List.filter_cons_of_neg (by simp [hblank])
        rw [Level.visible_chunkText_last hoverlap hlength hlast, hunit, List.append_nil]
        exact visible_sublist _
    · exact Level.visibleItems_sublist h hoverlap bin
  noGap := by
    intro segment hsegment hheavy k hnext
    rw [Level.advance_iterate h, Level.advance_iterate h] at *
    unfold Level.step at *
    by_cases hoverlap : level.overlapTokens = 0
    · -- There is one window, so there is no next one.
      have hlength := (hwindows.resolve_left (not_not.2 hoverlap) segment hsegment
        ((long_iff_heavy segment _).2 hheavy)).1
      rw [if_pos hoverlap, Nat.succ_mul] at hnext
      omega
    · rw [if_neg hoverlap, Nat.succ_mul]
      omega

theorem windows_of_keepsText {level : Level} (h : level.overlapTokens < level.maxTokens)
    {idCounter : Nat} (hkeeps : KeepsText level segments
      (level.number idCounter ((level.bins [] segments).flatMap level.bodies))) :
    WindowsKeepText level segments := by
  by_cases hoverlap : level.overlapTokens = 0
  · have hlength : ∀ segment ∈ segments, level.maxTokens * 4 < segment.text.length →
        segment.text.length = level.maxTokens * 4 + 1 := by
      intro segment hmem hlong
      by_contra hne
      have hgap := hkeeps.noGap segment hmem ((long_iff_heavy segment _).1 hlong) 0
      rw [Level.advance_iterate h, Level.advance_iterate h] at hgap
      unfold Level.step at hgap
      rw [if_pos hoverlap, Nat.zero_mul] at hgap
      omega
    have hlast : ∀ segment ∈ segments, level.maxTokens * 4 < segment.text.length →
        ∃ unit, segment.text.getLast? = some unit ∧
          Level.visibleItems (.single segment) =
            visible (level.chunkText (.single segment)) ++ visible [unit] := by
      intro segment hmem hlong
      have hne : segment.text ≠ [] := List.ne_nil_of_length_pos (by omega)
      exact ⟨_, List.getLast?_eq_some_getLast hne, Level.visible_chunkText_last hoverlap
        (hlength segment hmem hlong) (List.getLast?_eq_some_getLast hne)⟩
    -- Nothing is kept that is not there, so nothing that is there is lost.
    have hkept : ∀ bin ∈ level.bins [] segments,
        (visible (level.chunkText bin)).Sublist (Level.visibleItems bin) := by
      intro bin hbin
      cases bin with
      | run run => exact Level.visible_chunkText_run run ▸ List.Sublist.refl _
      | single segment =>
        obtain ⟨hmem, hheavy⟩ := heavy_of_single_mem hbin
        obtain ⟨unit, -, hitems⟩ := hlast segment hmem ((long_iff_heavy segment _).2 hheavy)
        rw [hitems]
        exact List.sublist_append_left _ _
    have hcovered := hkeeps.covered.filter fun unit => !isWhiteSpace unit
    rw [Level.flatMap_text_chunks, ← Level.visibleItems_bins level] at hcovered
    have hall : ((level.bins [] segments).flatMap Level.visibleItems).Sublist
        ((level.bins [] segments).flatMap fun bin => visible (level.chunkText bin)) := by
      have hvisible : visible ((level.bins [] segments).flatMap Level.visibleItems) =
          (level.bins [] segments).flatMap Level.visibleItems := by
        rw [visible_flatMap]
        exact List.flatMap_congr fun bin _ => Level.visible_visibleItems bin
      rw [← visible_flatMap, ← hvisible]
      exact hcovered
    have hsame := eq_of_flatMap_eq hkept ((sublist_flatMap hkept).antisymm hall)
    refine .inr fun segment hmem hlong => ⟨hlength segment hmem hlong, ?_⟩
    obtain ⟨unit, hunit, hitems⟩ := hlast segment hmem hlong
    have hbin := hsame (.single segment)
      (single_mem_pack hmem ((long_iff_heavy segment _).1 hlong))
    rw [hitems] at hbin
    have hnone : visible [unit] = [] := List.self_eq_append_right.1 hbin
    refine ⟨unit, hunit, ?_⟩
    by_contra hvisible
    have hunit : visible [unit] = [unit] := List.filter_cons_of_pos (by simp [hvisible])
    rw [hunit] at hnone
    exact absurd hnone (List.cons_ne_nil _ _)
  · exact .inl hoverlap

/-- A level keeps its text exactly when no window loses a visible character. -/
theorem keepsText_iff {level : Level} (h : level.overlapTokens < level.maxTokens)
    (segments : List Segment) (idCounter : Nat) :
    KeepsText level segments
        (level.number idCounter ((level.bins [] segments).flatMap level.bodies)) ↔
      WindowsKeepText level segments :=
  ⟨windows_of_keepsText h, keepsText_of_windows h idCounter⟩

/-! ## Chunk IDs -/

/-- The number at the end of a chunk ID. -/
def idNumber (chunkId : String) : Nat :=
  Nat.ofDigitChars 10 (chunkId.toList.reverse.takeWhile (· ≠ '-')).reverse 0

theorem idNumber_newChunk (level : Level) (idCounter : Nat) (text : Text) (blockRefs : List String) :
    idNumber (level.newChunk idCounter text blockRefs).chunkId = idCounter := by
  have hdigits : ∀ c ∈ (Nat.toDigits 10 idCounter).reverse, decide (c ≠ '-') = true := by
    intro c hc
    have hdigit := Nat.isDigit_of_mem_toDigits (by decide) (by decide) (List.mem_reverse.1 hc)
    refine decide_eq_true fun hminus => ?_
    rw [hminus] at hdigit
    exact absurd hdigit (by decide)
  have htext : (level.newChunk idCounter text blockRefs).chunkId.toList =
      "chunk-L".toList ++ (toString level.level).toList ++ ['-'] ++ Nat.toDigits 10 idCounter := by
    show ("chunk-L" ++ toString level.level ++ "-" ++ toString idCounter).toList = _
    rw [String.toList_append, String.toList_append, String.toList_append]
    exact congrArg _ Nat.toList_repr
  unfold idNumber
  rw [htext, List.reverse_append, List.takeWhile_append_of_pos hdigits]
  simp only [List.reverse_append, List.reverse_singleton, List.singleton_append]
  rw [List.takeWhile_cons_of_neg (by decide), List.reverse_nil, List.nil_append,
    List.reverse_reverse]
  exact Nat.ofDigitChars_ten_toDigits

/-- Chunks that have the numbers from a counter on. -/
def Numbered (idCounter : Nat) (chunks : List Chunk) : Prop :=
  (chunks.map fun chunk => idNumber chunk.chunkId) = List.range' idCounter chunks.length

theorem Numbered.append {idCounter : Nat} {first second : List Chunk}
    (hfirst : Numbered idCounter first) (hsecond : Numbered (idCounter + first.length) second) :
    Numbered idCounter (first ++ second) := by
  unfold Numbered at *
  rw [List.map_append, hfirst, hsecond, List.length_append, List.range'_append_1]

theorem length_number (level : Level) (idCounter : Nat) (bodies : List Body) :
    (level.number idCounter bodies).length = bodies.length :=
  List.length_mapIdx

theorem numbered_number (level : Level) (idCounter : Nat) (bodies : List Body) :
    Numbered idCounter (level.number idCounter bodies) := by
  unfold Numbered
  refine List.ext_getElem (by simp) fun i hleft hright => ?_
  rw [List.getElem_map, List.getElem_range', Nat.one_mul]
  unfold Level.number
  rw [List.getElem_mapIdx]
  exact idNumber_newChunk level _ _ _

theorem chunkTextAtLevel_numbered {level : Level} {idCounter next : Nat} (h : 0 < level.maxTokens)
    (hresult : level.chunkTextAtLevel fuel segments idCounter = some (chunks, next)) :
    Numbered idCounter chunks ∧ next = idCounter + chunks.length := by
  obtain ⟨rfl, rfl⟩ := Prod.mk.inj (Level.chunkTextAtLevel_eq h hresult)
  exact ⟨numbered_number level idCounter _, congrArg _ (length_number level idCounter _).symm⟩

theorem chunkParents_numbered {fuel size overlap levelIdx : Nat} (h : 0 < size)
    {parents chunks : List Chunk} {idCounter next : Nat}
    (hresult : chunkParents fuel size overlap levelIdx parents idCounter = some (chunks, next)) :
    Numbered idCounter chunks ∧ next = idCounter + chunks.length := by
  induction parents generalizing idCounter chunks next with
  | nil =>
    obtain ⟨rfl, rfl⟩ := Prod.mk.inj (Option.some.inj hresult)
    exact ⟨rfl, rfl⟩
  | cons parent parents ih =>
    unfold chunkParents at hresult
    obtain ⟨⟨_, _⟩, hchildren, hresult⟩ := Option.bind_eq_some_iff.1 hresult
    obtain ⟨⟨_, _⟩, hrest, hresult⟩ := Option.bind_eq_some_iff.1 hresult
    obtain ⟨rfl, rfl⟩ := Prod.mk.inj (Option.some.inj hresult)
    obtain ⟨hfirst, rfl⟩ := chunkTextAtLevel_numbered h hchildren
    obtain ⟨hsecond, rfl⟩ := ih hrest
    refine ⟨hfirst.append hsecond, ?_⟩
    rw [List.length_append, Nat.add_assoc]

theorem chunkBelow_numbered {fuel overlap : Nat} {sizes : List Nat} (h : ∀ size ∈ sizes, 0 < size)
    {levelIdx : Nat} {parents : List Chunk} {idCounter : Nat}
    (hresult : chunkBelow fuel overlap sizes levelIdx parents idCounter = some chunks) :
    Numbered idCounter chunks := by
  induction sizes generalizing levelIdx parents idCounter chunks with
  | nil =>
    obtain rfl := Option.some.inj hresult
    rfl
  | cons size sizes ih =>
    unfold chunkBelow at hresult
    obtain ⟨⟨_, _⟩, hchildren, hresult⟩ := Option.bind_eq_some_iff.1 hresult
    obtain ⟨_, hbelow, hresult⟩ := Option.bind_eq_some_iff.1 hresult
    obtain rfl := Option.some.inj hresult
    obtain ⟨hfirst, rfl⟩ := chunkParents_numbered (h size List.mem_cons_self) hchildren
    exact hfirst.append (ih (fun other hother => h other (List.mem_cons_of_mem _ hother)) hbelow)

theorem sorted_sizes (input : DocumentChunkInput) :
    ∃ size sizes, (input.chunkSizes.mergeSort fun a b => b ≤ a) = size :: sizes := by
  refine List.exists_cons_of_ne_nil fun hnil => ?_
  have hlength := congrArg List.length hnil
  rw [List.length_mergeSort, List.length_nil] at hlength
  have := input.length_chunkSizes.1
  omega

/-- No chunk ID is given twice. -/
theorem chunkIds_nodup {input : DocumentChunkInput}
    (hresult : chunkLevels fuel input segments = some chunks) :
    (chunks.map Chunk.chunkId).Nodup := by
  obtain ⟨size, sizes, hsort⟩ := sorted_sizes input
  have hsizes : ∀ other ∈ size :: sizes, 0 < other := fun other hother =>
    Nat.lt_of_lt_of_le (by decide)
      (input.chunkSize_range other (List.mem_mergeSort.1 (hsort ▸ hother))).1
  unfold chunkLevels at hresult
  rw [hsort] at hresult
  obtain ⟨⟨level0, _⟩, hlevel0, hresult⟩ := Option.bind_eq_some_iff.1 hresult
  obtain ⟨below, hbelow, hresult⟩ := Option.bind_eq_some_iff.1 hresult
  obtain rfl := Option.some.inj hresult
  obtain ⟨hfirst, rfl⟩ :=
    chunkTextAtLevel_numbered (hsizes size List.mem_cons_self) hlevel0
  have hall := hfirst.append (chunkBelow_numbered
    (fun other hother => hsizes other (List.mem_cons_of_mem _ hother)) hbelow)
  have hnodup : (List.range' 0 (level0 ++ below).length).Nodup := List.nodup_range'
  rw [← hall] at hnodup
  refine List.Nodup.of_map idNumber ?_
  rw [List.map_map]
  exact hnodup

/-- A level keeps every visible character in order and leaves no gap between windows exactly when
no window loses a character, and no two chunks of all levels have the same ID. -/
theorem chunking_keeps_text_iff (level : Level) (h : level.overlapTokens < level.maxTokens)
    (segments : List Segment) (idCounter : Nat) :
    (∃ result, Settles (fun fuel => level.chunkTextAtLevel fuel segments idCounter) result ∧
      (KeepsText level segments result.1 ↔ WindowsKeepText level segments)) ∧
    ∀ (input : DocumentChunkInput) (segments : List Segment) (fuel : Nat) (chunks : List Chunk),
      chunkLevels fuel input segments = some chunks → (chunks.map Chunk.chunkId).Nodup :=
  ⟨⟨_, Level.chunkTextAtLevel_emits h segments idCounter, keepsText_iff h segments idCounter⟩,
    fun _ _ _ _ hresult => chunkIds_nodup hresult⟩

/-- A segment of 65 letters in two windows that overlap, and the chunks of two levels. -/
theorem chunking_keeps_text_sample :
    (∃ result, Settles (fun fuel => Level.chunkTextAtLevel ⟨16, 1, 0, none⟩ fuel
        [⟨List.replicate 65 0x61, "b1"⟩] 0) result ∧
      KeepsText ⟨16, 1, 0, none⟩ [⟨List.replicate 65 0x61, "b1"⟩] result.1) ∧
    ∃ fuel chunks, chunkLevels fuel ⟨[32, 16], 1, by decide, by decide, by decide⟩
        [⟨List.replicate 70 0x61, "b1"⟩] = some chunks ∧
      (chunks.map Chunk.chunkId).Nodup := by
  obtain ⟨⟨result, hresult, hkeeps⟩, hunique⟩ := chunking_keeps_text_iff ⟨16, 1, 0, none⟩
    (by decide) [⟨List.replicate 65 0x61, "b1"⟩] 0
  constructor
  · exact ⟨result, hresult, hkeeps.2 (.inl (by decide))⟩
  · obtain ⟨fuel, chunks, hchunks⟩ := chunkLevels_terminates
      ⟨[32, 16], 1, by decide, by decide, by decide⟩ (by decide) [⟨List.replicate 70 0x61, "b1"⟩]
    exact ⟨fuel, chunks, hchunks, hunique
      ⟨[32, 16], 1, by decide, by decide, by decide⟩ _ fuel chunks hchunks⟩

/-- Without an overlap the last letter of 65 is in no chunk. -/
theorem last_letter_lost :
    ∃ result, Level.chunkTextAtLevel ⟨16, 0, 0, none⟩ 2 [⟨List.replicate 65 0x61, "b1"⟩] 0 =
        some result ∧
      ¬ KeepsText ⟨16, 0, 0, none⟩ [⟨List.replicate 65 0x61, "b1"⟩] result.1 := by
  refine ⟨_, rfl, fun h => ?_⟩
  exact absurd h.covered.length_le (by decide)

end Groundlane.Chunks
