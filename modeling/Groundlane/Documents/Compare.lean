import Groundlane.Ordered.Subsequence
import Groundlane.Sequential.Loop
import Groundlane.Text.Utf16

/-!
# Comparing two lists of units

`computeDiff` of `tools/document-compare.ts`: a longest common subsequence, or a greedy one for
long lists, and a loop that merges the two lists along it. The loop has no default branch; it
terminates because what is left of the common subsequence is one of what is left of both lists
(`Merging.Along`). The result is an edit script, with as many unchanged units as possible where the
table was filled (`diff_is_edit_script`).
-/

namespace Groundlane.Documents

open Sequential Subsequence Utf16

/-! ## A common subsequence -/

/-- `dp`, where nothing is read before row or column 0. -/
abbrev Table := Nat → Nat → Nat

/-- `dp[i][j] = value`. -/
def Table.set (dp : Table) (i j value : Nat) : Table :=
  fun row column => if row = i ∧ column = j then value else dp row column

section

variable (a b : List Text)

/-- One cell. -/
def fillCell (dp : Table) (i j : Nat) : Table :=
  if a[i - 1]! = b[j - 1]! then dp.set i j (dp (i - 1) (j - 1) + 1)
  else dp.set i j (max (dp (i - 1) j) (dp i (j - 1)))

/-- The inner loop over the columns up to `j`. -/
def fillRow (dp : Table) (i : Nat) : Nat → Table
  | 0 => dp
  | j + 1 => fillCell a b (fillRow dp i j) i (j + 1)

/-- The outer loop over the rows up to `i`. -/
def fillRows : Nat → Table
  | 0 => fun _ _ => 0
  | i + 1 => fillRow a b (fillRows i) (i + 1) b.length

/-- The way back through the table. -/
def backtrack (dp : Table) (i j : Nat) (result : List Text) : List Text :=
  if i > 0 ∧ j > 0 then
    if a[i - 1]! = b[j - 1]! then backtrack dp (i - 1) (j - 1) (result ++ [a[i - 1]!])
    else if dp (i - 1) j ≥ dp i (j - 1) then backtrack dp (i - 1) j result
    else backtrack dp i (j - 1) result
  else result
termination_by i + j

/-- `bIndex.get(key)`: where `key` stands in `b`. -/
def bIndex (key : Text) : List Nat := (List.range b.length).filter fun j => b[j]! = key

/-- One item of `a`: the next place of it in `b` is taken. -/
def greedyStep (state : List Text × Int) (item : Text) : List Text × Int :=
  match (bIndex b item).find? fun (pos : Nat) => (pos : Int) > state.2 with
  | some pos => (state.1 ++ [item], pos)
  | none => state

/-- `computeLcsGreedy`. -/
def computeLcsGreedy : List Text := (a.foldl (greedyStep b) ([], -1)).1

/-- `computeLcs`. -/
def computeLcs : List Text :=
  if a.length * b.length > 10000000 then computeLcsGreedy a b
  else (backtrack a b (fillRows a b a.length) a.length b.length []).reverse

end

/-! ## The merge -/

inductive ChangeType where
  | added | removed | unchanged
  deriving DecidableEq

/-- One entry of the result. -/
structure Change where
  type : ChangeType
  content : Text

/-- The variables of the merge loop. -/
structure Merging where
  changes : List Change
  ai : Nat
  bi : Nat
  li : Nat

section

variable (a b lcs : List Text)

/-- The test of the loop. -/
def merging (state : Merging) : Bool := state.ai < a.length || state.bi < b.length

/-- One round of the loop; the last case is the default that the source does not have. -/
def mergeStep : Merging → Merging
  | state@⟨changes, ai, bi, li⟩ =>
    if li < lcs.length ∧ ai < a.length ∧ bi < b.length ∧ a[ai]! = lcs[li]! ∧
        b[bi]! = lcs[li]! then
      ⟨changes ++ [⟨.unchanged, a[ai]!⟩], ai + 1, bi + 1, li + 1⟩
    else if li < lcs.length ∧ ai < a.length ∧ a[ai]! ≠ lcs[li]! then
      ⟨changes ++ [⟨.removed, a[ai]!⟩], ai + 1, bi, li⟩
    else if li < lcs.length ∧ bi < b.length ∧ b[bi]! ≠ lcs[li]! then
      ⟨changes ++ [⟨.added, b[bi]!⟩], ai, bi + 1, li⟩
    else if li ≥ lcs.length ∧ ai < a.length then
      ⟨changes ++ [⟨.removed, a[ai]!⟩], ai + 1, bi, li⟩
    else if li ≥ lcs.length ∧ bi < b.length then
      ⟨changes ++ [⟨.added, b[bi]!⟩], ai, bi + 1, li⟩
    else state

/-- `computeDiff`. -/
def computeDiff (fuel : Nat) : Option (List Change) :=
  (loop (merging a b) (mergeStep a b (computeLcs a b)) fuel ⟨[], 0, 0, 0⟩).map Merging.changes

end

/-- The contents of the entries of the other types, in order. -/
def contentsWithout (type : ChangeType) (changes : List Change) : List Text :=
  (changes.filter fun change => change.type ≠ type).map Change.content

/-- The number of entries of a type. -/
def count (type : ChangeType) (changes : List Change) : Nat :=
  (changes.filter fun change => change.type = type).length

/-! ## The table -/

section

variable {a b : List Text}

/-- What is filled when the rows before `i` and `j` columns of row `i` are done. -/
def Filled (a b : List Text) (i j : Nat) (dp : Table) : Prop :=
  ∀ row column, row ≤ a.length → column ≤ b.length →
    (row < i ∨ (row = i ∧ column ≤ j) ∨ column = 0) → dp row column = longestBefore a b row column

variable {common l : List Text} {dp : Table} {i k : Nat}

theorem filled_fillCell {i j : Nat} (h : Filled a b (i + 1) j dp) (hi : i < a.length)
    (hj : j < b.length) : Filled a b (i + 1) (j + 1) (fillCell a b dp (i + 1) (j + 1)) := by
  have hvalue : fillCell a b dp (i + 1) (j + 1) =
      dp.set (i + 1) (j + 1) (longestBefore a b (i + 1) (j + 1)) := by
    unfold fillCell
    rw [longestBefore_succ hi hj, Nat.add_sub_cancel, Nat.add_sub_cancel, getElem!_pos a i hi,
      getElem!_pos b j hj, h i j (by omega) (by omega) (by omega),
      h i (j + 1) (by omega) (by omega) (by omega),
      h (i + 1) j (by omega) (by omega) (by omega)]
    split <;> rfl
  intro row column hrow hcolumn hdone
  rw [hvalue]
  unfold Table.set
  split
  · next hcell => rw [hcell.1, hcell.2]
  · exact h row column hrow hcolumn (by omega)

theorem filled_fillRow {i j : Nat} (h : Filled a b (i + 1) 0 dp) (hi : i < a.length)
    (hj : j ≤ b.length) : Filled a b (i + 1) j (fillRow a b dp (i + 1) j) := by
  induction j with
  | zero => exact h
  | succ j ih => exact filled_fillCell (ih (by omega)) hi hj

theorem filled_fillRows {i : Nat} (hi : i ≤ a.length) :
    Filled a b i b.length (fillRows a b i) := by
  induction i with
  | zero =>
    intro row column _ _ hdone
    show 0 = longestBefore a b row column
    rcases hdone with hrow | ⟨rfl, -⟩ | rfl
    · omega
    · exact (longestBefore_zero_left ..).symm
    · exact (longestBefore_zero_right ..).symm
  | succ i ih =>
    refine filled_fillRow (fun row column hrow hcolumn hdone => ?_) hi le_rfl
    exact ih (by omega) row column hrow hcolumn (by omega)

/-- The way back collects a longest common subsequence of the first units. -/
theorem backtrack_eq (hdp : Filled a b a.length b.length dp) (i j : Nat) (hi : i ≤ a.length)
    (hj : j ≤ b.length) (result : List Text) :
    ∃ common : List Text, backtrack a b dp i j result = result ++ common.reverse ∧
      common.Sublist (a.take i) ∧ common.Sublist (b.take j) ∧
      common.length = longestBefore a b i j := by
  fun_induction backtrack a b dp i j result with
  | case1 i j result hpos heq ih =>
    obtain ⟨i, rfl⟩ : ∃ n, i = n + 1 := ⟨i - 1, by omega⟩
    obtain ⟨j, rfl⟩ : ∃ n, j = n + 1 := ⟨j - 1, by omega⟩
    simp only [Nat.add_sub_cancel] at heq ih ⊢
    rw [getElem!_pos a i hi, getElem!_pos b j hj] at heq
    rw [getElem!_pos a i hi] at ih ⊢
    obtain ⟨common, hresult, ha, hb, hlength⟩ := ih (by omega) (by omega)
    refine ⟨common ++ [a[i]], ?_, ?_, ?_, ?_⟩
    · rw [hresult]
      simp
    · rw [← List.take_append_getElem hi]
      exact ha.append (List.Sublist.refl _)
    · rw [← List.take_append_getElem hj, heq]
      exact hb.append (List.Sublist.refl _)
    · rw [longestBefore_succ hi hj, if_pos heq, ← hlength, List.length_append]
      rfl
  | case2 i j result hpos hne hge ih =>
    obtain ⟨i, rfl⟩ : ∃ n, i = n + 1 := ⟨i - 1, by omega⟩
    obtain ⟨j, rfl⟩ : ∃ n, j = n + 1 := ⟨j - 1, by omega⟩
    simp only [Nat.add_sub_cancel] at hne hge ih ⊢
    rw [getElem!_pos a i hi, getElem!_pos b j hj] at hne
    rw [hdp i (j + 1) (by omega) hj (by omega), hdp (i + 1) j hi (by omega) (by omega)] at hge
    obtain ⟨common, hresult, ha, hb, hlength⟩ := ih (by omega) hj
    refine ⟨common, hresult, ha.trans ?_, hb, ?_⟩
    · exact (List.take_prefix_take_left (Nat.le_succ i)).sublist
    · rw [longestBefore_succ hi hj, if_neg hne, Nat.max_eq_left hge, hlength]
  | case3 i j result hpos hne hlt ih =>
    obtain ⟨i, rfl⟩ : ∃ n, i = n + 1 := ⟨i - 1, by omega⟩
    obtain ⟨j, rfl⟩ : ∃ n, j = n + 1 := ⟨j - 1, by omega⟩
    simp only [Nat.add_sub_cancel] at hne hlt ih ⊢
    rw [getElem!_pos a i hi, getElem!_pos b j hj] at hne
    rw [hdp i (j + 1) (by omega) hj (by omega), hdp (i + 1) j hi (by omega) (by omega)] at hlt
    obtain ⟨common, hresult, ha, hb, hlength⟩ := ih hi (by omega)
    refine ⟨common, hresult, ha, hb.trans ?_, ?_⟩
    · exact (List.take_prefix_take_left (Nat.le_succ j)).sublist
    · rw [longestBefore_succ hi hj, if_neg hne, Nat.max_eq_right (by omega), hlength]
  | case4 i j result hpos =>
    refine ⟨[], by simp, List.nil_sublist _, List.nil_sublist _, ?_⟩
    rcases Nat.eq_zero_or_pos i with rfl | hi
    · exact (longestBefore_zero_left ..).symm
    · obtain rfl : j = 0 := by omega
      exact (longestBefore_zero_right ..).symm

/-! ## The greedy subsequence -/

variable {state : List Text × Int} {done : List Text}

/-- What is collected comes from `a` so far and from `b` up to the last place. -/
theorem greedyStep_sublist (item : Text) (hlast : -1 ≤ state.2) (ha : state.1.Sublist done)
    (hb : state.1.Sublist (b.take (state.2 + 1).toNat)) :
    -1 ≤ (greedyStep b state item).2 ∧ (greedyStep b state item).1.Sublist (done ++ [item]) ∧
      (greedyStep b state item).1.Sublist (b.take ((greedyStep b state item).2 + 1).toNat) := by
  unfold greedyStep
  split
  · next pos hfind =>
      have hlater : state.2 < pos := by simpa using List.find?_some hfind
      obtain ⟨hpos, hitem⟩ : pos < b.length ∧ b[pos]! = item := by
        simpa [bIndex] using List.mem_of_find?_eq_some hfind
      rw [getElem!_pos b pos hpos] at hitem
      refine ⟨by omega, ha.append (List.Sublist.refl _), ?_⟩
      have hnext : ((pos : Int) + 1).toNat = pos + 1 := by omega
      rw [hnext, ← List.take_append_getElem hpos, hitem]
      refine List.Sublist.append (hb.trans ?_) (List.Sublist.refl _)
      exact (List.take_prefix_take_left (by omega)).sublist
  · exact ⟨hlast, ha.trans (List.sublist_append_left _ _), hb⟩

theorem foldl_greedyStep_sublist (rest : List Text) (hlast : -1 ≤ state.2)
    (ha : state.1.Sublist done) (hb : state.1.Sublist (b.take (state.2 + 1).toNat)) :
    (rest.foldl (greedyStep b) state).1.Sublist (done ++ rest) ∧
      (rest.foldl (greedyStep b) state).1.Sublist b := by
  induction rest generalizing done state with
  | nil => exact ⟨by simpa using ha, hb.trans (List.take_sublist _ _)⟩
  | cons item rest ih =>
    obtain ⟨hlast, ha, hb⟩ := greedyStep_sublist item hlast ha hb
    simpa using ih hlast ha hb

/-- What the merge relies on: a common subsequence, and a longest one within the bound. -/
theorem computeLcs_spec (a b : List Text) :
    (computeLcs a b).Sublist a ∧ (computeLcs a b).Sublist b ∧
      (a.length * b.length ≤ 10000000 →
        ∀ common : List Text, common.Sublist a → common.Sublist b →
          common.length ≤ (computeLcs a b).length) := by
  unfold computeLcs
  split
  · next hlong =>
      have hgreedy : (computeLcsGreedy a b).Sublist ([] ++ a) ∧
          (computeLcsGreedy a b).Sublist b :=
        foldl_greedyStep_sublist a (le_refl (-1 : Int)) (List.nil_sublist _) (List.nil_sublist _)
      exact ⟨hgreedy.1, hgreedy.2, fun hle => absurd hlong (by omega)⟩
  · obtain ⟨_, hresult, ha, hb, hlength⟩ :=
      backtrack_eq (filled_fillRows le_rfl) a.length b.length le_rfl le_rfl []
    rw [hresult, List.nil_append, List.reverse_reverse]
    rw [List.take_length] at ha hb
    refine ⟨ha, hb, fun _ other hothera hotherb => ?_⟩
    rw [hlength]
    exact length_le_longestBefore hothera hotherb

/-! ## The merge along it -/

@[simp] theorem contentsWithout_concat (type : ChangeType) (changes : List Change)
    (change : Change) :
    contentsWithout type (changes ++ [change]) =
      contentsWithout type changes ++ if change.type = type then [] else [change.content] := by
  unfold contentsWithout
  by_cases h : change.type = type <;> simp [h]

@[simp] theorem count_concat (type : ChangeType) (changes : List Change) (change : Change) :
    count type (changes ++ [change]) =
      count type changes + if change.type = type then 1 else 0 := by
  unfold count
  by_cases h : change.type = type <;> simp [h]

theorem take_succ_eq {l : List Text} {i : Nat} (hi : i < l.length) :
    l.take (i + 1) = l.take i ++ [l[i]!] := by
  rw [getElem!_pos l i hi, List.take_append_getElem hi]

/-- While some of the common subsequence is left, some of each list is. -/
theorem lt_of_drop_sublist (h : (common.drop i).Sublist (l.drop k)) (hi : i < common.length) :
    k < l.length := by
  have hlength := h.length_le
  rw [List.length_drop, List.length_drop] at hlength
  omega

theorem drop_sublist_both (h : (common.drop i).Sublist (l.drop k)) :
    (common.drop (i + 1)).Sublist (l.drop (k + 1)) := by
  simpa only [List.tail_drop] using h.tail

/-- A unit that is not the next one of the common subsequence can be passed. -/
theorem drop_sublist_one (h : (common.drop i).Sublist (l.drop k)) (hi : i < common.length)
    (hne : l[k]! ≠ common[i]!) : (common.drop i).Sublist (l.drop (k + 1)) := by
  have hk := lt_of_drop_sublist h hi
  rw [getElem!_pos l k hk, getElem!_pos common i hi] at hne
  rw [List.drop_eq_getElem_cons hi, List.drop_eq_getElem_cons hk] at h
  rw [List.drop_eq_getElem_cons hi]
  exact sublist_of_ne h (Ne.symm hne)

/-- What is left of the common subsequence is one of what is left of both lists, and the entries
so far spell what has been passed of each list. -/
structure Merging.Along (a b lcs : List Text) (state : Merging) : Prop where
  ai_le : state.ai ≤ a.length
  bi_le : state.bi ≤ b.length
  li_le : state.li ≤ lcs.length
  left : (lcs.drop state.li).Sublist (a.drop state.ai)
  right : (lcs.drop state.li).Sublist (b.drop state.bi)
  spells_a : contentsWithout .added state.changes = a.take state.ai
  spells_b : contentsWithout .removed state.changes = b.take state.bi
  unchanged : count .unchanged state.changes = state.li

/-- What is left of both lists. -/
def Merging.left (a b : List Text) (state : Merging) : Nat :=
  (a.length - state.ai) + (b.length - state.bi)

/-- Every round passes a unit. -/
theorem along_mergeStep {lcs : List Text} {state : Merging} (h : state.Along a b lcs)
    (hmore : merging a b state = true) :
    (mergeStep a b lcs state).Along a b lcs ∧
      (mergeStep a b lcs state).left a b < state.left a b := by
  obtain ⟨_, ai, bi, li⟩ := state
  obtain ⟨hai, hbi, hli, hleft, hright, hspellsA, hspellsB, hunchanged⟩ := h
  simp only [merging, Bool.or_eq_true, decide_eq_true_eq] at hmore
  dsimp only at hai hbi hli hleft hright hspellsA hspellsB hunchanged hmore
  unfold mergeStep
  dsimp only
  split
  · next hsame =>
      obtain ⟨hl, ha, hb, hal, hbl⟩ := hsame
      refine ⟨⟨ha, hb, hl, drop_sublist_both hleft, drop_sublist_both hright, ?_, ?_, ?_⟩, ?_⟩
      · simp [hspellsA, take_succ_eq ha]
      · simp [hspellsB, take_succ_eq hb, hal, hbl]
      · simp [hunchanged]
      · simp only [Merging.left]
        omega
  · next hnotsame =>
    split
    · next hremoved =>
        obtain ⟨hl, ha, hne⟩ := hremoved
        refine ⟨⟨ha, hbi, hli, drop_sublist_one hleft hl hne, hright, ?_, ?_, ?_⟩, ?_⟩
        · simp [hspellsA, take_succ_eq ha]
        · simpa using hspellsB
        · simpa using hunchanged
        · simp only [Merging.left]
          omega
    · next hnotremoved =>
      split
      · next hadded =>
          obtain ⟨hl, hb, hne⟩ := hadded
          refine ⟨⟨hai, hb, hli, hleft, drop_sublist_one hright hl hne, ?_, ?_, ?_⟩, ?_⟩
          · simpa using hspellsA
          · simp [hspellsB, take_succ_eq hb]
          · simpa using hunchanged
          · simp only [Merging.left]
            omega
      · next hnotadded =>
        -- With some of the common subsequence left, one of the first three branches was taken.
        have hdone : lcs.length ≤ li := by
          by_contra hl
          have hl : li < lcs.length := Nat.not_le.1 hl
          have ha := lt_of_drop_sublist hleft hl
          have hb := lt_of_drop_sublist hright hl
          have hal : a[ai]! = lcs[li]! := not_not.1 fun hne => hnotremoved ⟨hl, ha, hne⟩
          have hbl : b[bi]! = lcs[li]! := not_not.1 fun hne => hnotadded ⟨hl, hb, hne⟩
          exact hnotsame ⟨hl, ha, hb, hal, hbl⟩
        have hnone : lcs.drop li = [] := List.drop_eq_nil_of_le hdone
        rw [hnone] at hleft hright
        split
        · next hremoved =>
            refine ⟨⟨hremoved.2, hbi, hli, ?_, ?_, ?_, ?_, ?_⟩, ?_⟩
            · exact hnone ▸ List.nil_sublist _
            · exact hnone ▸ hright
            · simp [hspellsA, take_succ_eq hremoved.2]
            · simpa using hspellsB
            · simpa using hunchanged
            · simp only [Merging.left]
              omega
        · next hnone' =>
            have hb : bi < b.length := hmore.resolve_left fun ha => hnone' ⟨hdone, ha⟩
            rw [if_pos ⟨hdone, hb⟩]
            refine ⟨⟨hai, hb, hli, ?_, ?_, ?_, ?_, ?_⟩, ?_⟩
            · exact hnone ▸ hleft
            · exact hnone ▸ List.nil_sublist _
            · simpa using hspellsA
            · simp [hspellsB, take_succ_eq hb]
            · simpa using hunchanged
            · simp only [Merging.left]
              omega

/-- The loop ends, and its entries spell both lists along the common subsequence. -/
theorem computeDiff_settles (a b : List Text) :
    ∃ changes, Settles (fun fuel => computeDiff a b fuel) changes ∧
      contentsWithout .added changes = a ∧ contentsWithout .removed changes = b ∧
      count .unchanged changes = (computeLcs a b).length := by
  obtain ⟨ha, hb, -⟩ := computeLcs_spec a b
  have hstart : Merging.Along a b (computeLcs a b) ⟨[], 0, 0, 0⟩ :=
    ⟨Nat.zero_le _, Nat.zero_le _, Nat.zero_le _, ha, hb, rfl, rfl, rfl⟩
  obtain ⟨result, hresult⟩ := loop_of_measure (Merging.Along a b (computeLcs a b))
    (Merging.left a b) (fun _ => along_mergeStep) hstart
  refine ⟨result.changes, hresult.map Merging.changes, ?_⟩
  obtain ⟨fuel, hfuel⟩ := hresult
  obtain ⟨hend, hstop⟩ := loop_invariant (Merging.Along a b (computeLcs a b))
    (fun _ hinv hmore => (along_mergeStep hinv hmore).1) hstart (hfuel fuel le_rfl)
  simp only [merging, Bool.or_eq_false_iff, decide_eq_false_iff_not, Nat.not_lt] at hstop
  refine ⟨?_, ?_, ?_⟩
  · rw [hend.spells_a, List.take_of_length_le hstop.1]
  · rw [hend.spells_b, List.take_of_length_le hstop.2]
  · have hnone := hend.left
    rw [List.drop_eq_nil_of_le hstop.1, List.sublist_nil, List.drop_eq_nil_iff] at hnone
    exact hend.unchanged.trans (Nat.le_antisymm hend.li_le hnone)

end

/-- The comparison ends. Its unchanged and removed entries spell the first list, its unchanged and
added entries the second, and where the table was filled the unchanged entries are as many as a
longest common subsequence has. -/
theorem diff_is_edit_script (a b : List Text) :
    ∃ changes, Settles (fun fuel => computeDiff a b fuel) changes ∧
      contentsWithout .added changes = a ∧ contentsWithout .removed changes = b ∧
      (a.length * b.length ≤ 10000000 →
        ∃ common : List Text, common.Sublist a ∧ common.Sublist b ∧
          common.length = count .unchanged changes ∧
          ∀ other : List Text, other.Sublist a → other.Sublist b →
            other.length ≤ common.length) := by
  obtain ⟨changes, hsettles, ha, hb, hcount⟩ := computeDiff_settles a b
  obtain ⟨hsubA, hsubB, hlongest⟩ := computeLcs_spec a b
  exact ⟨changes, hsettles, ha, hb, fun hbound =>
    ⟨computeLcs a b, hsubA, hsubB, hcount.symm, hlongest hbound⟩⟩

end Groundlane.Documents
