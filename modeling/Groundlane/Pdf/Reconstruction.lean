import Groundlane.Pdf.TableExtractor
import Mathlib.Algebra.BigOperators.Group.List.Basic
import Mathlib.Algebra.Order.Group.Abs
import Mathlib.Tactic.NormNum

/-!
# Reconstructed tables keep the text

The tables of a page are those of its maximal runs of rows with several items. Every item of such a
run is in exactly one cell, in its row and in a column close to it. What is joined in a cell stands
from left to right exactly if, of two items of a cell, the upper one is not to the right of the
lower one (`tables_reconstruct_iff`): rows hold items whose heights differ a little, and items are
sorted by height first (`uneven_row_reversed`).
-/

namespace Groundlane.Pdf

open Utf16 Clusters

/-! ## What is claimed -/

/-- The items in rows from top to bottom: a row holds what is within the threshold below its first
item, and the next row starts behind the threshold. -/
structure IsTextRows (items : List TextItem) (rows : List (List TextItem)) : Prop where
  perm : rows.flatten.Perm items
  inOrder : rows.flatten.Pairwise InOrder
  near : ∀ row ∈ rows, ∃ first rest, row = first :: rest ∧
    ∀ item ∈ rest, |item.y - first.y| ≤ rowMergeThreshold
  apart : rows.IsChain fun row next =>
    ∀ first ∈ row.head?, ∀ item ∈ next.head?, rowMergeThreshold < |item.y - first.y|

/-- A row that can be part of a table. -/
def isTableRow (row : List TextItem) : Bool := 2 ≤ row.length

/-- A run of rows that makes a table. -/
def IsTableRun (items : List TextItem) (start stop : Nat) : Prop :=
  IsMaximalRun isTableRow 2 (groupByY items) start stop

/-- The items of a row whose closest column is the one with the number. -/
def cellItems (columns : List ℚ) (row : List TextItem) (column : Nat) : List TextItem :=
  row.filter fun item => findClosestColumn item.x columns = column

/-- The cells hold every item of the row once, near its column, and join what they hold. -/
structure HoldsRow (columns : List ℚ) (row : List TextItem) (cells : List Text) : Prop where
  length : cells.length = columns.length
  joined : ∀ column < columns.length, cells[column]? =
    some (Trimming.join [0x20] ((cellItems columns row column).map TextItem.str))
  once : ((List.range columns.length).flatMap (cellItems columns row)).Perm row
  near : ∀ column, ∀ item ∈ cellItems columns row column,
    ∃ x, columns[column]? = some x ∧ |item.x - x| ≤ columnMergeThreshold

/-- What a cell joins stands from left to right. -/
def LeftToRight (columns : List ℚ) (row : List TextItem) : Prop :=
  ∀ column, (cellItems columns row column).Pairwise fun a b => a.x ≤ b.x

/-- The table holds the items of a run of rows. -/
structure Reconstructs (pageNumber : Nat) (run : List (List TextItem)) (table : ExtractedTable) :
    Prop where
  pageNumber : table.pageNumber = pageNumber
  rowCount : table.rowCount = run.length
  columnCount : table.columnCount = (columnsOf run).length
  rows : List.Forall₂ (HoldsRow (columnsOf run)) run table.rows
  leftToRight : ∀ row ∈ run, LeftToRight (columnsOf run) row

/-- The tables of a page are those of its maximal runs, in order, and hold their items. -/
def LosesNoText (items : List TextItem) (pageNumber : Nat) : Prop :=
  IsTextRows items (groupByY items) ∧
    ∃ places : List (Nat × Nat), places.Pairwise (fun left right => left.2 < right.1) ∧
      (∀ start stop, (start, stop) ∈ places ↔ IsTableRun items start stop) ∧
      List.Forall₂ (fun place table => Reconstructs pageNumber (slice (groupByY items) place) table)
        places (detectTables items pageNumber)

/-- In the rows of every run, of two items in one cell the upper one is not to the right. -/
def EvenCells (items : List TextItem) : Prop :=
  ∀ start stop, IsTableRun items start stop →
    ∀ row ∈ slice (groupByY items) (start, stop), ∀ a ∈ row, ∀ b ∈ row,
      findClosestColumn a.x (columnsOf (slice (groupByY items) (start, stop))) =
        findClosestColumn b.x (columnsOf (slice (groupByY items) (start, stop))) →
      a.y < b.y → a.x ≤ b.x

/-! ## Rows -/

/-- The items are too far from one another for one row. -/
def farRows (first item : TextItem) : Bool := rowMergeThreshold < |item.y - first.y|

theorem groupLoop_eq (rows : List (List TextItem)) (first : TextItem) (others rest : List TextItem) :
    groupLoop rows (first :: others) (some first.y) rest =
      rows ++ clustersFrom farRows first others rest := by
  induction rest generalizing rows first others with
  | nil => rfl
  | cons item rest ih =>
    have htest : ((some first.y).all fun y => decide (rowMergeThreshold < |item.y - y|)) =
        farRows first item := rfl
    unfold groupLoop clustersFrom
    rw [htest]
    split
    · have hstep := ih (rows ++ [first :: others]) item []
      simpa using hstep
    · exact ih rows first (others ++ [item])

variable (items : List TextItem) {row : List TextItem}

/-- The rows are the clusters of the sorted items. -/
theorem groupByY_eq : groupByY items = clusters farRows (items.insertionSort InOrder) := by
  unfold groupByY
  cases items.insertionSort InOrder with
  | nil => rfl
  | cons first rest => exact groupLoop_eq [] first [] rest

instance : Std.Total InOrder where
  total a b := by
    unfold InOrder
    rcases lt_trichotomy a.y b.y with hlt | heq | hgt
    · exact .inl (.inl hlt)
    · rcases le_total a.x b.x with hle | hle
      · exact .inl (.inr ⟨heq, hle⟩)
      · exact .inr (.inr ⟨heq.symm, hle⟩)
    · exact .inr (.inl hgt)

instance : IsTrans TextItem InOrder where
  trans a b c hab hbc := by
    unfold InOrder at *
    rcases hab with hab | ⟨hab, hx⟩
    · rcases hbc with hbc | ⟨hbc, -⟩
      · exact .inl (hab.trans hbc)
      · exact .inl (hbc ▸ hab)
    · rcases hbc with hbc | ⟨hbc, hx'⟩
      · exact .inl (hab ▸ hbc)
      · exact .inr ⟨hab.trans hbc, hx.trans hx'⟩

theorem isTextRows : IsTextRows items (groupByY items) := by
  rw [groupByY_eq]
  refine ⟨?_, ?_, ?_, ?_⟩
  · rw [flatten_clusters]
    exact List.perm_insertionSort InOrder items
  · rw [flatten_clusters]
    exact List.pairwise_insertionSort InOrder items
  · intro row hrow
    obtain ⟨first, rest, hcluster, hnear⟩ := near_clusters _ row hrow
    refine ⟨first, rest, hcluster, fun item hitem => ?_⟩
    simpa [farRows] using hnear item hitem
  · refine (apart_clusters _).imp fun row next hapart first hfirst item hitem => ?_
    simpa [farRows] using hapart first hfirst item hitem

/-- A row stands in the order of the sort. -/
theorem inOrder_of_mem {items row : List TextItem} (h : row ∈ groupByY items) :
    row.Pairwise InOrder :=
  (List.pairwise_flatten.1 (isTextRows items).inOrder).1 row h

/-! ## Columns -/

/-- A value that is too far behind a column for it. -/
def farColumns (threshold column value : ℚ) : Bool := threshold < value - column

theorem mergeLoop_eq (threshold : ℚ) (merged : List ℚ) (last : ℚ) (rest : List ℚ) :
    mergeLoop threshold (merged ++ [last]) rest =
      merged ++ last :: leadersFrom (farColumns threshold) last rest := by
  induction rest generalizing merged last with
  | nil => rfl
  | cons value rest ih =>
    have htest : ((merged ++ [last]).getLast?.all fun last => decide (threshold < value - last)) =
        farColumns threshold last value := by
      rw [List.getLast?_concat]
      rfl
    unfold mergeLoop leadersFrom
    rw [htest]
    split
    · rw [ih, List.append_assoc]
      rfl
    · exact ih merged last

/-- The merged values are the leaders of the sorted values. -/
theorem mergeCloseValues_eq (values : List ℚ) (threshold : ℚ) :
    mergeCloseValues values threshold =
      leaders (farColumns threshold) (values.eraseDups.insertionSort (· ≤ ·)) := by
  unfold mergeCloseValues
  cases values.eraseDups.insertionSort (· ≤ ·) with
  | nil => rfl
  | cons first rest => exact mergeLoop_eq threshold [] first rest

/-- Every item of a run has a column near it. -/
theorem exists_column {run : List (List TextItem)} {item : TextItem} (hrow : row ∈ run)
    (hitem : item ∈ row) : ∃ x ∈ columnsOf run, |item.x - x| ≤ columnMergeThreshold := by
  have hvalue : item.x ∈ (run.flatMap fun row => row.map TextItem.x).eraseDups := by
    rw [List.mem_eraseDups]
    exact List.mem_flatMap.2 ⟨row, hrow, List.mem_map_of_mem hitem⟩
  have hsorted := List.pairwise_insertionSort (· ≤ ·)
    (run.flatMap fun row => row.map TextItem.x).eraseDups
  obtain ⟨leader, hleader, hnear⟩ : ∃ leader ∈ leaders (farColumns columnMergeThreshold) _,
      leader = item.x ∨ (leader ≤ item.x ∧ farColumns columnMergeThreshold leader item.x = false) :=
    exists_leader hsorted item.x ((List.perm_insertionSort _ _).mem_iff.2 hvalue)
  refine ⟨leader, ?_, ?_⟩
  · unfold columnsOf
    rw [mergeCloseValues_eq]
    exact (List.perm_insertionSort _ _).mem_iff.2 hleader
  · rcases hnear with rfl | ⟨hle, hnot⟩
    · rw [sub_self, abs_zero]
      unfold columnMergeThreshold
      norm_num
    · rw [abs_of_nonneg (sub_nonneg.2 hle)]
      simpa [farColumns] using hnot

/-- The loop ends at the current column or at a later one, and none of them is closer. -/
theorem closestLoop_spec (x : ℚ) {columns seen rest : List ℚ} {closest : Nat} {minDist : ℚ}
    (hcolumns : columns = seen ++ rest)
    (hclosest : ∃ column, columns[closest]? = some column ∧ |x - column| = minDist)
    (hseen : ∀ column ∈ seen, minDist ≤ |x - column|) :
    ∃ column, columns[closestLoop x closest minDist seen.length rest]? = some column ∧
      ∀ other ∈ columns, |x - column| ≤ |x - other| := by
  induction rest generalizing seen closest minDist with
  | nil =>
    obtain ⟨column, hget, hdist⟩ := hclosest
    refine ⟨column, hget, fun other hother => ?_⟩
    rw [hdist]
    exact hseen other (by simpa [hcolumns] using hother)
  | cons next rest ih =>
    have hnext : columns = (seen ++ [next]) ++ rest := by simp [hcolumns]
    have hlength : (seen ++ [next]).length = seen.length + 1 := by simp
    unfold closestLoop
    dsimp only
    split
    · rename_i hcloser
      rw [← hlength]
      refine ih hnext ⟨next, by simp [hcolumns], rfl⟩ fun column hmem => ?_
      rcases List.mem_append.1 hmem with hmem | hmem
      · exact hcloser.le.trans (hseen column hmem)
      · rw [List.mem_singleton.1 hmem]
    · rename_i hnot
      rw [← hlength]
      refine ih hnext hclosest fun column hmem => ?_
      rcases List.mem_append.1 hmem with hmem | hmem
      · exact hseen column hmem
      · rw [List.mem_singleton.1 hmem]
        exact not_lt.1 hnot

/-- No column is closer than the one that is found. -/
theorem findClosestColumn_spec (x : ℚ) {columns : List ℚ} (h : columns ≠ []) :
    ∃ column, columns[findClosestColumn x columns]? = some column ∧
      ∀ other ∈ columns, |x - column| ≤ |x - other| := by
  cases columns with
  | nil => exact absurd rfl h
  | cons first rest =>
    refine @closestLoop_spec x _ [first] _ _ _ rfl ⟨first, rfl, rfl⟩ fun column hmem => ?_
    rw [List.mem_singleton.1 hmem]
    rfl

/-! ## Cells -/

theorem length_cellsOf (columns : List ℚ) (row : List TextItem) :
    (cellsOf columns row).length = columns.length := by
  have hlength : ∀ cells : List Text, (row.foldl (placeItem columns) cells).length = cells.length := by
    induction row with
    | nil => exact fun _ => rfl
    | cons item row ih =>
      intro cells
      rw [List.foldl_cons, ih]
      exact List.length_modify _ _ _
  rw [cellsOf, hlength, List.length_replicate]

/-- A cell joins the texts of its items. -/
theorem getElem?_cellsOf (columns : List ℚ) (row : List TextItem) {column : Nat}
    (hcolumn : column < columns.length) : (cellsOf columns row)[column]? =
      some (Trimming.join [0x20] ((cellItems columns row column).map TextItem.str)) := by
  -- What is placed into a cell is added to what is there.
  have hplaced : ∀ cells : List Text, (row.foldl (placeItem columns) cells)[column]? =
      cells[column]?.map fun cell => ((cellItems columns row column).map TextItem.str).foldl
        (fun text next => (if text.isEmpty then text else text ++ [0x20]) ++ next) cell := by
    induction row with
    | nil =>
      intro cells
      simp [cellItems]
    | cons item row ih =>
      intro cells
      rw [List.foldl_cons, ih]
      unfold placeItem cellItems
      rw [List.getElem?_modify]
      by_cases hclosest : findClosestColumn item.x columns = column
      · rw [List.filter_cons_of_pos (by simpa using hclosest)]
        simp only [if_pos hclosest]
        cases cells[column]? with
        | none => rfl
        | some cell =>
          have hadd : (if cell.isEmpty then item.str else cell ++ 0x20 :: item.str) =
              (if cell.isEmpty then cell else cell ++ [0x20]) ++ item.str := by
            cases cell <;> simp
          simp only [Option.map_eq_map, Option.map_some, List.map_cons, List.foldl_cons, hadd]
      · rw [List.filter_cons_of_neg (by simpa using hclosest)]
        simp [if_neg hclosest]
  rw [cellsOf, hplaced, List.getElem?_replicate, if_pos hcolumn]
  rfl

/-- Sorting by a key below a bound loses nothing. -/
theorem perm_flatMap_filter {key : TextItem → Nat} {count : Nat} (row : List TextItem)
    (h : ∀ item ∈ row, key item < count) :
    ((List.range count).flatMap fun n => row.filter fun item => key item = n).Perm row := by
  rw [List.perm_iff_count]
  intro item
  rw [List.count_flatMap]
  -- Only the list of its own key counts an item.
  have hother : ∀ n, n ≠ key item → n ∈ List.range count →
      (List.count item ∘ fun n => row.filter fun item => key item = n) n = 0 := by
    intro n hn _
    show List.count item (row.filter fun item => key item = n) = 0
    rw [List.count_eq_zero]
    simp [Ne.symm hn]
  rw [List.sum_map_eq_nsmul_single (key item) _ hother]
  show List.count (key item) (List.range count) •
    List.count item (row.filter fun other => key other = key item) = List.count item row
  rw [List.count_filter (by simp)]
  by_cases hitem : item ∈ row
  · have hrange : List.count (key item) (List.range count) = 1 :=
      List.count_eq_one_of_mem List.nodup_range (List.mem_range.2 (h item hitem))
    rw [hrange, one_nsmul]
  · rw [List.count_eq_zero.2 hitem, nsmul_zero]

/-- The cells of a row of a run hold it. -/
theorem holdsRow {run : List (List TextItem)} (hrow : row ∈ run) :
    HoldsRow (columnsOf run) row (cellsOf (columnsOf run) row) := by
  -- The closest column of an item is near it.
  have hclosest : ∀ item ∈ row, ∃ x, (columnsOf run)[findClosestColumn item.x (columnsOf run)]? =
      some x ∧ |item.x - x| ≤ columnMergeThreshold := by
    intro item hitem
    obtain ⟨x, hx, hnear⟩ := exists_column hrow hitem
    obtain ⟨column, hget, hleast⟩ := findClosestColumn_spec item.x (List.ne_nil_of_mem hx)
    exact ⟨column, hget, (hleast x hx).trans hnear⟩
  refine ⟨length_cellsOf _ row, fun column => getElem?_cellsOf _ row, ?_, ?_⟩
  · refine perm_flatMap_filter row fun item hitem => ?_
    obtain ⟨x, hget, -⟩ := hclosest item hitem
    exact (List.getElem?_eq_some_iff.1 hget).1
  · intro column item hitem
    obtain ⟨hmem, hcolumn⟩ := List.mem_filter.1 hitem
    obtain rfl := of_decide_eq_true hcolumn
    exact hclosest item hmem

/-- Cells stand from left to right exactly if, of two items in one, the upper one is not to the
right. -/
theorem leftToRight_iff (columns : List ℚ) (hrow : row.Pairwise InOrder) :
    LeftToRight columns row ↔ ∀ a ∈ row, ∀ b ∈ row,
      findClosestColumn a.x columns = findClosestColumn b.x columns → a.y < b.y → a.x ≤ b.x := by
  have hsorted : ∀ column, (cellItems columns row column).Pairwise InOrder := fun column =>
    hrow.filter _
  constructor
  · intro h a ha b hb hsame hlt
    have hboth := (h (findClosestColumn b.x columns)).and (hsorted (findClosestColumn b.x columns))
    have hmem : ∀ item ∈ row, findClosestColumn item.x columns = findClosestColumn b.x columns →
        item ∈ cellItems columns row (findClosestColumn b.x columns) := fun item hitem heq =>
      List.mem_filter.2 ⟨hitem, decide_eq_true heq⟩
    obtain ⟨i, hi, hgeta⟩ := List.mem_iff_getElem.1 (hmem a ha hsame)
    obtain ⟨j, hj, hgetb⟩ := List.mem_iff_getElem.1 (hmem b hb rfl)
    rcases Nat.lt_trichotomy i j with hij | hij | hij
    · have hleft := (List.pairwise_iff_getElem.1 hboth i j hi hj hij).1
      rwa [hgeta, hgetb] at hleft
    · subst hij
      rw [hgeta] at hgetb
      rw [hgetb]
    · -- The lower item cannot stand in front of the upper one.
      have hbefore := (List.pairwise_iff_getElem.1 hboth j i hj hi hij).2
      rw [hgeta, hgetb] at hbefore
      rcases hbefore with hgt | ⟨heq, -⟩
      · exact absurd hlt hgt.not_gt
      · exact absurd hlt heq.not_gt
  · intro h column
    refine (hsorted column).imp_of_mem ?_
    intro a b ha hb hinOrder
    obtain ⟨ha, hcolumn⟩ := List.mem_filter.1 ha
    obtain ⟨hb, hcolumn'⟩ := List.mem_filter.1 hb
    have hsame := (of_decide_eq_true hcolumn).trans (of_decide_eq_true hcolumn').symm
    rcases hinOrder with hlt | ⟨-, hle⟩
    · exact h a ha b hb hsame hlt
    · exact hle

/-! ## Tables -/

theorem tableUpTo_eq (rows : List (List TextItem)) (pageNumber i : Nat) (start : Option Nat) :
    tableUpTo rows pageNumber i start = (runsFrom.ended 2 i start).map fun place =>
      buildTable (slice rows place) pageNumber := by
  cases start with
  | none => rfl
  | some first =>
    unfold tableUpTo runsFrom.ended
    by_cases hlong : 2 ≤ i - first
    · simp [Option.filter_some, hlong]
    · simp [Option.filter_some, hlong]

theorem detectLoop_eq (rows : List (List TextItem)) (pageNumber i : Nat) (start : Option Nat)
    (rest : List (List TextItem)) : detectLoop rows pageNumber i start rest =
      (runsFrom isTableRow 2 i start rest).map fun place =>
        buildTable (slice rows place) pageNumber := by
  induction rest generalizing i start with
  | nil => exact tableUpTo_eq rows pageNumber i start
  | cons row rest ih =>
    unfold detectLoop runsFrom isTableRow
    simp only [decide_eq_true_eq]
    split
    · exact ih (i + 1) _
    · rw [List.map_append, ← tableUpTo_eq, ih]
      rfl

/-- The tables are those of the maximal runs. -/
theorem detectTables_eq (pageNumber : Nat) :
    detectTables items pageNumber = (runs isTableRow 2 (groupByY items)).map fun place =>
      buildTable (slice (groupByY items) place) pageNumber := by
  unfold detectTables
  dsimp only
  split
  · rename_i hfew
    -- A run has two rows.
    have hnone : runs isTableRow 2 (groupByY items) = [] := by
      rw [List.eq_nil_iff_forall_not_mem]
      rintro ⟨start, stop⟩ hmem
      have hrun := (mem_runs_iff (by decide)).1 hmem
      have hlong := hrun.long
      have hwithin := hrun.within
      omega
    rw [hnone]
    rfl
  · exact detectLoop_eq _ pageNumber 0 none _

theorem mem_of_mem_slice {rows : List (List TextItem)} {place : Nat × Nat}
    (h : row ∈ slice rows place) : row ∈ rows :=
  List.mem_of_mem_take (List.mem_of_mem_drop h)

/-- The table of a run holds its items; they stand from left to right exactly if the cells are
even. -/
theorem reconstructs_iff (pageNumber : Nat) (place : Nat × Nat) :
    Reconstructs pageNumber (slice (groupByY items) place)
        (buildTable (slice (groupByY items) place) pageNumber) ↔
      ∀ row ∈ slice (groupByY items) place,
        LeftToRight (columnsOf (slice (groupByY items) place)) row := by
  constructor
  · exact Reconstructs.leftToRight
  · intro h
    refine ⟨rfl, by simp [buildTable], rfl, ?_, h⟩
    rw [show (buildTable (slice (groupByY items) place) pageNumber).rows = (slice (groupByY items)
      place).map (cellsOf (columnsOf (slice (groupByY items) place))) from rfl,
      List.forall₂_map_right_iff, List.forall₂_same]
    exact fun row hrow => holdsRow hrow

/-- The places of the maximal runs in order are those that are collected. -/
theorem eq_runs {items : List TextItem} {places : List (Nat × Nat)}
    (hpairwise : places.Pairwise fun left right => left.2 < right.1)
    (hplaces : ∀ start stop, (start, stop) ∈ places ↔ IsTableRun items start stop) :
    places = runs isTableRow 2 (groupByY items) := by
  have hmem : ∀ place, place ∈ places ↔ place ∈ runs isTableRow 2 (groupByY items) := fun place =>
    (hplaces place.1 place.2).trans (mem_runs_iff (by decide)).symm
  -- A run starts in front of where it stops, so the starts alone are in order.
  have hstarts : ∀ {list : List (Nat × Nat)}, (∀ place ∈ list, place ∈ places) →
      list.Pairwise (fun left right => left.2 < right.1) →
        list.Pairwise (fun left right => left.1 < right.1) := by
    intro list hlist hpairs
    refine hpairs.imp_of_mem fun {left right} hleft _ hlt => ?_
    have hlong := ((hplaces left.1 left.2).1 (hlist left hleft)).long
    omega
  have : Std.Irrefl fun left right : Nat × Nat => left.1 < right.1 := ⟨fun _ => Nat.lt_irrefl _⟩
  have : Std.Antisymm fun left right : Nat × Nat => left.1 < right.1 :=
    ⟨fun _ _ hlt hgt => absurd hgt (Nat.lt_asymm hlt)⟩
  exact (hstarts (fun _ h => h) hpairwise).eq_of_mem_iff
    (hstarts (fun place => (hmem place).2) (pairwise_runs _)) hmem

/-- The tables of a page keep its text exactly if, in the rows of every run, of two items in one
cell the upper one is not to the right of the lower one. -/
theorem tables_reconstruct_iff (items : List TextItem) (pageNumber : Nat) :
    LosesNoText items pageNumber ↔ EvenCells items := by
  have heven : ∀ place, (∀ row ∈ slice (groupByY items) place,
      LeftToRight (columnsOf (slice (groupByY items) place)) row) ↔
        ∀ row ∈ slice (groupByY items) place, ∀ a ∈ row, ∀ b ∈ row,
          findClosestColumn a.x (columnsOf (slice (groupByY items) place)) =
            findClosestColumn b.x (columnsOf (slice (groupByY items) place)) →
          a.y < b.y → a.x ≤ b.x := fun place =>
    forall₂_congr fun row hrow => leftToRight_iff _ (inOrder_of_mem (mem_of_mem_slice hrow))
  unfold LosesNoText EvenCells
  rw [detectTables_eq]
  constructor
  · intro h start stop hrun
    obtain ⟨-, places, hpairwise, hplaces, htables⟩ := h
    rw [eq_runs hpairwise hplaces, List.forall₂_map_right_iff, List.forall₂_same] at htables
    have htable := htables (start, stop) ((mem_runs_iff (by decide)).2 hrun)
    exact (heven _).1 ((reconstructs_iff items pageNumber _).1 htable)
  · intro h
    refine ⟨isTextRows items, runs isTableRow 2 (groupByY items), pairwise_runs _,
      fun start stop => mem_runs_iff (by decide), ?_⟩
    rw [List.forall₂_map_right_iff, List.forall₂_same]
    rintro ⟨start, stop⟩ hmem
    have hrun : IsTableRun items start stop := (mem_runs_iff (by decide)).1 hmem
    exact (reconstructs_iff items pageNumber _).2 ((heven _).2 (h start stop hrun))

/-- In an uneven row, text that is further left but lower is joined behind what is right of it. -/
theorem uneven_row_reversed : ¬ ∀ items pageNumber, LosesNoText items pageNumber := by
  intro h
  -- `b` and `c` stand in one line, `a` one below it in front of `b`; a second row follows.
  obtain ⟨-, places, hpairwise, hplaces, htables⟩ := h
    [⟨[0x62], 10, 0, 4, 10⟩, ⟨[0x63], 100, 0, 4, 10⟩, ⟨[0x61], 5, 1, 4, 10⟩,
      ⟨[0x64], 5, 20, 4, 10⟩, ⟨[0x65], 100, 20, 4, 10⟩] 1
  rw [eq_runs hpairwise hplaces, detectTables_eq, List.forall₂_map_right_iff, List.forall₂_same]
    at htables
  have htable := htables (0, 2) (by decide +kernel)
  have hcell := htable.leftToRight
    [⟨[0x62], 10, 0, 4, 10⟩, ⟨[0x63], 100, 0, 4, 10⟩, ⟨[0x61], 5, 1, 4, 10⟩] (by decide +kernel) 0
  revert hcell
  decide +kernel

end Groundlane.Pdf
