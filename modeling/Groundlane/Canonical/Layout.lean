import Groundlane.Canonical.Projection

/-!
# Tables as they are laid out

What `tableToMarkdown` writes, in closed form. A table is written if the row of every cell is an
array index and the largest column gives an array a length (`Rendered`). Then the entry at a
position is the content of the last cell that declares the position (`tableToMarkdown_rendered`).
-/

namespace Groundlane.Canonical

open Sequential Utf16

/-- The contents that the cells declare for the columns of a row, in their order. -/
def writesAt (cells : List TableCell) (row : Nat) : List (Nat × Text) :=
  cells.filterMap fun cell =>
    if cell.row.index = some row then cell.col.index.map fun col => (col, cell.content) else none

/-- The grid has a row for every cell, and a width. -/
def Rendered (cells : List TableCell) : Prop :=
  (∀ cell ∈ cells, ∃ row, cell.row.index = some row) ∧
    ∃ width, (Number.maximum (cells.map TableCell.col)).arrayLength = some width

def tableHeight (cells : List TableCell) : Nat :=
  (Number.maximum (cells.map TableCell.row)).arrayLength.getD 0

def tableWidth (cells : List TableCell) : Nat :=
  (Number.maximum (cells.map TableCell.col)).arrayLength.getD 0

/-- The row of the grid after all cells. -/
def laidRow (cells : List TableCell) (row : Nat) : Row :=
  Sparse.laid (tableWidth cells) [] (writesAt cells row)

def laidRows (cells : List TableCell) : List Row :=
  (List.range (tableHeight cells)).map (laidRow cells)

/-! ## The cells one after the other -/

theorem set_map_range {α : Type} (f : Nat → α) (n i : Nat) (entry : α) :
    ((List.range n).map f).set i entry =
      (List.range n).map fun j => if j = i then entry else f j := by
  refine List.ext_getElem? fun j => ?_
  rw [List.getElem?_set, List.getElem?_map, List.getElem?_map, List.length_map, List.length_range]
  by_cases hij : i = j
  · subst hij
    by_cases hlt : i < n
    · simp [hlt]
    · simp [hlt]
  · rw [if_neg hij]
    by_cases hlt : j < n
    · simp [hlt, Ne.symm hij]
    · simp [hlt]

variable {ordered : List DocumentBlock} {block : DocumentBlock} {rows : Nat → Row}

/-- One cell changes its own row only. -/
theorem setCell_rows {height row : Nat} {cell : TableCell} (hrow : row < height)
    (h : cell.row.index = some row) :
    setCell ((List.range height).map rows) cell = .ok ((List.range height).map fun other =>
      (writesAt [cell] other).foldl (fun cells write => Sparse.put cells write.1 write.2)
        (rows other)) := by
  unfold setCell
  rw [h, Option.bind_some, List.getElem?_map, List.getElem?_range hrow]
  dsimp only [Option.map_some]
  cases hcol : cell.col.index with
  | none =>
    refine congrArg Except.ok (List.map_congr_left fun other _ => ?_)
    by_cases hother : row = other
    · simp [writesAt, h, hcol, hother]
    · simp [writesAt, h, hother]
  | some col =>
    dsimp only
    rw [set_map_range]
    refine congrArg Except.ok (List.map_congr_left fun other _ => ?_)
    by_cases hother : other = row
    · subst hother
      simp [writesAt, h, hcol]
    · rw [if_neg hother]
      simp [writesAt, h, Ne.symm hother]

theorem writesAt_cons (cell : TableCell) (rest : List TableCell) (row : Nat) :
    writesAt (cell :: rest) row = writesAt [cell] row ++ writesAt rest row := by
  rw [writesAt, writesAt, writesAt, ← List.filterMap_append]
  rfl

variable {cells : List TableCell}

theorem foldlM_setCell {height : Nat}
    (h : ∀ cell ∈ cells, ∃ row < height, cell.row.index = some row) :
    cells.foldlM setCell ((List.range height).map rows) = .ok ((List.range height).map fun row =>
      (writesAt cells row).foldl (fun cells write => Sparse.put cells write.1 write.2)
        (rows row)) := by
  induction cells generalizing rows with
  | nil => rfl
  | cons cell rest ih =>
    obtain ⟨_, hrow, hindex⟩ := h cell List.mem_cons_self
    rw [List.foldlM_cons, setCell_rows hrow hindex]
    show rest.foldlM setCell _ = _
    rw [ih fun other hmem => h other (List.mem_cons_of_mem _ hmem)]
    refine congrArg Except.ok (List.map_congr_left fun other _ => ?_)
    rw [writesAt_cons cell rest, List.foldl_append]

/-- A cell whose row is no array index ends at an error. -/
theorem foldlM_setCell_error {grid : List Row} (h : ∃ cell ∈ cells, cell.row.index = none) :
    ∃ failure, cells.foldlM setCell grid = .error failure := by
  induction cells generalizing grid with
  | nil =>
    obtain ⟨_, hmem, -⟩ := h
    exact absurd hmem List.not_mem_nil
  | cons cell rest ih =>
    rw [List.foldlM_cons]
    cases hset : setCell grid cell with
    | error failure => exact ⟨failure, rfl⟩
    | ok next =>
      obtain ⟨other, hmem, hindex⟩ := h
      rcases List.mem_cons.1 hmem with rfl | hmem
      · rw [setCell, hindex, Option.bind_none] at hset
        cases hset
      · exact ih ⟨other, hmem, hindex⟩

/-! ## The whole table -/

theorem tableHeight_spec (hne : cells ≠ []) (h : ∀ cell ∈ cells, ∃ row, cell.row.index = some row) :
    ∃ top, (Number.maximum (cells.map TableCell.row)).arrayLength = some (top + 1) ∧
      ∀ cell ∈ cells, ∃ row < top + 1, cell.row.index = some row := by
  obtain ⟨top, htop, hle⟩ := Number.index_maximum (List.map_eq_nil_iff.not.2 hne)
    (List.forall_mem_map.2 h)
  refine ⟨top, Number.arrayLength_of_index htop, fun cell hmem => ?_⟩
  obtain ⟨row, hrow⟩ := h cell hmem
  exact ⟨row, Nat.lt_succ_of_le (hle _ (List.mem_map_of_mem hmem) row hrow), hrow⟩

theorem tableToMarkdown_rendered (h : Rendered cells) :
    tableToMarkdown cells = .ok (join (ascii "\n") (tableLines (laidRows cells))) := by
  unfold tableToMarkdown
  by_cases hne : cells = []
  · subst hne
    rfl
  rw [if_neg hne]
  obtain ⟨hrows, width, hwidth⟩ := h
  obtain ⟨top, htop, hbelow⟩ := tableHeight_spec hne hrows
  have hgrid : newGrid cells =
      .ok ((List.range (top + 1)).map fun _ => List.replicate width (some [])) := by
    rw [newGrid, htop]
    dsimp only
    rw [hwidth, List.map_const', List.length_range]
    rfl
  rw [hgrid]
  show (cells.foldlM setCell _ >>= fun grid => _) = _
  rw [foldlM_setCell hbelow]
  simp only [Sparse.foldl_put]
  show Except.ok _ = _
  have hlaid : ∀ row, laidRow cells row = Sparse.laid width [] (writesAt cells row) := by
    intro row
    rw [laidRow, tableWidth, hwidth, Option.getD_some]
  rw [laidRows, tableHeight, htop, Option.getD_some, funext hlaid]

theorem tableToMarkdown_error (h : ¬ Rendered cells) :
    ∃ failure, tableToMarkdown cells = .error failure := by
  unfold tableToMarkdown
  by_cases hne : cells = []
  · subst hne
    exact absurd ⟨fun _ hmem => absurd hmem List.not_mem_nil, 0, rfl⟩ h
  rw [if_neg hne]
  by_cases hrows : ∀ cell ∈ cells, ∃ row, cell.row.index = some row
  · -- The rows are there, so the width is not.
    obtain ⟨_, htop, -⟩ := tableHeight_spec hne hrows
    cases hwidth : (Number.maximum (cells.map TableCell.col)).arrayLength with
    | some width => exact absurd ⟨hrows, width, hwidth⟩ h
    | none =>
      rw [newGrid, htop]
      dsimp only
      rw [hwidth]
      exact ⟨.rangeError, rfl⟩
  · cases hgrid : newGrid cells with
    | error failure => exact ⟨failure, rfl⟩
    | ok grid =>
      obtain ⟨cell, hcell⟩ := not_forall.1 hrows
      obtain ⟨hmem, hrow⟩ := Classical.not_imp.1 hcell
      have hnone : cell.row.index = none :=
        Option.eq_none_iff_forall_ne_some.2 fun row heq => hrow ⟨row, heq⟩
      show ∃ failure, (cells.foldlM setCell grid >>= _) = .error failure
      obtain ⟨failure, herror⟩ := foldlM_setCell_error ⟨cell, hmem, hnone⟩
      exact ⟨failure, by rw [herror]; rfl⟩

/-! ## The blocks of an envelope -/

/-- All tables are rendered. -/
def TablesRendered (envelope : CanonicalDocumentEnvelope) : Prop :=
  ∀ block ∈ envelope.blocks, ∀ cells, block.body = .table cells → Rendered cells

theorem blockToMarkdown_rendered (h : ∀ cells, block.body = .table cells → Rendered cells) :
    ∃ content, blockToMarkdown block = .ok content := by
  unfold blockToMarkdown
  cases hbody : block.body with
  | text content => exact ⟨content, rfl⟩
  | table cells => exact ⟨_, tableToMarkdown_rendered (h cells hbody)⟩
  | asset assetRef _ altText => exact ⟨_, rfl⟩
  | formula expression format =>
    cases format with
    | latex => exact ⟨_, rfl⟩
    | mathml => exact ⟨_, rfl⟩
    | plain => exact ⟨_, rfl⟩

/-- Blocks whose tables are rendered are written. -/
theorem mapM_blockToMarkdown
    (h : ∀ block ∈ ordered, ∀ cells, block.body = .table cells → Rendered cells) :
    ∃ texts, ordered.mapM blockToMarkdown = .ok texts := by
  choose! write hwrite using fun block hmem => blockToMarkdown_rendered (h block hmem)
  exact ⟨ordered.map write,
    mapM_eq_ok.2 (List.forall₂_map_right_iff.2 (List.forall₂_same.2 hwrite))⟩

/-- What a projection to Markdown has done. -/
theorem projectToMarkdown_ok {envelope : CanonicalDocumentEnvelope} {result : ProjectionResult}
    (h : projectToMarkdown envelope = .ok result) :
    ∃ ordered texts, orderedBlocksOrThrow envelope = .ok ordered ∧
      ordered.mapM blockToMarkdown = .ok texts ∧
      result = lossless envelope .markdown (join (ascii "\n\n") texts) := by
  obtain ⟨ordered, hordered, h⟩ := bind_eq_ok.1 h
  obtain ⟨_, hcontent, h⟩ := bind_eq_ok.1 h
  obtain ⟨texts, htexts, hjoin⟩ := bind_eq_ok.1 hcontent
  obtain rfl := Except.ok.inj hjoin
  exact ⟨ordered, texts, hordered, htexts, (Except.ok.inj h).symm⟩

/-- If all blocks are written, their tables are rendered. -/
theorem rendered_of_mapM {texts : List Text} (h : ordered.mapM blockToMarkdown = .ok texts)
    (hmem : block ∈ ordered) (hcells : block.body = .table cells) : Rendered cells := by
  by_contra hnot
  obtain ⟨_, htext⟩ := ok_of_mem_mapM h hmem
  obtain ⟨_, hfailure⟩ := tableToMarkdown_error hnot
  rw [blockToMarkdown, hcells] at htext
  exact absurd (htext.symm.trans hfailure) nofun

end Groundlane.Canonical
