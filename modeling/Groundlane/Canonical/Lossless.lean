import Groundlane.Canonical.CacheableCore
import Groundlane.Canonical.Layout

/-!
# Projections that lose nothing

What a projection of a valid envelope contains. A cell is written over by a later cell of the same
position, it is not written at all if its column is no array index, and the table is not projected
if some row is none. So the envelopes of one layout are all projected completely exactly if every
cell has a place of its own (`projected_iff`).
-/

namespace Groundlane.Canonical

open Sequential Utf16

/-! ## What is to be kept -/

/-- The texts of a block that are not to be lost. -/
def BlockBody.texts : BlockBody → List Text
  | text content => [content]
  | table cells => cells.map TableCell.content
  | asset .. => []
  | formula expression _ => [expression]

/-- The content contains the text as it is, or in a string of the JSON that it is. -/
def Holds (content text : Text) : Prop :=
  text <:+: content ∨ ∃ tree : Tree, content = tree.text ∧ tree.Contains text

/-- The envelope is projected, with every text unless the projection says that it is lossy. -/
def Projected (envelope : CanonicalDocumentEnvelope) (kind : Option ProjectionKind) : Prop :=
  ∃ result, projectCanonicalDocument envelope kind = .ok result ∧
    (result.lossy = false →
      ∀ block ∈ envelope.blocks, ∀ text ∈ block.body.texts, Holds result.content text)

/-- The position that the cell declares, as far as it is one of an array. -/
def TableCell.position (cell : TableCell) : Option Nat × Option Nat :=
  (cell.row.index, cell.col.index)

/-- Every cell has a place of its own. -/
def PlacedCells (cells : List TableCell) : Prop :=
  (∀ cell ∈ cells, ∃ row col, cell.position = (some row, some col)) ∧
    (cells.map TableCell.position).Nodup

/-- What the projection needs of the tables. -/
def Placed (envelope : CanonicalDocumentEnvelope) : ProjectionKind → Prop
  | .markdown => ∀ block ∈ envelope.blocks, ∀ cells, block.body = .table cells → PlacedCells cells
  | .all => TablesRendered envelope
  | .structured | .text => True

/-! ## Envelopes of one layout -/

def BlockBody.blank : BlockBody → BlockBody
  | table cells => table (cells.map fun cell => { cell with content := [] })
  | body => body

def DocumentBlock.blank (block : DocumentBlock) : DocumentBlock :=
  { block with body := block.body.blank }

/-- The envelopes differ in the contents of cells only. -/
def SameLayout (envelope other : CanonicalDocumentEnvelope) : Prop :=
  ∃ blocks, other = { envelope with blocks := blocks } ∧
    blocks.map DocumentBlock.blank = envelope.blocks.map DocumentBlock.blank

theorem validateBlock_blank (block : DocumentBlock) :
    validateBlock block.blank = validateBlock block := by
  unfold validateBlock DocumentBlock.blank
  cases block.body with
  | text _ => rfl
  | table _ => rfl
  | asset _ _ _ => rfl
  | formula _ _ => rfl

theorem validateBlocks_blank (blockIds : List Text) (blocks : List DocumentBlock) :
    validateBlocks blockIds (blocks.map DocumentBlock.blank) = validateBlocks blockIds blocks := by
  induction blocks generalizing blockIds with
  | nil => rfl
  | cons block rest ih =>
    rw [List.map_cons, validateBlocks, validateBlocks, validateBlock_blank, ih]
    rfl

/-- Contents of cells are not validated. -/
theorem SameLayout.validate {envelope other : CanonicalDocumentEnvelope}
    (h : SameLayout envelope other) : validateEnvelope other = validateEnvelope envelope := by
  obtain ⟨_, rfl, hblank⟩ := h
  have hblocks := congrArg (validateBlocks []) hblank
  rw [validateBlocks_blank, validateBlocks_blank] at hblocks
  unfold validateEnvelope
  dsimp only
  rw [hblocks]

variable {ordered : List DocumentBlock} {cells : List TableCell} {kind : Option ProjectionKind}
  {text : Text}

/-- What a table needs does not depend on the contents of its cells. -/
theorem blank_table {block other : DocumentBlock} (h : other.blank = block.blank)
    (hcells : other.body = .table cells) : ∃ cells', block.body = .table cells' ∧
      cells.map (fun cell => { cell with content := [] }) =
        cells'.map fun cell => { cell with content := [] } := by
  have hbody := congrArg DocumentBlock.body h
  simp only [DocumentBlock.blank, hcells, BlockBody.blank] at hbody
  cases hblock : block.body with
  | table cells' =>
    rw [hblock] at hbody
    exact ⟨cells', rfl, BlockBody.table.inj hbody⟩
  | text _ =>
    rw [hblock] at hbody
    cases hbody
  | asset _ _ _ =>
    rw [hblock] at hbody
    cases hbody
  | formula _ _ =>
    rw [hblock] at hbody
    cases hbody

theorem map_of_blank {α : Type} {f : TableCell → α}
    (hf : ∀ cell, f { cell with content := [] } = f cell) {cells cells' : List TableCell}
    (h : cells.map (fun cell => { cell with content := [] }) =
      cells'.map fun cell => { cell with content := [] }) : cells.map f = cells'.map f := by
  have hmap := congrArg (List.map f) h
  simpa only [List.map_map, Function.comp_def, hf] using hmap

/-- Every envelope of the layout has its cells placed if one has. -/
theorem Placed.of_sameLayout {envelope other : CanonicalDocumentEnvelope} {kind : ProjectionKind}
    (hplaced : Placed envelope kind) (h : SameLayout envelope other) : Placed other kind := by
  obtain ⟨blocks, rfl, hblank⟩ := h
  have hblock : ∀ block ∈ blocks, ∃ original ∈ envelope.blocks, block.blank = original.blank := by
    intro block hmem
    have hmap : block.blank ∈ envelope.blocks.map DocumentBlock.blank :=
      hblank ▸ List.mem_map_of_mem hmem
    obtain ⟨original, horiginal, heq⟩ := List.mem_map.1 hmap
    exact ⟨original, horiginal, heq.symm⟩
  cases kind with
  | structured => trivial
  | text => trivial
  | markdown =>
    intro block hmem cells hcells
    obtain ⟨original, horiginal, heq⟩ := hblock block hmem
    obtain ⟨cells', hcells', hmap⟩ := blank_table heq hcells
    obtain ⟨hindices, hnodup⟩ := hplaced original horiginal cells' hcells'
    have hpositions : cells.map TableCell.position = cells'.map TableCell.position :=
      map_of_blank (fun _ => rfl) hmap
    refine ⟨fun cell hcell => ?_, hpositions ▸ hnodup⟩
    obtain ⟨cell', hcell', hposition⟩ := List.mem_map.1 (hpositions ▸ List.mem_map_of_mem hcell)
    rw [← hposition]
    exact hindices cell' hcell'
  | all =>
    intro block hmem cells hcells
    obtain ⟨original, horiginal, heq⟩ := hblock block hmem
    obtain ⟨cells', hcells', hmap⟩ := blank_table heq hcells
    obtain ⟨hrows, hwidth⟩ := hplaced original horiginal cells' hcells'
    have hsame : cells.map TableCell.row = cells'.map TableCell.row :=
      map_of_blank (fun _ => rfl) hmap
    have hcols : cells.map TableCell.col = cells'.map TableCell.col :=
      map_of_blank (fun _ => rfl) hmap
    refine ⟨fun cell hcell => ?_, hcols ▸ hwidth⟩
    obtain ⟨cell', hcell', hrow⟩ := List.mem_map.1 (hsame ▸ List.mem_map_of_mem hcell)
    rw [← hrow]
    exact hrows cell' hcell'

/-! ## Placed cells are kept -/

theorem PlacedCells.rendered (h : PlacedCells cells) : Rendered cells := by
  refine ⟨fun cell hmem => ?_, ?_⟩
  · obtain ⟨row, col, hposition⟩ := h.1 cell hmem
    exact ⟨row, congrArg Prod.fst hposition⟩
  · by_cases hne : cells = []
    · subst hne
      exact ⟨0, rfl⟩
    · obtain ⟨top, htop, -⟩ := Number.index_maximum (List.map_eq_nil_iff.not.2 hne)
        (List.forall_mem_map.2 fun cell hmem => by
          obtain ⟨_, col, hposition⟩ := h.1 cell hmem
          exact ⟨col, congrArg Prod.snd hposition⟩)
      exact ⟨top + 1, Number.arrayLength_of_index htop⟩

/-- The columns of a row that are written are those of the positions in it. -/
theorem writesAt_columns (cells : List TableCell) (row : Nat) :
    (writesAt cells row).map Prod.fst =
      (cells.map TableCell.position).filterMap fun position =>
        if position.1 = some row then position.2 else none := by
  rw [writesAt, List.map_filterMap, List.filterMap_map]
  refine List.filterMap_congr fun cell _ => ?_
  show Option.map Prod.fst (if cell.row.index = some row then _ else none) =
    if cell.row.index = some row then cell.col.index else none
  by_cases h : cell.row.index = some row
  · rw [if_pos h, if_pos h, Option.map_map]
    exact Option.map_id'
  · rw [if_neg h, if_neg h]
    rfl

theorem rowLine_mem {row : Row} {rows : List Row} (h : row ∈ rows) :
    rowLine row ∈ tableLines rows := by
  cases rows with
  | nil => exact absurd h List.not_mem_nil
  | cons first rest =>
    rcases List.mem_cons.1 h with rfl | h
    · exact List.mem_cons_self
    · exact List.mem_cons_of_mem _ (List.mem_cons_of_mem _ (List.mem_map_of_mem h))

/-- The content of a cell with a place of its own is in the table. -/
theorem infix_table (h : PlacedCells cells) {cell : TableCell} (hmem : cell ∈ cells) :
    cell.content <:+: join (ascii "\n") (tableLines (laidRows cells)) := by
  obtain ⟨row, col, hposition⟩ := h.1 cell hmem
  have hrow : cell.row.index = some row := congrArg Prod.fst hposition
  have hcol : cell.col.index = some col := congrArg Prod.snd hposition
  have hwrite : (col, cell.content) ∈ writesAt cells row :=
    List.mem_filterMap.2 ⟨cell, hmem, by rw [if_pos hrow, hcol]; rfl⟩
  have hnodup : ((writesAt cells row).map Prod.fst).Nodup := by
    rw [writesAt_columns]
    refine h.2.filterMap fun left right column hleft hright => ?_
    rw [Option.mem_def, Option.ite_none_right_eq_some] at hleft hright
    exact Prod.ext (hleft.1.trans hright.1.symm) (hleft.2.trans hright.2.symm)
  have hentry : some cell.content ∈ laidRow cells row := by
    refine List.mem_map.2 ⟨col, List.mem_range.2 (Sparse.lt_extent hwrite), ?_⟩
    rw [Sparse.entryAt, Sparse.lastAt_of_nodup hwrite hnodup]
  have hline : cell.content <:+: rowLine (laidRow cells row) := by
    have hpart : cell.content <:+:
        join (ascii " | ") ((laidRow cells row).map fun cell => cell.getD []) :=
      infix_join_of_mem (List.mem_map.2 ⟨_, hentry, rfl⟩)
    exact hpart.trans ⟨ascii "| ", ascii " |", rfl⟩
  have hheight : row < tableHeight cells := by
    obtain ⟨_, htop, hbelow⟩ := tableHeight_spec (List.ne_nil_of_mem hmem) h.rendered.1
    obtain ⟨_, hlt, hother⟩ := hbelow cell hmem
    rw [tableHeight, htop]
    exact Option.some.inj (hother.symm.trans hrow) ▸ hlt
  have hlaid : laidRow cells row ∈ laidRows cells :=
    List.mem_map_of_mem (List.mem_range.2 hheight)
  exact hline.trans (infix_join_of_mem (rowLine_mem hlaid))

/-- A block is written with its texts if its cells are placed. -/
theorem blockToMarkdown_placed {block : DocumentBlock}
    (h : ∀ cells, block.body = .table cells → PlacedCells cells) :
    ∃ content, blockToMarkdown block = .ok content ∧
      ∀ text ∈ block.body.texts, text <:+: content := by
  unfold blockToMarkdown
  cases hbody : block.body with
  | text content =>
    exact ⟨content, rfl, fun text htext => List.mem_singleton.1 htext ▸ List.infix_rfl⟩
  | table cells =>
    refine ⟨_, tableToMarkdown_rendered (h cells hbody).rendered, fun text htext => ?_⟩
    obtain ⟨_, hmem, rfl⟩ := List.mem_map.1 htext
    exact infix_table (h cells hbody) hmem
  | asset assetRef _ altText => exact ⟨_, rfl, fun text htext => absurd htext List.not_mem_nil⟩
  | formula expression format =>
    cases format with
    | latex =>
      exact ⟨_, rfl, fun text htext =>
        List.mem_singleton.1 htext ▸ ⟨ascii "$$", ascii "$$", rfl⟩⟩
    | mathml => exact ⟨_, rfl, fun text htext => List.mem_singleton.1 htext ▸ List.infix_rfl⟩
    | plain => exact ⟨_, rfl, fun text htext => List.mem_singleton.1 htext ▸ List.infix_rfl⟩

/-- Blocks that are all written, with what is known of each, are joined. -/
theorem markdownOf_ok {good : DocumentBlock → Text → Prop}
    (h : ∀ block ∈ ordered, ∃ content, blockToMarkdown block = .ok content ∧ good block content) :
    ∃ content, markdownOf ordered = .ok content ∧
      ∀ block ∈ ordered, ∃ part, good block part ∧ part <:+: content := by
  choose! write hwrite hgood using h
  have htexts : ordered.mapM blockToMarkdown = .ok (ordered.map write) :=
    mapM_eq_ok.2 (List.forall₂_map_right_iff.2 (List.forall₂_same.2 hwrite))
  refine ⟨join (ascii "\n\n") (ordered.map write), ?_, fun block hmem =>
    ⟨write block, hgood block hmem, infix_join_of_mem (List.mem_map_of_mem hmem)⟩⟩
  rw [markdownOf, htexts]
  rfl

/-- The text projection has the texts of every block. -/
theorem infix_textOf {block : DocumentBlock} (hmem : block ∈ ordered)
    (htext : text ∈ block.body.texts) : text <:+: textOf ordered := by
  refine List.IsInfix.trans ?_ (infix_join_of_mem (List.mem_map_of_mem hmem))
  unfold blockToText
  cases hbody : block.body with
  | text content =>
    rw [hbody] at htext
    exact List.mem_singleton.1 htext ▸ List.infix_rfl
  | table cells =>
    rw [hbody] at htext
    obtain ⟨_, hcell, rfl⟩ := List.mem_map.1 htext
    exact infix_join_of_mem (List.mem_map_of_mem ((List.mem_insertionSort _).2 hcell))
  | asset assetRef _ altText =>
    rw [hbody] at htext
    exact absurd htext List.not_mem_nil
  | formula expression format =>
    rw [hbody] at htext
    exact List.mem_singleton.1 htext ▸ List.infix_rfl

/-- The texts of a block are among the strings of its JSON. -/
theorem texts_subset_strings {block : DocumentBlock} (htext : text ∈ block.body.texts) :
    text ∈ block.toTree.strings := by
  have hmembers : ∃ member ∈ block.body.members, text ∈ member.2.strings := by
    cases hbody : block.body with
    | text content =>
      rw [hbody] at htext
      exact ⟨_, List.mem_singleton_self _, htext⟩
    | table cells =>
      rw [hbody] at htext
      obtain ⟨cell, hcell, rfl⟩ := List.mem_map.1 htext
      refine ⟨_, List.mem_singleton_self _, Tree.mem_itemStrings.2
        ⟨cell.toTree, List.mem_map_of_mem hcell, Tree.mem_memberStrings.2
          ⟨(ascii "content", .str cell.content), ?_, .inr (List.mem_singleton_self _)⟩⟩⟩
      simp
    | asset assetRef _ altText =>
      rw [hbody] at htext
      exact absurd htext List.not_mem_nil
    | formula expression format =>
      rw [hbody] at htext
      exact ⟨_, List.mem_cons_self, htext⟩
  obtain ⟨member, hmember, hstring⟩ := hmembers
  refine Tree.mem_memberStrings.2 ⟨member, ?_, .inr hstring⟩
  exact List.mem_append_left _ (List.mem_append_right _ hmember)

theorem structuredTree_contains {envelope : CanonicalDocumentEnvelope} {block : DocumentBlock}
    (hmem : block ∈ ordered) (htext : text ∈ block.body.texts) :
    (structuredTree envelope ordered).Contains text := by
  refine ⟨text, ?_, List.infix_rfl⟩
  refine Tree.mem_memberStrings.2 ⟨(ascii "blocks", blocksTree ordered), by simp, .inr ?_⟩
  exact Tree.mem_itemStrings.2 ⟨_, List.mem_map_of_mem hmem, texts_subset_strings htext⟩

/-- A valid envelope whose cells are placed is projected with all its texts. -/
theorem projected_of_placed {envelope : CanonicalDocumentEnvelope}
    (h : validateEnvelope envelope = .ok ())
    (hplaced : Placed envelope (resolveProjectionKind kind)) : Projected envelope kind := by
  obtain ⟨ordered, hordered, hperm⟩ := orderedBlocks_ok (validateEnvelope_ok h)
  unfold Projected
  rw [projectCanonicalDocument_valid h]
  cases hkind : resolveProjectionKind kind with
  | markdown =>
    rw [hkind] at hplaced
    obtain ⟨content, hcontent, hkept⟩ := markdownOf_ok fun block hmem =>
      blockToMarkdown_placed (hplaced block (hperm.mem_iff.1 hmem))
    refine ⟨lossless envelope .markdown content, ?_, fun _ block hmem text htext => ?_⟩
    · show (orderedBlocksOrThrow envelope >>= _) = _
      rw [hordered]
      show (markdownOf ordered >>= _) = _
      rw [hcontent]
      rfl
    · obtain ⟨_, hpart, hinfix⟩ := hkept block (hperm.mem_iff.2 hmem)
      exact .inl ((hpart text htext).trans hinfix)
  | structured =>
    refine ⟨lossless envelope .structured (structuredTree envelope ordered).text, ?_,
      fun _ block hmem text htext => ?_⟩
    · show (orderedBlocksOrThrow envelope >>= _) = _
      rw [hordered]
      rfl
    · exact .inr ⟨_, rfl, structuredTree_contains (hperm.mem_iff.2 hmem) htext⟩
  | text =>
    obtain ⟨result, hresult, hlossy⟩ :
        ∃ result, projectToText envelope = .ok result ∧ result.lossy = true := by
      unfold projectToText
      rw [hordered]
      exact ⟨_, rfl, rfl⟩
    exact ⟨result, hresult, fun hlossless => absurd (hlossy.symm.trans hlossless) nofun⟩
  | all =>
    rw [hkind] at hplaced
    obtain ⟨texts, htexts⟩ := mapM_blockToMarkdown fun block hmem =>
      hplaced block (hperm.mem_iff.1 hmem)
    refine ⟨lossless envelope .all (bundleTree (join (ascii "\n\n") texts)
      (structuredTree envelope ordered).text (textOf ordered)).text, ?_,
      fun _ block hmem text htext => ?_⟩
    · show (orderedBlocksOrThrow envelope >>= _) = _
      rw [hordered]
      show (markdownOf ordered >>= _) = _
      rw [markdownOf, htexts]
      rfl
    · refine .inr ⟨_, rfl, textOf ordered, ?_, infix_textOf (hperm.mem_iff.2 hmem) htext⟩
      simp [bundleTree, Tree.strings, Tree.memberStrings]

/-! ## Cells without a place are lost -/

/-- The cell has no place in the grid once the others are there. -/
def Lost (cell : TableCell) (after : List TableCell) : Prop :=
  cell.col.index = none ∨ ∃ later ∈ after, later.position = cell.position

/-- A list with two members of one key has a member with a later one of its key. -/
theorem exists_repeated {α β : Type} {key : α → β} {list : List α} (h : ¬ (list.map key).Nodup) :
    ∃ before entry after, list = before ++ entry :: after ∧
      ∃ later ∈ after, key later = key entry := by
  induction list with
  | nil => exact absurd List.nodup_nil h
  | cons entry rest ih =>
    rw [List.map_cons, List.nodup_cons, not_and_or, not_not] at h
    rcases h with hmem | hrest
    · exact ⟨[], entry, rest, rfl, List.mem_map.1 hmem⟩
    · obtain ⟨before, other, after, rfl, hlater⟩ := ih hrest
      exact ⟨entry :: before, other, after, rfl, hlater⟩

theorem exists_lost (hrendered : Rendered cells) (h : ¬ PlacedCells cells) :
    ∃ before cell after, cells = before ++ cell :: after ∧ Lost cell after := by
  by_cases hnodup : (cells.map TableCell.position).Nodup
  · obtain ⟨cell, hcell⟩ := not_forall.1 fun hplaced => h ⟨hplaced, hnodup⟩
    obtain ⟨hmem, hposition⟩ := Classical.not_imp.1 hcell
    obtain ⟨before, after, rfl⟩ := List.append_of_mem hmem
    refine ⟨before, cell, after, rfl, .inl ?_⟩
    obtain ⟨row, hrow⟩ := hrendered.1 cell hmem
    cases hcol : cell.col.index with
    | none => rfl
    | some col => exact absurd ⟨row, col, Prod.ext hrow hcol⟩ hposition
  · obtain ⟨before, cell, after, hcells, hlater⟩ := exists_repeated hnodup
    exact ⟨before, cell, after, hcells, .inr hlater⟩

theorem writesAt_append (left right : List TableCell) (row : Nat) :
    writesAt (left ++ right) row = writesAt left row ++ writesAt right row :=
  List.filterMap_append

/-- The content of a lost cell does not change the table. -/
theorem tableToMarkdown_lost {before after : List TableCell} {cell : TableCell}
    (hrendered : Rendered (before ++ cell :: after)) (h : Lost cell after) (content : Text) :
    tableToMarkdown (before ++ { cell with content := content } :: after) =
      tableToMarkdown (before ++ cell :: after) := by
  have hrows : (before ++ { cell with content := content } :: after).map TableCell.row =
      (before ++ cell :: after).map TableCell.row := by
    rw [List.map_append, List.map_cons, List.map_append, List.map_cons]
  have hcols : (before ++ { cell with content := content } :: after).map TableCell.col =
      (before ++ cell :: after).map TableCell.col := by
    rw [List.map_append, List.map_cons, List.map_append, List.map_cons]
  have hother : Rendered (before ++ { cell with content := content } :: after) := by
    refine ⟨fun other hmem => ?_, hcols ▸ hrendered.2⟩
    obtain ⟨same, hsame, hrow⟩ := List.mem_map.1 (hrows ▸ List.mem_map_of_mem hmem)
    rw [← hrow]
    exact hrendered.1 same hsame
  have hlaid : ∀ row, laidRow (before ++ { cell with content := content } :: after) row =
      laidRow (before ++ cell :: after) row := by
    intro row
    have hwidth : tableWidth (before ++ { cell with content := content } :: after) =
        tableWidth (before ++ cell :: after) := by
      rw [tableWidth, tableWidth, hcols]
    rw [laidRow, laidRow, hwidth, writesAt_append, writesAt_append, writesAt_cons _ after,
      writesAt_cons cell after]
    by_cases hrow : cell.row.index = some row
    · cases hcol : cell.col.index with
      | none =>
        have hnone : ∀ text, writesAt [{ cell with content := text }] row = [] := by
          intro text
          simp [writesAt, hcol]
        rw [hnone content, show writesAt [cell] row = [] from hnone cell.content]
      | some col =>
        have hone : ∀ text,
            writesAt [{ cell with content := text }] row = [(col, text)] := by
          intro text
          simp [writesAt, hrow, hcol]
        rw [hone content, show writesAt [cell] row = [(col, cell.content)] from hone cell.content]
        refine Sparse.laid_overwritten ?_
        -- The later cell writes the same entry of the row.
        rcases h with hnone | ⟨later, hmem, hposition⟩
        · cases hnone.symm.trans hcol
        · refine ⟨(col, later.content), List.mem_filterMap.2 ⟨later, hmem, ?_⟩, rfl⟩
          have hrow' : later.row.index = some row := (congrArg Prod.fst hposition).trans hrow
          have hcol' : later.col.index = some col := (congrArg Prod.snd hposition).trans hcol
          rw [if_pos hrow', hcol']
          rfl
    · have hnone : ∀ text, writesAt [{ cell with content := text }] row = [] := by
        intro text
        simp [writesAt, hrow]
      rw [hnone content, show writesAt [cell] row = [] from hnone cell.content]
  rw [tableToMarkdown_rendered hother, tableToMarkdown_rendered hrendered, laidRows, laidRows,
    tableHeight, tableHeight, hrows, funext hlaid]

/-- A text that is held is not longer than the content. -/
theorem Holds.length_le {content text : Text} (h : Holds content text) :
    text.length ≤ content.length := by
  rcases h with hinfix | ⟨tree, rfl, value, hvalue, hinfix⟩
  · exact hinfix.length_le
  · calc
      text.length ≤ value.length := hinfix.length_le
      _ ≤ (quote value).length := length_le_quote value
      _ ≤ tree.text.length := (Tree.quote_infix_text hvalue).length_le

/-! ## Another table in an envelope -/

/-- The block with other cells if it has the ID. -/
def fill (blockId : Text) (cells : List TableCell) (block : DocumentBlock) : DocumentBlock :=
  if block.blockId = blockId then { block with body := .table cells } else block

theorem fill_blockId (blockId : Text) (cells : List TableCell) (block : DocumentBlock) :
    (fill blockId cells block).blockId = block.blockId := by
  unfold fill
  split
  · rfl
  · rfl

/-- The envelope with other cells in the block of the ID. -/
def CanonicalDocumentEnvelope.refill (envelope : CanonicalDocumentEnvelope) (blockId : Text)
    (cells : List TableCell) : CanonicalDocumentEnvelope :=
  { envelope with blocks := envelope.blocks.map (fill blockId cells) }

/-- The blocks are found in the same order. -/
theorem orderedBlocks_refill {envelope : CanonicalDocumentEnvelope} {blockId : Text}
    (h : orderedBlocksOrThrow envelope = .ok ordered) :
    orderedBlocksOrThrow (envelope.refill blockId cells) =
      .ok (ordered.map (fill blockId cells)) := by
  refine mapM_eq_ok.2 (List.forall₂_map_right_iff.2 ((mapM_eq_ok.1 h).imp fun id block hid => ?_))
  dsimp only [CanonicalDocumentEnvelope.refill]
  rw [List.find?_map]
  simp only [Function.comp_def, fill_blockId]
  cases hfind : envelope.blocks.find? fun block => block.blockId = id with
  | none =>
    rw [hfind] at hid
    cases hid
  | some found =>
    rw [hfind] at hid
    rw [Except.ok.inj hid]
    rfl

section

variable {envelope : CanonicalDocumentEnvelope} (h : validateEnvelope envelope = .ok ())
  {block : DocumentBlock} (hmem : block ∈ envelope.blocks) {before after : List TableCell}
  {cell : TableCell} (hcells : block.body = .table (before ++ cell :: after)) (content : Text)

include h hmem hcells

/-- The blocks with another content in the cell. -/
theorem fill_cases {other : DocumentBlock} (hother : other ∈ envelope.blocks) :
    fill block.blockId (before ++ { cell with content := content } :: after) other = other ∨
      other = block ∧ fill block.blockId (before ++ { cell with content := content } :: after)
        other = { block with
          body := .table (before ++ { cell with content := content } :: after) } := by
  unfold fill
  split
  · rename_i hid
    obtain rfl := List.inj_on_of_nodup_map (validateEnvelope_ok h).nodup hother hmem hid
    exact .inr ⟨rfl, rfl⟩
  · exact .inl rfl

/-- Another content of a cell keeps the layout. -/
theorem sameLayout_fill : SameLayout envelope
    (envelope.refill block.blockId (before ++ { cell with content := content } :: after)) := by
  refine ⟨_, rfl, ?_⟩
  rw [List.map_map]
  refine List.map_congr_left fun other hother => ?_
  show (fill _ _ other).blank = other.blank
  rcases fill_cases h hmem hcells content hother with hsame | ⟨rfl, hfill⟩
  · rw [hsame]
  · rw [hfill, DocumentBlock.blank, DocumentBlock.blank, hcells]
    simp [BlockBody.blank]

/-- The content of a lost cell does not change what is projected. -/
theorem mapM_fill (hrendered : Rendered (before ++ cell :: after)) (hlost : Lost cell after)
    (hperm : ordered.Perm envelope.blocks) {texts : List Text}
    (htexts : ordered.mapM blockToMarkdown = .ok texts) :
    (ordered.map (fill block.blockId (before ++ { cell with content := content } :: after))).mapM
      blockToMarkdown = .ok texts := by
  have hwritten : ∀ other ∈ ordered,
      blockToMarkdown (fill block.blockId (before ++ { cell with content := content } :: after)
        other) = blockToMarkdown other := by
    intro other hother
    rcases fill_cases h hmem hcells content (hperm.mem_iff.1 hother) with hsame | ⟨rfl, hfill⟩
    · rw [hsame]
    · rw [hfill, blockToMarkdown, blockToMarkdown, hcells]
      exact tableToMarkdown_lost hrendered hlost content
  refine mapM_eq_ok.2 (List.forall₂_map_left_iff.2 ?_)
  have hboth := (List.forall₂_and_left ordered texts).2 ⟨hwritten, mapM_eq_ok.1 htexts⟩
  exact hboth.imp fun other text hother => hother.1.trans hother.2

/-- A lost cell is missed in an envelope of the layout. -/
theorem not_projected_of_lost (hkind : resolveProjectionKind kind = .markdown)
    (hrendered : Rendered (before ++ cell :: after)) (hlost : Lost cell after) :
    ¬ ∀ other, SameLayout envelope other → Projected other kind := by
  intro hall
  obtain ⟨_, hordered, hperm⟩ := orderedBlocks_ok (validateEnvelope_ok h)
  obtain ⟨result, hresult, -⟩ := hall envelope ⟨envelope.blocks, rfl, rfl⟩
  rw [projectCanonicalDocument_valid h, hkind] at hresult
  obtain ⟨ordered', texts, hordered', htexts, rfl⟩ := projectToMarkdown_ok hresult
  obtain rfl := Except.ok.inj (hordered.symm.trans hordered')
  -- A content that is too long for what is projected.
  let long : Text := List.replicate ((join (ascii "\n\n") texts).length + 1) 0x61
  have hsame := sameLayout_fill h hmem hcells long
  obtain ⟨_, hresult, hkept⟩ := hall _ hsame
  rw [projectCanonicalDocument_valid (hsame.validate.trans h), hkind] at hresult
  obtain ⟨_, _, hordered', htexts', rfl⟩ := projectToMarkdown_ok hresult
  obtain rfl := Except.ok.inj ((orderedBlocks_refill hordered).symm.trans hordered')
  obtain rfl := Except.ok.inj
    (htexts'.symm.trans (mapM_fill h hmem hcells long hrendered hlost hperm htexts))
  have hheld := hkept rfl (fill block.blockId (before ++ { cell with content := long } :: after)
    block) (List.mem_map_of_mem hmem) long (by
      unfold fill
      rw [if_pos rfl]
      simp [BlockBody.texts])
  have hlength := hheld.length_le
  rw [List.length_replicate] at hlength
  exact Nat.not_succ_le_self _ hlength

end

/-- If every envelope of the layout is projected with its texts, the cells are placed. -/
theorem placed_of_projected {envelope : CanonicalDocumentEnvelope}
    (h : validateEnvelope envelope = .ok ())
    (hall : ∀ other, SameLayout envelope other → Projected other kind) :
    Placed envelope (resolveProjectionKind kind) := by
  obtain ⟨_, hordered, hperm⟩ := orderedBlocks_ok (validateEnvelope_ok h)
  obtain ⟨result, hresult, -⟩ := hall envelope ⟨envelope.blocks, rfl, rfl⟩
  rw [projectCanonicalDocument_valid h] at hresult
  cases hkind : resolveProjectionKind kind with
  | structured => trivial
  | text => trivial
  | all =>
    rw [hkind] at hresult
    have hproject : projectToAll envelope = .ok result := hresult
    obtain ⟨ordered', hordered', hresult⟩ := bind_eq_ok.1 hproject
    obtain rfl := Except.ok.inj (hordered.symm.trans hordered')
    obtain ⟨markdown, hmarkdown, -⟩ := bind_eq_ok.1 hresult
    obtain ⟨texts, htexts, -⟩ := bind_eq_ok.1 hmarkdown
    exact fun block hmem cells hcells =>
      rendered_of_mapM htexts (hperm.mem_iff.2 hmem) hcells
  | markdown =>
    rw [hkind] at hresult
    obtain ⟨_, _, hordered', htexts, rfl⟩ := projectToMarkdown_ok hresult
    obtain rfl := Except.ok.inj (hordered.symm.trans hordered')
    intro block hmem cells hcells
    have hrendered := rendered_of_mapM htexts (hperm.mem_iff.2 hmem) hcells
    by_contra hnot
    obtain ⟨_, _, _, rfl, hlost⟩ := exists_lost hrendered hnot
    exact not_projected_of_lost h hmem hcells hkind hrendered hlost hall

/-- The envelopes of a valid layout are projected with all their texts exactly if the cells are
placed as the projection needs it. -/
theorem projected_iff (envelope : CanonicalDocumentEnvelope)
    (h : validateEnvelope envelope = .ok ()) (kind : Option ProjectionKind) :
    (∀ other, SameLayout envelope other → Projected other kind) ↔
      Placed envelope (resolveProjectionKind kind) :=
  ⟨placed_of_projected h, fun hplaced _ hsame =>
    projected_of_placed (hsame.validate.trans h) (hplaced.of_sameLayout hsame)⟩

/-! ## Two cells of one position -/

/-- An envelope with one table. -/
def sampleTable (cells : List TableCell) : CanonicalDocumentEnvelope :=
  { sampleEnvelope [] none with blocks := [⟨ascii "b", .table cells, none⟩] }

def sampleCell (row col : Number) (content : String) : TableCell :=
  ⟨row, col, ascii content, none, none⟩

example : (sampleCell zero one "y").position = (some 0, some 1) := by decide +kernel

/-- Two cells side by side are both projected. -/
theorem projected_sample :
    Projected (sampleTable [sampleCell zero zero "x", sampleCell zero one "y"]) (some .markdown) :=
  (projected_iff (sampleTable [sampleCell zero zero "x", sampleCell zero one "y"])
    (by decide +kernel) (some .markdown)).2 (by
      intro block hmem cells hcells
      obtain rfl := List.mem_singleton.1 hmem
      obtain rfl := BlockBody.table.inj hcells
      refine ⟨?_, by decide +kernel⟩
      intro cell hcell
      rcases List.mem_cons.1 hcell with rfl | hcell
      · exact ⟨0, 0, by decide +kernel⟩
      · obtain rfl := List.mem_singleton.1 hcell
        exact ⟨0, 1, by decide +kernel⟩) _ ⟨_, rfl, rfl⟩

/-- Of two cells with one position the first one is lost. -/
theorem overwritten_cell_lost : ∃ envelope, validateEnvelope envelope = .ok () ∧
    ¬ Projected envelope (some .markdown) := by
  let envelope := sampleTable [sampleCell zero zero "the first text", sampleCell zero zero "y"]
  refine ⟨envelope, by decide +kernel, ?_⟩
  rintro ⟨result, hresult, hkept⟩
  have hvalue : (projectCanonicalDocument envelope (some .markdown)).toOption.map
      (fun result => (result.lossy, result.content)) = some (false, ascii "| y |\n| --- |") := by
    decide +kernel
  rw [hresult] at hvalue
  obtain ⟨hlossy, hcontent⟩ := Prod.mk.inj (Option.some.inj hvalue)
  have hheld := hkept hlossy _ List.mem_cons_self (ascii "the first text") List.mem_cons_self
  have hlength := hheld.length_le
  rw [hcontent] at hlength
  exact absurd hlength (by decide +kernel)

end Groundlane.Canonical
