import Mathlib.Data.List.Sort
import Groundlane.Canonical.Envelope
import Groundlane.Ordered.Sparse
import Groundlane.Text.Utf8

/-!
# Projections of the canonical document

The projections of `core/canonical-document.ts` and their bounds. A table is written from a grid of
arrays; `setCell` says where a cell ends up: in the grid, under a property of an array that is not
written (a column that is no array index), or at an error (a row that is not in the grid).
-/

namespace Groundlane.Canonical

open Sequential Utf16

/-! ## Blocks -/

/-- An array of strings; `none` is a hole. -/
abbrev Row := List (Option Text)

/-- `grid[cell.row]![cell.col] = cell.content`. -/
def setCell (grid : List Row) (cell : TableCell) : Checked (List Row) :=
  match cell.row.index.bind fun row => grid[row]?.map fun cells => (row, cells) with
  | none => .error .typeError
  | some (row, cells) =>
    match cell.col.index with
    | none => .ok grid
    | some col => .ok (grid.set row (Sparse.put cells col cell.content))

/-- An array of the length. -/
def newArray {α : Type} (length : Option Nat) (entry : α) : Checked (List α) :=
  match length with
  | none => .error .rangeError
  | some length => .ok (List.replicate length entry)

/-- The empty grid; its rows are made only if there are any. -/
def newGrid (cells : List TableCell) : Checked (List Row) :=
  match (Number.maximum (cells.map TableCell.row)).arrayLength with
  | none => .error .rangeError
  | some 0 => .ok []
  | some (height + 1) => do
    let row ← newArray (Number.maximum (cells.map TableCell.col)).arrayLength (some [])
    .ok (List.replicate (height + 1) row)

/-- A line of the table. -/
def rowLine (row : Row) : Text :=
  ascii "| " ++ join (ascii " | ") (row.map fun cell => cell.getD []) ++ ascii " |"

/-- The line below the first one; holes stay holes. -/
def ruleLine (row : Row) : Text :=
  rowLine (row.map fun cell => cell.map fun _ => ascii "---")

/-- The lines of the grid. Once every cell has its row, the rows up to the largest one are those
of the grid. -/
def tableLines : List Row → List Text
  | [] => []
  | row :: rest => rowLine row :: ruleLine row :: rest.map rowLine

def tableToMarkdown (cells : List TableCell) : Checked Text :=
  if cells = [] then .ok []
  else do
    let grid ← newGrid cells
    let grid ← cells.foldlM setCell grid
    .ok (join (ascii "\n") (tableLines grid))

def blockToMarkdown (block : DocumentBlock) : Checked Text :=
  match block.body with
  | .text content => .ok content
  | .table cells => tableToMarkdown cells
  | .asset assetRef _ altText =>
    .ok (ascii "![" ++ altText.getD assetRef ++ ascii "](" ++ assetRef ++ ascii ")")
  | .formula expression .latex => .ok (ascii "$$" ++ expression ++ ascii "$$")
  | .formula expression _ => .ok expression

/-- The order of cells: by row, then by column. -/
def cellBefore (left right : TableCell) : Prop :=
  left.row.lt right.row = true ∨ (right.row.lt left.row = false ∧ right.col.lt left.col = false)

instance : DecidableRel cellBefore := fun _ _ => inferInstanceAs (Decidable (_ ∨ _))

def blockToText (block : DocumentBlock) : Text :=
  match block.body with
  | .text content => content
  | .table cells => join (ascii "\t") ((cells.insertionSort cellBefore).map TableCell.content)
  | .asset assetRef _ altText => altText.getD (ascii "[asset:" ++ assetRef ++ ascii "]")
  | .formula expression _ => expression

/-! ## Projections -/

inductive ProjectionKind where
  | markdown
  | structured
  | text
  | all
deriving DecidableEq, Repr

structure ProjectionResult where
  projectionVersion : String
  sourceDocumentId : Text
  canonicalContentId : Text
  kind : ProjectionKind
  content : Text
  lossy : Bool
  omissions : List String
  warnings : List String

def projectionVersion : String := "1.0.0"

/-- The blocks in reading order. -/
def orderedBlocksOrThrow (envelope : CanonicalDocumentEnvelope) : Checked (List DocumentBlock) :=
  envelope.readingOrder.mapM fun id =>
    match envelope.blocks.find? fun block => block.blockId = id with
    | none => .error (blockError "Block" id " not found")
    | some block => .ok block

def computeTextOmissions (blocks : List DocumentBlock) : List String :=
  (if blocks.any fun block => block.body.type = "table" then ["table-structure"] else []) ++
  (if blocks.any fun block => block.body.type = "asset" then ["asset-bytes"] else []) ++
  (if blocks.any fun block => block.body.type = "formula" then ["formula-formatting"] else [])

/-- A projection of the envelope without omissions. -/
def lossless (envelope : CanonicalDocumentEnvelope) (kind : ProjectionKind) (content : Text) :
    ProjectionResult :=
  ⟨projectionVersion, envelope.documentId, envelope.canonicalContentId, kind, content, false, [],
    []⟩

def markdownOf (ordered : List DocumentBlock) : Checked Text := do
  let texts ← ordered.mapM blockToMarkdown
  .ok (join (ascii "\n\n") texts)

def textOf (ordered : List DocumentBlock) : Text :=
  join (ascii "\n\n") (ordered.map blockToText)

/-- `JSON.stringify(\x7b readingOrder, blocks \x7d)`. -/
def structuredTree (envelope : CanonicalDocumentEnvelope) (ordered : List DocumentBlock) : Tree :=
  .obj [(ascii "readingOrder", textsTree envelope.readingOrder),
    (ascii "blocks", blocksTree ordered)]

def projectToMarkdown (envelope : CanonicalDocumentEnvelope) : Checked ProjectionResult := do
  let ordered ← orderedBlocksOrThrow envelope
  let content ← markdownOf ordered
  .ok (lossless envelope .markdown content)

def projectToText (envelope : CanonicalDocumentEnvelope) : Checked ProjectionResult := do
  let ordered ← orderedBlocksOrThrow envelope
  let omissions := computeTextOmissions ordered
  .ok ⟨projectionVersion, envelope.documentId, envelope.canonicalContentId, .text,
    textOf ordered, true, omissions,
    if omissions = [] then [] else ["text projection is lossy; structure flattened"]⟩

def projectToStructured (envelope : CanonicalDocumentEnvelope) : Checked ProjectionResult := do
  let ordered ← orderedBlocksOrThrow envelope
  .ok (lossless envelope .structured (structuredTree envelope ordered).text)

/-- The bundle of the three projections. -/
def bundleTree (markdown structured text : Text) : Tree :=
  .obj [(ascii "markdown", .str markdown), (ascii "structured", .str structured),
    (ascii "text", .str text)]

def projectToAll (envelope : CanonicalDocumentEnvelope) : Checked ProjectionResult := do
  let ordered ← orderedBlocksOrThrow envelope
  let markdown ← markdownOf ordered
  .ok (lossless envelope .all
    (bundleTree markdown (structuredTree envelope ordered).text (textOf ordered)).text)

/-- The kind that is asked for, by default Markdown. -/
def resolveProjectionKind (requested : Option ProjectionKind) : ProjectionKind :=
  requested.getD .markdown

def projectCanonicalDocument (envelope : CanonicalDocumentEnvelope)
    (kind : Option ProjectionKind) : Checked ProjectionResult := do
  validateEnvelope envelope
  match resolveProjectionKind kind with
  | .markdown => projectToMarkdown envelope
  | .text => projectToText envelope
  | .structured => projectToStructured envelope
  | .all => projectToAll envelope

/-! ## Bounds -/

structure OutputBounds where
  maxBytes : Int
  maxChars : Int
  maxBlocks : Int
  maxTables : Int
  maxAssets : Int
deriving DecidableEq, Repr

/-- A dimension in which a limit is exceeded. -/
structure Exceeded where
  dimension : String
  actualValue : Nat
  limitValue : Int
deriving DecidableEq, Repr

inductive CanonicalArtifactKind where
  | source
  | canonicalDocument
  | projection
deriving DecidableEq, Repr

structure TypedTruncatedResult where
  summary : Text
  provenance : DocumentProvenance
  artifactRef : Text
  artifactKind : CanonicalArtifactKind

inductive BoundedProjectionOutcome where
  | within (projection : ProjectionResult)
  | exceeding (summary : TypedTruncatedResult)

/-- The first limit that the value exceeds, if any. -/
def Exceeded.check (dimension : String) (actualValue : Nat) (limitValue : Int) : Option Exceeded :=
  if limitValue < actualValue then some ⟨dimension, actualValue, limitValue⟩ else none

/-- How many blocks are of the type. -/
def countType (blocks : List DocumentBlock) (type : String) : Nat :=
  blocks.countP fun block => block.body.type = type

/-- The first limit that the envelope exceeds, in the order of the checks. -/
def checkOutputBounds (envelope : CanonicalDocumentEnvelope) (bounds : OutputBounds) :
    Option Exceeded :=
  let blockJson := (blocksTree envelope.blocks).text
  Exceeded.check "bytes" (Utf8.encode blockJson).length bounds.maxBytes <|>
  Exceeded.check "chars" blockJson.length bounds.maxChars <|>
  Exceeded.check "blocks" envelope.blocks.length bounds.maxBlocks <|>
  Exceeded.check "tables" (countType envelope.blocks "table") bounds.maxTables <|>
  Exceeded.check "assets" (countType envelope.blocks "asset") bounds.maxAssets

/-- `/^[0-9a-f]\x7b32\x7d\//`. -/
def isStorageKey (artifactRef : Text) : Bool :=
  (artifactRef.take 32).length = 32 &&
    (artifactRef.take 32).all (fun unit =>
      Parse.isDigit unit || (0x61 ≤ unit && unit ≤ 0x66)) &&
    artifactRef[32]? = some 0x2f

def buildTypedTruncatedResult (envelope : CanonicalDocumentEnvelope) (artifactRef : Text)
    (artifactKind : CanonicalArtifactKind) (check : Exceeded) : Checked TypedTruncatedResult := do
  refuseIf (artifactRef = []) "Typed truncated result requires a non-empty artifactRef"
  refuseIf (isStorageKey artifactRef = true)
    "artifactRef must be storage-neutral, not a storage key"
  pure ⟨ascii ("Output exceeded " ++ check.dimension ++ ": " ++ toString check.actualValue ++
      " > " ++ toString check.limitValue), envelope.provenance, artifactRef, artifactKind⟩

def projectWithBounds (envelope : CanonicalDocumentEnvelope) (kind : Option ProjectionKind)
    (bounds : OutputBounds) (artifactRef : Text) (artifactKind : CanonicalArtifactKind) :
    Checked BoundedProjectionOutcome := do
  validateEnvelope envelope
  match checkOutputBounds envelope bounds with
  | some check => do
    let summary ← buildTypedTruncatedResult envelope artifactRef artifactKind check
    pure (.exceeding summary)
  | none => do
    let projection ← projectCanonicalDocument envelope kind
    match Exceeded.check "chars" projection.content.length bounds.maxChars with
    | some check => do
      let summary ← buildTypedTruncatedResult envelope artifactRef artifactKind check
      pure (.exceeding summary)
    | none => pure (.within projection)

/-! ## The blocks of a valid envelope -/

/-- A block is found under its ID. -/
theorem find_block {blocks : List DocumentBlock} {block : DocumentBlock}
    (hnodup : (blocks.map DocumentBlock.blockId).Nodup) (hmem : block ∈ blocks) :
    (blocks.find? fun other => other.blockId = block.blockId) = some block := by
  cases hfind : blocks.find? fun other => other.blockId = block.blockId with
  | none =>
    have hdiffer := List.find?_eq_none.1 hfind block hmem
    exact absurd (decide_eq_true rfl) hdiffer
  | some other =>
    have hsame : other.blockId = block.blockId := by simpa using List.find?_some hfind
    rw [List.inj_on_of_nodup_map hnodup (List.mem_of_find?_eq_some hfind) hmem hsame]

/-- What is found for IDs that are all known. -/
theorem forall₂_filterMap {α β : Type} {lookup : α → Option β} {keys : List α}
    (h : ∀ key ∈ keys, ∃ entry, lookup key = some entry) :
    List.Forall₂ (fun key entry => lookup key = some entry) keys (keys.filterMap lookup) := by
  induction keys with
  | nil => exact .nil
  | cons key rest ih =>
    obtain ⟨entry, hentry⟩ := h key List.mem_cons_self
    rw [List.filterMap_cons_some hentry]
    exact .cons hentry (ih fun other hmem => h other (List.mem_cons_of_mem _ hmem))

/-- The reading order gives all blocks. -/
theorem orderedBlocks_ok {envelope : CanonicalDocumentEnvelope} (h : Valid envelope) :
    ∃ ordered, orderedBlocksOrThrow envelope = .ok ordered ∧ ordered.Perm envelope.blocks := by
  let lookup (id : Text) := envelope.blocks.find? fun block => block.blockId = id
  have hfound : ∀ block ∈ envelope.blocks, (lookup ∘ DocumentBlock.blockId) block = some block :=
    fun block hmem => find_block h.nodup hmem
  have hknown : ∀ id ∈ envelope.readingOrder, ∃ block, lookup id = some block := by
    intro id hid
    obtain ⟨block, hmem, rfl⟩ := List.mem_map.1 (h.ordered.subset hid)
    exact ⟨block, hfound block hmem⟩
  have hall : (envelope.blocks.map DocumentBlock.blockId).filterMap lookup = envelope.blocks := by
    rw [List.filterMap_map, List.filterMap_congr hfound, List.filterMap_some]
  refine ⟨envelope.readingOrder.filterMap lookup, mapM_eq_ok.2 ?_,
    (h.ordered.filterMap lookup).trans (.of_eq hall)⟩
  refine (forall₂_filterMap hknown).imp fun id block hblock => ?_
  rw [show (envelope.blocks.find? fun block => block.blockId = id) = some block from hblock]

/-- What is done for a valid envelope. -/
theorem projectCanonicalDocument_valid {envelope : CanonicalDocumentEnvelope}
    (h : validateEnvelope envelope = .ok ()) (kind : Option ProjectionKind) :
    projectCanonicalDocument envelope kind =
      match resolveProjectionKind kind with
      | .markdown => projectToMarkdown envelope
      | .text => projectToText envelope
      | .structured => projectToStructured envelope
      | .all => projectToAll envelope := by
  unfold projectCanonicalDocument
  rw [h]
  rfl

end Groundlane.Canonical
