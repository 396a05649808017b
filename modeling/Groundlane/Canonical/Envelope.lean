import Mathlib.Data.List.Perm.Subperm
import Groundlane.Json.Number
import Groundlane.Json.Tree
import Groundlane.Sequential.Checks

/-!
# The canonical document envelope

The envelope of `core/canonical-document.ts` with the checks of `validateEnvelope` and the values
that `JSON.stringify` writes for it. In an accepted envelope the reading order lists every block
exactly once (`validateEnvelope_ok`).
-/

namespace Groundlane.Canonical

open Sequential Utf16

/-! ## Data -/

inductive SourceSpan where
  | pageBbox (page x y width height : Number) (contentHash : Text)
  | charOffset (start stop : Number) (contentHash : Text)
  | sheetCell (sheet startCell endCell contentHash : Text)
  | slideShape (slide : Number) (shapeId contentHash : Text)
  | mediaTime (startMs endMs : Number) (contentHash : Text)

structure TableCell where
  row : Number
  col : Number
  content : Text
  rowSpan : Option Number
  colSpan : Option Number

inductive FormulaFormat where
  | latex
  | mathml
  | plain
deriving DecidableEq, Repr

/-- What a block holds besides its ID and spans. -/
inductive BlockBody where
  | text (content : Text)
  | table (cells : List TableCell)
  | asset (assetRef mimeType : Text) (altText : Option Text)
  | formula (expression : Text) (format : FormulaFormat)

structure DocumentBlock where
  blockId : Text
  body : BlockBody
  spans : Option (List SourceSpan)

structure MetadataRecord where
  key : Text
  value : Text

structure CitationRecord where
  citationId : Text
  label : Text
  target : Text
  blockId : Option Text

inductive CapabilityState where
  | available
  | unsupported
  | notRun
  | failed
deriving DecidableEq, Repr

structure SourceIdentity where
  contentHash : Text
  url : Option Text
  filename : Option Text
  artifactRef : Option Text

structure DocumentProvenance where
  engine : Text
  model : Text
  version : Text
  cost : Option Number
  confidence : Option Number

inductive DocumentStatus where
  | success
  | partialResult
  | unsupported
  | failed
deriving DecidableEq, Repr

structure CanonicalContentCore where
  schemaVersion : Text
  canonicalContentId : Text
  blocks : List DocumentBlock
  readingOrder : List Text
  status : DocumentStatus
  capabilityStates : List (Text × CapabilityState)
  warnings : List Text
  errors : List Text
  provenance : DocumentProvenance
  metadata : Option (List MetadataRecord)
  citations : Option (List CitationRecord)

structure CanonicalDocumentEnvelope extends CanonicalContentCore where
  documentId : Text
  sourceIdentity : SourceIdentity

/-! ## Checks -/

/-- What is thrown: an error of the code with its message, or one of the runtime. -/
inductive Failure where
  | error (message : Text)
  | typeError
  | rangeError
deriving DecidableEq, Repr

abbrev Checked := Except Failure

/-- A check with a message of ASCII characters. -/
def refuseIf (condition : Prop) [Decidable condition] (message : String) : Checked Unit :=
  throwIf condition (.error (ascii message))

/-- The zero of the comparisons. -/
def zero : Number := .finite ⟨false, 0, 0, by decide⟩

def one : Number := .finite ⟨false, 1, 0, Decimal.wf_one⟩

def validateSourceSpan : SourceSpan → Checked Unit
  | .pageBbox page _ _ width height contentHash => do
    refuseIf (page.lt zero = true) "PageBboxSpan page must be non-negative"
    refuseIf (width.le zero = true ∨ height.le zero = true)
      "PageBboxSpan width and height must be positive"
    refuseIf (contentHash = []) "PageBboxSpan must have a contentHash"
  | .charOffset start stop contentHash => do
    refuseIf (start.lt zero = true) "CharOffsetSpan start must be non-negative"
    refuseIf (stop.le start = true) "CharOffsetSpan end must be greater than start"
    refuseIf (contentHash = []) "CharOffsetSpan must have a contentHash"
  | .sheetCell sheet startCell endCell contentHash => do
    refuseIf (sheet = []) "SheetCellSpan must have a sheet name"
    refuseIf (startCell = []) "SheetCellSpan must have a startCell"
    refuseIf (endCell = []) "SheetCellSpan must have an endCell"
    refuseIf (contentHash = []) "SheetCellSpan must have a contentHash"
  | .slideShape slide shapeId contentHash => do
    refuseIf (slide.lt zero = true) "SlideShapeSpan slide must be non-negative"
    refuseIf (shapeId = []) "SlideShapeSpan must have a shapeId"
    refuseIf (contentHash = []) "SlideShapeSpan must have a contentHash"
  | .mediaTime startMs endMs contentHash => do
    refuseIf (startMs.lt zero = true) "MediaTimeSpan startMs must be non-negative"
    refuseIf (endMs.le startMs = true) "MediaTimeSpan endMs must be greater than startMs"
    refuseIf (contentHash = []) "MediaTimeSpan must have a contentHash"

/-- The loop over the spans of a block. -/
def validateSpans : List SourceSpan → Checked Unit
  | [] => pure ()
  | span :: rest => do
    validateSourceSpan span
    validateSpans rest

/-- An error about a block or its ID. -/
def blockError (kind : String) (blockId : Text) (problem : String) : Failure :=
  .error (ascii (kind ++ " \"") ++ blockId ++ ascii ("\"" ++ problem))

def validateBlock (block : DocumentBlock) : Checked Unit := do
  refuseIf (block.blockId = []) "Block must have a non-empty blockId"
  match block.body with
  | .text _ => pure ()
  | .table _ => pure ()
  | .asset assetRef mimeType _ => do
    throwIf (assetRef = []) (blockError "AssetBlock" block.blockId " must have an assetRef")
    throwIf (mimeType = []) (blockError "AssetBlock" block.blockId " must have a mimeType")
  | .formula expression _ =>
    throwIf (expression = []) (blockError "FormulaBlock" block.blockId " must have an expression")
  validateSpans (block.spans.getD [])

/-- The loop over the blocks, with the IDs seen so far. -/
def validateBlocks (blockIds : List Text) : List DocumentBlock → Checked (List Text)
  | [] => pure blockIds
  | block :: rest => do
    validateBlock block
    throwIf (block.blockId ∈ blockIds) (blockError "Duplicate block ID:" block.blockId "")
    validateBlocks (block.blockId :: blockIds) rest

/-- The loop over the reading order, with the IDs seen so far. -/
def validateOrder (blockIds orderedIds : List Text) : List Text → Checked (List Text)
  | [] => pure orderedIds
  | id :: rest => do
    throwIf (id ∉ blockIds) (blockError "Reading order references unknown block ID:" id "")
    throwIf (id ∈ orderedIds) (blockError "Reading order duplicates block ID:" id "")
    validateOrder blockIds (id :: orderedIds) rest

/-- The states of capabilities are of the four kinds by their type. -/
def validateEnvelope (envelope : CanonicalDocumentEnvelope) : Checked Unit := do
  refuseIf (envelope.schemaVersion = []) "Envelope must have a non-empty schemaVersion"
  refuseIf (envelope.documentId = []) "Envelope must have a non-empty documentId"
  refuseIf (envelope.canonicalContentId = []) "Envelope must have a non-empty canonicalContentId"
  refuseIf (envelope.sourceIdentity.contentHash = [])
    "Envelope sourceIdentity must have a contentHash"
  refuseIf (envelope.provenance.engine = []) "Envelope provenance must include engine"
  refuseIf (envelope.provenance.model = []) "Envelope provenance must include model"
  refuseIf (envelope.provenance.version = []) "Envelope provenance must include version"
  refuseIf (envelope.provenance.cost.any fun cost => !cost.isFinite || cost.lt zero)
    "Envelope provenance cost must be non-negative"
  refuseIf (envelope.provenance.confidence.any fun confidence =>
      !confidence.isFinite || confidence.lt zero || one.lt confidence)
    "Envelope provenance confidence must be between 0 and 1"
  let blockIds ← validateBlocks [] envelope.blocks
  let orderedIds ← validateOrder blockIds [] envelope.readingOrder
  refuseIf (orderedIds.length ≠ blockIds.length) "Reading order must include every canonical block"

/-! ## What an accepted envelope is -/

/-- The blocks have different IDs, and the reading order lists each of them once. -/
structure Valid (envelope : CanonicalDocumentEnvelope) : Prop where
  nodup : (envelope.blocks.map DocumentBlock.blockId).Nodup
  ordered : envelope.readingOrder.Perm (envelope.blocks.map DocumentBlock.blockId)

/-- Blocks are accepted with different IDs, which are added to those seen. -/
theorem validateBlocks_ok {blockIds result : List Text} {blocks : List DocumentBlock}
    (h : validateBlocks blockIds blocks = .ok result) :
    result = (blocks.map DocumentBlock.blockId).reverse ++ blockIds ∧
      (blocks.map DocumentBlock.blockId).Nodup ∧
      ∀ block ∈ blocks, block.blockId ∉ blockIds := by
  induction blocks generalizing blockIds with
  | nil =>
    cases h
    exact ⟨rfl, List.nodup_nil, fun _ hmem => absurd hmem List.not_mem_nil⟩
  | cons block rest ih =>
    rw [validateBlocks, check_bind_eq_ok, check_bind_eq_ok, throwIf_eq_ok] at h
    obtain ⟨-, hfresh, hrest⟩ := h
    obtain ⟨rfl, hnodup, hdiffer⟩ := ih hrest
    refine ⟨by simp, List.nodup_cons.2 ⟨fun hmem => ?_, hnodup⟩,
      List.forall_mem_cons.2 ⟨hfresh, fun other hother hmem => ?_⟩⟩
    · obtain ⟨other, hother, heq⟩ := List.mem_map.1 hmem
      exact hdiffer other hother (heq ▸ List.mem_cons_self)
    · exact hdiffer other hother (List.mem_cons_of_mem _ hmem)

/-- The reading order is accepted when it lists known IDs once. -/
theorem validateOrder_ok {blockIds orderedIds result order : List Text}
    (h : validateOrder blockIds orderedIds order = .ok result) :
    result = order.reverse ++ orderedIds ∧ order.Nodup ∧ order ⊆ blockIds ∧
      ∀ id ∈ order, id ∉ orderedIds := by
  induction order generalizing orderedIds with
  | nil =>
    cases h
    exact ⟨rfl, List.nodup_nil, List.nil_subset _, fun _ hmem => absurd hmem List.not_mem_nil⟩
  | cons id rest ih =>
    rw [validateOrder, check_bind_eq_ok, check_bind_eq_ok, throwIf_eq_ok, throwIf_eq_ok,
      not_not] at h
    obtain ⟨hknown, hfresh, hrest⟩ := h
    obtain ⟨rfl, hnodup, hsubset, hdiffer⟩ := ih hrest
    refine ⟨by simp, List.nodup_cons.2 ⟨fun hmem => ?_, hnodup⟩,
      List.cons_subset.2 ⟨hknown, hsubset⟩,
      List.forall_mem_cons.2 ⟨hfresh, fun other hother hmem => ?_⟩⟩
    · exact hdiffer id hmem List.mem_cons_self
    · exact hdiffer other hother (List.mem_cons_of_mem _ hmem)

theorem validateEnvelope_ok {envelope : CanonicalDocumentEnvelope}
    (h : validateEnvelope envelope = .ok ()) : Valid envelope := by
  unfold validateEnvelope at h
  simp only [check_bind_eq_ok] at h
  obtain ⟨-, -, -, -, -, -, -, -, -, h⟩ := h
  obtain ⟨_, hblocks, h⟩ := bind_eq_ok.1 h
  obtain ⟨_, horder, hlength⟩ := bind_eq_ok.1 h
  rw [refuseIf, throwIf_eq_ok, not_not] at hlength
  obtain ⟨rfl, hnodup, -⟩ := validateBlocks_ok hblocks
  obtain ⟨rfl, hordered, hsubset, -⟩ := validateOrder_ok horder
  rw [List.append_nil] at hsubset hlength
  rw [List.append_nil, List.length_reverse, List.length_reverse] at hlength
  -- As many different IDs as there are blocks are all of them.
  refine ⟨hnodup, (List.subperm_of_subset hordered fun id hid => ?_).perm_of_length_le hlength.ge⟩
  exact List.mem_reverse.1 (hsubset hid)

/-! ## JSON -/

def Number.toTree : Number → Tree
  | .finite value => .num value.numeral
  | _ => .null

/-- A member that is left out when its value is undefined. -/
def optional (key : String) (value : Option Tree) : List (Text × Tree) :=
  (value.map fun value => (ascii key, value)).toList

def SourceSpan.toTree : SourceSpan → Tree
  | pageBbox page x y width height contentHash =>
    .obj [(ascii "kind", .str (ascii "page-bbox")), (ascii "page", Number.toTree page),
      (ascii "x", Number.toTree x), (ascii "y", Number.toTree y),
      (ascii "width", Number.toTree width), (ascii "height", Number.toTree height),
      (ascii "contentHash", .str contentHash)]
  | charOffset start stop contentHash =>
    .obj [(ascii "kind", .str (ascii "char-offset")), (ascii "start", Number.toTree start),
      (ascii "end", Number.toTree stop), (ascii "contentHash", .str contentHash)]
  | sheetCell sheet startCell endCell contentHash =>
    .obj [(ascii "kind", .str (ascii "sheet-cell")), (ascii "sheet", .str sheet),
      (ascii "startCell", .str startCell), (ascii "endCell", .str endCell),
      (ascii "contentHash", .str contentHash)]
  | slideShape slide shapeId contentHash =>
    .obj [(ascii "kind", .str (ascii "slide-shape")), (ascii "slide", Number.toTree slide),
      (ascii "shapeId", .str shapeId), (ascii "contentHash", .str contentHash)]
  | mediaTime startMs endMs contentHash =>
    .obj [(ascii "kind", .str (ascii "media-time")), (ascii "startMs", Number.toTree startMs),
      (ascii "endMs", Number.toTree endMs), (ascii "contentHash", .str contentHash)]

def TableCell.toTree (cell : TableCell) : Tree :=
  .obj ([(ascii "row", Number.toTree cell.row), (ascii "col", Number.toTree cell.col),
      (ascii "content", .str cell.content)] ++
    optional "rowSpan" (cell.rowSpan.map Number.toTree) ++
    optional "colSpan" (cell.colSpan.map Number.toTree))

def FormulaFormat.text : FormulaFormat → String
  | latex => "latex"
  | mathml => "mathml"
  | plain => "plain"

/-- The members of a block behind its type and ID. -/
def BlockBody.members : BlockBody → List (Text × Tree)
  | text content => [(ascii "content", .str content)]
  | table cells => [(ascii "cells", .arr (cells.map TableCell.toTree))]
  | asset assetRef mimeType altText =>
    [(ascii "assetRef", .str assetRef), (ascii "mimeType", .str mimeType)] ++
      optional "altText" (altText.map Tree.str)
  | formula expression format =>
    [(ascii "expression", .str expression), (ascii "format", .str (ascii format.text))]

def BlockBody.type : BlockBody → String
  | text _ => "text"
  | table _ => "table"
  | asset .. => "asset"
  | formula .. => "formula"

def DocumentBlock.toTree (block : DocumentBlock) : Tree :=
  .obj ([(ascii "type", .str (ascii block.body.type)), (ascii "blockId", .str block.blockId)] ++
    block.body.members ++
    optional "spans" (block.spans.map fun spans => .arr (spans.map SourceSpan.toTree)))

/-- `JSON.stringify(blocks)`. -/
def blocksTree (blocks : List DocumentBlock) : Tree :=
  .arr (blocks.map DocumentBlock.toTree)

def CapabilityState.text : CapabilityState → String
  | available => "available"
  | unsupported => "unsupported"
  | notRun => "not_run"
  | failed => "failed"

def DocumentStatus.text : DocumentStatus → String
  | success => "success"
  | partialResult => "partial"
  | unsupported => "unsupported"
  | failed => "failed"

/-- A list of strings. -/
def textsTree (texts : List Text) : Tree := .arr (texts.map Tree.str)

def DocumentProvenance.toTree (provenance : DocumentProvenance) : Tree :=
  .obj [(ascii "engine", .str provenance.engine), (ascii "model", .str provenance.model),
    (ascii "version", .str provenance.version),
    (ascii "cost", (provenance.cost.map Number.toTree).getD .null),
    (ascii "confidence", (provenance.confidence.map Number.toTree).getD .null)]

def MetadataRecord.toTree (record : MetadataRecord) : Tree :=
  .obj [(ascii "key", .str record.key), (ascii "value", .str record.value)]

def CitationRecord.toTree (record : CitationRecord) : Tree :=
  .obj ([(ascii "citationId", .str record.citationId), (ascii "label", .str record.label),
      (ascii "target", .str record.target)] ++
    optional "blockId" (record.blockId.map Tree.str))

def CanonicalContentCore.toTree (core : CanonicalContentCore) : Tree :=
  .obj ([(ascii "schemaVersion", .str core.schemaVersion),
      (ascii "canonicalContentId", .str core.canonicalContentId),
      (ascii "blocks", blocksTree core.blocks),
      (ascii "readingOrder", textsTree core.readingOrder),
      (ascii "status", .str (ascii core.status.text)),
      (ascii "capabilityStates", .obj (core.capabilityStates.map fun (capability, state) =>
        (capability, .str (ascii state.text)))),
      (ascii "warnings", textsTree core.warnings), (ascii "errors", textsTree core.errors),
      (ascii "provenance", core.provenance.toTree)] ++
    optional "metadata" (core.metadata.map fun records =>
      .arr (records.map MetadataRecord.toTree)) ++
    optional "citations" (core.citations.map fun records =>
      .arr (records.map CitationRecord.toTree)))

end Groundlane.Canonical
