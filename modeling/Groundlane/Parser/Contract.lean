import Mathlib.Data.Rat.Init
import Groundlane.Text.Utf16

/-!
# Blocks and errors of the bounded parser

What `adapters/document/bounded-document-parser.ts` returns and throws, and its limits.
-/

namespace Groundlane.Parser

open Utf16

/-- `MAX_DOCUMENT_TABLE_CELLS`. -/
def maxDocumentTableCells : Nat := 100000

structure TableCell where
  row : Nat
  col : Nat
  content : Text
deriving DecidableEq

inductive SourceSpan where
  | pageBbox (page : Nat) (width height : ℚ) (contentHash : Text)
  | charOffset (start stop : Nat) (contentHash : Text)
  | sheetCell (sheet startCell endCell contentHash : Text)
deriving DecidableEq

inductive BlockBody where
  | text (content : Text)
  | table (cells : List TableCell)
deriving DecidableEq

structure DocumentBlock where
  blockId : Text
  body : BlockBody
  spans : Option (List SourceSpan)
deriving DecidableEq

structure MetadataRecord where
  key : String
  value : Text
deriving DecidableEq

/-- What `documentError` throws: every error has the code `INVALID_INPUT` and the stage
`document_parse`, and names its hint. -/
structure DocumentError where
  message : String
  code : String
deriving DecidableEq, Repr

/-- A computation that may throw. -/
abbrev Parsed : Type → Type := Except DocumentError

def documentError {α : Type} (message : String) (code : String) : Parsed α :=
  .error ⟨message, code⟩

def charSpan (content contentHash : Text) : List SourceSpan :=
  if content.length = 0 then [] else [.charOffset 0 content.length contentHash]

/-- A text block with the span of all of its characters. -/
def textBlock (content : Text) (blockId : String) (contentHash : Text) : DocumentBlock :=
  ⟨ascii blockId, .text content, some (charSpan content contentHash)⟩

end Groundlane.Parser
