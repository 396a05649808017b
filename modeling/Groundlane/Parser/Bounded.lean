import Groundlane.Parser.Csv
import Groundlane.Parser.Mime
import Groundlane.Parser.Profile

/-!
# The bounded parser

`parseBoundedDocument` of `adapters/document/bounded-document-parser.ts`, which resolves a profile
and runs its parser. The libraries behind PDF, HTML, XML and JSON and the parsers of packages are
parameters.
-/

namespace Groundlane.Parser

open Utf16

/-- `MAX_DOCUMENT_BLOCKS`. -/
def maxDocumentBlocks : Nat := 10000

/-- A page of a PDF as the library reads it. -/
structure PdfPage where
  text : Text
  width : ℚ
  height : ℚ

/-- What is outside the parser. `beyondAscii` is `toLowerCase` beyond ASCII, `pdf` reads the pages
of a file or throws an error with a message, `package` unpacks and parses a package, `page` reads
the text and the title of a page without styles and templates, `formatJson` parses a text and writes
it with two blanks, and `xml` reads the text of a well-formed document. -/
structure Engines where
  beyondAscii : Text → Text
  sha256 : List UInt8 → Text
  pdf : List UInt8 → Except Text (List PdfPage)
  package : DocumentParserProfile → List UInt8 → Text → Nat →
    Parsed (List DocumentBlock × List MetadataRecord)
  page : Text → Text × Text
  htmlText : HtmlText
  formatJson : Text → Option Text
  xml : Text → Option Text

def Engines.toLowerCase (engines : Engines) : Text → Text := lowerCase engines.beyondAscii

structure ParsedDocumentContent where
  blocks : List DocumentBlock
  metadata : List MetadataRecord
  warnings : List String
  capabilities : List (String × String)
  mediaType : Text

/-- What is passed to `parseBoundedDocument`; `cancelled` is what the signal throws. -/
structure Input where
  bytes : List UInt8
  declaredMime : Text
  filename : Text
  cancelled : Option DocumentError
  maxPages : Option Nat

/-- A text block, if there is any text. -/
def blocksOf (content : Text) (blockId : String) (contentHash : Text) : List DocumentBlock :=
  if content = [] then [] else [textBlock content blockId contentHash]

/-! ## PDF -/

/-- A unit of a PDF name. -/
def isNameUnit (unit : UInt16) : Bool :=
  !isWhiteSpace unit && !(ascii "<>\x7b\x7d[]()%/").contains unit

/-- `decodePdfNameEscapes`: whether the text is inside a name, and the digits that are still to be
skipped. -/
def decodePdfNameEscapes : Bool → Nat → Text → Text
  | _, _, [] => []
  | inName, skip + 1, _ :: rest => decodePdfNameEscapes inName skip rest
  | inName, 0, unit :: rest =>
    if unit = 0x2f then unit :: decodePdfNameEscapes true 0 rest
    else if inName && unit = 0x23 then
      match QuotedPrintable.hexPair rest with
      | some byte => .ofNat byte :: decodePdfNameEscapes true 2 rest
      | none => unit :: decodePdfNameEscapes true 0 rest
    else unit :: decodePdfNameEscapes (inName && isNameUnit unit) 0 rest

/-- An ASCII unit of a word. -/
def isAsciiWordUnit (unit : UInt16) : Bool :=
  (0x61 ≤ lowerAscii unit && lowerAscii unit ≤ 0x7a) || (0x30 ≤ unit && unit ≤ 0x39) ||
    unit = 0x5f

/-- A place where one of the words ends a word. -/
def hasWord (words : List Text) : Text → Bool
  | [] => false
  | unit :: rest =>
    words.any (fun word => word.isPrefixOf (unit :: rest) &&
      !((unit :: rest).drop word.length).head?.any isAsciiWordUnit) || hasWord words rest

def activePdfNames : List Text :=
  [ascii "/JavaScript", ascii "/JS", ascii "/Launch", ascii "/EmbeddedFiles", ascii "/OpenAction",
    ascii "/AA"]

/-- The blocks of the pages from a number on. -/
def pdfBlocks (contentHash : Text) : List PdfPage → Nat → List DocumentBlock
  | [], _ => []
  | page :: rest, number =>
    let content := normalizeText page.text
    (if content = [] then []
      else [⟨ascii ("page-" ++ toString number), .text content,
        some [.pageBbox number page.width page.height contentHash]⟩]) ++
      pdfBlocks contentHash rest (number + 1)

variable (engines : Engines)

def parsePdf (bytes : List UInt8) (contentHash : Text) (maxPages : Nat) :
    Parsed (List DocumentBlock × List MetadataRecord) :=
  let pdfSource := Utf8.latin1 bytes
  let normalizedPdfNames := decodePdfNameEscapes false 0 pdfSource
  if hasWord [ascii "/Encrypt"] normalizedPdfNames then
    documentError "Encrypted PDF is not supported" "document.encrypted"
  else if !startsWith pdfSource (ascii "%PDF-") then
    documentError "Malformed or unreadable PDF" "document.malformed"
  else if hasWord activePdfNames normalizedPdfNames then
    documentError "Active PDF content is not supported" "document.active_content"
  else
    match engines.pdf bytes with
    | .error message =>
      if includes (engines.toLowerCase message) (ascii "password") then
        documentError "Encrypted PDF is not supported" "document.encrypted"
      else documentError "Malformed or unreadable PDF" "document.malformed"
    | .ok pages =>
      if maxPages < pages.length then
        documentError "PDF page count exceeds the configured limit" "document.page_limit"
      else .ok (pdfBlocks contentHash pages 1, [])

/-! ## RTF -/

/-- The length of `[a-z]+-?\d* ?` at the start, or zero. -/
def controlLength (text : Text) : Nat :=
  let letters := text.takeWhile isLetter
  if letters = [] then 0
  else
    let behind := text.drop letters.length
    let sign := if behind.head? = some 0x2d then 1 else 0
    let digits := (behind.drop sign).takeWhile fun unit => 0x30 ≤ unit && unit ≤ 0x39
    let space := if (behind.drop (sign + digits.length)).head? = some 0x20 then 1 else 0
    letters.length + sign + digits.length + space

/-- The hexadecimal escapes as units: the units of an escape that are still to be skipped. -/
def rtfEscapes : Nat → Text → Text
  | _, [] => []
  | skip + 1, _ :: rest => rtfEscapes skip rest
  | 0, unit :: rest =>
    if unit = 0x5c ∧ rest.head? = some 0x27 then
      match QuotedPrintable.hexPair (rest.drop 1) with
      | some byte => .ofNat byte :: rtfEscapes 3 rest
      | none => unit :: rtfEscapes 0 rest
    else unit :: rtfEscapes 0 rest

/-- `\par` and `\line` as line feeds. -/
def rtfBreaks : Nat → Text → Text
  | _, [] => []
  | skip + 1, _ :: rest => rtfBreaks skip rest
  | 0, unit :: rest =>
    match [ascii "par", ascii "line"].find? fun word => unit = 0x5c && word.isPrefixOf rest &&
        !(rest.drop word.length).head?.any isAsciiWordUnit with
    | some word => lineFeed :: rtfBreaks word.length rest
    | none => unit :: rtfBreaks 0 rest

/-- Without the other control words. -/
def rtfControls : Nat → Text → Text
  | _, [] => []
  | skip + 1, _ :: rest => rtfControls skip rest
  | 0, unit :: rest =>
    if unit = 0x5c ∧ 0 < controlLength rest then rtfControls (controlLength rest) rest
    else unit :: rtfControls 0 rest

def parseRtf (source contentHash : Text) : Parsed (List DocumentBlock) :=
  if !startsWith source (ascii "\x7b\\rtf") then
    documentError "Malformed RTF document" "document.malformed"
  else
    .ok (blocksOf (normalizeText ((rtfControls 0 (rtfBreaks 0 (rtfEscapes 0 source))).filter
      fun unit => unit != 0x7b && unit != 0x7d)) "text-1" contentHash)

/-! ## Messages -/

/-- A metadata record, if the value is not empty. -/
def metadataOf (key : String) (value : Text) : List MetadataRecord :=
  if value = [] then [] else [⟨key, value⟩]

def parseEml (source contentHash : Text) :
    Parsed (List DocumentBlock × List MetadataRecord) := do
  let (headers, _) := splitHeaders engines.toLowerCase source
  let metadata := ["subject", "from", "to", "date", "message-id"].flatMap fun key =>
    metadataOf key (((headers.get key).getD []).take 2000)
  let (text, _) ← parseMimeText engines.toLowerCase engines.htmlText source 0 0
  let content := normalizeText
    ((ascii "\n\n").intercalate (if 0 < text.plain.length then text.plain else text.html))
  pure (blocksOf content "body-1" contentHash, metadata)

/-! ## Other texts -/

def assertWellFormedXml (xml : Text) : Parsed Text :=
  if includes (xml.map foldCase) (ascii "<!doctype") ||
      includes (xml.map foldCase) (ascii "<!entity") then
    documentError "XML document types and entities are not supported" "document.active_content"
  else
    match engines.xml xml with
    | none => documentError "Malformed XML document" "document.malformed"
    | some text => .ok text

def parseHtml (source contentHash : Text) :
    Parsed (List DocumentBlock × List MetadataRecord) := do
  assertNoActiveMarkup source
  let (text, title) := engines.page source
  pure (blocksOf (normalizeText text) "document-1" contentHash,
    metadataOf "title" (normalizeText title))

/-- The name of a format in an error. -/
def formatName (mime extension : Text) : String :=
  String.ofList ((if mime ≠ [] then mime else if extension ≠ [] then extension
    else ascii "unknown").map fun unit => Char.ofNat unit.toNat)

/-- The parser of a profile. -/
def parseProfile (profile : DocumentParserProfile) (input : Input) (contentHash : Text) :
    Parsed (List DocumentBlock × List MetadataRecord) :=
  let maxPages := min (input.maxPages.getD 500) 500
  let source := Utf8.decode input.bytes
  match profile with
  | .pdf => parsePdf engines input.bytes contentHash maxPages
  | .docx | .xlsx | .pptx | .odf | .epub => engines.package profile input.bytes contentHash maxPages
  | .csv => (parseCsv source contentHash).map fun blocks => (blocks, [])
  | .rtf => (parseRtf source contentHash).map fun blocks => (blocks, [])
  | .eml => parseEml engines source contentHash
  | .html => parseHtml engines source contentHash
  | .json =>
    match engines.formatJson source with
    | none => documentError "Malformed JSON document" "document.malformed"
    | some text => .ok ([textBlock text "document-1" contentHash], [])
  | .xml => (assertWellFormedXml engines source).map fun text =>
    (blocksOf (normalizeText text) "document-1" contentHash, [])
  | .text =>
    if input.bytes.contains 0 then
      documentError "Binary content cannot be parsed as text" "document.mime_mismatch"
    else .ok (blocksOf (normalizeText source) "document-1" contentHash, [])
  | .unsupported =>
    documentError ("Unsupported document format: " ++
      formatName (mimeOf engines.toLowerCase input.declaredMime)
        (extensionOf engines.toLowerCase input.filename)) "document.unsupported"

/-- A table among the blocks. -/
def isTable (block : DocumentBlock) : Bool :=
  match block.body with
  | .table _ => true
  | .text _ => false

def parseBoundedDocument (input : Input) : Parsed ParsedDocumentContent :=
  match input.cancelled with
  | some error => .error error
  | none =>
    if input.bytes.length = 0 ∨ maxDocumentBytes < input.bytes.length then
      documentError "Document size is outside the supported bounds" "document.output_limit"
    else do
      let contentHash := engines.sha256 input.bytes
      let profile :=
        resolveDocumentParserProfile engines.toLowerCase input.declaredMime input.filename
      let (blocks, metadata) ← parseProfile engines profile input contentHash
      if maxDocumentBlocks < blocks.length then
        documentError "Document contains too many blocks" "document.output_limit"
      else
        let warnings :=
          if blocks.length = 0 then ["document contained no extractable text"] else []
        let capabilities := [("text", "available"),
          ("tables", if blocks.any isTable then "available" else "not_run"),
          ("assets", "unsupported"), ("formulas", "unsupported")]
        let mediaType := if profile = .pdf then ascii "application/pdf"
          else mimeOf engines.toLowerCase input.declaredMime
        pure ⟨blocks, metadata, warnings, capabilities, mediaType⟩

end Groundlane.Parser
