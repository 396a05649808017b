import Groundlane.Parser.Profile
import Groundlane.Text.Base64
import Groundlane.Text.Latin1
import Groundlane.Text.QuotedPrintable

/-!
# Extracting the parts of an email

`tools/document-email-extract.ts`: the headers and the parts of a message, the decoding of bodies,
the recursion over nested multipart bodies with one count of attachments, and the result of the
tool, whose characters are limited. What an attachment is parsed to is a parameter.
-/

namespace Groundlane.Email

open Utf16 Groundlane.Parser

/-- `MAX_INPUT_BYTES`. -/
def maxInputBytes : Nat := 10 * 1024 * 1024

/-- `MAX_MIME_DEPTH`. -/
def maxMimeDepth : Nat := 4

/-- `MAX_ATTACHMENTS`. -/
def maxAttachments : Nat := 50

/-! ## Headers -/

/-- The headers, those that were set last in front. -/
abbrev Headers : Type := List (Text × Text)

/-- `headers.get(key)`. -/
def Headers.get (headers : Headers) (key : String) : Option Text := headers.lookup (ascii key)

variable (toLowerCase : Text → Text)

/-- A line with a colon behind its first unit. -/
def readHeader (line : Text) : Option (Text × Text) :=
  match cutAt [0x3a] line with
  | some (unit :: name, value) => some (toLowerCase (trim (unit :: name)), trim value)
  | _ => none

def splitHeaders (source : Text) : Headers × Text :=
  match (cutAt (ascii "\r\n\r\n") source).or (cutAt (ascii "\n\n") source) with
  | none => ([], source)
  | some (headerSection, body) =>
    (((lines (unfoldLines false headerSection)).filterMap (readHeader toLowerCase)).reverse, body)

/-! ## Decoding -/

def decodeMimeBody (body encoding : Text) : List UInt8 :=
  if encoding = ascii "base64" then
    (Base64.atob (body.filter fun unit => !isWhiteSpace unit)).getD (Utf8.encode body)
  else if encoding = ascii "quoted-printable" then Utf8.encode (QuotedPrintable.decode body)
  else Utf8.encode body

def decodeMimeBodyText (body encoding : Text) : Text :=
  if encoding = ascii "base64" then
    ((Base64.atob (body.filter fun unit => !isWhiteSpace unit)).map Utf8.latin1).getD body
  else if encoding = ascii "quoted-printable" then QuotedPrintable.decode body
  else body

/-! ## Parts -/

structure Attachment where
  filename : Text
  mimeType : Text
  bytes : List UInt8
deriving DecidableEq

structure ExtractedParts where
  text : List Text
  html : List Text
  attachments : List Attachment
deriving DecidableEq

namespace ExtractedParts

def empty : ExtractedParts := ⟨[], [], []⟩

/-- The parts with those of a later piece behind them. -/
def append (parts later : ExtractedParts) : ExtractedParts where
  text := parts.text ++ later.text
  html := parts.html ++ later.html
  attachments := parts.attachments ++ later.attachments

end ExtractedParts

/-- What the headers of a part make of it. An attachment that has no filename is named by its
number. -/
inductive Part where
  | multipart (pieces : List Text)
  | attachment (filename : Option Text) (mimeType : Text) (bytes : List UInt8)
  | plain (content : Text)
  | html (content : Text)
  | other
deriving DecidableEq

/-- The pieces between the delimiters up to the closing one, without the breaks around them. -/
def piecesOf (boundary body : Text) : List Text :=
  (((split (ascii "--" ++ boundary) body).drop 1).takeWhile
    fun raw => !startsWith raw (ascii "--")).map fun raw => dropLastBreak (dropFirstBreak raw)

/-- `[^\s";]`. -/
def inBoundary (unit : UInt16) : Bool := !isWhiteSpace unit && unit != 0x22 && unit != 0x3b

/-- `[^"\r\n;]`. -/
def inFilename (unit : UInt16) : Bool :=
  unit != 0x22 && unit != carriageReturn && unit != lineFeed && unit != 0x3b

def readPart (source : Text) : Part :=
  let (headers, body) := splitHeaders toLowerCase source
  let rawContentType := (headers.get "content-type").getD (ascii "text/plain")
  let contentType := toLowerCase rawContentType
  let encoding := trim (toLowerCase ((headers.get "content-transfer-encoding").getD []))
  if startsWith contentType (ascii "multipart/") then
    match parameter (ascii "boundary") inBoundary rawContentType with
    | none => .multipart []
    | some boundary => .multipart (piecesOf boundary body)
  else
    let disposition := toLowerCase ((headers.get "content-disposition").getD [])
    if startsWith disposition (ascii "attachment") ||
        (startsWith disposition (ascii "inline") && !startsWith contentType (ascii "text/")) then
      let named := ((headers.get "content-disposition").or (headers.get "content-type")).getD []
      .attachment ((parameter (ascii "filename") inFilename named).map trim)
        (trim (contentType.takeWhile (· ≠ 0x3b))) (decodeMimeBody body encoding)
    else if startsWith contentType (ascii "text/plain") then
      .plain (decodeMimeBodyText body encoding)
    else if startsWith contentType (ascii "text/html") then
      .html (decodeMimeBodyText body encoding)
    else .other

/-! ## The recursion -/

/-- One piece after the other, with the count of attachments passed on. -/
def extractPieces (extract : Text → Nat → ExtractedParts × Nat) :
    List Text → Nat → ExtractedParts × Nat
  | [], count => (.empty, count)
  | piece :: rest, count =>
    let (nested, count) := extract piece count
    let (result, count) := extractPieces extract rest count
    (nested.append result, count)

/-- `extractParts` with the number of levels that may still be entered in place of the depth. -/
def extractLevels : Nat → Text → Nat → ExtractedParts × Nat
  | 0, _, count => (.empty, count)
  | levels + 1, source, count =>
    if maxAttachments < count then (.empty, count)
    else
      match readPart toLowerCase source with
      | .multipart pieces => extractPieces (extractLevels levels) pieces count
      | .attachment filename mimeType bytes =>
        (⟨[], [], [⟨filename.getD (ascii ("attachment-" ++ toString (count + 1))), mimeType,
          bytes⟩]⟩, count + 1)
      | .plain content => (⟨[content], [], []⟩, count)
      | .html content => (⟨[], [content], []⟩, count)
      | .other => (.empty, count)

def extractParts (source : Text) (depth count : Nat) : ExtractedParts × Nat :=
  extractLevels toLowerCase (maxMimeDepth + 1 - depth) source count

/-! ## The result of the tool -/

/-- An entry of the result. -/
structure AttachmentResult where
  filename : Text
  mimeType : Text
  sizeBytes : Nat
  parsed : Bool
  content : Option Text
  error : Option Text
deriving DecidableEq

structure EmailData where
  headers : List (String × Text)
  bodyText : Text
  attachments : List AttachmentResult
  attachmentCount : Nat
  parsedAttachments : Nat
  engine : String
  inputBytes : Nat

/-- What a call throws. -/
inductive Failure where
  | error (message : String)
  | aborted
deriving DecidableEq, Repr

/-- The options of the module and the outside: what an attachment is parsed and projected to, with
its media type, or the message of the error, and whether the signal is aborted when an attachment
is reached. -/
structure Tool where
  toLowerCase : Text → Text
  maxOutputChars : Nat
  parse : Attachment → Except Text (Text × Text)
  aborted : Nat → Bool

namespace Tool

variable (tool : Tool)

/-- The entry of an attachment, when as many characters are in the output already. -/
def attachmentResult (outputChars : Nat) (attachment : Attachment) : AttachmentResult :=
  let size := attachment.bytes.length
  let profile :=
    resolveDocumentParserProfile tool.toLowerCase attachment.mimeType attachment.filename
  if profile = .unsupported ∨ maxDocumentBytes < size then
    ⟨attachment.filename, attachment.mimeType, size, false, none,
      some (ascii (if profile = .unsupported then "Unsupported format"
        else "Attachment too large"))⟩
  else
    match tool.parse attachment with
    | .error message => ⟨attachment.filename, attachment.mimeType, size, false, none, some message⟩
    | .ok (mediaType, content) =>
      if tool.maxOutputChars < outputChars + content.length then
        ⟨attachment.filename, mediaType, size, false, none, some (ascii "Output limit reached")⟩
      else ⟨attachment.filename, mediaType, size, true, some content, none⟩

/-- The entries of the attachments from the one with the number `index` on, and how many of all
attachments were parsed. -/
def attachmentResults : List Attachment → Nat → Nat → Nat →
    Except Failure (List AttachmentResult × Nat)
  | [], _, parsedCount, _ => .ok ([], parsedCount)
  | attachment :: rest, index, parsedCount, outputChars =>
    if tool.aborted index then .error .aborted
    else
      let result := tool.attachmentResult outputChars attachment
      let counted := match result.content with
        | some content => (parsedCount + 1, outputChars + content.length)
        | none => (parsedCount, outputChars)
      match attachmentResults rest (index + 1) counted.1 counted.2 with
      | .ok (results, parsed) => .ok (result :: results, parsed)
      | .error failure => .error failure

/-- The entry of an attachment that is not to be parsed. -/
def unparsed (attachment : Attachment) : AttachmentResult :=
  ⟨attachment.filename, attachment.mimeType, attachment.bytes.length, false, none, none⟩

/-- The keys of the headers in the result. -/
def headerKeys : List String :=
  ["subject", "from", "to", "cc", "date", "message-id", "content-type"]

/-- The text of the body: the plain parts, or the HTML parts if there are none. -/
def bodyOf (extracted : ExtractedParts) : Text :=
  (ascii "\n\n").intercalate (if 0 < extracted.text.length then extracted.text else extracted.html)

def documentEmailExtract (bytes : List UInt8) (parseAttachments : Bool) :
    Except Failure EmailData :=
  if maxInputBytes < bytes.length then
    .error (.error ("Input exceeds the 10 MB limit (" ++ toString bytes.length ++ " bytes)"))
  else
    let source := Utf8.decode bytes
    let headers := (splitHeaders tool.toLowerCase source).1
    let extracted := (extractParts tool.toLowerCase source 0 0).1
    let bodyText := bodyOf extracted
    let results :=
      if parseAttachments then
        tool.attachmentResults extracted.attachments 0 0 bodyText.length
      else .ok (extracted.attachments.map unparsed, 0)
    results.map fun (attachments, parsedCount) =>
      { headers := headerKeys.filterMap fun key =>
          match headers.get key with
          | some value => if value = [] then none else some (key, value.take 2000)
          | none => none
        bodyText := bodyText.take tool.maxOutputChars
        attachments
        attachmentCount := extracted.attachments.length
        parsedAttachments := parsedCount
        engine := "groundlane-email-extract-v1"
        inputBytes := bytes.length }

end Tool

end Groundlane.Email
