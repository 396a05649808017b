import Groundlane.Parser.Contract
import Groundlane.Text.Base64
import Groundlane.Text.QuotedPrintable

/-!
# MIME messages

The MIME part of `adapters/document/bounded-document-parser.ts`: the headers and the body of a
part, transfer encodings, and the recursion over multipart bodies with a count of parts. What the
HTML library reads as the text of a page is a parameter.
-/

namespace Groundlane.Parser

open Utf16

/-- `MAX_MIME_DEPTH`. -/
def maxMimeDepth : Nat := 4

/-- `MAX_MIME_PARTS`. -/
def maxMimeParts : Nat := 100

/-! ## Text -/

/-- `replace(/\r\n?/g, "\n")`. -/
def normalizeBreaks : Text → Text
  | [] => []
  | unit :: rest =>
    if unit = carriageReturn then
      if rest.head? = some lineFeed then normalizeBreaks rest
      else lineFeed :: normalizeBreaks rest
    else unit :: normalizeBreaks rest

/-- `replace(/[ \t]+\n/g, "\n")`. -/
def dropTrailingBlanks : Text → Text
  | [] => []
  | unit :: rest =>
    if isBlank unit = true ∧ (rest.dropWhile isBlank).head? = some lineFeed then
      dropTrailingBlanks rest
    else unit :: dropTrailingBlanks rest

/-- `replace(/\n\x7b3,\x7d/g, "\n\n")`: how many line feeds stand right in front. -/
def collapseBreaks : Nat → Text → Text
  | _, [] => []
  | seen, unit :: rest =>
    if unit = lineFeed then
      if seen < 2 then unit :: collapseBreaks (seen + 1) rest else collapseBreaks seen rest
    else unit :: collapseBreaks 0 rest

def normalizeText (value : Text) : Text :=
  trim (collapseBreaks 0 (dropTrailingBlanks (normalizeBreaks value)))

/-! ## Active markup -/

/-- A unit without regard to case: two letters beyond ASCII count as ASCII letters. -/
def foldCase (unit : UInt16) : UInt16 :=
  if unit = 0x17f then 0x73 else if unit = 0x212a then 0x6b else lowerAscii unit

def isLetter (unit : UInt16) : Bool := 0x61 ≤ foldCase unit && foldCase unit ≤ 0x7a

/-- A unit of a word. -/
def isWordUnit (unit : UInt16) : Bool :=
  isLetter unit || (0x30 ≤ unit && unit ≤ 0x39) || unit = 0x5f

/-- The text behind a word in any case. -/
def behindWord (word text : Text) : Option Text :=
  if (text.take word.length).map foldCase = word then some (text.drop word.length) else none

/-- Whether the unit stands behind white space. -/
def followedBy (unit : UInt16) (text : Text) : Bool :=
  (text.dropWhile isWhiteSpace).head? = some unit

/-- `<\s*(?:script|iframe|object|embed)\b`. -/
def isActiveTag (text : Text) : Bool :=
  match text with
  | 0x3c :: rest =>
    [ascii "script", ascii "iframe", ascii "object", ascii "embed"].any fun word =>
      (behindWord word (rest.dropWhile isWhiteSpace)).any fun behind =>
        !behind.head?.any isWordUnit
  | _ => false

/-- `\son[a-z]+\s*=`. -/
def isEventHandler (text : Text) : Bool :=
  match text with
  | unit :: rest =>
    isWhiteSpace unit && (behindWord (ascii "on") rest).any fun behind =>
      behind.head?.any isLetter && followedBy 0x3d (behind.dropWhile isLetter)
  | [] => false

/-- `javascript\s*:`. -/
def isScriptUrl (text : Text) : Bool :=
  (behindWord (ascii "javascript") text).any (followedBy 0x3a)

/-- The pattern of `assertNoActiveMarkup`. -/
def hasActiveMarkup : Text → Bool
  | [] => false
  | unit :: rest =>
    isActiveTag (unit :: rest) || isEventHandler (unit :: rest) ||
      isScriptUrl (unit :: rest) || hasActiveMarkup rest

example : hasActiveMarkup (ascii "<a href=x onClick =y>") = true ∧
    hasActiveMarkup (ascii "<scripts>") = false := by
  decide +kernel

def assertNoActiveMarkup (source : Text) : Parsed Unit :=
  if hasActiveMarkup source = true then
    documentError "Active markup content is not supported" "document.active_content"
  else pure ()

/-! ## Headers -/

/-- The headers, those that were set last in front. -/
abbrev Headers : Type := List (Text × Text)

/-- `headers.get(key)`. -/
def Headers.get (headers : Headers) (key : String) : Option Text := headers.lookup (ascii key)

/-- What stands behind a line break at the start. -/
def behindBreak : Text → Option Text
  | [] => none
  | unit :: rest =>
    if unit = lineFeed then some rest
    else if unit = carriageReturn ∧ rest.head? = some lineFeed then some rest.tail
    else none

/-- What stands in front of the first blank line, and behind it: `/\r?\n\r?\n/`. -/
def cutAtBlankLine : Text → Option (Text × Text)
  | [] => none
  | unit :: rest =>
    match (behindBreak (unit :: rest)).bind behindBreak with
    | some body => some ([], body)
    | none => (cutAtBlankLine rest).map fun (front, body) => (unit :: front, body)

variable (toLowerCase : Text → Text)

/-- The headers with those of one more line; values of one name are joined. -/
def addHeader (headers : Headers) (line : Text) : Headers :=
  match cutAt [0x3a] line with
  | some (unit :: name, rest) =>
    let key := toLowerCase (trim (unit :: name))
    let value := (trim rest).take 4000
    match headers.lookup key with
    | some found => (key, found ++ ascii ", " ++ value) :: headers
    | none => (key, value) :: headers
  | _ => headers

def splitHeaders (source : Text) : Headers × Text :=
  let (headerText, body) := (cutAtBlankLine source).getD (source, [])
  (((lines (unfoldLines false headerText)).take 200).foldl (addHeader toLowerCase) [], body)

/-! ## Bodies -/

def decodeQuotedPrintable (source : Text) : Text :=
  Utf8.Decoder.start.read (Utf8.toLatin1 (QuotedPrintable.decode source))

/-- Letters of base64 and at most two equals signs, in groups of four. -/
def isCompactBase64 (compact : Text) : Bool :=
  let padding := compact.dropWhile fun unit => (Base64.sextet unit).isSome
  padding.length ≤ 2 && padding.all (· = 0x3d) && compact.length % 4 = 0

/-- On such a text `Buffer.from` decodes as `atob` does. -/
def decodeMimeBody (body encoding : Text) : Parsed Text :=
  if encoding = ascii "base64" then
    let compact := body.filter fun unit => !isWhiteSpace unit
    if isCompactBase64 compact = true then
      pure (Utf8.Decoder.start.read ((Base64.atob compact).getD []))
    else documentError "Malformed base64 MIME body" "document.malformed"
  else if encoding = ascii "quoted-printable" then pure (decodeQuotedPrintable body)
  else pure body

/-- `\s*boundary\s*=\s*(?:"([^"]+)"|([^;\s]+))`. -/
def boundaryAt (text : Text) : Option Text :=
  match behindName (ascii "boundary") (text.dropWhile isWhiteSpace) with
  | none => none
  | some rest =>
    let value := rest.dropWhile isWhiteSpace
    let quoted := (value.drop 1).takeWhile (· ≠ 0x22)
    if value.head? = some 0x22 ∧ quoted ≠ [] ∧
        (value.drop (1 + quoted.length)).head? = some 0x22 then some quoted
    else
      match value.takeWhile fun unit => unit ≠ 0x3b && !isWhiteSpace unit with
      | [] => none
      | token => some token

/-- The value of the parameter `boundary`, which stands at the start or behind a semicolon. -/
def mimeBoundary (contentType : Text) : Option Text :=
  (boundaryAt contentType).or (firstMatch (fun text =>
    match text with
    | unit :: rest => if unit = 0x3b then boundaryAt rest else none
    | [] => none) contentType)

/-! ## Parts -/

structure MimeText where
  plain : List Text
  html : List Text
deriving DecidableEq

/-- The text that the HTML library reads in a page without scripts, styles and templates. -/
abbrev HtmlText : Type := Text → Text

/-- A text that is not empty. -/
def nonEmpty (text : Text) : List Text := if text = [] then [] else [text]

/-- The pieces between the delimiters up to the closing one, without the breaks around them. -/
def chunksOf (chunks : List Text) : List Text :=
  (chunks.takeWhile fun raw => !startsWith raw (ascii "--")).map fun raw =>
    dropLastBreak (dropFirstBreak raw)

/-- What a part is, and what is in it. -/
inductive MimePart where
  | multipart (chunks : List Text)
  | text (text : MimeText)
deriving DecidableEq

variable (htmlText : HtmlText)

/-- A part by its headers. -/
def readMimePart (source : Text) : Parsed MimePart := do
  let (headers, body) := splitHeaders toLowerCase source
  let rawContentType := (headers.get "content-type").getD (ascii "text/plain")
  let contentType := toLowerCase rawContentType
  if startsWith contentType (ascii "multipart/") then
    match mimeBoundary rawContentType with
    | none => documentError "Multipart MIME message is missing its boundary" "document.malformed"
    | some boundary =>
      let chunks := (split (ascii "--" ++ boundary) body).drop 1
      if chunks.length = 0 then
        documentError "Multipart MIME message contains no parts" "document.malformed"
      else pure (.multipart (chunksOf chunks))
  else if startsWith (toLowerCase ((headers.get "content-disposition").getD []))
      (ascii "attachment") then
    pure (.text ⟨[], []⟩)
  else do
    let decoded ← decodeMimeBody body
      (toLowerCase ((headers.get "content-transfer-encoding").getD []))
    if startsWith contentType (ascii "text/html") then do
      assertNoActiveMarkup decoded
      pure (.text ⟨[], nonEmpty (normalizeText (htmlText decoded))⟩)
    else if startsWith contentType (ascii "text/plain") then
      pure (.text ⟨nonEmpty (normalizeText decoded), []⟩)
    else pure (.text ⟨[], []⟩)

/-- One chunk after the other, with the count of parts passed on. -/
def parseChunks (parse : Text → Nat → Parsed (MimeText × Nat)) :
    List Text → Nat → Parsed (MimeText × Nat)
  | [], parts => pure (⟨[], []⟩, parts)
  | chunk :: rest, parts => do
    let (nested, parts) ← parse chunk parts
    let (result, parts) ← parseChunks parse rest parts
    pure (⟨nested.plain ++ result.plain, nested.html ++ result.html⟩, parts)

/-- `parseMimeText` with the number of levels that may still be entered in place of the depth. -/
def parseMimeLevels : Nat → Text → Nat → Parsed (MimeText × Nat)
  | 0, _, _ => documentError "MIME nesting exceeds the safe limit" "document.mime_limit"
  | levels + 1, source, parts =>
    if maxMimeParts < parts + 1 then
      documentError "MIME message contains too many parts" "document.mime_limit"
    else do
      let part ← readMimePart toLowerCase htmlText source
      match part with
      | .multipart chunks => parseChunks (parseMimeLevels levels) chunks (parts + 1)
      | .text text => pure (text, parts + 1)

def parseMimeText (source : Text) (depth parts : Nat) : Parsed (MimeText × Nat) :=
  parseMimeLevels toLowerCase htmlText (maxMimeDepth + 1 - depth) source parts

end Groundlane.Parser
