import Groundlane.Parser.Mime
import Groundlane.Text.Utf8

/-!
# Classifying documents

`sniffMimeFromBytes` and `classifyDocumentBytes` of `core/document-source.ts`: what a document is
by its first bytes, its declared MIME type and its filename.
-/

namespace Groundlane.Sources

open Utf16

/-- `DOCUMENT_SNIFF_WINDOW_BYTES`. -/
def sniffWindowBytes : Nat := 64 * 1024

/-- `DOCUMENT_FILENAME_PREVIEW_CHARS`. -/
def filenamePreviewChars : Nat := 64

/-- `DOCUMENT_MIME_MAX_CHARS`. -/
def mimeMaxChars : Nat := 128

/-- What `documentInputError` throws. -/
structure SourceError where
  message : Text
  hintCode : String
  hintText : String
deriving DecidableEq

def documentInputError {α : Type} (message : Text) (hintCode hintText : String) :
    Except SourceError α :=
  .error ⟨message, hintCode, hintText⟩

inductive DocumentInputKind where
  | pdf
  | image
  | office
  | html
  | text
  | audio
deriving DecidableEq, Repr

inductive OfficeFlavor where
  | ooxmlWord
  | ooxmlSheet
  | ooxmlSlides
  | legacyOffice
deriving DecidableEq, Repr

structure DocumentClassification where
  inputKind : DocumentInputKind
  sniffedMime : Text
  needsOcr : Bool
  officeFlavor : Option OfficeFlavor
deriving DecidableEq

/-! ## Tables -/

/-- The Office MIME types of OOXML, with their flavors. -/
def ooxmlMimeToFlavor : List (Text × OfficeFlavor) :=
  [(ascii "application/vnd.openxmlformats-officedocument.wordprocessingml.document", .ooxmlWord),
    (ascii "application/vnd.openxmlformats-officedocument.spreadsheetml.sheet", .ooxmlSheet),
    (ascii "application/vnd.openxmlformats-officedocument.presentationml.presentation",
      .ooxmlSlides)]

def legacyOfficeMimes : List Text :=
  [ascii "application/msword", ascii "application/vnd.ms-excel",
    ascii "application/vnd.ms-powerpoint"]

/-- The MIME types of packages, with the extension that goes with each. -/
def zipMimeExtension : List (Text × Text) :=
  [(ascii "application/vnd.openxmlformats-officedocument.wordprocessingml.document", ascii ".docx"),
    (ascii "application/vnd.openxmlformats-officedocument.spreadsheetml.sheet", ascii ".xlsx"),
    (ascii "application/vnd.openxmlformats-officedocument.presentationml.presentation",
      ascii ".pptx"),
    (ascii "application/vnd.oasis.opendocument.text", ascii ".odt"),
    (ascii "application/vnd.oasis.opendocument.spreadsheet", ascii ".ods"),
    (ascii "application/vnd.oasis.opendocument.presentation", ascii ".odp"),
    (ascii "application/epub+zip", ascii ".epub")]

def supportedDocumentMimes : List Text :=
  [ascii "application/pdf", ascii "image/png", ascii "image/jpeg", ascii "image/webp",
    ascii "image/gif",
    ascii "application/vnd.openxmlformats-officedocument.wordprocessingml.document",
    ascii "application/vnd.openxmlformats-officedocument.spreadsheetml.sheet",
    ascii "application/vnd.openxmlformats-officedocument.presentationml.presentation",
    ascii "application/msword", ascii "application/vnd.ms-excel",
    ascii "application/vnd.ms-powerpoint", ascii "text/plain", ascii "text/markdown",
    ascii "text/csv", ascii "text/html", ascii "application/json", ascii "application/xml",
    ascii "text/xml", ascii "application/rtf", ascii "text/rtf", ascii "message/rfc822",
    ascii "application/epub+zip", ascii "application/vnd.oasis.opendocument.text",
    ascii "application/vnd.oasis.opendocument.spreadsheet",
    ascii "application/vnd.oasis.opendocument.presentation", ascii "audio/mpeg",
    ascii "audio/ogg", ascii "audio/wav"]

/-! ## Sniffing -/

abbrev Bytes : Type := List UInt8

def hasBytesAt (data : Bytes) (offset : Nat) (magic : Bytes) : Bool :=
  magic.isPrefixOf (data.drop offset)

/-- A magic number: the length that the data must have, the bytes at their offsets, and the
type. -/
structure Signature where
  minLength : Nat
  parts : List (Nat × Bytes)
  mime : Text

def signatures : List Signature :=
  [⟨4, [(0, [0x25, 0x50, 0x44, 0x46])], ascii "application/pdf"⟩,
    ⟨8, [(0, [0x89, 0x50, 0x4e, 0x47, 0x0d, 0x0a, 0x1a, 0x0a])], ascii "image/png"⟩,
    ⟨3, [(0, [0xff, 0xd8, 0xff])], ascii "image/jpeg"⟩,
    ⟨6, [(0, [0x47, 0x49, 0x46, 0x38, 0x37, 0x61])], ascii "image/gif"⟩,
    ⟨6, [(0, [0x47, 0x49, 0x46, 0x38, 0x39, 0x61])], ascii "image/gif"⟩,
    ⟨12, [(0, [0x52, 0x49, 0x46, 0x46]), (8, [0x57, 0x45, 0x42, 0x50])], ascii "image/webp"⟩,
    ⟨12, [(0, [0x52, 0x49, 0x46, 0x46]), (8, [0x57, 0x41, 0x56, 0x45])], ascii "audio/wav"⟩,
    ⟨4, [(0, [0x50, 0x4b, 0x03, 0x04])], ascii "application/zip"⟩,
    ⟨8, [(0, [0xd0, 0xcf, 0x11, 0xe0, 0xa1, 0xb1, 0x1a, 0xe1])], ascii "application/x-ole-storage"⟩,
    ⟨2, [(0, [0x1f, 0x8b])], ascii "application/gzip"⟩,
    ⟨4, [(0, [0x52, 0x61, 0x72, 0x21])], ascii "application/x-rar"⟩,
    ⟨6, [(0, [0x37, 0x7a, 0xbc, 0xaf, 0x27, 0x1c])], ascii "application/x-7z"⟩,
    ⟨3, [(0, [0x49, 0x44, 0x33])], ascii "audio/mpeg"⟩,
    ⟨4, [(0, [0x4f, 0x67, 0x67, 0x53])], ascii "audio/ogg"⟩]

def Signature.matches (signature : Signature) (data : Bytes) : Bool :=
  signature.minLength ≤ data.length &&
    signature.parts.all fun (offset, magic) => hasBytesAt data offset magic

/-- White space in front of HTML. -/
def isHtmlSpace (byte : UInt8) : Bool := [0x20, 0x09, 0x0a, 0x0d].contains byte

variable (toLowerCase : Text → Text)

/-- The first characters of the first 512 bytes, behind a byte order mark and white space. -/
def headText (data : Bytes) : Text :=
  let head := data.take 512
  let behindMark := if [0xef, 0xbb, 0xbf].isPrefixOf head then head.drop 3 else head
  toLowerCase ((Utf8.decode (behindMark.dropWhile isHtmlSpace)).take 256)

def sniffMimeFromBytes (data : Bytes) : Option Text :=
  match signatures.find? fun signature => signature.matches data with
  | some signature => some signature.mime
  | none =>
    if startsWith (headText toLowerCase data) (ascii "<!doctype html") ||
        startsWith (headText toLowerCase data) (ascii "<html") then
      some (ascii "text/html")
    else none

def windowContainsAscii (data : Bytes) (windowBytes : Nat) (needle : String) : Bool :=
  includes (Utf8.latin1 (data.take windowBytes)) (ascii needle)

/-! ## Filenames -/

def previewFilename (filename : Text) : Text :=
  let trimmed := (trim filename).take filenamePreviewChars
  if trimmed = [] then ascii "(unnamed)" else trimmed

/-- A dot and one of the extensions in any case, with something behind. -/
def hasExtension (extensions : List Text) (behind : Text → Bool) : Text → Bool
  | [] => false
  | unit :: rest =>
    (unit = 0x2e && extensions.any fun extension =>
      (Parser.behindWord extension rest).any behind) || hasExtension extensions behind rest

/-- `ARCHIVE_FILENAME_RE`. -/
def isArchiveFilename : Text → Bool :=
  hasExtension [ascii "zip", ascii "rar", ascii "7z", ascii "tar", ascii "gz", ascii "bz2",
      ascii "xz", ascii "cbz", ascii "cbr"]
    fun behind => behind.head?.all fun unit => (ascii "?#.").contains unit

/-- `OFFICE_FILENAME_RE`. -/
def isOfficeFilename : Text → Bool :=
  hasExtension [ascii "docx", ascii "xlsx", ascii "pptx", ascii "odt", ascii "ods", ascii "odp",
      ascii "epub"]
    List.isEmpty

example : isArchiveFilename (ascii "a.tar.gz") = true ∧ isArchiveFilename (ascii "zip") = false := by
  decide +kernel

/-! ## Classification -/

def validateDeclaredMimeShape (declaredMime : Text) : Except SourceError Text :=
  let mime := trim declaredMime
  if mime = [] then
    documentInputError (ascii "Inline source must declare a MIME type") "document.invalid_mime"
      "Declare one of the supported document MIME types."
  else if mimeMaxChars < mime.length then
    documentInputError (ascii "Declared MIME type exceeds maximum length") "document.output_limit"
      "Use a supported document MIME type under 128 characters."
  else .ok mime

def inputKindForMime (mime : Text) : DocumentInputKind :=
  if mime = ascii "application/pdf" then .pdf
  else if startsWith mime (ascii "image/") then .image
  else if mime = ascii "text/html" then .html
  else if mime ∈ [ascii "text/plain", ascii "text/markdown", ascii "text/csv",
      ascii "application/json", ascii "application/xml", ascii "text/xml",
      ascii "application/rtf", ascii "text/rtf", ascii "message/rfc822",
      ascii "application/epub+zip"] then .text
  else if startsWith mime (ascii "audio/") then .audio
  else .office

def quoted (text : Text) : Text := ascii "\"" ++ text ++ ascii "\""

def archiveRejected {α : Type} (preview : Text) (hintText : String) : Except SourceError α :=
  documentInputError (ascii "Archive inputs are rejected for file " ++ quoted preview)
    "document.archive_rejected" hintText

def mimeMismatch {α : Type} (mime other : Text) (hintText : String) : Except SourceError α :=
  documentInputError (ascii "MIME type mismatch: declared " ++ quoted mime ++
    ascii " does not match " ++ other) "document.mime_mismatch" hintText

def encryptedRejected {α : Type} (preview : Text) : Except SourceError α :=
  documentInputError (ascii "Encrypted PDF inputs are rejected for file " ++ quoted preview)
    "document.encrypted_rejected" "Upload an unencrypted PDF without password protection."

/-- `image/jpg` is another name of `image/jpeg`. -/
def withoutAlias (mime : Text) : Text :=
  if mime = ascii "image/jpg" then ascii "image/jpeg" else mime

/-- The classification as a sniffed or a declared type. -/
def classified (mime found : Text) : DocumentClassification :=
  let kind := inputKindForMime (withoutAlias found)
  { inputKind := kind
    sniffedMime := found
    needsOcr := kind == .image
    officeFlavor := if kind = .office then
        (ooxmlMimeToFlavor.lookup mime).or
          (if mime ∈ legacyOfficeMimes then some .legacyOffice else none)
      else none }

def classifyDocumentBytes (data : Bytes) (declaredMime filename : Text) :
    Except SourceError DocumentClassification := do
  let mime ← validateDeclaredMimeShape declaredMime
  if filename = [] ∨ trim filename = [] then
    documentInputError (ascii "Inline source must declare a filename") "document.invalid_input"
      "Provide a filename with a supported document extension."
  else
    let preview := previewFilename filename
    if isArchiveFilename filename && !isOfficeFilename filename then
      archiveRejected preview
        "Upload a single PDF, image, or Office document instead of an archive."
    else
      match sniffMimeFromBytes toLowerCase data with
      | some sniffed =>
        if sniffed ∈ [ascii "application/gzip", ascii "application/x-rar",
            ascii "application/x-7z"] then
          archiveRejected preview
            "Upload a single PDF, image, or Office document instead of an archive."
        else if sniffed = ascii "application/zip" then
          if (zipMimeExtension.lookup mime).all fun extension =>
              !endsWith (toLowerCase filename) extension then
            archiveRejected preview
              "Upload a single Office document (.docx/.xlsx/.pptx) instead of a generic zip."
          else if windowContainsAscii data sniffWindowBytes "vbaProject.bin" then
            documentInputError (ascii "Office macro inputs are rejected for file " ++
              quoted preview) "document.macro_rejected"
              "Remove VBA macros and re-upload a macro-free Office document."
          else .ok ⟨inputKindForMime mime, mime, false, ooxmlMimeToFlavor.lookup mime⟩
        else if sniffed = ascii "application/x-ole-storage" then
          if mime ∉ legacyOfficeMimes then
            mimeMismatch mime (ascii "sniffed legacy Office container")
              "Declare the matching legacy Office MIME type for this file."
          else .ok ⟨.office, mime, false, some .legacyOffice⟩
        else if sniffed ≠ mime ∧ withoutAlias mime ≠ sniffed then
          mimeMismatch mime (ascii "sniffed " ++ quoted sniffed)
            "Declare the MIME type that matches the file bytes."
        else if (sniffed = ascii "application/pdf" ∨ mime = ascii "application/pdf") ∧
            windowContainsAscii data sniffWindowBytes "/Encrypt" = true then
          encryptedRejected preview
        else .ok (classified mime sniffed)
      | none =>
        if mime ∉ supportedDocumentMimes ∧ mime ≠ ascii "image/jpg" then
          documentInputError (ascii "Unsupported document MIME type " ++ quoted mime)
            "document.unsupported_mime"
            "Use one of the supported PDF, image, Office, text, HTML, or audio MIME types."
        else if (data.take 1024).contains 0 then
          mimeMismatch mime (ascii "binary content")
            "Declare the MIME type that matches the file bytes."
        else if mime = ascii "application/pdf" ∧
            windowContainsAscii data sniffWindowBytes "/Encrypt" = true then
          encryptedRejected preview
        else .ok (classified mime mime)

end Groundlane.Sources
