import Groundlane.Text.Lines

/-!
# Parser profiles

`resolveDocumentParserProfile` of `adapters/document/bounded-document-parser.ts`, which decides by
the MIME type and the extension of the filename. `toLowerCase` is a parameter.
-/

namespace Groundlane.Parser

open Utf16

/-- `MAX_DOCUMENT_BYTES`. -/
def maxDocumentBytes : Nat := 10 * 1024 * 1024

inductive DocumentParserProfile where
  | pdf
  | docx
  | xlsx
  | pptx
  | odf
  | epub
  | csv
  | rtf
  | eml
  | html
  | json
  | xml
  | text
  | unsupported
deriving DecidableEq, Repr

variable (toLowerCase : Text → Text)

/-- The MIME type without its parameters. -/
def mimeOf (declaredMime : Text) : Text :=
  toLowerCase (trim (declaredMime.takeWhile (· ≠ 0x3b)))

/-- What stands behind the last dot. -/
def extensionOf (filename : Text) : Text :=
  ((toLowerCase filename).reverse.takeWhile (· ≠ 0x2e)).reverse

/-- The profile of a MIME type and an extension. -/
def profileOf (mime extension : Text) : DocumentParserProfile :=
  if mime = ascii "application/pdf" ∨ extension = ascii "pdf" then .pdf
  else if extension ∈ [ascii "docx", ascii "xlsx", ascii "pptx", ascii "odt", ascii "ods",
        ascii "odp", ascii "epub"] ∨ includes mime (ascii "officedocument") = true ∨
      includes mime (ascii "opendocument") = true ∨ mime = ascii "application/epub+zip" then
    if extension = ascii "docx" ∨ includes mime (ascii "wordprocessingml") = true then .docx
    else if extension = ascii "xlsx" ∨ includes mime (ascii "spreadsheetml") = true then .xlsx
    else if extension = ascii "pptx" ∨ includes mime (ascii "presentationml") = true then .pptx
    else if extension = ascii "epub" ∨ mime = ascii "application/epub+zip" then .epub
    else .odf
  else if extension = ascii "csv" ∨ mime = ascii "text/csv" then .csv
  else if extension = ascii "rtf" ∨ mime = ascii "application/rtf" ∨ mime = ascii "text/rtf" then
    .rtf
  else if extension = ascii "eml" ∨ mime = ascii "message/rfc822" then .eml
  else if extension = ascii "html" ∨ extension = ascii "htm" ∨ mime = ascii "text/html" then .html
  else if extension = ascii "json" ∨ mime = ascii "application/json" then .json
  else if extension = ascii "xml" ∨ endsWith mime (ascii "+xml") = true ∨
      mime = ascii "application/xml" ∨ mime = ascii "text/xml" then .xml
  else if extension ∈ [ascii "txt", ascii "md", ascii "markdown"] ∨
      startsWith mime (ascii "text/") = true then .text
  else .unsupported

def resolveDocumentParserProfile (declaredMime filename : Text) : DocumentParserProfile :=
  profileOf (mimeOf toLowerCase declaredMime) (extensionOf toLowerCase filename)

end Groundlane.Parser
