import Groundlane.Markdown.Outline
import Groundlane.Text.PercentEncoding

/-!
# The section of a fragment

`slugifyHeading` and `sliceMarkdownByHash` of `core/source-aware-docs.ts`, which cut the section of
a Markdown text that the fragment of a URL names. The URL parser, `toLowerCase` and the Unicode
classes beyond ASCII are parameters.
-/

namespace Groundlane.SourceDocs

open Utf16

/-- What the runtime brings: `new URL(sourceUrl).hash`, if the parser does not throw, `toLowerCase`
of a string beyond ASCII, and whether a code point beyond ASCII is a `\p{Letter}` or a
`\p{Number}`. -/
structure Platform where
  urlHash : Text → Option Text
  lowerBeyondAscii : Text → Text
  isLetterOrNumber : Text → Bool

/-- What `new URL` and `decodeURIComponent` throw. -/
inductive SliceFault where
  | typeError
  | uriError
deriving DecidableEq, Repr

/-- `-`. -/
def hyphen : UInt16 := 0x2d

/-! ## Slugs -/

/-- A letter or a digit of ASCII. -/
def isAsciiAlphanumeric (unit : UInt16) : Bool :=
  (0x30 ≤ unit && unit ≤ 0x39) || (0x41 ≤ unit && unit ≤ 0x5a) || (0x61 ≤ unit && unit ≤ 0x7a)

/-- `replace(/…+/gu, "-")` for a class of code units; `inside` is whether the unit in front is of
the class. -/
def collapse (inClass : UInt16 → Bool) (inside : Bool) : Text → Text
  | [] => []
  | unit :: rest =>
    if inClass unit then
      if inside then collapse inClass true rest else hyphen :: collapse inClass true rest
    else unit :: collapse inClass false rest

/-- `replace(/^-|-$/gu, "")`. -/
def dropHyphens (text : Text) : Text :=
  let behind := if text.head? = some hyphen then text.tail else text
  if behind.getLast? = some hyphen then behind.dropLast else behind

namespace Platform

variable (platform : Platform)

def toLowerCase (text : Text) : Text := lowerCase platform.lowerBeyondAscii text

/-- A code point outside `[^\p{Letter}\p{Number}\s-]`. -/
def isSlugPoint : Text → Bool
  | [unit] =>
    isWhiteSpace unit || unit = hyphen ||
      if unit < 0x80 then isAsciiAlphanumeric unit else platform.isLetterOrNumber [unit]
  | point => platform.isLetterOrNumber point

def slugifyHeading (value : Text) : Text :=
  let plain := (platform.toLowerCase (trim value)).filter fun unit => unit ∉ ascii "`*_~[]()"
  let kept := ((codePoints plain).filter platform.isSlugPoint).flatten
  dropHyphens (collapse (· = hyphen) false (collapse isWhiteSpace false kept))

end Platform

/-! ## Headings -/

/-- What `.` does not match. -/
def isLineTerminator (unit : UInt16) : Bool := [0xa, 0xd, 0x2028, 0x2029].contains unit

/-- `/^(#\x7b1,6\x7d)\s+/u`: the level and what stands behind the marks. -/
def headingMarks (line : Text) : Option (Nat × Text) :=
  let level := (line.takeWhile (· = 0x23)).length
  let rest := line.dropWhile (· = 0x23)
  if 1 ≤ level ∧ level ≤ 6 ∧ rest.head?.any isWhiteSpace then some (level, rest) else none

/-- `(.+?)` in `\s+(.+?)\s*$`. Of white space alone, the last unit is taken that `.` matches and
that is not the first one. -/
def headingText (rest : Text) : Option Text :=
  let text := trim rest
  if text.isEmpty then
    ((rest.tail.filter fun unit => !isLineTerminator unit).getLast?).map fun unit => [unit]
  else if text.any isLineTerminator then none
  else some text

/-- `/^(#\x7b1,6\x7d)\s+(.+?)\s*$/u`: the two groups, the first one by its length. -/
def headingMatch (line : Text) : Option (Nat × Text) :=
  (headingMarks line).bind fun (level, rest) => (headingText rest).map fun text => (level, text)

/-! ## Slicing -/

/-- The first loop of `sliceMarkdownByHash`: `start` and `level`. -/
def startLoop (platform : Platform) (target : Text) : Nat → List Text → Option (Nat × Nat)
  | _, [] => none
  | index, line :: rest =>
    match headingMatch line with
    | none => startLoop platform target (index + 1) rest
    | some (level, text) =>
      if platform.slugifyHeading text = target then some (index, level)
      else startLoop platform target (index + 1) rest

/-- The second loop: `end`. -/
def endLoop (level : Nat) : Nat → List Text → Nat
  | index, [] => index
  | index, line :: rest =>
    if (headingMarks line).any fun found => found.1 ≤ level then index
    else endLoop level (index + 1) rest

/-- `start` and `end`, unless `start` stays -1. -/
def sliceBounds (platform : Platform) (lines : List Text) (target : Text) : Option (Nat × Nat) :=
  (startLoop platform target 0 lines).map fun (start, level) =>
    (start, endLoop level (start + 1) (lines.drop (start + 1)))

/-- `lines.slice(start, end).join("\n").trim()`. -/
def sliceText (lines : List Text) (bounds : Nat × Nat) : Text :=
  trim (List.intercalate [lineFeed] ((lines.take bounds.2).drop bounds.1))

/-- `replace(/^#/u, "")`. -/
def withoutHash (hash : Text) : Text := if hash.head? = some 0x23 then hash.tail else hash

def sliceMarkdownByHash (platform : Platform) (markdown sourceUrl : Text) : Except SliceFault Text :=
  match platform.urlHash sourceUrl with
  | none => .error .typeError
  | some found =>
    let hash := withoutHash found
    if hash.isEmpty then .ok markdown
    else
      match Percent.decodeURIComponent hash with
      | none => .error .uriError
      | some decoded =>
        match sliceBounds platform (lines markdown) (platform.toLowerCase decoded) with
        | none => .ok markdown
        | some bounds => .ok (sliceText (lines markdown) bounds)

end Groundlane.SourceDocs
