import Groundlane.Text.Utf16

/-!
# Lines, pieces and patterns

Strings cut at line breaks, at a blank line and at a delimiter, and the regular expressions that
read a parameter of a header.
-/

namespace Utf16

/-- A line feed. -/
def lineFeed : UInt16 := 0x0a

/-- A carriage return. -/
def carriageReturn : UInt16 := 0x0d

/-- A space or a tab. -/
def isBlank (unit : UInt16) : Bool := unit = 0x20 || unit = 9

/-- An ASCII letter in lower case. -/
def lowerAscii (unit : UInt16) : UInt16 :=
  if 0x41 ≤ unit ∧ unit ≤ 0x5a then unit + 0x20 else unit

/-- `toLowerCase`, which is a parameter beyond ASCII. -/
def lowerCase (beyondAscii : Text → Text) (text : Text) : Text :=
  if text.all (· < 0x80) then text.map lowerAscii else beyondAscii text

/-- `startsWith`. -/
def startsWith (text start : Text) : Bool := start.isPrefixOf text

/-- `endsWith`. -/
def endsWith (text ending : Text) : Bool := ending.isSuffixOf text

/-! ## Cutting -/

/-- What stands in front of the first place where the pattern stands, and behind it. -/
def cutAt (pattern : Text) : Text → Option (Text × Text)
  | [] => none
  | unit :: rest =>
    if pattern.isPrefixOf (unit :: rest) then
      some ([], (unit :: rest).drop pattern.length)
    else (cutAt pattern rest).map fun (left, right) => (unit :: left, right)

/-- `includes`, for a pattern that is not empty. -/
def includes (text pattern : Text) : Bool := (cutAt pattern text).isSome

/-- The pieces between the delimiters: the units of a delimiter that are still to be skipped, and
the units of the current piece, the last one first. -/
def splitFrom (delimiter : Text) : Nat → Text → Text → List Text
  | _, piece, [] => [piece.reverse]
  | skip + 1, piece, _ :: rest => splitFrom delimiter skip piece rest
  | 0, piece, unit :: rest =>
    if delimiter.isPrefixOf (unit :: rest) then
      piece.reverse :: splitFrom delimiter (delimiter.length - 1) [] rest
    else splitFrom delimiter 0 (unit :: piece) rest

/-- `split(delimiter)`, for a delimiter that is not empty. -/
def split (delimiter text : Text) : List Text := splitFrom delimiter 0 [] text

/-- `split(/\r?\n/)`. -/
def lines : Text → List Text
  | [] => [[]]
  | unit :: rest =>
    if unit = lineFeed then [] :: lines rest
    else if unit = carriageReturn ∧ rest.head? = some lineFeed then lines rest
    else
      match lines rest with
      | line :: others => (unit :: line) :: others
      | [] => [[unit]]

/-- `replace(/\r?\n[ \t]+/g, " ")`: whether the blanks of a continuation are being dropped. -/
def unfoldLines : Bool → Text → Text
  | _, [] => []
  | dropping, unit :: rest =>
    if dropping && isBlank unit then unfoldLines true rest
    else if unit = lineFeed && rest.head?.any isBlank then 0x20 :: unfoldLines true rest
    else if unit = carriageReturn && rest.head? = some lineFeed && rest.tail.head?.any isBlank
      then unfoldLines false rest
    else unit :: unfoldLines false rest

/-- `replace(/^\r?\n/, "")`. -/
def dropFirstBreak (text : Text) : Text :=
  match text with
  | first :: rest =>
    if first = lineFeed then rest
    else if first = carriageReturn ∧ rest.head? = some lineFeed then rest.tail
    else text
  | [] => []

/-- `replace(/\r?\n$/, "")`. -/
def dropLastBreak (text : Text) : Text :=
  match text.reverse with
  | last :: rest =>
    if last = lineFeed then
      if rest.head? = some carriageReturn then rest.tail.reverse else rest.reverse
    else text
  | [] => []

/-! ## Patterns -/

/-- The first match of a pattern. -/
def firstMatch {α : Type} (pattern : Text → Option α) : Text → Option α
  | [] => pattern []
  | unit :: rest => (pattern (unit :: rest)).orElse fun _ => firstMatch pattern rest

/-- What stands behind a name in ASCII letters, written in any case, and behind an equals sign
with white space around the name's end. -/
def behindName (name text : Text) : Option Text :=
  if (text.take name.length).map lowerAscii = name then
    match (text.drop name.length).dropWhile isWhiteSpace with
    | unit :: rest => if unit = 0x3d then some rest else none
    | [] => none
  else none

/-- `\s*"?([...]+)"?` for a class that leaves out the quote: if nothing of the class stands behind
the white space, its last unit that is of the class does. -/
def valueOf (inClass : UInt16 → Bool) (text : Text) : Option Text :=
  let rest := text.dropWhile isWhiteSpace
  match (if rest.head? = some 0x22 then rest.tail else rest).takeWhile inClass with
  | [] => ((text.takeWhile isWhiteSpace).filter inClass).getLast?.map fun unit => [unit]
  | value => some value

/-- `/name\s*=\s*"?([...]+)"?/i`. -/
def parameter (name : Text) (inClass : UInt16 → Bool) (text : Text) : Option Text :=
  firstMatch (fun found => (behindName name found).bind (valueOf inClass)) text

end Utf16
