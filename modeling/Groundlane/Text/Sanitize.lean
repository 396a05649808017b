import Groundlane.Durable.Store

/-!
# Bounded, log-safe error messages

`sanitizeUpstreamError` of `core/async-lifecycle.ts`. The four secret patterns are sequences of
greedy pieces; no piece can match a character that the next piece needs, so the first greedy
match is the match of the regular expression.
-/

namespace Groundlane

/-- `\s`, and what `trim` removes. -/
def isSpace (c : Char) : Bool :=
  (9 ≤ c.toNat && c.toNat ≤ 13) || (0x2000 ≤ c.toNat && c.toNat ≤ 0x200a) ||
    [0x20, 0xa0, 0x1680, 0x2028, 0x2029, 0x202f, 0x205f, 0x3000, 0xfeff].contains c.toNat

/-- `trim`. -/
def trimSpace (text : List Char) : List Char :=
  ((text.dropWhile isSpace).reverse.dropWhile isSpace).reverse

/-- A piece of a pattern: one character of a class, or as many as possible, but at least
`least`. -/
inductive PatternPiece where
  | one (test : Char → Bool)
  | optional (test : Char → Bool)
  | many (least : Nat) (test : Char → Bool)

/-- A pattern, with `\b` in front of it or not. -/
structure SecretPattern where
  atBoundary : Bool
  pieces : List PatternPiece

/-- The letters of `word`, in upper or lower case. -/
def word (word : String) : List PatternPiece :=
  word.toList.map fun letter => .one fun c => c.toLower == letter

/-- What is left of `text` behind a match at its start. -/
def matchPieces : List PatternPiece → List Char → Option (List Char)
  | [], text => some text
  | .one test :: pieces, c :: text => if test c then matchPieces pieces text else none
  | .one _ :: _, [] => none
  | .optional test :: pieces, c :: text => matchPieces pieces (if test c then text else c :: text)
  | .optional _ :: pieces, [] => matchPieces pieces []
  | .many least test :: pieces, text =>
    if (text.takeWhile test).length < least then none
    else matchPieces pieces (text.dropWhile test)

/-- `\w`. -/
def isWordChar (c : Char) : Bool := c.isAlphanum || c == '_'

/-- `[^\s,;}"']`. -/
def isSecretChar (c : Char) : Bool :=
  !(isSpace c || [',', ';', Char.ofNat 125, '"', Char.ofNat 39].contains c)

/-- `SECRET_REDACTIONS`. -/
def secretRedactions : List SecretPattern :=
  [⟨false, word "bearer" ++ [.many 1 isSpace,
      .many 1 fun c => c.isAlphanum || ['-', '.', '_', '~', '+', '/', '='].contains c]⟩,
    ⟨false, word "api" ++ [.optional fun c => c == '_' || c == '-'] ++ word "key" ++
      [.many 0 isSpace, .one fun c => c == ':' || c == '=', .many 0 isSpace, .many 1 isSecretChar]⟩,
    ⟨true, word "token" ++
      [.many 0 isSpace, .one fun c => c == ':' || c == '=', .many 0 isSpace, .many 1 isSecretChar]⟩,
    -- The class behind the colon contains the spaces, so `\s*` in front of it adds nothing.
    ⟨false, word "authorization" ++ [.many 0 isSpace, .one fun c => c == ':',
      .many 1 fun c => !([Char.ofNat 10, ',', Char.ofNat 125].contains c)]⟩]

/-- Replace every match of the pattern, from left to right; `previous` stands before `text`. -/
def redact (pattern : SecretPattern) : Nat → Option Char → List Char → List Char
  | 0, _, text => text
  | _ + 1, _, [] => []
  | fuel + 1, previous, c :: text =>
    if pattern.atBoundary && previous.any isWordChar then c :: redact pattern fuel (some c) text
    else match matchPieces pattern.pieces (c :: text) with
      | some rest => "[redacted]".toList ++
        redact pattern fuel ((c :: text)[(c :: text).length - rest.length - 1]?) rest
      | none => c :: redact pattern fuel (some c) text

/-- `replace(/\s+/g, " ")`. -/
def collapseSpace : Bool → List Char → List Char
  | _, [] => []
  | inSpace, c :: text =>
    if isSpace c then
      if inSpace then collapseSpace true text else ' ' :: collapseSpace true text
    else c :: collapseSpace false text

/-- The characters within the first `limit` UTF-16 code units. -/
def sliceUtf16 : Nat → List Char → List Char
  | _, [] => []
  | limit, c :: text =>
    let units := if c.toNat < 0x10000 then 1 else 2
    if units ≤ limit then c :: sliceUtf16 (limit - units) text else []

/-- The message that a thrown value carries. -/
def Fault.message : Fault → String
  | groundlane _ _ message => message
  | error message => message
  | text message => message
  | other => "The upstream operation failed"

def sanitizeUpstreamError (fault : Fault) : String :=
  let firstLine := trimSpace (fault.message.toList.takeWhile fun c => c ≠ Char.ofNat 10)
  let redacted := secretRedactions.foldl
    (fun text pattern => redact pattern text.length none text) firstLine
  let collapsed := trimSpace (collapseSpace false redacted)
  if collapsed.isEmpty then "The upstream operation failed"
  else String.ofList (sliceUtf16 500 collapsed)

end Groundlane
