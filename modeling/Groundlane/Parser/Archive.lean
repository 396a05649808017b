import Mathlib.Algebra.Order.BigOperators.Group.List
import Mathlib.Algebra.Order.Group.Nat
import Groundlane.Parser.Bounded
import Groundlane.Parser.Markup

/-!
# Bounded archives

Before it unpacks an archive, `unzipBounded` looks for records of a central directory from the
first byte on, and skips behind each record by the lengths that it names. The tools that extract
archives unpack first. `unpacks_bounded_iff` says for which archives what is unpacked is bounded.
-/

namespace Groundlane.Parser

open Utf16

/-- `MAX_ARCHIVE_ENTRIES`. -/
def maxArchiveEntries : Nat := 1000

/-- `MAX_ARCHIVE_UNCOMPRESSED_BYTES`. -/
def maxArchiveUncompressedBytes : Nat := 32 * 1024 * 1024

/-- The files of a package in the order of their names in the object. -/
abbrev Files : Type := List (Text × List UInt8)

/-! ## Records of a central directory -/

/-- `getUint16(offset, true)`. -/
def getUint16 (bytes : List UInt8) (offset : Nat) : Nat :=
  (bytes.getD offset 0).toNat + 256 * (bytes.getD (offset + 1) 0).toNat

/-- `getUint32(offset, true)`. -/
def getUint32 (bytes : List UInt8) (offset : Nat) : Nat :=
  getUint16 bytes offset + 65536 * getUint16 bytes (offset + 2)

/-- The sizes that a record declares. -/
structure Declared where
  compressed : Nat
  uncompressed : Nat
deriving DecidableEq, Repr

/-- There is room for a record, and it begins with the signature of one. -/
def beginsRecord (bytes : List UInt8) : Bool :=
  46 ≤ bytes.length && getUint32 bytes 0 = 0x02014b50

/-- The sizes of the record at the start. -/
def declaredAt (bytes : List UInt8) : Declared := ⟨getUint32 bytes 20, getUint32 bytes 24⟩

/-- The length of the record at the start with its name, its extra field and its comment. -/
def recordLength (bytes : List UInt8) : Nat :=
  46 + getUint16 bytes 28 + getUint16 bytes 30 + getUint16 bytes 32

/-- The loop of `assertArchiveBounds`: the bytes that are still to be skipped, and what has been
counted. -/
def scanRecords : Nat → List UInt8 → Nat → Nat → Parsed Nat
  | _, [], entries, _ => pure entries
  | skip + 1, _ :: rest, entries, total => scanRecords skip rest entries total
  | 0, byte :: rest, entries, total =>
    if beginsRecord (byte :: rest) then
      let declared := declaredAt (byte :: rest)
      if maxArchiveEntries < entries + 1 then
        documentError "Archive contains too many entries" "document.archive_limit"
      else if maxDocumentBytes < declared.uncompressed ∨
          maxArchiveUncompressedBytes < total + declared.uncompressed ∨
          (0 < declared.compressed ∧ 100 * declared.compressed < declared.uncompressed) then
        documentError "Archive expansion exceeds the safe limit" "document.archive_limit"
      else
        scanRecords (recordLength (byte :: rest) - 1) rest (entries + 1)
          (total + declared.uncompressed)
    else scanRecords 0 rest entries total

def assertArchiveBounds (bytes : List UInt8) : Parsed Unit := do
  let entries ← scanRecords 0 bytes 0 0
  if entries = 0 then documentError "Malformed ZIP package" "document.malformed" else pure ()

/-! ## Names -/

/-- What stands at the start and behind every slash. -/
def behindSlashes (name : Text) : List Text :=
  name :: go name
where
  go : Text → List Text
    | [] => []
    | unit :: rest => if unit = 0x2f then rest :: go rest else go rest

/-- `/^[A-Za-z]:/`. -/
def namesDrive (name : Text) : Bool :=
  name.head?.any (fun unit => 0x61 ≤ lowerAscii unit && lowerAscii unit ≤ 0x7a) &&
    name.tail.head? = some 0x3a

def isUnsafePath (name : Text) : Bool :=
  let withoutTrailingSlash := if endsWith name [0x2f] then name.dropLast else name
  withoutTrailingSlash = [] || name.contains 0x5c || name.contains 0 || startsWith name [0x2f] ||
    namesDrive name || (split [0x2f] withoutTrailingSlash).any fun segment =>
      segment = [] || segment = ascii "." || segment = ascii ".."

/-- Active or embedded content by its name, in any case. -/
def isActiveName (name : Text) : Bool :=
  let folded := name.map foldCase
  (behindSlashes folded).any (fun behind =>
    [ascii "vbaproject.bin", ascii "embedding/", ascii "embeddings/", ascii "externallink/",
      ascii "externallinks/", ascii "activex/", ascii "script/", ascii "scripts/"].any
      (startsWith behind)) ||
    [ascii ".zip", ascii ".7z", ascii ".rar"].any (endsWith folded)

/-- The name ends with one of the extensions, in any case. -/
def hasEnding (endings : List Text) (name : Text) : Bool :=
  endings.any (endsWith (name.map foldCase))

/-! ## Content -/

/-- `TargetMode\s*=\s*["']External["']` in any case. -/
def targetsExternal : Text → Bool
  | [] => false
  | unit :: rest =>
    ((behindWord (ascii "targetmode") (unit :: rest)).any fun behind =>
      followedBy 0x3d behind &&
        (let value := ((behind.dropWhile isWhiteSpace).drop 1).dropWhile isWhiteSpace
        value.head?.any (fun first => first = 0x22 || first = 0x27) &&
          (behindWord (ascii "external") value.tail).any fun last =>
            last.head?.any fun closing => closing = 0x22 || closing = 0x27)) ||
      targetsExternal rest

/-- `<(?:office:script|script:script)\b|xlink:href\s*=\s*["'](?:https?:|file:)` in any case. -/
def linksOutside : Text → Bool
  | [] => false
  | unit :: rest =>
    [ascii "<office:script", ascii "<script:script"].any (fun word =>
      (behindWord word (unit :: rest)).any fun behind => !behind.head?.any isWordUnit) ||
      ((behindWord (ascii "xlink:href") (unit :: rest)).any fun behind =>
        followedBy 0x3d behind &&
          (let value := ((behind.dropWhile isWhiteSpace).drop 1).dropWhile isWhiteSpace
          value.head?.any (fun first => first = 0x22 || first = 0x27) &&
            [ascii "http:", ascii "https:", ascii "file:"].any fun scheme =>
              (behindWord scheme value.tail).isSome)) ||
      linksOutside rest

/-- What reads XML: the engines of the parser, and the library that delivers elements. -/
structure XmlReaders where
  engines : Engines
  load : Text → List Node

variable (readers : XmlReaders)

/-- Relationships of a package stay inside. -/
def checkRelationships (value : List UInt8) : Parsed Unit := do
  let xml := Utf8.decode value
  let _ ← assertWellFormedXml readers.engines xml
  if targetsExternal xml || (Node.attributeValues (ascii "TargetMode") (readers.load xml)).any
      fun mode => readers.engines.toLowerCase mode = ascii "external" then
    documentError "External package relationships are not supported" "document.active_content"
  else pure ()

/-- Marked-up content is well formed and not active. -/
def checkMarkup (name : Text) (value : List UInt8) : Parsed Unit := do
  if hasEnding [ascii ".xml", ascii ".rels", ascii ".opf", ascii ".xhtml", ascii ".html"] name then
    let source := Utf8.decode value
    let _ ← assertWellFormedXml readers.engines source
    if hasEnding [ascii ".opf", ascii ".xhtml", ascii ".html"] name then
      assertNoActiveMarkup source
    if linksOutside source then
      documentError "Active or external package content is not supported" "document.active_content"

/-- The checks behind `unzipSync`. -/
def checkFiles (files : Files) : Parsed Files := do
  let actualTotal := (files.map fun file => file.2.length).sum
  if maxArchiveEntries < files.length ∨ maxArchiveUncompressedBytes < actualTotal ∨
      (files.any fun file => maxDocumentBytes < file.2.length) then
    documentError "Archive expansion exceeds the safe limit" "document.archive_limit"
  else if files.any fun file => isUnsafePath file.1 then
    documentError "Archive contains an unsafe entry path" "document.archive_path"
  else if files.any fun file => isActiveName file.1 then
    documentError "Active or embedded external content is not supported" "document.active_content"
  else do
    (files.filter fun file => endsWith file.1 (ascii ".rels")).forM fun file =>
      checkRelationships readers file.2
    files.forM fun file => checkMarkup readers file.1 file.2
    pure files

/-! ## Unpacking -/

/-- What comes of a byte string: an error, or a call of `unzipSync` and what follows its files. -/
inductive Unpacking (ε α : Type) where
  | fail (error : ε)
  | unzipSync (bytes : List UInt8) (next : Option Files → Except ε α)

def unzipBounded (bytes : List UInt8) : Unpacking DocumentError Files :=
  match assertArchiveBounds bytes with
  | .error error => .fail error
  | .ok () =>
    .unzipSync bytes fun
      | none => documentError "Malformed ZIP package" "document.malformed"
      | some files => checkFiles readers files

/-- `MAX_INPUT_BYTES` of `document_archive_extract`. -/
def maxArchiveBytes : Nat := 32 * 1024 * 1024

/-- An entry that the tool reads. -/
def isSafeEntry (name : Text) : Bool :=
  !endsWith name [0x2f] && !name.contains 0x5c && !name.contains 0 && !startsWith name [0x2f] &&
    !(split [0x2f] name).any fun segment =>
      segment = [] || segment = ascii "." || segment = ascii ".."

/-- `document_archive_extract` up to the entries that it parses. -/
def documentArchiveExtract (dataBase64 : Text) : Unpacking String Files :=
  match Base64.atob dataBase64 with
  | none => .fail "Invalid base64 input"
  | some bytes =>
    if maxArchiveBytes < bytes.length then
      .fail ("Input exceeds the 32 MB limit (" ++ toString bytes.length ++ " bytes)")
    else
      .unzipSync bytes fun
        | none => .error "Malformed or unreadable ZIP archive"
        | some entries =>
          if maxArchiveEntries < entries.length then
            .error ("Archive contains " ++ toString entries.length ++
              " entries, exceeding the " ++ toString maxArchiveEntries ++ " limit")
          else if maxArchiveUncompressedBytes < (entries.map fun entry => entry.2.length).sum then
            .error "Archive expansion exceeds the safe limit"
          else .ok (entries.filter fun entry => isSafeEntry entry.1)

/-- The archive route of `document_smart_parse` up to the entries that it parses. -/
def executeArchiveRoute (bytes : List UInt8) : Unpacking String Files :=
  .unzipSync bytes fun
    | none => .error "Malformed or unreadable ZIP archive"
    | some entries => .ok ((entries.filter fun entry => !endsWith entry.1 [0x2f]).take 50)

/-! ## What is unpacked -/

/-- What the tools are called with. -/
inductive ArchiveCall where
  | unzipBounded (bytes : List UInt8)
  | documentArchiveExtract (dataBase64 : Text)
  | documentSmartParse (bytes : List UInt8)

/-- The byte string that is passed to `unzipSync`. -/
def Unpacking.archive {ε α : Type} : Unpacking ε α → Option (List UInt8)
  | fail _ => none
  | unzipSync bytes _ => some bytes

def ArchiveCall.archive : ArchiveCall → Option (List UInt8)
  | unzipBounded bytes => (Parser.unzipBounded readers bytes).archive
  | documentArchiveExtract dataBase64 => (Parser.documentArchiveExtract dataBase64).archive
  | documentSmartParse bytes => (executeArchiveRoute bytes).archive

/-- Few entries that declare little data. -/
def Bounded (entries : List Declared) : Prop :=
  entries.length ≤ maxArchiveEntries ∧
    (entries.map Declared.uncompressed).sum ≤ maxArchiveUncompressedBytes

/-- No entry declares much data, or much more than it takes. -/
def EachBounded (entries : List Declared) : Prop :=
  ∀ entry ∈ entries, entry.uncompressed ≤ maxDocumentBytes ∧
    (0 < entry.compressed → entry.uncompressed ≤ 100 * entry.compressed)

/-- The entries are within the limits that the call is to keep. -/
def ArchiveCall.Allows (entries : List Declared) : ArchiveCall → Prop
  | unzipBounded _ => Bounded entries ∧ EachBounded entries
  | _ => Bounded entries

/-- The records that a search from the first byte on meets, behind which it skips by the lengths
that they name. -/
def metRecords : Nat → List UInt8 → List Declared
  | _, [] => []
  | skip + 1, _ :: rest => metRecords skip rest
  | 0, byte :: rest =>
    if beginsRecord (byte :: rest) then
      declaredAt (byte :: rest) :: metRecords (recordLength (byte :: rest) - 1) rest
    else metRecords 0 rest

/-- Some records, all of them within the limits. -/
def Unsuspicious (records : List Declared) : Prop :=
  records ≠ [] ∧ Bounded records ∧ EachBounded records

/-- The central directory that is listed is within the limits, or the call does not get to it. -/
def ArchiveCall.Guarded (listing : List UInt8 → List Declared) : ArchiveCall → Prop
  | unzipBounded bytes =>
    (Bounded (listing bytes) ∧ EachBounded (listing bytes)) ∨ ¬ Unsuspicious (metRecords 0 bytes)
  | documentArchiveExtract dataBase64 => ∀ bytes, Base64.atob dataBase64 = some bytes →
    bytes.length ≤ maxArchiveBytes → Bounded (listing bytes)
  | documentSmartParse bytes => Bounded (listing bytes)

/-! ## What the search finds -/

/-- The search succeeds if what it meets is within the limits. -/
theorem scanRecords_ok_iff {bytes : List UInt8} {skip entries total count : Nat}
    (hentries : entries ≤ maxArchiveEntries) (htotal : total ≤ maxArchiveUncompressedBytes) :
    scanRecords skip bytes entries total = .ok count ↔
      count = entries + (metRecords skip bytes).length ∧
        entries + (metRecords skip bytes).length ≤ maxArchiveEntries ∧
        total + ((metRecords skip bytes).map Declared.uncompressed).sum ≤
          maxArchiveUncompressedBytes ∧
        EachBounded (metRecords skip bytes) := by
  induction bytes generalizing skip entries total with
  | nil =>
    rw [scanRecords, metRecords]
    constructor
    · intro h
      exact ⟨(Except.ok.inj h).symm, hentries, htotal, fun _ hmem => absurd hmem List.not_mem_nil⟩
    · rintro ⟨rfl, -⟩
      rfl
  | cons byte rest ih =>
    cases skip with
    | succ skip =>
      rw [scanRecords, metRecords]
      exact ih hentries htotal
    | zero =>
      rw [scanRecords, metRecords]
      by_cases hrecord : beginsRecord (byte :: rest) = true
      · rw [if_pos hrecord, if_pos hrecord]
        simp only [List.length_cons, List.map_cons, List.sum_cons]
        by_cases hmany : maxArchiveEntries < entries + 1
        · rw [if_pos hmany]
          exact ⟨nofun, fun h => absurd h.2.1 (by omega)⟩
        · rw [if_neg hmany]
          by_cases hlarge : maxDocumentBytes < (declaredAt (byte :: rest)).uncompressed ∨
              maxArchiveUncompressedBytes < total + (declaredAt (byte :: rest)).uncompressed ∨
              (0 < (declaredAt (byte :: rest)).compressed ∧
                100 * (declaredAt (byte :: rest)).compressed <
                  (declaredAt (byte :: rest)).uncompressed)
          · rw [if_pos hlarge]
            refine ⟨nofun, fun h => ?_⟩
            have hfirst := h.2.2.2 _ List.mem_cons_self
            rcases hlarge with hlarge | hlarge | ⟨hsome, hlarge⟩
            · exact absurd hfirst.1 (by omega)
            · exact absurd h.2.2.1 (by omega)
            · exact absurd (hfirst.2 hsome) (by omega)
          · rw [if_neg hlarge, ih (by omega) (by omega)]
            have hfirst : (declaredAt (byte :: rest)).uncompressed ≤ maxDocumentBytes ∧
                (0 < (declaredAt (byte :: rest)).compressed →
                  (declaredAt (byte :: rest)).uncompressed ≤
                    100 * (declaredAt (byte :: rest)).compressed) := by
              omega
            rw [EachBounded, EachBounded, List.forall_mem_cons]
            constructor
            · rintro ⟨rfl, hcount, hsum, heach⟩
              exact ⟨by omega, by omega, by omega, hfirst, heach⟩
            · rintro ⟨rfl, hcount, hsum, -, heach⟩
              exact ⟨by omega, by omega, by omega, heach⟩
      · rw [if_neg hrecord, if_neg hrecord]
        exact ih hentries htotal

theorem assertArchiveBounds_ok_iff (bytes : List UInt8) :
    assertArchiveBounds bytes = .ok () ↔ Unsuspicious (metRecords 0 bytes) := by
  have hscan (count : Nat) : scanRecords 0 bytes 0 0 = .ok count ↔ _ :=
    scanRecords_ok_iff (Nat.zero_le maxArchiveEntries) (Nat.zero_le maxArchiveUncompressedBytes)
  simp only [Nat.zero_add] at hscan
  unfold assertArchiveBounds
  constructor
  · intro h
    obtain ⟨entries, hentries, hsome⟩ := Sequential.bind_eq_ok.1 h
    obtain ⟨rfl, hcount, hsum, heach⟩ := (hscan entries).1 hentries
    refine ⟨fun hnone => ?_, ⟨hcount, hsum⟩, heach⟩
    rw [hnone] at hsome
    cases hsome
  · intro h
    obtain ⟨hsome, ⟨hcount, hsum⟩, heach⟩ := h
    exact Sequential.bind_eq_ok.2 ⟨_, (hscan _).2 ⟨rfl, hcount, hsum, heach⟩,
      if_neg fun hnone => hsome (List.length_eq_zero_iff.1 hnone)⟩

/-- `unzipBounded` gets to `unzipSync` with what the search does not reject. -/
theorem archive_unzipBounded (bytes archive : List UInt8) :
    (ArchiveCall.unzipBounded bytes).archive readers = some archive ↔
      archive = bytes ∧ Unsuspicious (metRecords 0 bytes) := by
  rw [← assertArchiveBounds_ok_iff]
  show (unzipBounded readers bytes).archive = some archive ↔ _
  unfold unzipBounded
  cases assertArchiveBounds bytes with
  | error error => exact ⟨nofun, nofun⟩
  | ok _ => exact ⟨fun h => ⟨(Option.some.inj h).symm, rfl⟩, fun h => congrArg some h.1.symm⟩

/-- `document_archive_extract` gets to `unzipSync` with whatever it can decode. -/
theorem archive_documentArchiveExtract (dataBase64 : Text) (archive : List UInt8) :
    (ArchiveCall.documentArchiveExtract dataBase64).archive readers = some archive ↔
      Base64.atob dataBase64 = some archive ∧ archive.length ≤ maxArchiveBytes := by
  show (documentArchiveExtract dataBase64).archive = some archive ↔ _
  unfold documentArchiveExtract
  cases Base64.atob dataBase64 with
  | none => exact ⟨nofun, nofun⟩
  | some bytes =>
    by_cases hlong : maxArchiveBytes < bytes.length
    · simp only [if_pos hlong]
      refine ⟨nofun, fun ⟨hbytes, hshort⟩ => ?_⟩
      obtain rfl := Option.some.inj hbytes
      exact absurd hshort (Nat.not_le_of_lt hlong)
    · simp only [if_neg hlong]
      constructor
      · intro h
        obtain rfl := Option.some.inj h
        exact ⟨rfl, Nat.le_of_not_lt hlong⟩
      · intro h
        exact h.1

/-- The entries from a position on. -/
def listedFrom : Nat → List UInt8 → List Declared
  | 0, _ => []
  | count + 1, bytes => declaredAt bytes :: listedFrom count (bytes.drop (recordLength bytes))

/-- The central directory that the last end record names, of an archive of the plain format. -/
def centralDirectory (bytes : List UInt8) : List Declared :=
  match (List.range (bytes.length - 21)).reverse.find? fun offset =>
      getUint32 bytes offset = 0x06054b50 with
  | none => []
  | some offset =>
    listedFrom (getUint16 bytes (offset + 8)) (bytes.drop (getUint32 bytes (offset + 16)))

/-- Bytes of a number, the lowest one first. -/
def littleEndian : Nat → Nat → List UInt8
  | 0, _ => []
  | width + 1, value => .ofNat value :: littleEndian width (value / 256)

/-- A record of a central directory without the name and the comment. -/
def sampleRecord (uncompressed nameLength commentLength : Nat) : List UInt8 :=
  littleEndian 4 0x02014b50 ++ List.replicate 16 0 ++ littleEndian 4 1 ++
    littleEndian 4 uncompressed ++ littleEndian 2 nameLength ++ littleEndian 2 0 ++
    littleEndian 2 commentLength ++ List.replicate 12 0

/-- The comment of a record that no end record names covers the directory: an entry of four
thousand million bytes. -/
def sampleArchive : List UInt8 :=
  sampleRecord 1 0 47 ++ sampleRecord 4000000000 1 0 ++ [0x61] ++
    (littleEndian 4 0x06054b50 ++ List.replicate 4 0 ++ littleEndian 2 1 ++ littleEndian 2 1 ++
      littleEndian 4 47 ++ littleEndian 4 46 ++ littleEndian 2 0)

example : metRecords 0 sampleArchive = [⟨1, 1⟩] := by decide +kernel

/-- Readers of nothing. -/
def sampleReaders : XmlReaders where
  engines :=
    { beyondAscii := id
      sha256 _ := []
      pdf _ := .ok []
      package _ _ _ _ := .ok ([], [])
      page _ := ([], [])
      htmlText _ := []
      formatJson _ := none
      xml _ := none }
  load _ := []

end Groundlane.Parser
