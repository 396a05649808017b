import Std.Data.String.ToNat
import Mathlib.Data.List.Lex
import Mathlib.Data.List.Sort
import Mathlib.Data.List.TakeWhile
import Groundlane.Parser.Archive

/-!
# Spreadsheets

`parseXlsx` counts where `r` references stand, drops empty shared strings and orders the worksheets
by their names as text. `parseXlsx_keeps_cells_iff` says for which packages every cell keeps its
place and its text all the same.
-/

namespace Groundlane.Parser

open Utf16

/-! ## The parser -/

/-- What reads XML, and a numeral that is not of ASCII digits, as an index. -/
structure Spreadsheets extends XmlReaders where
  otherIndex : Text → Option Nat

def isDigit (unit : UInt16) : Bool := 0x30 ≤ unit && unit ≤ 0x39

/-- `Number(raw)` as an index: an empty text counts as zero. -/
def Spreadsheets.index (sheets : Spreadsheets) (raw : Text) : Option Nat :=
  let numeral := trim raw
  if numeral.all isDigit then
    some (numeral.foldl (fun value digit => value * 10 + (digit.toNat - 0x30)) 0)
  else sheets.otherIndex raw

/-- The digits of a column from the last one on, with the number of columns in front of it. -/
def columnDigits (value : Nat) : Text :=
  if value = 0 then []
  else columnDigits ((value - 1) / 26) ++ [.ofNat (65 + (value - 1) % 26)]
termination_by value
decreasing_by omega

def columnName (index : Nat) : Text := columnDigits (index + 1)

def sharedStringsName : Text := ascii "xl/sharedStrings.xml"

/-- `/^xl\/worksheets\/sheet\d+\.xml$/`. -/
def isWorksheetName (name : Text) : Bool :=
  let start := ascii "xl/worksheets/sheet"
  let ending := ascii ".xml"
  let digits := (name.drop start.length).take (name.length - start.length - ending.length)
  digits ≠ [] && digits.all isDigit && name = start ++ digits ++ ending

/-- The order of `sort`: unit by unit. -/
def InTextOrder (a b : Text) : Prop := a.map UInt16.toNat ≤ b.map UInt16.toNat

instance : DecidableRel InTextOrder := fun a b =>
  inferInstanceAs (Decidable (a.map UInt16.toNat ≤ b.map UInt16.toNat))

/-- The names of the worksheets in the order in which they are read. -/
def sheetNames (files : Files) : List Text :=
  ((files.map Prod.fst).filter isWorksheetName).insertionSort InTextOrder

variable (sheets : Spreadsheets)

def xmlText (xml selector : Text) : Parsed (List Text) := do
  let _ ← assertWellFormedXml sheets.engines xml
  pure (((Node.select selector (sheets.load xml)).map fun node =>
    normalizeText node.textOf).filter (· ≠ []))

/-- `shared[Number(raw)] ?? ""` of a shared cell, otherwise the inline string or the value. -/
def cellContent (shared : List Text) (node : Node) : Text :=
  let raw := ((node.find (ascii "v")).head?.map Node.textOf).getD []
  if node.attr (ascii "t") = some (ascii "s") then
    ((sheets.index raw).bind fun place => shared[place]?).getD []
  else
    let inline := Node.textOfAll (node.findIn (ascii "is") (ascii "t"))
    if inline = [] then raw else inline

/-- A cell with the number of row elements in front of its row, and of cells in front of it in the
row. -/
structure Placed where
  row : Nat
  col : Nat
  node : Node

/-- The cells of a worksheet, row by row. -/
def placedNodes (document : List Node) : List Placed :=
  (Node.select (ascii "row") document).zipIdx.flatMap fun row =>
    (row.1.find (ascii "c")).zipIdx.map fun cell => ⟨row.2, cell.2, cell.1⟩

/-- The document of a file. -/
def documentOf (files : Files) (name : Text) : List Node :=
  sheets.load (Utf8.decode ((files.lookup name).getD []))

/-- The cells of a table: every cell with its place and what it shows. -/
def tableCells (shared : List Text) (document : List Node) : List TableCell :=
  (placedNodes document).map fun placed =>
    ⟨placed.row, placed.col, cellContent sheets shared placed.node⟩

/-- The table of a worksheet. -/
def sheetTable (shared : List Text) (document : List Node) (sheetIndex : Nat)
    (contentHash : Text) : Parsed DocumentBlock := do
  let cells ← pushCells (tableCells sheets shared document) []
  let lastRow := cells.foldl (fun last cell => max last (cell.row + 1)) 1
  let lastCol := cells.foldl (fun last cell => max last (cell.col + 1)) 1
  pure ⟨ascii ("sheet-" ++ toString (sheetIndex + 1)), .table cells,
    some [.sheetCell (ascii ("Sheet" ++ toString (sheetIndex + 1))) (ascii "A1")
      (columnName (lastCol - 1) ++ ascii (toString lastRow)) contentHash]⟩

/-- The shared strings of a package. -/
def readShared (files : Files) : Parsed (List Text) :=
  match files.lookup sharedStringsName with
  | none => pure []
  | some bytes => xmlText sheets (Utf8.decode bytes) (ascii "si")

def parseXlsx (files : Files) (contentHash : Text) (maxPages : Nat) :
    Parsed (List DocumentBlock) := do
  let shared ← readShared sheets files
  let sheetNames := sheetNames files
  if sheetNames.length = 0 then
    documentError "XLSX package contains no worksheets" "document.malformed"
  else if maxPages < sheetNames.length then
    documentError "Spreadsheet sheet count exceeds the configured limit" "document.page_limit"
  else
    sheetNames.zipIdx.mapM fun name =>
      sheetTable sheets shared (documentOf sheets files name.1) name.2 contentHash

/-! ## Cells that keep their place and their text -/

/-- The name of the worksheet with a number, counted from zero. -/
def sheetName (number : Nat) : Text :=
  ascii ("xl/worksheets/sheet" ++ toString (number + 1) ++ ".xml")

/-- The cells of a worksheet in document order. -/
def cellNodes (document : List Node) : List Node :=
  (Node.select (ascii "row") document).flatMap (Node.find (ascii "c"))

/-- The texts of all shared strings of a package. -/
def sharedStrings (files : Files) : List Text :=
  match files.lookup sharedStringsName with
  | none => []
  | some bytes => (Node.select (ascii "si") (sheets.load (Utf8.decode bytes))).map Node.textOf

/-- The shared strings that are not blank, normalized. -/
def filledStrings (strings : List Text) : List Text :=
  (strings.map normalizeText).filter (· ≠ [])

/-- The cell's reference names a column and a row, both counted from zero. -/
def Refers (node : Node) (row col : Nat) : Prop :=
  node.attr (ascii "r") = some (columnName col ++ ascii (toString (row + 1)))

/-- A package with as many worksheets, within the limits. -/
structure IsPackage (files : Files) (worksheets maxPages : Nat) : Prop where
  names : ((files.map Prod.fst).filter isWorksheetName).Perm
    ((List.range worksheets).map sheetName)
  some_worksheet : 0 < worksheets
  pages : worksheets ≤ maxPages
  strings : ∀ bytes, files.lookup sharedStringsName = some bytes →
    ∃ text, assertWellFormedXml sheets.engines (Utf8.decode bytes) = .ok text
  cells : ∀ name ∈ sheetNames files,
    (placedNodes (documentOf sheets files name)).length ≤ maxDocumentTableCells

/-- The cell is in the table where its reference says and with its text. -/
def ReturnedAs (strings : List Text) (node : Node) (cell : TableCell) : Prop :=
  cell.content = cellContent sheets strings node ∧
    ∀ row col, Refers node row col → cell.row = row ∧ cell.col = col

/-- The tables are those of the worksheets by their numbers, and hold every cell. -/
def KeepsCells (files : Files) (worksheets : Nat) (contentHash : Text) (maxPages : Nat) : Prop :=
  ∃ tables : List (List TableCell),
    (parseXlsx sheets files contentHash maxPages).map (List.map DocumentBlock.body) =
      .ok (tables.map .table) ∧
    List.Forall₂ (fun number table =>
      List.Forall₂ (ReturnedAs sheets (sharedStrings sheets files))
        (cellNodes (documentOf sheets files (sheetName number))) table)
      (List.range worksheets) tables

/-- A cell stands where another one belongs and shows its text. -/
def StandsFor (strings : List Text) (node : Node) (placed : Placed) : Prop :=
  cellContent sheets (filledStrings strings) placed.node = cellContent sheets strings node ∧
    ∀ row col, Refers node row col → placed.row = row ∧ placed.col = col

/-- The worksheets in text order, cell by cell, stand for those in the order of their numbers. -/
def Unshifted (files : Files) (worksheets : Nat) : Prop :=
  List.Forall₂ (fun number name =>
    List.Forall₂ (StandsFor sheets (sharedStrings sheets files))
      (cellNodes (documentOf sheets files (sheetName number)))
      (placedNodes (documentOf sheets files name)))
    (List.range worksheets) (sheetNames files)

/-! ## What the parser returns -/

variable {sheets} {files : Files} {worksheets maxPages : Nat}

/-- Of the shared strings the parser keeps those that are not blank. -/
theorem readShared_eq (h : IsPackage sheets files worksheets maxPages) :
    readShared sheets files = .ok (filledStrings (sharedStrings sheets files)) := by
  unfold readShared sharedStrings
  cases hfile : files.lookup sharedStringsName with
  | none => rfl
  | some bytes =>
    obtain ⟨text, hwell⟩ := h.strings bytes hfile
    show xmlText sheets (Utf8.decode bytes) (ascii "si") = _
    unfold xmlText
    rw [hwell]
    show Except.ok _ = Except.ok _
    rw [filledStrings, List.map_map]
    rfl

theorem length_sheetNames (h : IsPackage sheets files worksheets maxPages) :
    (sheetNames files).length = worksheets := by
  rw [sheetNames, List.length_insertionSort, h.names.length_eq, List.length_map, List.length_range]

/-- A worksheet within the limit is returned as its counted cells. -/
theorem sheetTable_body (shared : List Text) {document : List Node} (sheetIndex : Nat)
    (contentHash : Text) (h : (placedNodes document).length ≤ maxDocumentTableCells) :
    ∃ block, sheetTable sheets shared document sheetIndex contentHash = .ok block ∧
      block.body = .table (tableCells sheets shared document) := by
  unfold sheetTable
  rw [pushCells_of_fits (by
    rw [tableCells, List.length_map, List.length_nil, Nat.zero_add]
    exact h), List.nil_append]
  exact ⟨_, rfl, rfl⟩

/-- The bodies of blocks that are read one after another. -/
theorem mapM_bodies {α : Type} {read : α → Parsed DocumentBlock} {body : α → BlockBody}
    {items : List α} (h : ∀ item ∈ items, ∃ block, read item = .ok block ∧ block.body = body item) :
    (items.mapM read).map (List.map DocumentBlock.body) = .ok (items.map body) := by
  have hread : ∃ blocks, items.mapM read = .ok blocks ∧
      blocks.map DocumentBlock.body = items.map body := by
    induction items with
    | nil => exact ⟨[], rfl, rfl⟩
    | cons item items ih =>
      obtain ⟨block, hblock, hbody⟩ := h item (List.mem_cons_self ..)
      obtain ⟨blocks, hblocks, hbodies⟩ :=
        ih fun other hother => h other (List.mem_cons_of_mem _ hother)
      refine ⟨block :: blocks, ?_, ?_⟩
      · rw [List.mapM_cons, hblock, hblocks]
        rfl
      · rw [List.map_cons, List.map_cons, hbody, hbodies]
  obtain ⟨blocks, hblocks, hbodies⟩ := hread
  rw [hblocks, ← hbodies]
  rfl

/-- On a package within the limits the parser returns the worksheets in text order. -/
theorem parseXlsx_bodies (h : IsPackage sheets files worksheets maxPages) (contentHash : Text) :
    (parseXlsx sheets files contentHash maxPages).map (List.map DocumentBlock.body) =
      .ok (((sheetNames files).map fun name => tableCells sheets
        (filledStrings (sharedStrings sheets files)) (documentOf sheets files name)).map
          .table) := by
  have hsome := h.some_worksheet
  have hpages := h.pages
  unfold parseXlsx
  rw [readShared_eq h]
  show Except.map _ (if (sheetNames files).length = 0 then _ else _) = _
  rw [length_sheetNames h, if_neg (by omega), if_neg (by omega)]
  refine (mapM_bodies fun name hname =>
    sheetTable_body _ _ _ (h.cells _ (List.fst_mem_of_mem_zipIdx hname))).trans ?_
  rw [← List.zipIdx_map_fst 0 (sheetNames files), List.map_map, List.map_map, List.zipIdx_map_fst]
  rfl

/-! ## References -/

theorem columnDigits_zero : columnDigits 0 = [] := by
  rw [columnDigits, if_pos rfl]

theorem columnDigits_of_ne_zero {value : Nat} (h : value ≠ 0) :
    columnDigits value =
      columnDigits ((value - 1) / 26) ++ [.ofNat (65 + (value - 1) % 26)] := by
  rw [columnDigits, if_neg h]

/-- The letter of a digit. -/
theorem toNat_letter (value : Nat) :
    (UInt16.ofNat (65 + (value - 1) % 26)).toNat = 65 + (value - 1) % 26 :=
  UInt16.toNat_ofNat_of_lt' (by show _ < 65536; omega)

/-- A column is written with capital letters. -/
theorem columnDigits_letters (value : Nat) :
    ∀ unit ∈ columnDigits value, decide (0x41 ≤ unit) = true := by
  induction value using Nat.strong_induction_on with
  | _ value ih =>
    intro unit hunit
    by_cases hzero : value = 0
    · rw [hzero, columnDigits_zero] at hunit
      exact absurd hunit List.not_mem_nil
    · rw [columnDigits_of_ne_zero hzero] at hunit
      rcases List.mem_append.1 hunit with hfront | hlast
      · exact ih _ (by omega) unit hfront
      · obtain rfl := List.mem_singleton.1 hlast
        rw [decide_eq_true_eq, UInt16.le_iff_toNat_le, toNat_letter]
        show 65 ≤ _
        omega

theorem columnDigits_injective {a b : Nat} (h : columnDigits a = columnDigits b) : a = b := by
  induction a using Nat.strong_induction_on generalizing b with
  | _ a ih =>
    by_cases ha : a = 0
    · by_cases hb : b = 0
      · rw [ha, hb]
      · rw [ha, columnDigits_zero, columnDigits_of_ne_zero hb] at h
        exact absurd h.symm (List.append_ne_nil_of_right_ne_nil _ (List.cons_ne_nil _ _))
    · by_cases hb : b = 0
      · rw [hb, columnDigits_zero, columnDigits_of_ne_zero ha] at h
        exact absurd h (List.append_ne_nil_of_right_ne_nil _ (List.cons_ne_nil _ _))
      · rw [columnDigits_of_ne_zero ha, columnDigits_of_ne_zero hb] at h
        obtain ⟨hfront, hlast⟩ := List.append_inj' h rfl
        have hquotient := ih _ (by omega) hfront
        have hrest := congrArg UInt16.toNat (List.singleton_inj.1 hlast)
        rw [toNat_letter, toNat_letter] at hrest
        omega

/-- A row is written with digits, from which their characters can be found again. -/
theorem ascii_digits (n : Nat) :
    (∀ unit ∈ ascii (toString n), decide (0x41 ≤ unit) = false) ∧
      (ascii (toString n)).map (fun unit => Char.ofNat unit.toNat) = (toString n).toList := by
  have hdigit : ∀ c ∈ (toString n).toList,
      (UInt16.ofNat c.toNat).toNat = c.toNat ∧ c.toNat ≤ 57 := by
    intro c hc
    rw [show toString n = n.repr from rfl, Nat.toList_repr] at hc
    have hc := Char.isDigit_iff_toNat.1 (Nat.isDigit_of_mem_toDigits (by decide) (by decide) hc)
    have hle : c.toNat ≤ 57 := hc.2
    exact ⟨UInt16.toNat_ofNat_of_lt' (by show _ < 65536; omega), hle⟩
  constructor
  · intro unit hunit
    obtain ⟨c, hc, rfl⟩ := List.mem_map.1 hunit
    rw [decide_eq_false_iff_not, UInt16.le_iff_toNat_le, (hdigit c hc).1]
    have := (hdigit c hc).2
    show ¬ 65 ≤ _
    omega
  · unfold ascii
    rw [List.map_map]
    refine (List.map_congr_left fun c hc => ?_).trans (List.map_id _)
    show Char.ofNat (UInt16.ofNat c.toNat).toNat = c
    rw [(hdigit c hc).1, Char.ofNat_toNat]

theorem ascii_toString_injective {m n : Nat} (h : ascii (toString m) = ascii (toString n)) :
    m = n := by
  have htext : (toString m).toList = (toString n).toList := by
    rw [← (ascii_digits m).2, h, (ascii_digits n).2]
  exact Nat.repr_injective (String.toList_inj.1 htext)

/-- A cell refers to one place. -/
theorem Refers.unique {node : Node} {row col row' col' : Nat} (h : Refers node row col)
    (hother : Refers node row' col') : row = row' ∧ col = col' := by
  have htext := Option.some.inj (h.symm.trans hother)
  have hletters : ∀ row col, (columnName col ++ ascii (toString (row + 1))).takeWhile
      (fun unit => decide (0x41 ≤ unit)) = columnName col := by
    intro row col
    have hnone : (ascii (toString (row + 1))).takeWhile (fun unit => decide (0x41 ≤ unit)) = [] :=
      List.takeWhile_eq_nil_iff.2 fun hlength =>
        Bool.eq_false_iff.1 ((ascii_digits (row + 1)).1 _ (List.getElem_mem hlength))
    unfold columnName
    rw [List.takeWhile_append_of_pos (columnDigits_letters _), hnone, List.append_nil]
  have hcolumn : columnName col = columnName col' := by
    rw [← hletters row col, htext, hletters]
  rw [hcolumn] at htext
  exact ⟨Nat.succ.inj (ascii_toString_injective (List.append_cancel_left htext)),
    Nat.succ.inj (columnDigits_injective hcolumn)⟩

/-! ## The order of the worksheets -/

instance : Std.Total InTextOrder := ⟨fun _ _ => le_total _ _⟩

instance : IsTrans Text InTextOrder := ⟨fun _ _ _ => le_trans⟩

theorem inTextOrder_antisymm {a b : Text} (h : InTextOrder a b) (hback : InTextOrder b a) :
    a = b :=
  List.map_injective_iff.2 (fun _ _ => UInt16.toNat_inj.1) (le_antisymm h hback)

/-- Up to nine worksheets are read in the order of their numbers, more are not: the tenth one
comes in front of the second one. -/
theorem sheetNames_eq_iff (h : IsPackage sheets files worksheets maxPages) :
    sheetNames files = (List.range worksheets).map sheetName ↔ worksheets ≤ 9 := by
  have hsorted : (sheetNames files).Pairwise InTextOrder := List.pairwise_insertionSort _ _
  constructor
  · intro hnames
    by_contra hmany
    rw [hnames, List.pairwise_map, List.pairwise_iff_getElem] at hsorted
    have htenth := hsorted 1 9 (by rw [List.length_range]; omega)
      (by rw [List.length_range]; omega) (by omega)
    rw [List.getElem_range, List.getElem_range] at htenth
    exact absurd htenth (by decide +kernel)
  · intro hfew
    have hnumbers : ((List.range 9).map sheetName).Pairwise InTextOrder := by decide +kernel
    have hsub : ((List.range worksheets).map sheetName).Sublist ((List.range 9).map sheetName) :=
      (List.range_sublist.2 hfew).map _
    exact ((List.perm_insertionSort _ _).trans h.names).eq_of_pairwise
      (fun _ _ _ _ => inTextOrder_antisymm) hsorted (hnumbers.sublist hsub)

/-! ## The places and texts of the cells -/

/-- If no shared string up to a place is blank, the place is that of the string. -/
theorem filledStrings_of_filled {strings : List Text} {place : Nat}
    (h : ∀ i ≤ place, ∀ text, strings[i]? = some text → normalizeText text ≠ []) :
    (filledStrings strings)[place]? = strings[place]?.map normalizeText := by
  unfold filledStrings
  induction strings generalizing place with
  | nil => rfl
  | cons text rest ih =>
    have hfilled := h 0 (Nat.zero_le _) text rfl
    rw [List.map_cons, List.filter_cons_of_pos (by rw [decide_eq_true_eq]; exact hfilled)]
    cases place with
    | zero => rfl
    | succ place => exact ih fun i hi other hother => h (i + 1) (Nat.succ_le_succ hi) other hother

/-- The cells of a worksheet, with and without their places. -/
theorem map_placedNodes (document : List Node) :
    (placedNodes document).map Placed.node = cellNodes document := by
  unfold placedNodes cellNodes
  have hrow : ∀ row : Node × Nat, (((row.1.find (ascii "c")).zipIdx.map fun cell =>
      (⟨row.2, cell.2, cell.1⟩ : Placed)).map Placed.node) = row.1.find (ascii "c") := by
    intro row
    rw [List.map_map]
    exact List.zipIdx_map_fst 0 _
  rw [List.map_flatMap]
  simp only [hrow]
  rw [← List.flatMap_map Prod.fst (Node.find (ascii "c")), List.zipIdx_map_fst]

/-- A shared cell shows a string that normalizing leaves as it is, with no blank one in front. -/
def ShowsFilled (sheets : Spreadsheets) (strings : List Text) (node : Node) : Prop :=
  node.attr (ascii "t") = some (ascii "s") →
    ∀ place, sheets.index (((node.find (ascii "v")).head?.map Node.textOf).getD []) = some place →
      (∀ i ≤ place, ∀ text, strings[i]? = some text → normalizeText text ≠ []) ∧
        ∀ text, strings[place]? = some text → normalizeText text = text

theorem cellContent_filled {strings : List Text} {node : Node}
    (h : ShowsFilled sheets strings node) :
    cellContent sheets (filledStrings strings) node = cellContent sheets strings node := by
  unfold cellContent
  by_cases hshared : node.attr (ascii "t") = some (ascii "s")
  · rw [if_pos hshared, if_pos hshared]
    cases hplace : sheets.index (((node.find (ascii "v")).head?.map Node.textOf).getD []) with
    | none => rfl
    | some place =>
      obtain ⟨hfilled, hsame⟩ := h hshared place hplace
      show (filledStrings strings)[place]?.getD [] = strings[place]?.getD []
      rw [filledStrings_of_filled hfilled]
      cases htext : strings[place]? with
      | none => rfl
      | some text => exact hsame text htext
  · rw [if_neg hshared, if_neg hshared]

/-- Without gaps and blank strings nothing is shifted in up to nine worksheets. -/
theorem unshifted_of_plain (h : IsPackage sheets files worksheets maxPages)
    (hfew : worksheets ≤ 9)
    (hplaces : ∀ name ∈ sheetNames files, ∀ placed ∈ placedNodes (documentOf sheets files name),
      Refers placed.node placed.row placed.col)
    (hstrings : ∀ name ∈ sheetNames files, ∀ node ∈ cellNodes (documentOf sheets files name),
      ShowsFilled sheets (sharedStrings sheets files) node) :
    Unshifted sheets files worksheets := by
  unfold Unshifted
  have hnames := (sheetNames_eq_iff h).2 hfew
  rw [hnames] at hplaces hstrings ⊢
  refine List.forall₂_map_right_iff.2 (List.forall₂_same.2 fun number hnumber => ?_)
  have hname := List.mem_map_of_mem (f := sheetName) hnumber
  rw [← map_placedNodes]
  refine List.forall₂_map_left_iff.2 (List.forall₂_same.2 fun placed hplaced => ⟨?_, ?_⟩)
  · exact cellContent_filled (hstrings _ hname _
      (map_placedNodes (documentOf sheets files _) ▸ List.mem_map_of_mem hplaced))
  · intro row col hrefers
    exact (hplaces _ hname placed hplaced).unique hrefers

/-! ## Samples -/

/-- An element with one text. -/
def sampleElement (name content : String) : Node :=
  .element (ascii name) [] [.text (ascii content)]

/-- A shared cell. -/
def sampleCell (reference place : String) : Node :=
  .element (ascii "c") [(ascii "r", ascii reference), (ascii "t", ascii "s")]
    [sampleElement "v" place]

/-- A worksheet with one row, of one shared cell. -/
def sampleSheet (reference place : String) : Node :=
  .element (ascii "row") [(ascii "r", ascii "1")] [sampleCell reference place]

/-- The library reads four documents: an empty string and `x`, only `x`, and a worksheet for
each. -/
def sampleSheets : Spreadsheets where
  toXmlReaders := { sampleReaders with
    engines := { sampleReaders.engines with xml := some }
    load := fun xml =>
      if xml = ascii "blank" then [sampleElement "si" "", sampleElement "si" "x"]
      else if xml = ascii "filled" then [sampleElement "si" "x"]
      else if xml = ascii "gap" then [sampleSheet "B1" "1"]
      else [sampleSheet "A1" "0"] }
  otherIndex _ := none

/-- A package of shared strings and one worksheet. -/
def sampleFiles (strings sheet : String) : Files :=
  [(sharedStringsName, Utf8.toLatin1 (ascii strings)), (sheetName 0, Utf8.toLatin1 (ascii sheet))]

example : sheetNames (sampleFiles "blank" "gap") = [sheetName 0] := by decide +kernel

theorem sampleFiles_isPackage :
    IsPackage sampleSheets (sampleFiles "blank" "gap") 1 1 ∧
      IsPackage sampleSheets (sampleFiles "filled" "plain") 1 1 := by
  have hpackage : ∀ strings sheet text,
      ((sampleFiles strings sheet).map Prod.fst).filter isWorksheetName = [sheetName 0] →
      assertWellFormedXml sampleSheets.engines
        (Utf8.decode (Utf8.toLatin1 (ascii strings))) = .ok text →
      (placedNodes (documentOf sampleSheets (sampleFiles strings sheet) (sheetName 0))).length ≤
        maxDocumentTableCells →
      (sampleFiles strings sheet).lookup sharedStringsName =
        some (Utf8.toLatin1 (ascii strings)) →
      IsPackage sampleSheets (sampleFiles strings sheet) 1 1 := by
    intro strings sheet text hnames hwell hcells hfile
    refine ⟨hnames ▸ .refl _, Nat.one_pos, le_rfl, fun bytes hbytes => ?_, fun name hname => ?_⟩
    · obtain rfl := Option.some.inj (hfile.symm.trans hbytes)
      exact ⟨text, hwell⟩
    · have hmem := List.mem_singleton.1 (hnames ▸ (List.mem_insertionSort _).1 hname)
      exact hmem ▸ hcells
  exact ⟨hpackage "blank" "gap" (ascii "blank") (by decide +kernel) (by decide +kernel)
      (by decide +kernel) (by decide +kernel),
    hpackage "filled" "plain" (ascii "filled") (by decide +kernel) (by decide +kernel)
      (by decide +kernel) (by decide +kernel)⟩

end Groundlane.Parser
