import Groundlane.Ordered.Clusters
import Groundlane.Text.Trimming
import Groundlane.Text.Utf16
import Mathlib.Algebra.Order.Field.Rat
import Mathlib.Data.List.Sort

/-!
# Tables of a PDF page

`detectTables` of `adapters/document/pdf-table-extractor.ts`, which groups the text items of a page
into rows by their vertical position and makes a table of each run of rows with several items.
Coordinates are rational. The sort of the runtime is stable, as the insertion sort is.
-/

namespace Groundlane.Pdf

open Utf16 Clusters

/-- `ExtractedTable`. -/
structure ExtractedTable where
  pageNumber : Nat
  rows : List (List Text)
  rowCount : Nat
  columnCount : Nat
deriving DecidableEq, Repr

/-- `TextItem`. -/
structure TextItem where
  str : Text
  x : ℚ
  y : ℚ
  width : ℚ
  height : ℚ
deriving DecidableEq, Repr

/-- `COLUMN_MERGE_THRESHOLD`. -/
def columnMergeThreshold : ℚ := 8

/-- `ROW_MERGE_THRESHOLD`. -/
def rowMergeThreshold : ℚ := 3

/-! ## Rows -/

/-- The order of `a.y - b.y || a.x - b.x`. -/
def InOrder (a b : TextItem) : Prop := a.y < b.y ∨ (a.y = b.y ∧ a.x ≤ b.x)

instance : DecidableRel InOrder := fun a b =>
  inferInstanceAs (Decidable (a.y < b.y ∨ (a.y = b.y ∧ a.x ≤ b.x)))

/-- The loop of `groupByY`. The vertical position of the current row is none in front of the first
one. -/
def groupLoop (rows : List (List TextItem)) (currentRow : List TextItem) (currentY : Option ℚ) :
    List TextItem → List (List TextItem)
  | [] => if currentRow.isEmpty then rows else rows ++ [currentRow]
  | item :: rest =>
    if currentY.all fun y => rowMergeThreshold < |item.y - y| then
      groupLoop (if currentRow.isEmpty then rows else rows ++ [currentRow]) [item] (some item.y)
        rest
    else groupLoop rows (currentRow ++ [item]) currentY rest

def groupByY (items : List TextItem) : List (List TextItem) :=
  groupLoop [] [] none (items.insertionSort InOrder)

/-! ## Columns -/

/-- The loop of `mergeCloseValues`. -/
def mergeLoop (threshold : ℚ) (merged : List ℚ) : List ℚ → List ℚ
  | [] => merged
  | value :: rest =>
    if merged.getLast?.all fun last => threshold < value - last then
      mergeLoop threshold (merged ++ [value]) rest
    else mergeLoop threshold merged rest

def mergeCloseValues (values : List ℚ) (threshold : ℚ) : List ℚ :=
  mergeLoop threshold [] (values.eraseDups.insertionSort (· ≤ ·))

/-- The loop of `findClosestColumn`. -/
def closestLoop (x : ℚ) (closest : Nat) (minDist : ℚ) : Nat → List ℚ → Nat
  | _, [] => closest
  | i, column :: rest =>
    let dist := |x - column|
    if dist < minDist then closestLoop x i dist (i + 1) rest
    else closestLoop x closest minDist (i + 1) rest

def findClosestColumn (x : ℚ) (columns : List ℚ) : Nat :=
  closestLoop x 0 |x - columns.headD 0| 1 columns.tail

/-! ## Tables -/

/-- The columns of `buildTable`. -/
def columnsOf (rows : List (List TextItem)) : List ℚ :=
  (mergeCloseValues (rows.flatMap fun row => row.map TextItem.x) columnMergeThreshold).insertionSort
    (· ≤ ·)

/-- The cells after one more item of a row. -/
def placeItem (columns : List ℚ) (cells : List Text) (item : TextItem) : List Text :=
  cells.modify (findClosestColumn item.x columns) fun cell =>
    if cell.isEmpty then item.str else cell ++ 0x20 :: item.str

/-- The cells of a row. -/
def cellsOf (columns : List ℚ) (row : List TextItem) : List Text :=
  row.foldl (placeItem columns) (List.replicate columns.length [])

def buildTable (rows : List (List TextItem)) (pageNumber : Nat) : ExtractedTable where
  pageNumber := pageNumber
  rows := rows.map (cellsOf (columnsOf rows))
  rowCount := (rows.map (cellsOf (columnsOf rows))).length
  columnCount := (columnsOf rows).length

/-- `rows.slice(start, stop)`. -/
def slice (rows : List (List TextItem)) (place : Nat × Nat) : List (List TextItem) :=
  (rows.take place.2).drop place.1

/-- The table that starts at a row and stops in front of the row with the number `i`, if there is
one. -/
def tableUpTo (rows : List (List TextItem)) (pageNumber i : Nat) : Option Nat → List ExtractedTable
  | none => []
  | some tableStart =>
    if 2 ≤ i - tableStart then [buildTable (slice rows (tableStart, i)) pageNumber] else []

/-- The loop of `detectTables`. -/
def detectLoop (rows : List (List TextItem)) (pageNumber : Nat) :
    Nat → Option Nat → List (List TextItem) → List ExtractedTable
  | i, tableStart, [] => tableUpTo rows pageNumber i tableStart
  | i, tableStart, row :: rest =>
    if 2 ≤ row.length then detectLoop rows pageNumber (i + 1) (some (tableStart.getD i)) rest
    else
      tableUpTo rows pageNumber i tableStart ++ detectLoop rows pageNumber (i + 1) none rest

def detectTables (items : List TextItem) (pageNumber : Nat) : List ExtractedTable :=
  let rows := groupByY items
  if rows.length < 2 then [] else detectLoop rows pageNumber 0 none rows

end Groundlane.Pdf
