import Groundlane.Ordered.Sections
import Groundlane.Text.Lines

/-!
# The outline of a Markdown text

Which lines of a text are ATX headings: lines that begin with one to six `#` and stand outside
fenced code. A fence is a line of at least three backticks or tildes; it is closed by a line of at
least as many of them, or by the end of the text.
-/

namespace Markdown

open Utf16

/-- `#`. -/
def mark : UInt16 := 0x23

/-- The line without its indentation, if that is at most three spaces. -/
def unindented (line : Text) : Option Text :=
  if (line.takeWhile (· = 0x20)).length ≤ 3 then some (line.dropWhile (· = 0x20)) else none

/-- The level of an ATX heading and what stands behind its marks. A closing sequence of marks
stays in. -/
def atxHeading (line : Text) : Option (Nat × Text) :=
  (unindented line).bind fun line =>
    let level := (line.takeWhile (· = mark)).length
    let rest := line.dropWhile (· = mark)
    if 1 ≤ level ∧ level ≤ 6 ∧ rest.head?.all isBlank then some (level, rest) else none

/-! ## Fenced code -/

/-- A fence: what it is made of and how long it is. -/
structure Fence where
  unit : UInt16
  length : Nat
deriving DecidableEq, Repr

/-- The fence that a line opens. What stands behind backticks has none of them. -/
def openingFence (line : Text) : Option Fence :=
  (unindented line).bind fun line =>
    line.head?.bind fun unit =>
      let length := (line.takeWhile (· = unit)).length
      let info := line.dropWhile (· = unit)
      if 3 ≤ length ∧ (unit = 0x7e ∨ (unit = 0x60 ∧ 0x60 ∉ info)) then some ⟨unit, length⟩ else none

/-- The line closes the fence. -/
def closes (fence : Fence) (line : Text) : Bool :=
  (unindented line).any fun line =>
    fence.length ≤ (line.takeWhile (· = fence.unit)).length &&
      (line.dropWhile (· = fence.unit)).all isBlank

/-- The headings of the lines behind an open fence, if there is one; a line that is none, or that
belongs to fenced code, has none. -/
def headingsFrom : Option Fence → List Text → List (Option (Nat × Text))
  | _, [] => []
  | some fence, line :: rest =>
    none :: headingsFrom (if closes fence line then none else some fence) rest
  | none, line :: rest =>
    match openingFence line with
    | some fence => none :: headingsFrom (some fence) rest
    | none => atxHeading line :: headingsFrom none rest

/-- The ATX headings of the lines, outside fenced code. -/
def headings (lines : List Text) : List (Option (Nat × Text)) := headingsFrom none lines

/-- How the outline of the lines is read for the headings with a title. -/
def outline (isTitle : Text → Bool) (lines : List Text) : Sections.Reading where
  title i := ((headings lines)[i]?.join.filter fun heading => isTitle heading.2).map Prod.fst
  level i := (headings lines)[i]?.join.map Prod.fst

/-- A heading is what its own line is. -/
theorem atxHeading_of_headingsFrom {fence : Option Fence} {lines : List Text} {i : Nat}
    {heading : Nat × Text} (h : (headingsFrom fence lines)[i]?.join = some heading) :
    ∃ line, lines[i]? = some line ∧ atxHeading line = some heading := by
  induction lines generalizing fence i with
  | nil => cases fence <;> simp [headingsFrom] at h
  | cons line rest ih =>
    cases i with
    | zero =>
      refine ⟨line, rfl, ?_⟩
      cases fence with
      | some fence => simp [headingsFrom] at h
      | none =>
        unfold headingsFrom at h
        cases hopening : openingFence line with
        | some fence => simp [hopening] at h
        | none => simpa [hopening] using h
    | succ i =>
      cases fence with
      | some fence => exact ih h
      | none =>
        unfold headingsFrom at h
        cases hopening : openingFence line with
        | some fence =>
          rw [hopening] at h
          exact ih h
        | none =>
          rw [hopening] at h
          exact ih h

end Markdown
