import Groundlane.Text.Parse

/-!
# The length of a text in code points

`Array.from(text).length`, for the texts that `JSON.stringify` writes. These are well-formed, so
the length of a text is the sum of the lengths of its parts (`width_append`), and the length of a
value is that of its members (`width_obj`). A JSON string is as long as
its code points are when they are quoted, and a number as its digits.
-/

namespace Utf16

open Utf8

/-- `Array.from(text).length`. -/
def width (text : Text) : Nat := (codePoints text).length

@[simp] theorem width_nil : width [] = 0 := rfl

theorem width_append {left : Text} (right : Text) (h : isWellFormed left = true) :
    width (left ++ right) = width left + width right := by
  unfold width
  rw [codePoints_append right h, List.length_append]

/-- A unit that is no surrogate is a code point. -/
theorem width_cons {unit : UInt16} (rest : Text) (h : (isHigh unit || isLow unit) = false) :
    width (unit :: rest) = 1 + width rest := by
  have hsingle : isWellFormed [unit] = true := isWellFormed_cons h rfl
  exact width_append rest hsingle

theorem width_flatMap {α : Type} {pieces : List α} {write : α → Text}
    (h : ∀ piece ∈ pieces, isWellFormed (write piece) = true) :
    width (pieces.flatMap write) = (pieces.map fun piece => width (write piece)).sum := by
  induction pieces with
  | nil => rfl
  | cons piece pieces ih =>
    rw [List.flatMap_cons, width_append _ (h piece List.mem_cons_self), List.map_cons,
      List.sum_cons, ih fun other hother => h other (List.mem_cons_of_mem _ hother)]

/-- The length of code points when they are quoted. -/
def quotedWidth (points : List Text) : Nat := (points.map fun point => width (quotePoint point)).sum

theorem width_quote (text : Text) : width (quote text) = 2 + quotedWidth (codePoints text) := by
  have hpoints : ∀ point ∈ codePoints text, isWellFormed (quotePoint point) = true :=
    fun point hpoint => isWellFormed_quotePoint (isPoint_of_mem text point hpoint)
  have hbody := width_flatMap hpoints
  unfold quote
  rw [width_cons _ (by decide), width_append _ (isWellFormed_flatMap hpoints), hbody]
  show 1 + (quotedWidth (codePoints text) + 1) = _
  omega

theorem quotePoint_ne_nil {point : Text} (h : IsPoint point) : quotePoint point ≠ [] := by
  cases h with
  | unit unit =>
    unfold quotePoint
    repeat' split
    all_goals exact List.cons_ne_nil _ _
  | pair first second hpair => exact List.cons_ne_nil _ _

/-- Nothing is shorter when it is quoted. -/
theorem width_quotePoint_pos {point : Text} (h : IsPoint point) : 0 < width (quotePoint point) := by
  obtain ⟨unit, rest, hquoted⟩ := List.exists_cons_of_ne_nil (quotePoint_ne_nil h)
  obtain ⟨_, _, hpoints⟩ := head_codePoints unit rest
  unfold width
  rw [hquoted, hpoints]
  exact Nat.succ_pos _

theorem width_of_all {text : Text} (h : ∀ unit ∈ text, (isHigh unit || isLow unit) = false) :
    width text = text.length := by
  induction text with
  | nil => rfl
  | cons unit rest ih =>
    rw [width_cons _ (h unit List.mem_cons_self), List.length_cons,
      ih fun other hother => h other (List.mem_cons_of_mem _ hother)]
    omega

/-- A number is as long as its digits. -/
theorem width_nat (n : Nat) : width (Value.nat n).stringify = (Nat.toDigits 10 n).length := by
  have hdigit : ∀ unit ∈ Parse.decimal n, (isHigh unit || isLow unit) = false := by
    intro unit hunit
    obtain ⟨c, hc, rfl⟩ := List.mem_map.1 hunit
    obtain ⟨-, _, htoNat⟩ :=
      Parse.toNat_of_isDigit (Nat.isDigit_of_mem_toDigits (by decide) (by decide) hc)
    have hconst : (0xd800 : UInt16).toNat = 0xd800 ∧ (0xdc00 : UInt16).toNat = 0xdc00 :=
      ⟨rfl, rfl⟩
    simp only [isHigh, isLow, UInt16.le_iff_toNat_le, htoNat, Bool.or_eq_false_iff,
      Bool.and_eq_false_iff, decide_eq_false_iff_not]
    omega
  show width (ascii (Numeral.ofNat n).text) = _
  rw [Parse.ascii_ofNat, width_of_all hdigit]
  exact List.length_map _

/-- What fits a number of digits. -/
theorem width_nat_le_iff {n digits : Nat} (h : 0 < digits) :
    width (Value.nat n).stringify ≤ digits ↔ n < 10 ^ digits := by
  rw [width_nat]
  exact Nat.length_toDigits_le_iff (by decide) h

/-- A larger number is not shorter. -/
theorem width_nat_mono {m n : Nat} (h : m ≤ n) :
    width (Value.nat m).stringify ≤ width (Value.nat n).stringify := by
  have hpos : 0 < width (Value.nat n).stringify := by
    rw [width_nat]
    exact Nat.length_toDigits_pos
  exact (width_nat_le_iff hpos).2 (h.trans_lt ((width_nat_le_iff hpos).1 (le_refl _)))

namespace Value

/-- The length of a member and of what separates it from its neighbours. -/
def memberWidth (member : String × Value) : Nat :=
  2 + width (quote (ascii member.1)) + width member.2.stringify

theorem width_moreMembers (members : List (String × Value)) :
    width (stringifyMoreMembers members) = (members.map memberWidth).sum + 1 := by
  induction members with
  | nil => rfl
  | cons member rest ih =>
    obtain ⟨key, value⟩ := member
    unfold stringifyMoreMembers
    rw [width_cons _ (by decide), width_append _ (isWellFormed_quote _),
      width_cons _ (by decide), width_append _ (isWellFormed_stringify value), ih,
      List.map_cons, List.sum_cons]
    show _ = 2 + width (quote (ascii key)) + width value.stringify + (rest.map memberWidth).sum + 1
    omega

/-- The length of an object with members. -/
theorem width_obj {members : List (String × Value)} (h : members ≠ []) :
    width (obj members).stringify = (members.map memberWidth).sum + 1 := by
  obtain ⟨⟨key, value⟩, rest, rfl⟩ := List.exists_cons_of_ne_nil h
  show width (0x7b :: (quote (ascii key) ++ 0x3a :: (value.stringify ++
    stringifyMoreMembers rest))) = _
  rw [width_cons _ (by decide), width_append _ (isWellFormed_quote _),
    width_cons _ (by decide), width_append _ (isWellFormed_stringify value),
    width_moreMembers, List.map_cons, List.sum_cons]
  show _ = 2 + width (quote (ascii key)) + width value.stringify + (rest.map memberWidth).sum + 1
  omega

/-- The length of an array with one item. -/
theorem width_arr_singleton (item : Value) :
    width (arr [item]).stringify = 2 + width item.stringify := by
  show width (0x5b :: (item.stringify ++ [0x5d])) = _
  rw [width_cons _ (by decide), width_append _ (isWellFormed_stringify item)]
  show 1 + (width item.stringify + 1) = _
  omega

end Value

end Utf16
