import Mathlib.Data.List.TakeWhile
import Groundlane.Json.Number
import Groundlane.Text.Sanitize

/-!
# Numbers read from text

`Number(text)` of a scripting language, as far as it is finite and without rounding: blanks around
the text are dropped, no text is zero, and otherwise the text is a decimal literal or the digits of
a whole number behind `0x`, `0o` or `0b`. A text of decimal digits is read as the number it was
written from (`Number.ofText_toString`).
-/

namespace Number

open Groundlane

/-- The value of a digit up to `f`. -/
def digitValue (c : Char) : Nat :=
  if c.isDigit then c.toNat - 48 else if c.toNat < 97 then c.toNat - 55 else c.toNat - 87

/-- A whole number in another base. -/
def wholeOf (base : Nat) (text : List Char) : Option ℚ :=
  if text ≠ [] ∧ text.all (fun c => c.isAlphanum && decide (digitValue c < base)) then
    some (text.foldl (fun n c => n * base + digitValue c) 0 : Nat)
  else none

/-- The exponent behind the digits of a decimal literal. -/
def exponentOf : List Char → Option Int
  | [] => some 0
  | mark :: rest =>
    let negative := rest.head? = some '-'
    let digits := if rest.head? = some '-' ∨ rest.head? = some '+' then rest.tail else rest
    if (mark = 'e' ∨ mark = 'E') ∧ digits ≠ [] ∧ digits.all Char.isDigit then
      some (if negative then -(Nat.ofDigitChars 10 digits 0 : Int)
        else Nat.ofDigitChars 10 digits 0)
    else none

/-- A decimal literal without a sign. -/
def decimalOf (text : List Char) : Option ℚ :=
  let whole := text.takeWhile Char.isDigit
  let rest := text.dropWhile Char.isDigit
  let pointed := rest.head? = some '.'
  let fraction := if pointed then rest.tail.takeWhile Char.isDigit else []
  let rest := if pointed then rest.tail.dropWhile Char.isDigit else rest
  if whole = [] ∧ fraction = [] then none
  else (exponentOf rest).map fun exponent : Int =>
    Nat.ofDigitChars 10 (whole ++ fraction) 0 * (10 : ℚ) ^ (exponent - fraction.length)

/-- A literal. -/
def literalOf : List Char → Option ℚ
  | [] => some 0
  | '0' :: 'x' :: digits | '0' :: 'X' :: digits => wholeOf 16 digits
  | '0' :: 'o' :: digits | '0' :: 'O' :: digits => wholeOf 8 digits
  | '0' :: 'b' :: digits | '0' :: 'B' :: digits => wholeOf 2 digits
  | '-' :: text => (decimalOf text).map fun value => -value
  | '+' :: text => decimalOf text
  | text => decimalOf text

/-- `Number(text)`. -/
def ofText (text : String) : Option ℚ :=
  literalOf (trimSpace text.toList)

/-- The whole number that the text is read as. -/
def integerOf (text : String) : Option Int :=
  (ofText text).bind fun value => if value.den = 1 then some value.num else none

/-! ## Digits -/

theorem isSpace_digit {c : Char} (h : c.isDigit = true) : isSpace c = false := by
  have hval : 48 ≤ c.toNat ∧ c.toNat ≤ 57 := by
    simpa [Char.isDigit, UInt32.le_iff_toNat_le] using h
  unfold isSpace
  have hfirst : (decide (9 ≤ c.toNat) && decide (c.toNat ≤ 13)) = false := by
    simp
    omega
  have hsecond : (decide (0x2000 ≤ c.toNat) && decide (c.toNat ≤ 0x200a)) = false := by
    simp
    omega
  rw [hfirst, hsecond, List.contains_eq_mem]
  simp
  omega

theorem trimSpace_digits {text : List Char} (h : ∀ c ∈ text, c.isDigit = true) :
    trimSpace text = text := by
  have hdrop : ∀ l : List Char, (∀ c ∈ l, c.isDigit = true) → l.dropWhile isSpace = l := by
    intro l hl
    cases l with
    | nil => rfl
    | cons c rest => rw [List.dropWhile_cons_of_neg (by simp [isSpace_digit (hl c (by simp))])]
  unfold trimSpace
  rw [hdrop text h, hdrop text.reverse fun c hc => h c (List.mem_reverse.1 hc),
    List.reverse_reverse]

/-- Digits are neither a sign nor the mark of another base. -/
theorem literalOf_digits {text : List Char} (h : ∀ c ∈ text, c.isDigit = true) (hne : text ≠ []) :
    literalOf text = decimalOf text := by
  unfold literalOf
  split
  · exact absurd rfl hne
  all_goals first
    | rfl
    | exact absurd (List.forall_mem_cons.1 h).1 (by decide)
    | exact absurd (List.forall_mem_cons.1 (List.forall_mem_cons.1 h).2).1 (by decide)

/-- A number that is written with decimal digits. -/
theorem ofText_toString (n : Nat) : ofText (toString n) = some (n : ℚ) := by
  have htext : (toString n).toList = Nat.toDigits 10 n := Nat.toList_repr
  have hdigits : ∀ c ∈ Nat.toDigits 10 n, c.isDigit = true := fun c hc =>
    Nat.isDigit_of_mem_toDigits (by decide) (by decide) hc
  have htake : (Nat.toDigits 10 n).takeWhile Char.isDigit = Nat.toDigits 10 n :=
    List.takeWhile_eq_self_iff.2 hdigits
  have hdrop : (Nat.toDigits 10 n).dropWhile Char.isDigit = [] :=
    List.dropWhile_eq_nil_iff.2 hdigits
  have hdecimal : decimalOf (Nat.toDigits 10 n) = some (n : ℚ) := by
    unfold decimalOf
    rw [htake, hdrop]
    simp [exponentOf, Nat.toDigits_ne_nil, Nat.ofDigitChars_ten_toDigits]
  have hliteral : literalOf (Nat.toDigits 10 n) = some (n : ℚ) :=
    (literalOf_digits hdigits Nat.toDigits_ne_nil).trans hdecimal
  unfold ofText
  rw [htext, trimSpace_digits hdigits, hliteral]

theorem integerOf_toString (n : Nat) : integerOf (toString n) = some (n : Int) := by
  unfold integerOf
  rw [ofText_toString]
  simp

end Number
