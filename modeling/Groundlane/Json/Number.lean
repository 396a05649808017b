import Mathlib.Algebra.Order.Field.Basic
import Mathlib.Algebra.Order.Ring.Rat
import Groundlane.Json.Value

/-!
# Numbers of a scripting language

A number is not a number, infinite, or finite. A finite number is given by the decimal that
`Number.prototype.toString` chooses for it: its significant digits and the power of ten of the last
one. `Decimal.numeral` is the text it writes, `Number.max` is `Math.max`, and `Number.index` is the
array index that a number is as a property name.
-/

/-- A finite number: significant digits without trailing zeros and the power of ten behind them.
There is one zero. -/
structure Decimal where
  negative : Bool
  digits : Nat
  exponent : Int
  wf : digits % 10 = 0 → negative = false ∧ digits = 0 ∧ exponent = 0
deriving DecidableEq, Repr

inductive Number where
  | nan
  | infinite (negative : Bool)
  | finite (value : Decimal)
deriving DecidableEq, Repr

namespace Decimal

/-- The digit of one is not a zero. -/
theorem wf_one : 1 % 10 = 0 → false = false ∧ 1 = 0 ∧ (0 : Int) = 0 := by decide

/-- The value. -/
def toRat (value : Decimal) : ℚ :=
  (if value.negative then -1 else 1) * value.digits * (10 : ℚ) ^ value.exponent

/-! ## Text -/

/-- The digits and the position of the point behind the first of them. -/
def chars (value : Decimal) : List Char := Nat.toDigits 10 value.digits

def zeros (count : Nat) : List Char := List.replicate count '0'

/-- The text of the exponent of ten in scientific notation. -/
def exponentChars (exponent : Int) : List Char :=
  'e' :: (if 0 ≤ exponent then '+' else '-') :: Nat.toDigits 10 exponent.natAbs

/-- The text of a number that is not negative: the position of the point decides on the notation. -/
def magnitudeChars (value : Decimal) : List Char :=
  let count := value.chars.length
  let point := count + value.exponent
  if count ≤ point ∧ point ≤ 21 then value.chars ++ zeros (point - count).toNat
  else if 0 < point ∧ point ≤ 21 then
    value.chars.take point.toNat ++ '.' :: value.chars.drop point.toNat
  else if -6 < point ∧ point ≤ 0 then '0' :: '.' :: zeros (-point).toNat ++ value.chars
  else
    value.chars.take 1 ++ (if count = 1 then [] else '.' :: value.chars.drop 1) ++
      exponentChars (point - 1)

theorem isNumeralChar_toDigits (n : Nat) : ∀ c ∈ Nat.toDigits 10 n, isNumeralChar c = true := by
  intro c hc
  simp [isNumeralChar, Nat.isDigit_of_mem_toDigits (by decide) (by decide) hc]

theorem isNumeralChar_magnitude (value : Decimal) :
    ∀ c ∈ value.magnitudeChars, isNumeralChar c = true := by
  have hchars : ∀ c ∈ value.chars, isNumeralChar c = true := isNumeralChar_toDigits value.digits
  have hzeros : ∀ count, ∀ c ∈ zeros count, isNumeralChar c = true := by
    intro count c hc
    rw [List.eq_of_mem_replicate hc]
    decide
  have hexponent : ∀ exponent, ∀ c ∈ exponentChars exponent, isNumeralChar c = true := by
    intro exponent c hc
    unfold exponentChars at hc
    rcases List.mem_cons.1 hc with rfl | hc
    · decide
    · rcases List.mem_cons.1 hc with rfl | hc
      · split <;> decide
      · exact isNumeralChar_toDigits _ c hc
  have hpoint : isNumeralChar '.' = true := by decide
  intro c hc
  unfold magnitudeChars at hc
  dsimp only at hc
  split at hc
  · rcases List.mem_append.1 hc with hc | hc
    · exact hchars c hc
    · exact hzeros _ c hc
  · split at hc
    · rcases List.mem_append.1 hc with hc | hc
      · exact hchars c (List.mem_of_mem_take hc)
      · rcases List.mem_cons.1 hc with rfl | hc
        · exact hpoint
        · exact hchars c (List.mem_of_mem_drop hc)
    · split at hc
      · rcases List.mem_append.1 hc with hc | hc
        · rcases List.mem_cons.1 hc with rfl | hc
          · decide
          · rcases List.mem_cons.1 hc with rfl | hc
            · exact hpoint
            · exact hzeros _ c hc
        · exact hchars c hc
      · rcases List.mem_append.1 hc with hc | hc
        · rcases List.mem_append.1 hc with hc | hc
          · exact hchars c (List.mem_of_mem_take hc)
          · split at hc
            · exact absurd hc List.not_mem_nil
            · rcases List.mem_cons.1 hc with rfl | hc
              · exact hpoint
              · exact hchars c (List.mem_of_mem_drop hc)
        · exact hexponent _ c hc

/-- The text of the number. -/
def text (value : Decimal) : List Char :=
  if value.negative then '-' :: value.magnitudeChars else value.magnitudeChars

theorem magnitudeChars_ne_nil (value : Decimal) : value.magnitudeChars ≠ [] := by
  have hchars : value.chars ≠ [] := Nat.toDigits_ne_nil
  unfold magnitudeChars
  dsimp only
  split
  · exact List.append_ne_nil_of_left_ne_nil hchars _
  · split
    · exact List.append_ne_nil_of_right_ne_nil _ (List.cons_ne_nil _ _)
    · split
      · exact List.append_ne_nil_of_left_ne_nil (List.cons_ne_nil _ _) _
      · exact List.append_ne_nil_of_right_ne_nil _ (List.cons_ne_nil _ _)

/-- The text as a numeral of JSON. -/
def numeral (value : Decimal) : Numeral where
  text := String.ofList value.text
  wf := by
    rw [String.toList_ofList]
    unfold text
    cases value.negative with
    | false =>
      exact ⟨magnitudeChars_ne_nil value, List.all_eq_true.2 (isNumeralChar_magnitude value)⟩
    | true =>
      refine ⟨List.cons_ne_nil _ _, List.all_eq_true.2 fun c hc => ?_⟩
      rcases List.mem_cons.1 hc with rfl | hc
      · decide
      · exact isNumeralChar_magnitude value c hc

/-! ## Whole numbers -/

/-- The natural number that the decimal is. -/
def natural (value : Decimal) : Option Nat :=
  if value.negative ∨ value.exponent < 0 then none
  else some (value.digits * 10 ^ value.exponent.toNat)

end Decimal

namespace Number

/-- `<`, which nothing satisfies that is not a number. -/
def lt : Number → Number → Bool
  | nan, _ | _, nan => false
  | infinite negative, infinite negative' => negative && !negative'
  | infinite negative, finite _ => negative
  | finite _, infinite negative => !negative
  | finite value, finite value' => value.toRat < value'.toRat

/-- `<=`. -/
def le : Number → Number → Bool
  | nan, _ | _, nan => false
  | left, right => !right.lt left

def isFinite : Number → Bool
  | finite _ => true
  | _ => false

/-- `Math.max` of two numbers. -/
def max : Number → Number → Number
  | nan, _ | _, nan => nan
  | left, right => if left.lt right then right else left

/-- `Math.max`. -/
def maximum (numbers : List Number) : Number :=
  numbers.foldl max (infinite true)

/-- The largest array index is below this. -/
def maxArrayLength : Nat := 2 ^ 32 - 1

/-- The array index that the number is as a property name. -/
def index : Number → Option Nat
  | finite value => value.natural.filter fun n => decide (n < maxArrayLength)
  | _ => none

/-- The length of the array that `Array.from` makes for a length of one more than the number, or
`none` where it throws. -/
def arrayLength : Number → Option Nat
  | nan => some 0
  | infinite true => some 0
  | infinite false => none
  | finite value =>
    let length := (value.toRat + 1).floor
    if maxArrayLength < length then none else some length.toNat

/-! ## Array indices -/

variable {numbers : List Number} {n : Nat} {number : Number}

theorem index_eq_some (h : number.index = some n) :
    ∃ value, number = finite value ∧ value.toRat = n ∧ n < maxArrayLength := by
  cases number with
  | nan => cases h
  | infinite negative => cases h
  | finite value =>
    obtain ⟨hnatural, hbound⟩ := Option.filter_eq_some_iff.1 h
    refine ⟨value, rfl, ?_, of_decide_eq_true hbound⟩
    unfold Decimal.natural at hnatural
    split at hnatural
    · cases hnatural
    · rename_i hcases
      obtain ⟨hnegative, _⟩ := not_or.1 hcases
      have hpower : (10 : ℚ) ^ value.exponent = 10 ^ value.exponent.toNat := by
        rw [← zpow_natCast, Int.toNat_of_nonneg (by omega)]
      rw [← Option.some.inj hnatural, Decimal.toRat, if_neg hnegative, hpower]
      push_cast
      rw [one_mul]

theorem index_max {left right : Number} {m n : Nat} (hleft : left.index = some m)
    (hright : right.index = some n) : (left.max right).index = some (Max.max m n) := by
  obtain ⟨value, rfl, hvalue, -⟩ := index_eq_some hleft
  obtain ⟨other, rfl, hother, -⟩ := index_eq_some hright
  show (if (finite value).lt (finite other) = true then finite other else finite value).index = _
  have hlt : (finite value).lt (finite other) = decide (m < n) := by
    simp only [lt, hvalue, hother, Nat.cast_lt]
  rw [hlt]
  by_cases h : m < n
  · rw [if_pos (decide_eq_true h), hright, max_eq_right h.le]
  · rw [if_neg (by simp [h]), hleft]
    rw [max_eq_left (Nat.not_lt.1 h)]

/-- The largest of a number and others that are array indices is one. -/
theorem index_foldl_max {start : Number} {m : Nat} (hstart : start.index = some m)
    (h : ∀ number ∈ numbers, ∃ n, number.index = some n) :
    ∃ top, (numbers.foldl max start).index = some top ∧ m ≤ top ∧
      ∀ number ∈ numbers, ∀ n, number.index = some n → n ≤ top := by
  induction numbers generalizing start m with
  | nil => exact ⟨m, hstart, Nat.le_refl m, fun _ hmem => absurd hmem List.not_mem_nil⟩
  | cons first rest ih =>
    obtain ⟨n, hfirst⟩ := h first List.mem_cons_self
    obtain ⟨top, htop, hle, hrest⟩ := ih (index_max hstart hfirst)
      fun number hmem => h number (List.mem_cons_of_mem _ hmem)
    refine ⟨top, htop, (le_max_left m n).trans hle, List.forall_mem_cons.2 ⟨fun n' hn' => ?_,
      hrest⟩⟩
    obtain rfl := Option.some.inj (hfirst.symm.trans hn')
    exact (le_max_right m n).trans hle

theorem infinite_max {right : Number} (h : right.index = some n) :
    (infinite true).max right = right := by
  obtain ⟨_, rfl, -⟩ := index_eq_some h
  rfl

theorem index_maximum (hne : numbers ≠ []) (h : ∀ number ∈ numbers, ∃ n, number.index = some n) :
    ∃ top, (maximum numbers).index = some top ∧
      ∀ number ∈ numbers, ∀ n, number.index = some n → n ≤ top := by
  cases numbers with
  | nil => exact absurd rfl hne
  | cons first rest =>
    obtain ⟨m, hfirst⟩ := h first List.mem_cons_self
    obtain ⟨top, htop, hle, hrest⟩ := index_foldl_max hfirst
      fun number hmem => h number (List.mem_cons_of_mem _ hmem)
    refine ⟨top, ?_, List.forall_mem_cons.2 ⟨fun n hn => ?_, hrest⟩⟩
    · rw [maximum, List.foldl_cons, infinite_max hfirst]
      exact htop
    · obtain rfl := Option.some.inj (hfirst.symm.trans hn)
      exact hle

/-- An array that has a place for the index has one entry more. -/
theorem arrayLength_of_index (h : number.index = some n) : number.arrayLength = some (n + 1) := by
  obtain ⟨value, rfl, hvalue, _⟩ := index_eq_some h
  have hfloor : (value.toRat + 1).floor = (n + 1 : Nat) := by
    rw [hvalue, ← Nat.cast_succ, ← Int.cast_natCast, Rat.floor_intCast]
  show (if (maxArrayLength : Int) < (value.toRat + 1).floor then none
    else some (value.toRat + 1).floor.toNat) = _
  rw [hfloor, if_neg (by omega), Int.toNat_natCast]

end Number
