import Groundlane.Json.Value
import Mathlib.Data.List.Chain

/-!
# Strings of UTF-16 code units

A string of a scripting language is any sequence of 16-bit units, also one with unpaired
surrogates. Iterating over it gives its code points, each of them one unit or a surrogate pair
(`codePoints`); a part of a string that is cut between code points has the code points of that
part (`codePoints_flatten`). The text that `JSON.stringify` writes escapes unpaired surrogates.
-/

namespace Utf16

/-- A string. -/
abbrev Text := List UInt16

instance : LawfulBEq Text := inferInstance

/-- A leading surrogate. -/
def isHigh (unit : UInt16) : Bool := 0xd800 ≤ unit && unit < 0xdc00

/-- A trailing surrogate. -/
def isLow (unit : UInt16) : Bool := 0xdc00 ≤ unit && unit < 0xe000

/-- The code points of a string. -/
def codePoints : Text → List Text
  | [] => []
  | [unit] => [[unit]]
  | first :: second :: rest =>
    if isHigh first && isLow second then [first, second] :: codePoints rest
    else [first] :: codePoints (second :: rest)

/-- The code points make up the string. -/
@[simp] theorem flatten_codePoints (text : Text) : (codePoints text).flatten = text := by
  fun_induction codePoints text with
  | case1 => rfl
  | case2 unit => rfl
  | case3 first second rest hpair ih => simp [ih]
  | case4 first second rest hpair ih => simp [ih]

/-- One unit, or a surrogate pair. -/
inductive IsPoint : Text → Prop
  | unit (unit : UInt16) : IsPoint [unit]
  | pair (first second : UInt16) (h : (isHigh first && isLow second) = true) :
    IsPoint [first, second]

/-- Two code points that do not run together to a pair. -/
def Separate (left right : Text) : Prop :=
  ∀ first second rest, left = [first] → right = second :: rest →
    (isHigh first && isLow second) = false

theorem isPoint_of_mem (text : Text) : ∀ point ∈ codePoints text, IsPoint point := by
  fun_induction codePoints text with
  | case1 => exact nofun
  | case2 unit =>
    intro point hpoint
    rw [List.mem_singleton.1 hpoint]
    exact .unit unit
  | case3 first second rest hpair ih =>
    intro point hpoint
    rcases List.mem_cons.1 hpoint with rfl | hrest
    · exact .pair first second hpair
    · exact ih point hrest
  | case4 first second rest hpair ih =>
    intro point hpoint
    rcases List.mem_cons.1 hpoint with rfl | hrest
    · exact .unit first
    · exact ih point hrest

/-- The first code point starts with the first unit. -/
theorem head_codePoints (unit : UInt16) (rest : Text) :
    ∃ tail points, codePoints (unit :: rest) = (unit :: tail) :: points := by
  cases rest with
  | nil => exact ⟨[], [], rfl⟩
  | cons second rest =>
    unfold codePoints
    split
    · exact ⟨[second], _, rfl⟩
    · exact ⟨[], _, rfl⟩

theorem isChain_codePoints (text : Text) : (codePoints text).IsChain Separate := by
  fun_induction codePoints text with
  | case1 => exact .nil
  | case2 unit => exact .singleton _
  | case3 first second rest hpair ih =>
    cases hrest : codePoints rest with
    | nil => exact .singleton _
    | cons point points =>
      refine .cons_cons ?_ (hrest ▸ ih)
      intro first' second' tail hleft
      exact absurd (congrArg List.length hleft) (by simp)
  | case4 first second rest hpair ih =>
    obtain ⟨tail, points, hrest⟩ := head_codePoints second rest
    rw [hrest] at ih ⊢
    refine .cons_cons ?_ ih
    intro first' second' tail' hleft hright
    obtain rfl := List.singleton_inj.1 hleft
    obtain ⟨rfl, -⟩ := List.cons.inj hright
    exact Bool.eq_false_iff.2 hpair

/-- Code points that are put together again stay apart. -/
theorem codePoints_flatten {points : List Text} (hpoints : ∀ point ∈ points, IsPoint point)
    (hchain : points.IsChain Separate) : codePoints points.flatten = points := by
  induction points with
  | nil => rfl
  | cons point points ih =>
    have hrest := ih (fun other hother => hpoints other (List.mem_cons_of_mem _ hother))
      hchain.tail
    cases hpoints point List.mem_cons_self with
    | pair first second hpair =>
      show codePoints (first :: second :: points.flatten) = _
      unfold codePoints
      rw [if_pos hpair, hrest]
    | unit unit =>
      show codePoints (unit :: points.flatten) = _
      cases points with
      | nil => rfl
      | cons next points =>
        obtain ⟨second, tail, rfl⟩ : ∃ second tail, next = second :: tail := by
          cases hpoints next (List.mem_cons_of_mem _ List.mem_cons_self) with
          | unit second => exact ⟨second, [], rfl⟩
          | pair second third _ => exact ⟨second, [third], rfl⟩
        have hseparate : (isHigh unit && isLow second) = false :=
          (List.isChain_cons_cons.1 hchain).1 unit second tail rfl rfl
        show codePoints (unit :: second :: (tail ++ points.flatten)) = _
        unfold codePoints
        rw [if_neg (by simp [hseparate])]
        exact congrArg _ hrest

/-- A part of a string that is cut between code points has the code points of that part. -/
theorem codePoints_slice (text : Text) (start length : Nat) :
    codePoints (((codePoints text).drop start).take length).flatten =
      ((codePoints text).drop start).take length := by
  refine codePoints_flatten ?_ ((isChain_codePoints text).drop start |>.take length)
  exact fun point hpoint =>
    isPoint_of_mem text point (List.mem_of_mem_drop (List.mem_of_mem_take hpoint))

/-! ## White space and parts -/

/-- `\s`, and what `trim` removes. -/
def isWhiteSpace (unit : UInt16) : Bool :=
  (9 ≤ unit && unit ≤ 13) || (0x2000 ≤ unit && unit ≤ 0x200a) ||
    [0x20, 0xa0, 0x1680, 0x2028, 0x2029, 0x202f, 0x205f, 0x3000, 0xfeff].contains unit

/-- `trim`. -/
def trim (text : Text) : Text :=
  ((text.dropWhile isWhiteSpace).reverse.dropWhile isWhiteSpace).reverse

/-- A position of `slice`: one below zero counts from the end. -/
def slicePosition (length : Nat) (position : Int) : Nat :=
  if position < 0 then (length + position).toNat else min position.toNat length

/-- `slice`. -/
def slice (text : Text) (start stop : Int) : Text :=
  (text.drop (slicePosition text.length start)).take
    (slicePosition text.length stop - slicePosition text.length start)

/-! ## JSON -/

/-- A text of ASCII characters. -/
def ascii (text : String) : Text :=
  text.toList.map fun c => UInt16.ofNat c.toNat

/-- `\x5cuXXXX`. -/
def escapeUnit (unit : UInt16) : Text :=
  let n := unit.toNat
  ascii "\\u" ++ [n / 4096, n / 256 % 16, n / 16 % 16, n % 16].map fun digit =>
    UInt16.ofNat (hexDigit digit).toNat

/-- A code point as it stands inside a JSON string. -/
def quotePoint : Text → Text
  | [unit] =>
    if unit = 0x22 then ascii "\\\""
    else if unit = 0x5c then ascii "\\\\"
    else if unit = 8 then ascii "\\b"
    else if unit = 9 then ascii "\\t"
    else if unit = 10 then ascii "\\n"
    else if unit = 12 then ascii "\\f"
    else if unit = 13 then ascii "\\r"
    else if unit < 0x20 || isHigh unit || isLow unit then escapeUnit unit
    else [unit]
  | pair => pair

/-- A JSON string. -/
def quote (text : Text) : Text :=
  0x22 :: ((codePoints text).flatMap quotePoint ++ [0x22])

/-- A JSON value with strings of code units; keys are ASCII. -/
inductive Value where
  | null
  | bool (value : Bool)
  | num (value : Numeral)
  | str (value : Text)
  | arr (items : List Value)
  | obj (members : List (String × Value))

namespace Value

mutual

/-- `JSON.stringify`. -/
def stringify : Value → Text
  | null => ascii "null"
  | bool true => ascii "true"
  | bool false => ascii "false"
  | num value => ascii value.text
  | str value => quote value
  | arr items => 0x5b :: stringifyItems items
  | obj members => 0x7b :: stringifyMembers members

/-- The items of an array and the closing bracket. -/
def stringifyItems : List Value → Text
  | [] => [0x5d]
  | item :: rest => item.stringify ++ stringifyMoreItems rest

/-- The items behind the first one. -/
def stringifyMoreItems : List Value → Text
  | [] => [0x5d]
  | item :: rest => 0x2c :: (item.stringify ++ stringifyMoreItems rest)

/-- The members of an object and the closing brace. -/
def stringifyMembers : List (String × Value) → Text
  | [] => [0x7d]
  | (key, value) :: rest =>
    quote (ascii key) ++ 0x3a :: (value.stringify ++ stringifyMoreMembers rest)

/-- The members behind the first one. -/
def stringifyMoreMembers : List (String × Value) → Text
  | [] => [0x7d]
  | (key, value) :: rest =>
    0x2c :: (quote (ascii key) ++ 0x3a :: (value.stringify ++ stringifyMoreMembers rest))

end

/-- A number. -/
def nat (n : Nat) : Value := num (Numeral.ofNat n)

end Value

end Utf16
