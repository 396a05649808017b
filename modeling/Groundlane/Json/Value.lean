import Mathlib.Data.List.Basic
import Mathlib.Data.Char
import Mathlib.Tactic.Common
import Mathlib.Algebra.GroupWithZero.Nat

/-!
# JSON values and their text

JSON values as `JSON.parse` produces them and the text that `JSON.stringify` writes for them.
A number is the text of a numeral, since nothing here computes with numbers that come from
outside. The members of an object are listed in enumeration order.

The text determines the value (`Json.stringify_injective`), so equality of texts, and with a
collision-free digest equality of fingerprints, is equality of values.
-/

/-- The characters that occur in the text of a number. -/
def isNumeralChar (c : Char) : Bool :=
  c.isDigit || c == '-' || c == '+' || c == '.' || c == 'e'

/-- The text of a number. -/
structure Numeral where
  text : String
  wf : text.toList ≠ [] ∧ text.toList.all isNumeralChar = true
deriving DecidableEq

/-- A JSON value. -/
inductive Json where
  | null
  | bool (value : Bool)
  | num (value : Numeral)
  | str (value : String)
  | arr (items : List Json)
  | obj (members : List (String × Json))

/-- The length of a string in UTF-16 code units. -/
def utf16Length (text : String) : Nat :=
  (text.toList.map fun c => if c.toNat < 0x10000 then 1 else 2).sum

/-! ## Numerals -/

namespace Numeral

/-- The numeral of an integer. -/
def ofNat (n : Nat) : Numeral where
  text := toString n
  wf := by
    have htext : (toString n).toList = Nat.toDigits 10 n := Nat.toList_repr
    rw [htext]
    refine ⟨Nat.toDigits_ne_nil, List.all_eq_true.2 fun c hc => ?_⟩
    simp [isNumeralChar, Nat.isDigit_of_mem_toDigits (by decide) (by decide) hc]

/-- The numeral of an integer that may be negative. -/
def ofInt : Int → Numeral
  | .ofNat n => ofNat n
  | .negSucc n =>
    { text := String.ofList ('-' :: (ofNat (n + 1)).text.toList)
      wf := by
        have h := (ofNat (n + 1)).wf.2
        simp only [String.toList_ofList, List.all_cons, h, Bool.and_true]
        exact ⟨by simp, by decide⟩ }

theorem toDigits_inj {m n : Nat} (h : Nat.toDigits 10 m = Nat.toDigits 10 n) : m = n := by
  have hm := Nat.ofDigitChars_toDigits (b := 10) (n := m) (by decide) le_rfl
  rw [h, Nat.ofDigitChars_toDigits (by decide) le_rfl] at hm
  exact hm.symm

theorem ofNat_text (n : Nat) : (ofNat n).text.toList = Nat.toDigits 10 n :=
  Nat.toList_repr

/-- The numeral of an integer determines it. -/
theorem ofInt_injective : Function.Injective ofInt := by
  have hminus : ∀ n, '-' ∉ Nat.toDigits 10 n := fun n hmem =>
    absurd (Nat.isDigit_of_mem_toDigits (by decide) (by decide) hmem) (by decide)
  intro left right h
  have htext := congrArg (fun numeral => numeral.text.toList) h
  cases left with
  | ofNat m =>
    cases right with
    | ofNat n =>
      simp only [ofInt, ofNat_text] at htext
      rw [toDigits_inj htext]
    | negSucc n =>
      simp only [ofInt, ofNat_text, String.toList_ofList] at htext
      exact absurd (htext ▸ List.mem_cons_self ..) (hminus m)
  | negSucc m =>
    cases right with
    | ofNat n =>
      simp only [ofInt, ofNat_text, String.toList_ofList] at htext
      exact absurd (htext ▸ List.mem_cons_self ..) (hminus n)
    | negSucc n =>
      simp only [ofInt, ofNat_text, String.toList_ofList, List.cons.injEq, true_and] at htext
      rw [Nat.succ.inj (toDigits_inj htext)]
/-- `Number.isInteger`: without a fraction or a negative exponent. -/
def isInteger (n : Numeral) : Bool :=
  if n.text.toList.contains 'e' then n.text.toList.contains '+'
  else !n.text.toList.contains '.'

end Numeral

/-! ## Strings -/

/-- One hexadecimal digit. -/
def hexDigit (n : Nat) : Char :=
  if n < 10 then Char.ofNat (48 + n) else Char.ofNat (87 + n)

/-- The value of a hexadecimal digit. -/
def hexValue (c : Char) : Nat :=
  if c.toNat < 58 then c.toNat - 48 else c.toNat - 87

theorem hexValue_hexDigit : ∀ n, n < 16 → hexValue (hexDigit n) = n := by
  decide

/-- A character as it stands inside a JSON string. -/
def escape (c : Char) : List Char :=
  if c = '"' then ['\\', '"']
  else if c = '\\' then ['\\', '\\']
  else if c = Char.ofNat 8 then ['\\', 'b']
  else if c = Char.ofNat 9 then ['\\', 't']
  else if c = Char.ofNat 10 then ['\\', 'n']
  else if c = Char.ofNat 12 then ['\\', 'f']
  else if c = Char.ofNat 13 then ['\\', 'r']
  else if c.toNat < 32 then
    ['\\', 'u', '0', '0', hexDigit (c.toNat / 16), hexDigit (c.toNat % 16)]
  else [c]

/-- The first character of an escaped text and what follows it. -/
def unescape : List Char → Option (Char × List Char)
  | '\\' :: 'b' :: rest => some (Char.ofNat 8, rest)
  | '\\' :: 't' :: rest => some (Char.ofNat 9, rest)
  | '\\' :: 'n' :: rest => some (Char.ofNat 10, rest)
  | '\\' :: 'f' :: rest => some (Char.ofNat 12, rest)
  | '\\' :: 'r' :: rest => some (Char.ofNat 13, rest)
  | '\\' :: 'u' :: '0' :: '0' :: high :: low :: rest =>
    some (Char.ofNat (16 * hexValue high + hexValue low), rest)
  | '\\' :: c :: rest => some (c, rest)
  | c :: rest => some (c, rest)
  | [] => none

theorem unescape_escape (c : Char) (rest : List Char) :
    unescape (escape c ++ rest) = some (c, rest) := by
  unfold escape
  split_ifs with hquote hbackslash h8 h9 h10 h12 h13 hcontrol
  · subst hquote
    simp [unescape]
  · subst hbackslash
    simp [unescape]
  · subst h8
    simp [unescape]
  · subst h9
    simp [unescape]
  · subst h10
    simp [unescape]
  · subst h12
    simp [unescape]
  · subst h13
    simp [unescape]
  · have hhigh := hexValue_hexDigit (c.toNat / 16) (by omega)
    have hlow := hexValue_hexDigit (c.toNat % 16) (by omega)
    have hc : 16 * (c.toNat / 16) + c.toNat % 16 = c.toNat := Nat.div_add_mod _ _
    simp [unescape, hhigh, hlow, hc, Char.ofNat_toNat]
  · rw [List.singleton_append, unescape.eq_def]
    split <;> simp_all

/-- No escaped character starts with the closing quote. -/
theorem escape_ne_quote (c : Char) : ∃ first rest, escape c = first :: rest ∧ first ≠ '"' := by
  unfold escape
  split_ifs with hquote <;> exact ⟨_, _, rfl, by first | decide | exact hquote⟩

/-- The text of a string up to and including the closing quote. -/
def escaped (text : List Char) : List Char :=
  text.flatMap escape ++ ['"']

/-- The closing quote ends a string: text and continuation are determined. -/
theorem escaped_append_inj {left right rest rest' : List Char}
    (h : escaped left ++ rest = escaped right ++ rest') : left = right ∧ rest = rest' := by
  induction left generalizing right with
  | nil =>
    cases right with
    | nil => simpa [escaped] using h
    | cons c right =>
      obtain ⟨first, tail, hc, hne⟩ := escape_ne_quote c
      simp [escaped, hc, Ne.symm hne] at h
  | cons c left ih =>
    cases right with
    | nil =>
      obtain ⟨_, _, hc, hne⟩ := escape_ne_quote c
      simp [escaped, hc, hne] at h
    | cons d right =>
      have hunescape := congrArg unescape h
      simp only [escaped, List.flatMap_cons, List.append_assoc, unescape_escape,
        Option.some.injEq, Prod.mk.injEq] at hunescape
      obtain ⟨rfl, htail⟩ := hunescape
      obtain ⟨rfl, rfl⟩ := @ih right (by simpa [escaped] using htail)
      exact ⟨rfl, rfl⟩

/-! ## Values -/

namespace Json

mutual

/-- The text of a value. -/
def render : Json → List Char
  | null => ['n', 'u', 'l', 'l']
  | bool true => ['t', 'r', 'u', 'e']
  | bool false => ['f', 'a', 'l', 's', 'e']
  | num value => value.text.toList
  | str value => '"' :: escaped value.toList
  | arr items => '[' :: renderItems items
  | obj members => '{' :: renderMembers members

/-- The items of an array and the closing bracket. -/
def renderItems : List Json → List Char
  | [] => [']']
  | item :: rest => render item ++ renderMoreItems rest

/-- The items behind the first one. -/
def renderMoreItems : List Json → List Char
  | [] => [']']
  | item :: rest => ',' :: (render item ++ renderMoreItems rest)

/-- The members of an object and the closing brace. -/
def renderMembers : List (String × Json) → List Char
  | [] => ['}']
  | (key, value) :: rest =>
    '"' :: (escaped key.toList ++ ':' :: (render value ++ renderMoreMembers rest))

/-- The members behind the first one. -/
def renderMoreMembers : List (String × Json) → List Char
  | [] => ['}']
  | (key, value) :: rest =>
    ',' :: '"' :: (escaped key.toList ++ ':' :: (render value ++ renderMoreMembers rest))

end

/-- `JSON.stringify`. -/
def stringify (value : Json) : String :=
  String.ofList value.render

/-- What may follow a value: nothing that could continue a number. -/
def Stops (rest : List Char) : Prop :=
  ∀ c tail, rest = c :: tail → isNumeralChar c = false

theorem stops_nil : Stops [] := by
  simp [Stops]

theorem stops_cons {c : Char} {tail : List Char} (h : isNumeralChar c = false) :
    Stops (c :: tail) := by
  rintro _ _ ⟨⟩
  exact h

/-- A numeral is determined by the text up to the first character that cannot continue it. -/
theorem numeral_append_inj {left right : Numeral} {rest rest' : List Char} (hrest : Stops rest)
    (hrest' : Stops rest') (h : left.text.toList ++ rest = right.text.toList ++ rest') :
    left = right ∧ rest = rest' := by
  have htake : ∀ (n : Numeral) (tail : List Char), Stops tail →
      (n.text.toList ++ tail).takeWhile isNumeralChar = n.text.toList := by
    intro n tail htail
    have htext := List.all_eq_true.1 n.wf.2
    rw [List.takeWhile_append_of_pos htext]
    cases tail with
    | nil => simp
    | cons c tail => simp [htail c tail rfl]
  have htext : left.text.toList = right.text.toList := by
    rw [← htake left rest hrest, h, htake right rest' hrest']
  refine ⟨?_, List.append_cancel_left (htext ▸ h)⟩
  cases left
  cases right
  simpa [String.toList_inj] using htext

/-- The kind of a value, as the first character of its text shows it. -/
private def lead : Json → Char
  | null => 'n'
  | bool true => 't'
  | bool false => 'f'
  | num _ => '0'
  | str _ => '"'
  | arr _ => '['
  | obj _ => '{'

/-- All numerals show the same kind. -/
private def kindOf (c : Char) : Char :=
  if isNumeralChar c then '0' else c

private theorem render_lead (value : Json) :
    ∃ c rest, value.render = c :: rest ∧ kindOf c = value.lead := by
  cases value with
  | num n =>
    obtain ⟨hne, hall⟩ := n.wf
    obtain ⟨c, rest, htext⟩ := List.exists_cons_of_ne_nil hne
    refine ⟨c, rest, by rw [render, htext], ?_⟩
    rw [htext, List.all_cons, Bool.and_eq_true] at hall
    rw [kindOf, if_pos hall.1]
    rfl
  | bool b => cases b <;> exact ⟨_, _, by rw [render], rfl⟩
  | _ => exact ⟨_, _, by rw [render], rfl⟩

private theorem lead_eq {left right : Json} {rest rest' : List Char}
    (h : left.render ++ rest = right.render ++ rest') : left.lead = right.lead := by
  obtain ⟨c, _, hleft, hc⟩ := render_lead left
  obtain ⟨d, _, hright, hd⟩ := render_lead right
  rw [hleft, hright, List.cons_append, List.cons_append] at h
  rw [← hc, ← hd, (List.cons.inj h).1]

/-- No value starts with a closing bracket. -/
private theorem render_ne_bracket (value : Json) :
    ∃ c rest, value.render = c :: rest ∧ c ≠ ']' := by
  obtain ⟨c, rest, hrender, hc⟩ := render_lead value
  refine ⟨c, rest, hrender, ?_⟩
  rintro rfl
  have hlead : value.lead ≠ ']' := by
    cases value with
    | bool b => cases b <;> simp [lead]
    | _ => simp [lead]
  exact hlead (hc ▸ rfl)

private theorem stops_moreItems (items : List Json) (rest : List Char) :
    Stops (renderMoreItems items ++ rest) := by
  cases items with
  | nil => exact stops_cons rfl
  | cons => exact stops_cons rfl

private theorem stops_moreMembers (members : List (String × Json)) (rest : List Char) :
    Stops (renderMoreMembers members ++ rest) := by
  cases members with
  | nil => exact stops_cons rfl
  | cons => exact stops_cons rfl

mutual

/-- A value is determined by its text and what follows it. -/
theorem render_append_inj : ∀ (left right : Json) {rest rest' : List Char},
    Stops rest → Stops rest' → left.render ++ rest = right.render ++ rest' →
    left = right ∧ rest = rest' := by
  intro left right rest rest' hrest hrest' h
  have hlead := lead_eq h
  match left, right with
  | null, null => exact ⟨rfl, by simpa [render] using h⟩
  | bool true, bool true => exact ⟨rfl, by simpa [render] using h⟩
  | bool false, bool false => exact ⟨rfl, by simpa [render] using h⟩
  | num n, num m =>
    obtain ⟨rfl, rfl⟩ := numeral_append_inj hrest hrest' h
    exact ⟨rfl, rfl⟩
  | str s, str t =>
    simp only [render, List.cons_append, List.cons.injEq, true_and] at h
    obtain ⟨htext, rfl⟩ := escaped_append_inj h
    exact ⟨by rw [String.toList_inj.1 htext], rfl⟩
  | arr items, arr items' =>
    simp only [render, List.cons_append, List.cons.injEq, true_and] at h
    obtain ⟨rfl, rfl⟩ := renderItems_append_inj items items' h
    exact ⟨rfl, rfl⟩
  | obj members, obj members' =>
    simp only [render, List.cons_append, List.cons.injEq, true_and] at h
    obtain ⟨rfl, rfl⟩ := renderMembers_append_inj members members' h
    exact ⟨rfl, rfl⟩

private theorem renderItems_append_inj : ∀ (left right : List Json) {rest rest' : List Char},
    renderItems left ++ rest = renderItems right ++ rest' → left = right ∧ rest = rest' := by
  intro left right rest rest' h
  match left, right with
  | [], [] => exact ⟨rfl, by simpa [renderItems] using h⟩
  | [], item :: _ | item :: _, [] =>
    obtain ⟨c, _, hitem, hne⟩ := render_ne_bracket item
    simp [renderItems, hitem, hne, Ne.symm hne] at h
  | item :: items, item' :: items' =>
    simp only [renderItems, List.append_assoc] at h
    obtain ⟨rfl, hmore⟩ := render_append_inj item item' (stops_moreItems _ _)
      (stops_moreItems _ _) h
    obtain ⟨rfl, rfl⟩ := renderMoreItems_append_inj items items' hmore
    exact ⟨rfl, rfl⟩

private theorem renderMoreItems_append_inj : ∀ (left right : List Json)
    {rest rest' : List Char}, renderMoreItems left ++ rest = renderMoreItems right ++ rest' →
    left = right ∧ rest = rest' := by
  intro left right rest rest' h
  match left, right with
  | [], [] => exact ⟨rfl, by simpa [renderMoreItems] using h⟩
  | [], _ :: _ | _ :: _, [] => simp [renderMoreItems] at h
  | item :: items, item' :: items' =>
    simp only [renderMoreItems, List.cons_append, List.append_assoc, List.cons.injEq, true_and] at h
    obtain ⟨rfl, hmore⟩ := render_append_inj item item' (stops_moreItems _ _)
      (stops_moreItems _ _) h
    obtain ⟨rfl, rfl⟩ := renderMoreItems_append_inj items items' hmore
    exact ⟨rfl, rfl⟩

private theorem renderMembers_append_inj : ∀ (left right : List (String × Json))
    {rest rest' : List Char}, renderMembers left ++ rest = renderMembers right ++ rest' →
    left = right ∧ rest = rest' := by
  intro left right rest rest' h
  match left, right with
  | [], [] => exact ⟨rfl, by simpa [renderMembers] using h⟩
  | [], _ :: _ | _ :: _, [] => simp [renderMembers] at h
  | (key, value) :: members, (key', value') :: members' =>
    simp only [renderMembers, List.cons_append, List.append_assoc, List.cons.injEq, true_and] at h
    obtain ⟨hkey, hvalue⟩ := escaped_append_inj h
    obtain ⟨rfl, hmore⟩ := render_append_inj value value' (stops_moreMembers _ _)
      (stops_moreMembers _ _) (List.cons.inj hvalue).2
    obtain ⟨rfl, rfl⟩ := renderMoreMembers_append_inj members members' hmore
    exact ⟨by rw [String.toList_inj.1 hkey], rfl⟩

private theorem renderMoreMembers_append_inj : ∀ (left right : List (String × Json))
    {rest rest' : List Char}, renderMoreMembers left ++ rest = renderMoreMembers right ++ rest' →
    left = right ∧ rest = rest' := by
  intro left right rest rest' h
  match left, right with
  | [], [] => exact ⟨rfl, by simpa [renderMoreMembers] using h⟩
  | [], _ :: _ | _ :: _, [] => simp [renderMoreMembers] at h
  | (key, value) :: members, (key', value') :: members' =>
    simp only [renderMoreMembers, List.cons_append, List.append_assoc, List.cons.injEq,
      true_and] at h
    obtain ⟨hkey, hvalue⟩ := escaped_append_inj h
    obtain ⟨rfl, hmore⟩ := render_append_inj value value' (stops_moreMembers _ _)
      (stops_moreMembers _ _) (List.cons.inj hvalue).2
    obtain ⟨rfl, rfl⟩ := renderMoreMembers_append_inj members members' hmore
    exact ⟨by rw [String.toList_inj.1 hkey], rfl⟩

end

/-- The text determines the value. -/
theorem stringify_injective : Function.Injective stringify := by
  intro left right h
  have hrender : left.render = right.render := by
    simpa [stringify] using congrArg String.toList h
  exact (render_append_inj left right stops_nil stops_nil (by rw [hrender])).1

instance : DecidableEq Json := fun left right =>
  decidable_of_iff (left.stringify = right.stringify)
    ⟨fun h => stringify_injective h, fun h => h ▸ rfl⟩

end Json

/-- The JSON value of something that may be null. -/
def Json.ofOption {α : Type} (write : α → Json) : Option α → Json
  | none => .null
  | some value => write value

/-- The JSON value of an integer. -/
def Json.ofInt (n : Int) : Json := .num (.ofInt n)

theorem Json.ofInt_injective : Function.Injective Json.ofInt := fun _ _ h =>
  Numeral.ofInt_injective (Json.num.inj h)

/-! ## Objects -/

/-- The members of an object: every key occurs once. -/
structure JsonObject where
  members : List (String × Json)
  nodup : (members.map Prod.fst).Nodup
deriving DecidableEq

namespace JsonObject

/-- The object without members. -/
def empty : JsonObject := ⟨[], List.nodup_nil⟩

/-- `Object.keys`. -/
def keys (object : JsonObject) : List String := object.members.map Prod.fst

/-- `Object.hasOwn`. -/
def hasOwn (object : JsonObject) (key : String) : Bool := object.keys.contains key

/-- The object with the members whose key passes the test. -/
def filterKeys (object : JsonObject) (test : String → Bool) : JsonObject where
  members := object.members.filter fun member => test member.1
  nodup := object.nodup.sublist (List.filter_sublist.map Prod.fst)

/-- The object as a value. -/
def toJson (object : JsonObject) : Json := .obj object.members

@[simp] theorem keys_empty : empty.keys = [] := rfl

theorem mem_keys_filterKeys {object : JsonObject} {test : String → Bool} {key : String} :
    key ∈ (object.filterKeys test).keys ↔ key ∈ object.keys ∧ test key = true := by
  simp only [keys, filterKeys, List.mem_map, List.mem_filter]
  constructor
  · rintro ⟨member, ⟨hmember, htest⟩, rfl⟩
    exact ⟨⟨member, hmember, rfl⟩, htest⟩
  · rintro ⟨⟨member, hmember, rfl⟩, htest⟩
    exact ⟨member, ⟨hmember, htest⟩, rfl⟩

theorem hasOwn_iff {object : JsonObject} {key : String} :
    object.hasOwn key = true ↔ key ∈ object.keys := by
  simp [hasOwn]

theorem toJson_injective : Function.Injective toJson := by
  rintro ⟨left, _⟩ ⟨right, _⟩ h
  simpa [toJson] using h

end JsonObject
