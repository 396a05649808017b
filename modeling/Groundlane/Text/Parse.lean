import Mathlib.Algebra.Order.Ring.Rat
import Groundlane.Text.Utf8

/-!
# Reading JSON

`JSON.parse` on strings of code units, by recursive descent. The members of an object are kept as
they stand in the text, a later one hides an earlier one with its key (`Parsed.get`). Numbers are
exact.

What `JSON.stringify` writes is read back (`parse_stringify`) when its numbers are integers, and
it is well-formed whatever strings it holds (`isWellFormed_stringify`).
-/

namespace Utf16

/-- A value that was read. -/
inductive Parsed where
  | null
  | bool (value : Bool)
  | num (value : ℚ)
  | str (value : Text)
  | arr (items : List Parsed)
  | obj (members : List (Text × Parsed))

/-- The member with a key. -/
def Parsed.get (value : Parsed) (key : String) : Option Parsed :=
  match value with
  | obj members => members.reverse.lookup (ascii key)
  | _ => none

namespace Parse

/-! ## Marks and strings -/

/-- White space. -/
def isSpace (unit : UInt16) : Bool := unit = 0x20 || unit = 9 || unit = 10 || unit = 13

/-- The text from the next unit on that is no white space. -/
def skip (text : Text) : Text := text.dropWhile isSpace

/-- The text behind a mark, when that comes next. -/
def mark (unit : UInt16) (text : Text) : Option Text :=
  match skip text with
  | first :: rest => if first = unit then some rest else none
  | [] => none

/-- The value of a hexadecimal digit. -/
def hexValue (unit : UInt16) : Option Nat :=
  if 0x30 ≤ unit && unit ≤ 0x39 then some (unit.toNat - 0x30)
  else if 0x61 ≤ unit && unit ≤ 0x66 then some (unit.toNat - 0x57)
  else if 0x41 ≤ unit && unit ≤ 0x46 then some (unit.toNat - 0x37)
  else none

/-- The unit that four hexadecimal digits stand for. -/
def escaped (a b c d : UInt16) : Option UInt16 := do
  let a ← hexValue a
  let b ← hexValue b
  let c ← hexValue c
  let d ← hexValue d
  some (.ofNat (a * 4096 + b * 256 + c * 16 + d))

/-- The unit that an escape of one letter stands for. -/
def escape (letter : UInt16) : Option UInt16 :=
  if letter = 0x22 then some 0x22
  else if letter = 0x5c then some 0x5c
  else if letter = 0x2f then some 0x2f
  else if letter = 0x62 then some 8
  else if letter = 0x66 then some 12
  else if letter = 0x6e then some 10
  else if letter = 0x72 then some 13
  else if letter = 0x74 then some 9
  else none

/-- A string behind its opening quote, and the text behind the closing one. -/
def string : Text → Option (Text × Text)
  | [] => none
  | unit :: rest =>
    if unit = 0x22 then some ([], rest)
    else if unit = 0x5c then
      match rest with
      | [] => none
      | letter :: rest =>
        if letter = 0x75 then
          match rest with
          | a :: b :: c :: d :: rest => do
            let unit ← escaped a b c d
            let (text, rest) ← string rest
            some (unit :: text, rest)
          | _ => none
        else do
          let unit ← escape letter
          let (text, rest) ← string rest
          some (unit :: text, rest)
    else if unit < 0x20 then none
    else do
      let (text, rest) ← string rest
      some (unit :: text, rest)

/-! ## Numbers -/

/-- A decimal digit. -/
def isDigit (unit : UInt16) : Bool := 0x30 ≤ unit && unit ≤ 0x39

/-- The number that digits stand for. -/
def natOf (digits : Text) : Nat :=
  digits.foldl (fun number unit => 10 * number + (unit.toNat - 0x30)) 0

/-- The digits that come next, at least one. -/
def digits (text : Text) : Option (Text × Text) :=
  if text.takeWhile isDigit = [] then none
  else some (text.takeWhile isDigit, text.dropWhile isDigit)

/-- The digits before the point: no leading zero. -/
def whole (text : Text) : Option (Text × Text) := do
  let (digits, rest) ← digits text
  if digits.head? = some 0x30 ∧ digits.length ≠ 1 then none else some (digits, rest)

/-- The digits behind the point. -/
def fraction (text : Text) : Option (Text × Text) :=
  match text with
  | unit :: rest => if unit = 0x2e then digits rest else some ([], text)
  | [] => some ([], [])

/-- The exponent. -/
def exponent (text : Text) : Option (Int × Text) :=
  match text with
  | unit :: rest =>
    if unit = 0x65 ∨ unit = 0x45 then
      match rest with
      | sign :: behind =>
        if sign = 0x2d then
          (digits behind).map fun (digits, rest) => (-(natOf digits : Int), rest)
        else if sign = 0x2b then (digits behind).map fun (digits, rest) => (natOf digits, rest)
        else (digits rest).map fun (digits, rest) => (natOf digits, rest)
      | [] => none
    else some (0, text)
  | [] => some (0, [])

/-- A number without a sign. -/
def magnitude (text : Text) : Option (ℚ × Text) := do
  let (whole, rest) ← whole text
  let (fraction, rest) ← fraction rest
  let (exponent, rest) ← exponent rest
  let scale := exponent - fraction.length
  some (mkRat (natOf (whole ++ fraction) * 10 ^ scale.toNat) (10 ^ (-scale).toNat), rest)

/-- A number. -/
def number (text : Text) : Option (ℚ × Text) :=
  match text with
  | unit :: rest =>
    if unit = 0x2d then (magnitude rest).map fun (value, rest) => (-value, rest)
    else magnitude text
  | [] => none

/-! ## Values -/

/-- The text behind a word that comes next. -/
def word (expected : Text) (text : Text) : Option Text :=
  if text.take expected.length = expected then some (text.drop expected.length) else none

/-- A value that is no string, array or object. -/
def simple (text : Text) : Option (Parsed × Text) :=
  match word (ascii "null") text with
  | some rest => some (.null, rest)
  | none =>
    match word (ascii "true") text with
    | some rest => some (.bool true, rest)
    | none =>
      match word (ascii "false") text with
      | some rest => some (.bool false, rest)
      | none => (number text).map fun (value, rest) => (.num value, rest)

section Lists

variable {α : Type}

/-- The items of a list behind one of them, up to the closing mark. -/
def more (close : UInt16) (item : Text → Option (α × Text)) :
    Nat → Text → Option (List α × Text)
  | 0, _ => none
  | count + 1, text =>
    match mark close text with
    | some rest => some ([], rest)
    | none => do
      let rest ← mark 0x2c text
      let (first, rest) ← item rest
      let (items, rest) ← more close item count rest
      some (first :: items, rest)

/-- The items of a list behind the opening mark. -/
def list (close : UInt16) (item : Text → Option (α × Text)) (count : Nat) (text : Text) :
    Option (List α × Text) :=
  match mark close text with
  | some rest => some ([], rest)
  | none => do
    let (first, rest) ← item text
    let (items, rest) ← more close item count rest
    some (first :: items, rest)

end Lists

/-- A member of an object. -/
def member (value : Text → Option (Parsed × Text)) (text : Text) :
    Option ((Text × Parsed) × Text) := do
  let rest ← mark 0x22 text
  let (key, rest) ← string rest
  let rest ← mark 0x3a rest
  let (value, rest) ← value rest
  some ((key, value), rest)

/-- A value and the text behind it. Every step to a smaller `fuel` has read a unit. -/
def value : Nat → Text → Option (Parsed × Text)
  | 0, _ => none
  | fuel + 1, text =>
    match mark 0x22 text with
    | some rest => (string rest).map fun (text, rest) => (.str text, rest)
    | none =>
      match mark 0x5b text with
      | some rest => (list 0x5d (value fuel) fuel rest).map fun (items, rest) => (.arr items, rest)
      | none =>
        match mark 0x7b text with
        | some rest =>
          (list 0x7d (member (value fuel)) fuel rest).map fun (members, rest) =>
            (.obj members, rest)
        | none => simple (skip text)

end Parse

/-- `JSON.parse`. -/
def parse (text : Text) : Option Parsed := do
  let (value, rest) ← Parse.value (text.length + 1) text
  if Parse.skip rest = [] then some value else none



/-! ## Strings are read back -/

variable (rest : Text) {unit : UInt16} {first : UInt16} (k : Int) {entry : String × Value}
  {point : Text} {v : Value}

namespace Parse

theorem hexValue_hexDigit : ∀ digit, digit < 16 →
    hexValue (UInt16.ofNat (hexDigit digit).toNat) = some digit := by
  decide

/-- Four hexadecimal digits of a unit stand for that unit. -/
theorem string_escapeUnit (unit : UInt16) (rest : Text) : string (escapeUnit unit ++ rest) =
      (string rest).map fun (text, rest) => (unit :: text, rest) := by
  have hlt := unit.toNat_lt
  have hescaped : escaped (UInt16.ofNat (hexDigit (unit.toNat / 4096)).toNat)
      (UInt16.ofNat (hexDigit (unit.toNat / 256 % 16)).toNat)
      (UInt16.ofNat (hexDigit (unit.toNat / 16 % 16)).toNat)
      (UInt16.ofNat (hexDigit (unit.toNat % 16)).toNat) = some unit := by
    unfold escaped
    rw [hexValue_hexDigit _ (by omega), hexValue_hexDigit _ (by omega),
      hexValue_hexDigit _ (by omega), hexValue_hexDigit _ (by omega)]
    have hunit : unit.toNat / 4096 * 4096 + unit.toNat / 256 % 16 * 256 +
        unit.toNat / 16 % 16 * 16 + unit.toNat % 16 = unit.toNat := by omega
    show some (UInt16.ofNat _) = some unit
    rw [hunit, UInt16.ofNat_toNat]
  have hbackslash : ascii "\\u" = [0x5c, 0x75] := by decide
  unfold escapeUnit
  rw [hbackslash]
  show string (0x5c :: 0x75 :: _ :: _ :: _ :: _ :: rest) = _
  rw [string.eq_def]
  show (if (0x5c : UInt16) = 0x22 then _ else if (0x5c : UInt16) = 0x5c then
    if (0x75 : UInt16) = 0x75 then _ else _ else _) = _
  rw [if_neg (by decide), if_pos rfl, if_pos rfl]
  show (do
    let unit ← escaped _ _ _ _
    let (text, rest) ← string rest
    some (unit :: text, rest)) = _
  rw [hescaped]
  cases string rest <;> rfl

/-- An escape of one letter. -/
theorem string_escape {letter unit : UInt16} (hletter : letter ≠ 0x75)
    (hescape : escape letter = some unit) (rest : Text) :
    string (0x5c :: letter :: rest) =
      (string rest).map fun (text, rest) => (unit :: text, rest) := by
  rw [string.eq_def]
  show (if (0x5c : UInt16) = 0x22 then _ else if (0x5c : UInt16) = 0x5c then
    if letter = 0x75 then _ else _ else _) = _
  rw [if_neg (by decide), if_pos rfl, if_neg hletter, hescape]
  cases string rest <;> rfl

/-- A unit that stands for itself. -/
theorem string_plain (hquote : unit ≠ 0x22) (hbackslash : unit ≠ 0x5c) (hcontrol : ¬ unit < 0x20)
    (rest : Text) :
    string (unit :: rest) = (string rest).map fun (text, rest) => (unit :: text, rest) := by
  rw [string.eq_def]
  show (if unit = 0x22 then _ else if unit = 0x5c then _ else if unit < 0x20 then _ else _) = _
  rw [if_neg hquote, if_neg hbackslash, if_neg hcontrol]
  cases string rest <;> rfl

theorem surrogate_ge (h : (isHigh unit || isLow unit) = true) :
    ¬ unit < 0x20 ∧ unit ≠ 0x22 ∧ unit ≠ 0x5c := by
  have hge : 0xd800 ≤ unit.toNat := by
    simp only [isHigh, isLow, Bool.or_eq_true, Bool.and_eq_true, decide_eq_true_eq,
      UInt16.le_iff_toNat_le, UInt16.lt_iff_toNat_lt] at h
    have hconst : (0xd800 : UInt16).toNat = 0xd800 ∧ (0xdc00 : UInt16).toNat = 0xdc00 :=
      ⟨rfl, rfl⟩
    omega
  refine ⟨fun hlt => ?_, fun heq => ?_, fun heq => ?_⟩
  · have := UInt16.lt_iff_toNat_lt.1 hlt
    have hconst : (0x20 : UInt16).toNat = 0x20 := rfl
    omega
  · rw [heq] at hge
    exact absurd hge (by decide)
  · rw [heq] at hge
    exact absurd hge (by decide)

/-- A code point is read back from what stands for it inside a string. -/
theorem string_quotePoint (h : IsPoint point) (rest : Text) : string (quotePoint point ++ rest) =
      (string rest).map fun (text, rest) => (point ++ text, rest) := by
  have hwords : ascii "\\\"" = [0x5c, 0x22] ∧ ascii "\\\\" = [0x5c, 0x5c] ∧
      ascii "\\b" = [0x5c, 0x62] ∧ ascii "\\t" = [0x5c, 0x74] ∧ ascii "\\n" = [0x5c, 0x6e] ∧
      ascii "\\f" = [0x5c, 0x66] ∧ ascii "\\r" = [0x5c, 0x72] := by
    decide
  obtain ⟨hquote, hbackslash, hb, ht, hn, hf, hr⟩ := hwords
  cases h with
  | pair first second hpair =>
    rw [Bool.and_eq_true] at hpair
    have hfirst : (isHigh first || isLow first) = true := by simp [hpair.1]
    have hsecond : (isHigh second || isLow second) = true := by simp [hpair.2]
    obtain ⟨hf1, hf2, hf3⟩ := surrogate_ge hfirst
    obtain ⟨hs1, hs2, hs3⟩ := surrogate_ge hsecond
    show string (first :: second :: rest) = _
    rw [string_plain hf2 hf3 hf1, string_plain hs2 hs3 hs1]
    cases string rest <;> rfl
  | unit unit =>
    -- one case for each branch of `quotePoint`
    rw [quotePoint]
    by_cases h1 : unit = 0x22
    · rw [if_pos h1, hquote, h1]
      exact string_escape (by decide) rfl rest
    by_cases h2 : unit = 0x5c
    · rw [if_neg h1, if_pos h2, hbackslash, h2]
      exact string_escape (by decide) rfl rest
    by_cases h3 : unit = 8
    · rw [if_neg h1, if_neg h2, if_pos h3, hb, h3]
      exact string_escape (by decide) rfl rest
    by_cases h4 : unit = 9
    · rw [if_neg h1, if_neg h2, if_neg h3, if_pos h4, ht, h4]
      exact string_escape (by decide) rfl rest
    by_cases h5 : unit = 10
    · rw [if_neg h1, if_neg h2, if_neg h3, if_neg h4, if_pos h5, hn, h5]
      exact string_escape (by decide) rfl rest
    by_cases h6 : unit = 12
    · rw [if_neg h1, if_neg h2, if_neg h3, if_neg h4, if_neg h5, if_pos h6, hf, h6]
      exact string_escape (by decide) rfl rest
    by_cases h7 : unit = 13
    · rw [if_neg h1, if_neg h2, if_neg h3, if_neg h4, if_neg h5, if_neg h6, if_pos h7, hr, h7]
      exact string_escape (by decide) rfl rest
    rw [if_neg h1, if_neg h2, if_neg h3, if_neg h4, if_neg h5, if_neg h6, if_neg h7]
    by_cases h8 : (decide (unit < 0x20) || isHigh unit || isLow unit) = true
    · rw [if_pos h8]
      exact string_escapeUnit unit rest
    · rw [if_neg h8]
      refine string_plain h1 h2 (fun hlt => h8 ?_) rest
      simp [hlt]

/-- A string is read back. -/
theorem string_quote (text rest : Text) :
    string ((codePoints text).flatMap quotePoint ++ 0x22 :: rest) = some (text, rest) := by
  have hpoints : ∀ points : List Text, (∀ point ∈ points, IsPoint point) →
      string (points.flatMap quotePoint ++ 0x22 :: rest) = some (points.flatten, rest) := by
    intro points hpoints
    induction points with
    | nil =>
      show string (0x22 :: rest) = _
      rw [string.eq_def]
      exact if_pos rfl
    | cons point points ih =>
      rw [List.flatMap_cons, List.append_assoc,
        string_quotePoint (hpoints point List.mem_cons_self),
        ih fun other hother => hpoints other (List.mem_cons_of_mem _ hother)]
      rfl
  rw [hpoints _ (isPoint_of_mem text), flatten_codePoints]

/-! ## Integers are read back -/

/-- What may follow a number. -/
def Stops (rest : Text) : Prop :=
  ∀ unit tail, rest = unit :: tail →
    isDigit unit = false ∧ unit ≠ 0x2e ∧ unit ≠ 0x65 ∧ unit ≠ 0x45

theorem stops_nil : Stops [] := fun _ _ h => by cases h

theorem stops_cons {tail : Text} (hdigit : isDigit unit = false)
    (hother : unit ≠ 0x2e ∧ unit ≠ 0x65 ∧ unit ≠ 0x45) : Stops (unit :: tail) := by
  intro unit' tail' h
  obtain ⟨rfl, rfl⟩ := List.cons.inj h
  exact ⟨hdigit, hother⟩

/-- The digits of a number. -/
def decimal (n : Nat) : Text := (Nat.toDigits 10 n).map fun c => UInt16.ofNat c.toNat

theorem toNat_of_isDigit {c : Char} (h : c.isDigit = true) :
    48 ≤ c.toNat ∧ c.toNat ≤ 57 ∧ (UInt16.ofNat c.toNat).toNat = c.toNat := by
  have hbounds : 48 ≤ c.toNat ∧ c.toNat ≤ 57 := Char.isDigit_iff_toNat.1 h
  refine ⟨hbounds.1, hbounds.2, ?_⟩
  rw [UInt16.toNat_ofNat']
  omega

theorem isDigit_decimal {n : Nat} (h : unit ∈ decimal n) : isDigit unit = true := by
  obtain ⟨c, hc, rfl⟩ := List.mem_map.1 h
  obtain ⟨_, _, _⟩ :=
    toNat_of_isDigit (Nat.isDigit_of_mem_toDigits (by decide) (by decide) hc)
  have hconst : (0x30 : UInt16).toNat = 48 ∧ (0x39 : UInt16).toNat = 57 := ⟨rfl, rfl⟩
  simp only [isDigit, Bool.and_eq_true, decide_eq_true_eq, UInt16.le_iff_toNat_le]
  omega

variable (n : Nat)

theorem decimal_ne_nil : decimal n ≠ [] := by
  simp [decimal, Nat.toDigits_ne_nil]

theorem natOf_decimal : natOf (decimal n) = n := by
  have hfold : ∀ (chars : List Char) (start : Nat), (∀ c ∈ chars, c.isDigit = true) →
      (chars.map fun c => UInt16.ofNat c.toNat).foldl
        (fun number unit => 10 * number + (unit.toNat - 0x30)) start =
        Nat.ofDigitChars 10 chars start := by
    intro chars
    induction chars with
    | nil => exact fun start _ => Nat.ofDigitChars_nil.symm
    | cons c chars ih =>
      intro start hchars
      have hc := (toNat_of_isDigit (hchars c List.mem_cons_self)).2.2
      rw [Nat.ofDigitChars_cons, List.map_cons, List.foldl_cons, hc]
      exact ih _ fun other hother => hchars other (List.mem_cons_of_mem _ hother)
  have hdigits := hfold (Nat.toDigits 10 n) 0
    fun c hc => Nat.isDigit_of_mem_toDigits (by decide) (by decide) hc
  exact hdigits.trans Nat.ofDigitChars_ten_toDigits

/-- Only zero starts with a zero. -/
theorem head_toDigits {n : Nat} (hpos : 0 < n) : (Nat.toDigits 10 n).head? ≠ some '0' := by
  induction n using Nat.strong_induction_on with
  | _ n ih =>
    by_cases hsmall : n < 10
    · rw [Nat.toDigits_of_lt_base hsmall]
      have hdigit : ∀ digit, digit < 10 → 0 < digit →
          [Nat.digitChar digit].head? ≠ some '0' := by
        decide
      exact hdigit n hsmall hpos
    · have hmore : Nat.toDigits 10 n = Nat.toDigits 10 (n / 10) ++ [Nat.digitChar (n % 10)] :=
        Nat.toDigits_of_base_le (by decide) (by omega)
      rw [hmore, List.head?_append_of_ne_nil _ Nat.toDigits_ne_nil]
      exact ih (n / 10) (by omega) (by omega)

theorem head_decimal {n : Nat} (h : (decimal n).head? = some 0x30) : (decimal n).length = 1 := by
  cases n with
  | zero => rfl
  | succ n =>
    obtain ⟨c, _, hdigits⟩ := List.exists_cons_of_ne_nil
      (Nat.toDigits_ne_nil (b := 10) (n := n + 1))
    have hc : c.isDigit = true := Nat.isDigit_of_mem_toDigits (b := 10) (n := n + 1) (by decide)
      (by decide) (by rw [hdigits]; exact List.mem_cons_self)
    have hunit : UInt16.ofNat c.toNat = 0x30 := by
      rw [decimal, hdigits] at h
      exact Option.some.inj h
    have htoNat : c.toNat = 48 := by
      rw [← (toNat_of_isDigit hc).2.2, hunit]
      rfl
    have hzero : c = '0' := Char.toNat_inj.1 htoNat
    exact absurd (by rw [hdigits, hzero]; rfl) (head_toDigits (Nat.succ_pos n))

/-- Digits are read up to what follows them. -/
theorem digits_append {units rest : Text} (hne : units ≠ [])
    (hunits : ∀ unit ∈ units, isDigit unit = true)
    (hrest : ∀ unit tail, rest = unit :: tail → isDigit unit = false) :
    digits (units ++ rest) = some (units, rest) := by
  have htake : (units ++ rest).takeWhile isDigit = units := by
    rw [List.takeWhile_append_of_pos hunits]
    cases rest with
    | nil => simp
    | cons unit tail => simp [hrest unit tail rfl]
  have hdrop : (units ++ rest).dropWhile isDigit = rest := by
    rw [List.dropWhile_append_of_pos hunits]
    cases rest with
    | nil => rfl
    | cons unit tail => simp [hrest unit tail rfl]
  rw [digits, htake, hdrop, if_neg hne]

theorem magnitude_decimal {rest : Text} (hrest : Stops rest) :
    magnitude (decimal n ++ rest) = some ((n : ℚ), rest) := by
  have hdigits : digits (decimal n ++ rest) = some (decimal n, rest) :=
    digits_append (decimal_ne_nil n) (fun _ => isDigit_decimal)
      fun unit tail h => (hrest unit tail h).1
  have hwhole : whole (decimal n ++ rest) = some (decimal n, rest) := by
    rw [whole, hdigits]
    exact if_neg fun h => h.2 (head_decimal h.1)
  have hfraction : fraction rest = some ([], rest) := by
    cases rest with
    | nil => rfl
    | cons unit tail => exact if_neg (hrest unit tail rfl).2.1
  have hexponent : exponent rest = some (0, rest) := by
    cases rest with
    | nil => rfl
    | cons unit tail =>
      exact if_neg fun h => h.elim (hrest unit tail rfl).2.2.1 (hrest unit tail rfl).2.2.2
  simp only [magnitude, hwhole, hfraction, hexponent, Option.bind_eq_bind, Option.bind_some]
  show some (mkRat ((natOf (decimal n ++ []) * 10 ^ 0 : Nat) : Int) (10 ^ 0), rest) = _
  rw [List.append_nil, natOf_decimal]
  simp [Rat.mkRat_one]

theorem ascii_ofNat : ascii (Numeral.ofNat n).text = decimal n := by
  rw [ascii, Numeral.ofNat_text, decimal]

/-- An integer is read back from its numeral. -/
theorem number_ofInt {rest : Text} (hrest : Stops rest) :
    number (ascii (Numeral.ofInt k).text ++ rest) = some ((k : ℚ), rest) := by
  cases k with
  | ofNat n =>
    show number (ascii (Numeral.ofNat n).text ++ rest) = _
    obtain ⟨unit, _, hunits⟩ := List.exists_cons_of_ne_nil (decimal_ne_nil n)
    have hmagnitude := magnitude_decimal n hrest
    have hmem : unit ∈ decimal n := hunits ▸ List.mem_cons_self
    have hminus : unit ≠ 0x2d := fun heq => by
      have hdigit := isDigit_decimal hmem
      rw [heq] at hdigit
      exact absurd hdigit (by decide)
    rw [ascii_ofNat, hunits]
    rw [hunits] at hmagnitude
    exact (if_neg hminus).trans hmagnitude
  | negSucc n =>
    have htext : ascii (Numeral.ofInt (.negSucc n)).text = 0x2d :: decimal (n + 1) := by
      rw [← ascii_ofNat]
      simp [Numeral.ofInt, ascii]
    rw [htext]
    show (magnitude (decimal (n + 1) ++ rest)).map _ = _
    rw [magnitude_decimal (n + 1) hrest]
    rw [Int.cast_negSucc]
    rfl

end Parse

/-! ## Values are read back -/

namespace Parse

/-- The number that a numeral stands for. -/
def numeral (value : Numeral) : ℚ :=
  match number (ascii value.text) with
  | some (number, _) => number
  | none => 0

theorem numeral_ofInt : numeral (.ofInt k) = k := by
  have hnumber := number_ofInt k stops_nil
  rw [List.append_nil] at hnumber
  rw [numeral, hnumber]

end Parse

namespace Value

mutual

/-- The value that is read back. -/
def parsed : Value → Parsed
  | null => .null
  | bool value => .bool value
  | num value => .num (Parse.numeral value)
  | str value => .str value
  | arr items => .arr (parsedItems items)
  | obj members => .obj (parsedMembers members)

/-- The items of an array. -/
def parsedItems : List Value → List Parsed
  | [] => []
  | item :: rest => item.parsed :: parsedItems rest

/-- The members of an object. -/
def parsedMembers : List (String × Value) → List (Text × Parsed)
  | [] => []
  | (key, value) :: rest => (ascii key, value.parsed) :: parsedMembers rest

end

mutual

/-- All numbers are integers. -/
def Integral : Value → Prop
  | num value => ∃ k, value = Numeral.ofInt k
  | arr items => IntegralItems items
  | obj members => IntegralMembers members
  | _ => True

/-- All numbers in the items of an array are integers. -/
def IntegralItems : List Value → Prop
  | [] => True
  | item :: rest => item.Integral ∧ IntegralItems rest

/-- All numbers in the members of an object are integers. -/
def IntegralMembers : List (String × Value) → Prop
  | [] => True
  | (_, value) :: rest => value.Integral ∧ IntegralMembers rest

end

end Value

namespace Parse

theorem skip_cons (h : isSpace unit = false) : skip (unit :: rest) = unit :: rest := by
  simp [skip, h]

theorem mark_self (h : isSpace unit = false) : mark unit (unit :: rest) = some rest := by
  rw [mark, skip_cons rest h]
  exact if_pos rfl

theorem mark_ne {unit first : UInt16} (h : isSpace first = false) (hne : first ≠ unit) :
    mark unit (first :: rest) = none := by
  rw [mark, skip_cons rest h]
  exact if_neg hne

theorem word_append (expected rest : Text) : word expected (expected ++ rest) = some rest := by
  simp [word]

theorem word_ne {expected text : Text} {first unit : UInt16} {behind rest : Text}
    (hexpected : expected = first :: behind) (htext : text = unit :: rest) (hne : unit ≠ first) :
    word expected text = none := by
  subst hexpected
  subst htext
  exact if_neg fun h => hne (List.cons.inj h).1

/-- The numeral of an integer starts with a digit or a minus sign. -/
theorem head_ofInt : ∃ first rest,
    ascii (Numeral.ofInt k).text = first :: rest ∧ (isDigit first = true ∨ first = 0x2d) := by
  cases k with
  | ofNat n =>
    obtain ⟨first, rest, hunits⟩ := List.exists_cons_of_ne_nil (decimal_ne_nil n)
    refine ⟨first, rest, (ascii_ofNat n).trans hunits, .inl ?_⟩
    exact isDigit_decimal (n := n) (by rw [hunits]; exact List.mem_cons_self)
  | negSucc n =>
    refine ⟨0x2d, decimal (n + 1), ?_, .inr rfl⟩
    rw [← ascii_ofNat]
    simp [Numeral.ofInt, ascii]

/-- A digit or a minus sign is none of the units that start another value. -/
theorem ne_of_digit {first unit : UInt16} (h : isDigit first = true ∨ first = 0x2d)
    (hunit : isDigit unit = false ∧ unit ≠ 0x2d) : first ≠ unit := by
  rintro rfl
  cases h with
  | inl hdigit => exact Bool.false_ne_true (hunit.1.symm.trans hdigit)
  | inr hminus => exact hunit.2 hminus

theorem isSpace_of_digit (h : isDigit first = true ∨ first = 0x2d) : isSpace first = false := by
  have h20 : first ≠ 0x20 := ne_of_digit h (by decide)
  have h9 : first ≠ 9 := ne_of_digit h (by decide)
  have h10 : first ≠ 10 := ne_of_digit h (by decide)
  have h13 : first ≠ 13 := ne_of_digit h (by decide)
  simp [isSpace, h20, h9, h10, h13]

/-- The first unit of a value is neither white space nor a closing bracket. -/
theorem head_stringify (h : v.Integral) : ∃ first rest,
    v.stringify = first :: rest ∧ isSpace first = false ∧ first ≠ 0x5d := by
  cases v with
  | null => exact ⟨0x6e, _, rfl, by decide, by decide⟩
  | bool value => cases value <;> exact ⟨_, _, rfl, by decide, by decide⟩
  | num value =>
    obtain ⟨k, rfl⟩ : ∃ k, value = Numeral.ofInt k := h
    obtain ⟨first, rest, htext, hfirst⟩ := head_ofInt k
    exact ⟨first, rest, htext, isSpace_of_digit hfirst, ne_of_digit hfirst (by decide)⟩
  | str value => exact ⟨0x22, _, rfl, by decide, by decide⟩
  | arr items => exact ⟨0x5b, _, rfl, by decide, by decide⟩
  | obj members => exact ⟨0x7b, _, rfl, by decide, by decide⟩

variable {α β : Type} {item : Text → Option (α × Text)} {read : β → α} {close : UInt16}

/-- A list that was written is read back when each of its items is. -/
theorem more_append {write : β → Text} {written : List β → Text}
    (hclose : isSpace close = false ∧ close ≠ 0x2c) (hnil : written [] = [close])
    (hcons : ∀ first rest, written (first :: rest) = 0x2c :: (write first ++ written rest))
    (entries : List β) (rest : Text) (count : Nat) (hcount : (written entries).length ≤ count)
    (hitem : ∀ entry ∈ entries, ∀ behind,
      item (write entry ++ (written behind ++ rest)) = some (read entry, written behind ++ rest)) :
    more close item count (written entries ++ rest) = some (entries.map read, rest) := by
  induction entries generalizing count with
  | nil =>
    rw [hnil] at hcount ⊢
    obtain ⟨count, rfl⟩ : ∃ before, count = before + 1 :=
      ⟨count - 1, by simp only [List.length_singleton] at hcount; omega⟩
    show more close item (count + 1) (close :: rest) = _
    rw [more, mark_self rest hclose.1]
    rfl
  | cons first entries ih =>
    rw [hcons] at hcount ⊢
    simp only [List.length_cons, List.length_append] at hcount
    obtain ⟨count, rfl⟩ : ∃ before, count = before + 1 := ⟨count - 1, by omega⟩
    have hrest := ih count (by omega) fun entry hentry =>
      hitem entry (List.mem_cons_of_mem _ hentry)
    show more close item (count + 1) (0x2c :: (write first ++ written entries ++ rest)) = _
    rw [more, mark_ne _ (by decide) (Ne.symm hclose.2), mark_self _ (by decide), List.append_assoc]
    show (do
      let (first, rest) ← item _
      let (items, rest) ← more close item count rest
      some (first :: items, rest)) = _
    rw [hitem first List.mem_cons_self entries]
    show (do
      let (items, rest) ← more close item count _
      some (read first :: items, rest)) = _
    rw [hrest]
    rfl

/-- A list behind its opening mark is read back when each of its items is. -/
theorem list_append (write : β → Text) (written all : List β → Text)
    (hclose : isSpace close = false ∧ close ≠ 0x2c) (hnil : written [] = [close])
    (hcons : ∀ first rest, written (first :: rest) = 0x2c :: (write first ++ written rest))
    (hall : all [] = [close] ∧ ∀ first rest, all (first :: rest) = write first ++ written rest)
    (entries : List β) (rest : Text) (count : Nat) (hcount : (all entries).length ≤ count)
    (hitem : ∀ entry ∈ entries, ∀ behind,
      item (write entry ++ (written behind ++ rest)) = some (read entry, written behind ++ rest) ∧
        ∃ unit tail, write entry = unit :: tail ∧ isSpace unit = false ∧ unit ≠ close) :
    list close item count (all entries ++ rest) = some (entries.map read, rest) := by
  cases entries with
  | nil =>
    rw [hall.1]
    show list close item count (close :: rest) = _
    rw [list, mark_self rest hclose.1]
    rfl
  | cons first entries =>
    rw [hall.2] at hcount ⊢
    rw [List.length_append] at hcount
    obtain ⟨hfirst, _, _, hwrite, hspace, hne⟩ := hitem first List.mem_cons_self entries
    have hmark : mark close (write first ++ (written entries ++ rest)) = none := by
      rw [hwrite]
      exact mark_ne _ hspace hne
    have hmore := more_append hclose hnil hcons entries rest count (by omega)
      fun entry hentry behind => (hitem entry (List.mem_cons_of_mem _ hentry) behind).1
    rw [List.append_assoc, list, hmark]
    show (do
      let (first, rest) ← item _
      let (items, rest) ← more close item count rest
      some (first :: items, rest)) = _
    rw [hfirst]
    show (do
      let (items, rest) ← more close item count _
      some (read first :: items, rest)) = _
    rw [hmore]
    rfl

end Parse

namespace Value

theorem parsedItems_eq (items : List Value) : parsedItems items = items.map parsed := by
  induction items with
  | nil => rfl
  | cons item items ih => exact congrArg (item.parsed :: ·) ih

theorem parsedMembers_eq (members : List (String × Value)) :
    parsedMembers members = members.map fun entry => (ascii entry.1, entry.2.parsed) := by
  induction members with
  | nil => rfl
  | cons first members ih => exact congrArg ((ascii first.1, first.2.parsed) :: ·) ih

variable {members : List (String × Value)} {items : List Value}

theorem integralItems_iff : IntegralItems items ↔ ∀ item ∈ items, item.Integral := by
  induction items with
  | nil => exact ⟨fun _ _ hmem => absurd hmem List.not_mem_nil, fun _ => trivial⟩
  | cons first items ih =>
    rw [List.forall_mem_cons, ← ih]
    exact Iff.rfl

theorem integralMembers_iff : IntegralMembers members ↔ ∀ entry ∈ members, entry.2.Integral := by
  induction members with
  | nil => exact ⟨fun _ _ hmem => absurd hmem List.not_mem_nil, fun _ => trivial⟩
  | cons first members ih =>
    rw [List.forall_mem_cons, ← ih]
    exact Iff.rfl

/-- A member of an object as it is written. -/
def stringifyMember (entry : String × Value) : Text :=
  quote (ascii entry.1) ++ 0x3a :: entry.2.stringify

theorem length_item_lt {item : Value} (h : item ∈ items) :
    item.stringify.length < (arr items).stringify.length := by
  have hmore : ∀ {items : List Value}, item ∈ items →
      item.stringify.length < (stringifyMoreItems items).length := by
    intro items hmem
    induction items with
    | nil => exact absurd hmem List.not_mem_nil
    | cons first items ih =>
      show _ < (0x2c :: (first.stringify ++ stringifyMoreItems items)).length
      rw [List.length_cons, List.length_append]
      rcases List.mem_cons.1 hmem with rfl | hrest
      · omega
      · have := ih hrest
        omega
  cases items with
  | nil => exact absurd h List.not_mem_nil
  | cons first items =>
    show _ < (0x5b :: (first.stringify ++ stringifyMoreItems items)).length
    rw [List.length_cons, List.length_append]
    rcases List.mem_cons.1 h with rfl | hrest
    · omega
    · have := hmore hrest
      omega

theorem length_member_lt (h : entry ∈ members) :
    entry.2.stringify.length < (obj members).stringify.length := by
  have hmore : ∀ {members : List (String × Value)}, entry ∈ members →
      entry.2.stringify.length < (stringifyMoreMembers members).length := by
    intro members hmem
    induction members with
    | nil => exact absurd hmem List.not_mem_nil
    | cons first members ih =>
      obtain ⟨key, value⟩ := first
      show entry.2.stringify.length < (0x2c :: (quote (ascii key) ++ 0x3a ::
        (value.stringify ++ stringifyMoreMembers members))).length
      rw [List.length_cons, List.length_append, List.length_cons, List.length_append]
      rcases List.mem_cons.1 hmem with rfl | hrest
      · show value.stringify.length < _
        omega
      · have := ih hrest
        omega
  cases members with
  | nil => exact absurd h List.not_mem_nil
  | cons first members =>
    obtain ⟨key, value⟩ := first
    show entry.2.stringify.length < (0x7b :: (quote (ascii key) ++ 0x3a ::
      (value.stringify ++ stringifyMoreMembers members))).length
    rw [List.length_cons, List.length_append, List.length_cons, List.length_append]
    rcases List.mem_cons.1 h with rfl | hrest
    · show value.stringify.length < _
      omega
    · have := hmore hrest
      omega

end Value

namespace Parse

open Value

theorem stops_moreItems (items : List Value) (rest : Text) :
    Stops (stringifyMoreItems items ++ rest) := by
  cases items with
  | nil => exact stops_cons (by decide) (by decide)
  | cons => exact stops_cons (by decide) (by decide)

theorem stops_moreMembers (members : List (String × Value)) (rest : Text) :
    Stops (stringifyMoreMembers members ++ rest) := by
  cases members with
  | nil => exact stops_cons (by decide) (by decide)
  | cons => exact stops_cons (by decide) (by decide)

theorem quote_append (text rest : Text) :
    quote text ++ rest = 0x22 :: ((codePoints text).flatMap quotePoint ++ 0x22 :: rest) := by
  simp [quote]

variable {fuel : Nat}

/-- A member is read back when its value is. -/
theorem member_append {rest : Text}
    (h : value fuel (entry.2.stringify ++ rest) = some (entry.2.parsed, rest)) :
    member (value fuel) (stringifyMember entry ++ rest) =
      some ((ascii entry.1, entry.2.parsed), rest) := by
  rw [stringifyMember, List.append_assoc, quote_append]
  show (do
    let rest ← mark 0x22 (0x22 :: _)
    let (key, rest) ← string rest
    let rest ← mark 0x3a rest
    let (value, rest) ← value fuel rest
    some ((key, value), rest)) = _
  rw [mark_self _ (by decide)]
  show (do
    let (key, rest) ← string (_ ++ 0x22 :: (0x3a :: (entry.2.stringify ++ rest)))
    let rest ← mark 0x3a rest
    let (value, rest) ← value fuel rest
    some ((key, value), rest)) = _
  rw [string_quote]
  show (do
    let rest ← mark 0x3a (0x3a :: _)
    let (value, rest) ← value fuel rest
    some ((ascii entry.1, value), rest)) = _
  rw [mark_self _ (by decide)]
  show (do
    let (value, rest) ← value fuel _
    some ((ascii entry.1, value), rest)) = _
  rw [h]
  rfl

/-- What starts with no quote and no opening bracket or brace is no string, array or object. -/
theorem value_simple (hspace : isSpace first = false)
    (hne : first ≠ 0x22 ∧ first ≠ 0x5b ∧ first ≠ 0x7b) :
    value (fuel + 1) (first :: rest) = simple (first :: rest) := by
  rw [value, mark_ne _ hspace hne.1, mark_ne _ hspace hne.2.1, mark_ne _ hspace hne.2.2,
    skip_cons _ hspace]

theorem ascii_null : ascii "null" = 0x6e :: ascii "ull" := by decide

theorem ascii_true : ascii "true" = 0x74 :: ascii "rue" := by decide

theorem ascii_false : ascii "false" = 0x66 :: ascii "alse" := by decide

/-- A word is read back. -/
theorem value_word {text behind rest : Text} {parsed : Parsed} (htext : text = first :: behind)
    (hfirst : isSpace first = false ∧ first ≠ 0x22 ∧ first ≠ 0x5b ∧ first ≠ 0x7b)
    (hsimple : simple (text ++ rest) = some (parsed, rest)) :
    value (fuel + 1) (text ++ rest) = some (parsed, rest) := by
  subst htext
  exact (value_simple _ hfirst.1 hfirst.2).trans hsimple

/-- The numeral of an integer is read back. -/
theorem value_ofInt (fuel : Nat) {rest : Text} (hrest : Stops rest) :
    value (fuel + 1) (ascii (Numeral.ofInt k).text ++ rest) = some (.num k, rest) := by
  obtain ⟨first, tail, htext, hfirst⟩ := head_ofInt k
  have hnumber := number_ofInt k hrest
  refine value_word htext ⟨isSpace_of_digit hfirst, ne_of_digit hfirst (by decide),
    ne_of_digit hfirst (by decide), ne_of_digit hfirst (by decide)⟩ ?_
  rw [htext] at hnumber ⊢
  have hword : ∀ {expected behind : Text} {unit : UInt16}, expected = unit :: behind →
      isDigit unit = false ∧ unit ≠ 0x2d → word expected (first :: tail ++ rest) = none :=
    fun hexpected hunit => word_ne hexpected rfl (ne_of_digit hfirst hunit)
  rw [simple, hword ascii_null (by decide), hword ascii_true (by decide),
    hword ascii_false (by decide), hnumber]
  rfl

/-- What is written for a value is read back. -/
theorem value_stringify (h : v.Integral) {rest : Text} (hrest : Stops rest)
    (hfuel : v.stringify.length < fuel) :
    value fuel (v.stringify ++ rest) = some (v.parsed, rest) := by
  induction fuel generalizing v rest with
  | zero => exact absurd hfuel (Nat.not_lt_zero _)
  | succ fuel ih =>
    match v with
    | null =>
      show value (fuel + 1) (ascii "null" ++ rest) = some (.null, rest)
      refine value_word ascii_null (by decide) ?_
      rw [simple, word_append]
    | .bool true =>
      have hcons : ascii "true" ++ rest = 0x74 :: (ascii "rue" ++ rest) := by
        rw [ascii_true]
        rfl
      show value (fuel + 1) (ascii "true" ++ rest) = some (.bool true, rest)
      refine value_word ascii_true (by decide) ?_
      rw [simple, word_ne ascii_null hcons (by decide), word_append]
    | .bool false =>
      have hcons : ascii "false" ++ rest = 0x66 :: (ascii "alse" ++ rest) := by
        rw [ascii_false]
        rfl
      show value (fuel + 1) (ascii "false" ++ rest) = some (.bool false, rest)
      refine value_word ascii_false (by decide) ?_
      rw [simple, word_ne ascii_null hcons (by decide), word_ne ascii_true hcons (by decide),
        word_append]
    | num n =>
      obtain ⟨k, rfl⟩ : ∃ k, n = Numeral.ofInt k := h
      exact (value_ofInt k fuel hrest).trans (by rw [Value.parsed, numeral_ofInt])
    | str text =>
      show value (fuel + 1) (quote text ++ rest) = _
      rw [quote_append, value, mark_self _ (by decide)]
      show (string _).map _ = _
      rw [string_quote]
      rfl
    | arr entries =>
      have hlength := Nat.lt_succ_iff.1 hfuel
      have hitems : list 0x5d (value fuel) fuel (stringifyItems entries ++ rest) =
          some (entries.map parsed, rest) := by
        refine list_append stringify stringifyMoreItems stringifyItems (by decide) rfl
          (fun _ _ => rfl) ⟨rfl, fun _ _ => rfl⟩ entries rest fuel
          (Nat.le_of_succ_le hlength) fun entry hentry behind =>
            ⟨?_, head_stringify (integralItems_iff.1 h entry hentry)⟩
        exact ih (integralItems_iff.1 h entry hentry) (stops_moreItems behind rest)
          (lt_of_lt_of_le (length_item_lt hentry) hlength)
      show value (fuel + 1) (0x5b :: (stringifyItems entries ++ rest)) = _
      rw [value, mark_ne _ (by decide) (by decide), mark_self _ (by decide)]
      show (list 0x5d (value fuel) fuel _).map _ = _
      rw [hitems, Value.parsed, parsedItems_eq]
      rfl
    | obj entries =>
      have hlength := Nat.lt_succ_iff.1 hfuel
      have hmembers : list 0x7d (member (value fuel)) fuel (stringifyMembers entries ++ rest) =
          some (entries.map fun entry => (ascii entry.1, entry.2.parsed), rest) := by
        refine list_append stringifyMember stringifyMoreMembers stringifyMembers (by decide)
          rfl (fun first behind => by simp [stringifyMember, stringifyMoreMembers])
          ⟨rfl, fun first behind => by simp [stringifyMember, stringifyMembers]⟩ entries rest
          fuel (Nat.le_of_succ_le hlength) fun entry hentry behind =>
            ⟨member_append ?_, 0x22, _, rfl, by decide, by decide⟩
        exact ih (integralMembers_iff.1 h entry hentry)
          (stops_moreMembers behind rest) (lt_of_lt_of_le (length_member_lt hentry) hlength)
      show value (fuel + 1) (0x7b :: (stringifyMembers entries ++ rest)) = _
      rw [value, mark_ne _ (by decide) (by decide), mark_ne _ (by decide) (by decide),
        mark_self _ (by decide)]
      show (list 0x7d (member (value fuel)) fuel _).map _ = _
      rw [hmembers, Value.parsed, parsedMembers_eq]
      rfl

end Parse

/-- A value whose numbers are integers is read back from its text. -/
theorem parse_stringify {value : Value} (h : value.Integral) :
    parse value.stringify = some value.parsed := by
  have hvalue := Parse.value_stringify h Parse.stops_nil (Nat.lt_succ_self _)
  rw [List.append_nil] at hvalue
  rw [parse, hvalue]
  rfl

/-! ## The text is well-formed -/

open Utf8

theorem isWellFormed_quotePoint (h : IsPoint point) : isWellFormed (quotePoint point) = true := by
  cases h with
  | pair first second hpair =>
    show (codePoints [first, second]).all isPaired = true
    rw [codePoints, if_pos hpair]
    rfl
  | unit unit =>
    rw [quotePoint]
    split
    · decide
    split
    · decide
    split
    · decide
    split
    · decide
    split
    · decide
    split
    · decide
    split
    · decide
    split
    · have hdigit : ∀ digit, digit < 16 →
          (isHigh (UInt16.ofNat (hexDigit digit).toNat) ||
            isLow (UInt16.ofNat (hexDigit digit).toNat)) = false := by
        decide
      have hlt := unit.toNat_lt
      refine isWellFormed_append (by decide) ?_
      exact isWellFormed_cons (hdigit _ (by omega)) (isWellFormed_cons (hdigit _ (by omega))
        (isWellFormed_cons (hdigit _ (by omega)) (isWellFormed_cons (hdigit _ (by omega)) rfl)))
    · next hplain =>
        refine isWellFormed_cons ?_ rfl
        simp only [Bool.or_eq_true, not_or, Bool.not_eq_true] at hplain
        simp [hplain.1.2, hplain.2]

theorem isWellFormed_quote (text : Text) : isWellFormed (quote text) = true :=
  isWellFormed_cons (by decide) (isWellFormed_append
    (isWellFormed_flatMap fun point hpoint =>
      isWellFormed_quotePoint (isPoint_of_mem text point hpoint)) (by decide))

theorem isWellFormed_numeral (value : Numeral) : isWellFormed (ascii value.text) = true := by
  refine isWellFormed_of_all fun unit hunit => ?_
  obtain ⟨c, hc, rfl⟩ := List.mem_map.1 hunit
  have hnumeral := List.all_eq_true.1 value.wf.2 c hc
  have hsmall : c.toNat < 0x80 := by
    simp only [isNumeralChar, Bool.or_eq_true, beq_iff_eq] at hnumeral
    rcases hnumeral with (((hdigit | rfl) | rfl) | rfl) | rfl
    · have := (Parse.toNat_of_isDigit hdigit).2.1
      omega
    all_goals decide
  have htoNat : (UInt16.ofNat c.toNat).toNat = c.toNat := by
    rw [UInt16.toNat_ofNat']
    omega
  have hconst : (0xd800 : UInt16).toNat = 0xd800 ∧ (0xdc00 : UInt16).toNat = 0xdc00 := ⟨rfl, rfl⟩
  simp only [isHigh, isLow, UInt16.le_iff_toNat_le, htoNat, Bool.or_eq_false_iff,
    Bool.and_eq_false_iff, decide_eq_false_iff_not]
  omega

namespace Value

mutual

/-- Unpaired surrogates are escaped. -/
theorem isWellFormed_stringify : ∀ value : Value, isWellFormed value.stringify = true
  | null => by decide
  | bool true => by decide
  | bool false => by decide
  | num value => isWellFormed_numeral value
  | str value => isWellFormed_quote value
  | arr items => isWellFormed_cons (by decide) (isWellFormed_items items)
  | obj members => isWellFormed_cons (by decide) (isWellFormed_members members)

private theorem isWellFormed_items : ∀ items, isWellFormed (stringifyItems items) = true
  | [] => by decide
  | item :: rest => isWellFormed_append (isWellFormed_stringify item) (isWellFormed_moreItems rest)

private theorem isWellFormed_moreItems : ∀ items, isWellFormed (stringifyMoreItems items) = true
  | [] => by decide
  | item :: rest =>
    isWellFormed_cons (by decide)
      (isWellFormed_append (isWellFormed_stringify item) (isWellFormed_moreItems rest))

private theorem isWellFormed_members : ∀ members,
    isWellFormed (stringifyMembers members) = true
  | [] => by decide
  | (key, value) :: rest =>
    isWellFormed_append (isWellFormed_quote (ascii key)) (isWellFormed_cons (by decide)
      (isWellFormed_append (isWellFormed_stringify value) (isWellFormed_moreMembers rest)))

private theorem isWellFormed_moreMembers : ∀ members,
    isWellFormed (stringifyMoreMembers members) = true
  | [] => by decide
  | (key, value) :: rest =>
    isWellFormed_cons (by decide) (isWellFormed_append (isWellFormed_quote (ascii key))
      (isWellFormed_cons (by decide)
        (isWellFormed_append (isWellFormed_stringify value) (isWellFormed_moreMembers rest))))

end

end Value

end Utf16
