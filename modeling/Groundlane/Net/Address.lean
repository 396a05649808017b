import Mathlib.Data.List.Basic
import Mathlib.Data.List.TakeWhile
import Mathlib.Tactic.Common
import Mathlib.Algebra.GroupWithZero.Nat

/-!
# Texts of IP addresses

The texts of IPv4 and IPv6 addresses and the numbers they stand for: dotted decimals, groups of
hexadecimal digits with at most one gap, the two combined, and zones. Every number of 32 bits has
a text (`readIPv4_writeIPv4`). A subnet is the set of numbers that share its leading bits, and
several schemes embed an IPv4 address in an IPv6 one (`Embeds`).
-/

namespace Net

/-- The value of digits in a base. -/
def digitsValue (base : Nat) (value : Char → Nat) (digits : List Char) : Nat :=
  digits.foldl (fun sum digit => sum * base + value digit) 0

def decimalValue (c : Char) : Nat := c.toNat - 48

/-- A number from 0 to 255 without leading zeros. -/
def readOctet (digits : List Char) : Option Nat :=
  if digits ≠ [] ∧ digits.length ≤ 3 ∧ digits.all Char.isDigit = true ∧
      (digits.length = 1 ∨ digits.head? ≠ some '0') ∧ digitsValue 10 decimalValue digits ≤ 255 then
    some (digitsValue 10 decimalValue digits)
  else none

/-- Four numbers between dots. -/
def readIPv4 (text : String) : Option Nat :=
  match (text.toList.splitOn '.').mapM readOctet with
  | some [a, b, c, d] => some (((a * 256 + b) * 256 + c) * 256 + d)
  | _ => none

def isHexDigit (c : Char) : Bool :=
  c.isDigit || ('a' ≤ c && c ≤ 'f') || ('A' ≤ c && c ≤ 'F')

def hexValue (c : Char) : Nat :=
  if c.isDigit then c.toNat - 48 else if 'a' ≤ c then c.toNat - 87 else c.toNat - 55

/-- One to four hexadecimal digits. -/
def readGroup (digits : List Char) : Option Nat :=
  if digits ≠ [] ∧ digits.length ≤ 4 ∧ digits.all isHexDigit = true then
    some (digitsValue 16 hexValue digits)
  else none

/-- Groups of hexadecimal digits, at the end of the address perhaps a dotted IPv4 address, which
stands for two groups. -/
def readGroups (last : Bool) : List (List Char) → Option (List Nat)
  | [] => some []
  | [piece] =>
    if last && piece.contains '.' then
      (readIPv4 (String.ofList piece)).map fun n => [n / 65536, n % 65536]
    else (readGroup piece).map fun group => [group]
  | piece :: rest =>
    match readGroup piece, readGroups last rest with
    | some group, some groups => some (group :: groups)
    | _, _ => none

/-- The pieces between colons; an empty text has none. -/
def pieces (text : List Char) : List (List Char) :=
  if text = [] then [] else text.splitOn ':'

/-- What stands in front of the first double colon, and behind it. -/
def splitGap : List Char → Option (List Char × List Char)
  | ':' :: ':' :: rest => some ([], rest)
  | c :: rest => (splitGap rest).map fun (left, right) => (c :: left, right)
  | [] => none

/-- The number that groups of 16 bits make up. -/
def groupsValue (groups : List Nat) : Nat :=
  groups.foldl (fun sum group => sum * 65536 + group) 0

/-- Eight groups, or fewer with a gap for the groups that are zero. -/
def readUnzoned (text : List Char) : Option Nat :=
  match splitGap text with
  | none =>
    match readGroups true (pieces text) with
    | some groups => if groups.length = 8 then some (groupsValue groups) else none
    | none => none
  | some (left, right) =>
    match readGroups false (pieces left), readGroups true (pieces right) with
    | some front, some back =>
      if front.length + back.length ≤ 7 then
        some (groupsValue (front ++ List.replicate (8 - front.length - back.length) 0 ++ back))
      else none
    | _, _ => none

def isZoneChar (c : Char) : Bool :=
  c.isAlphanum || c == '-' || c == '.' || c == ':'

/-- An IPv6 address, perhaps with a zone. -/
def readIPv6 (text : String) : Option Nat :=
  let chars := text.toList
  let address := chars.takeWhile (· ≠ '%')
  match chars.dropWhile (· ≠ '%') with
  | [] => readUnzoned address
  | _ :: zone => if zone ≠ [] ∧ zone.all isZoneChar = true then readUnzoned address else none

/-! ## The text of an IPv4 address -/

def writeOctet (n : Nat) : List Char := Nat.toDigits 10 n

/-- The dotted text. -/
def writeIPv4 (n : Nat) : String :=
  String.ofList (['.'].intercalate [writeOctet (n / 16777216), writeOctet (n / 65536 % 256),
    writeOctet (n / 256 % 256), writeOctet (n % 256)])

theorem readOctet_writeOctet : ∀ n < 256, readOctet (writeOctet n) = some n ∧
    '.' ∉ writeOctet n := by
  decide +kernel

/-- Every number of 32 bits has a text. -/
theorem readIPv4_writeIPv4 {n : Nat} (h : n < 2 ^ 32) : readIPv4 (writeIPv4 n) = some n := by
  have ha := readOctet_writeOctet (n / 16777216) (by omega)
  have hb := readOctet_writeOctet (n / 65536 % 256) (by omega)
  have hc := readOctet_writeOctet (n / 256 % 256) (by omega)
  have hd := readOctet_writeOctet (n % 256) (by omega)
  unfold readIPv4 writeIPv4
  rw [String.toList_ofList, List.splitOn_intercalate _ ?_ (by simp)]
  · simp only [List.mapM_cons, List.mapM_nil, ha.1, hb.1, hc.1, hd.1, Option.pure_def,
      Option.bind_eq_bind, Option.bind_some, Option.some.injEq]
    omega
  · simp only [List.forall_mem_cons]
    exact ⟨ha.2, hb.2, hc.2, hd.2, nofun⟩

example : writeIPv4 3232235777 = "192.168.1.1" := by decide +kernel

/-! ## No text is of both families -/

theorem mapM_eq_none {α β : Type} {f : α → Option β} {xs : List α} {x : α} (hx : x ∈ xs)
    (h : f x = none) : xs.mapM f = none := by
  induction xs with
  | nil => cases hx
  | cons y ys ih =>
    rw [List.mapM_cons]
    rcases List.mem_cons.1 hx with rfl | hx
    · rw [h]
      rfl
    · rw [ih hx]
      cases f y <;> rfl

/-- What stands in lists with a separator between them. -/
theorem mem_intercalate {α : Type} {separator : List α} {x : α} {pieces : List (List α)}
    (h : x ∈ separator.intercalate pieces) : x ∈ separator ∨ ∃ piece ∈ pieces, x ∈ piece := by
  induction pieces with
  | nil => cases h
  | cons piece pieces ih =>
    cases pieces with
    | nil =>
      rw [List.intercalate_singleton] at h
      exact .inr ⟨piece, List.mem_singleton_self piece, h⟩
    | cons other pieces =>
      rw [List.intercalate_cons_cons, List.mem_append, List.mem_append] at h
      rcases h with (h | h) | h
      · exact .inr ⟨piece, List.mem_cons_self, h⟩
      · exact .inl h
      · rcases ih h with h | ⟨found, hfound, h⟩
        · exact .inl h
        · exact .inr ⟨found, List.mem_cons_of_mem _ hfound, h⟩

/-- An IPv4 text consists of digits and dots. -/
theorem readIPv4_chars {text : String} (h : (readIPv4 text).isSome = true) {c : Char}
    (hc : c ∈ text.toList) : c.isDigit = true ∨ c = '.' := by
  have hpieces : c ∈ ['.'].intercalate (text.toList.splitOn '.') := by
    rwa [List.intercalate_splitOn]
  rcases mem_intercalate hpieces with hc | ⟨piece, hpiece, hc⟩
  · exact .inr (List.mem_singleton.1 hc)
  · refine .inl ?_
    have hread : readOctet piece ≠ none := by
      intro hnone
      unfold readIPv4 at h
      rw [mapM_eq_none hpiece hnone] at h
      cases h
    unfold readOctet at hread
    split at hread
    · rename_i hgood
      exact List.all_eq_true.1 hgood.2.2.1 c hc
    · exact absurd rfl hread

theorem splitGap_eq_none {text : List Char} (h : ':' ∉ text) : splitGap text = none := by
  induction text with
  | nil => rfl
  | cons c rest ih =>
    have hc : c ≠ ':' := fun hc => h (hc ▸ List.mem_cons_self)
    have hrest := ih fun hrest => h (List.mem_cons_of_mem c hrest)
    unfold splitGap
    split
    · rename_i heq
      exact absurd (List.cons.inj heq).1 hc
    · rename_i heq
      rw [← (List.cons.inj heq).2, hrest]
      rfl
    · rfl

/-- A text without a colon has too few groups. -/
theorem readUnzoned_eq_none {text : List Char} (h : ':' ∉ text) : readUnzoned text = none := by
  have hpieces : pieces text = [] ∨ pieces text = [text] := by
    unfold pieces
    split
    · exact .inl rfl
    · exact .inr (List.splitOn_eq_singleton h)
  unfold readUnzoned
  rw [splitGap_eq_none h]
  rcases hpieces with hpieces | hpieces
  · rw [hpieces]
    rfl
  · simp only [hpieces, readGroups]
    cases true && text.contains '.' with
    | true => cases readIPv4 (String.ofList text) <;> rfl
    | false => cases readGroup text <;> rfl

/-- An IPv4 text is no IPv6 text. -/
theorem readIPv6_of_readIPv4 {text : String} (h : (readIPv4 text).isSome = true) :
    readIPv6 text = none := by
  have hcolon : ':' ∉ text.toList := fun hc => absurd (readIPv4_chars h hc) (by decide)
  have hzone : ∀ c ∈ text.toList, decide (c ≠ '%') = true := by
    intro c hc
    rw [decide_eq_true_eq]
    rintro rfl
    exact absurd (readIPv4_chars h hc) (by decide)
  unfold readIPv6
  simp only
  rw [List.dropWhile_eq_nil_iff.2 hzone, List.takeWhile_eq_self_iff.2 hzone]
  exact readUnzoned_eq_none hcolon

/-! ## Subnets -/

/-- The numbers of `width` bits agree in the leading bits. -/
def inSubnet (width prefixLength subnet n : Nat) : Bool :=
  n / 2 ^ (width - prefixLength) == subnet / 2 ^ (width - prefixLength)

/-- The IPv4 addresses that an IPv6 address embeds. -/
inductive Embeds (n : Nat) : Nat → Prop
  | mapped (h : n / 2 ^ 32 = 0xffff) : Embeds n (n % 2 ^ 32)
  | compatible (h : n / 2 ^ 32 = 0) : Embeds n (n % 2 ^ 32)
  | nat64 (h : n / 2 ^ 32 = 0x64ff9b0000000000000000) : Embeds n (n % 2 ^ 32)
  | sixToFour (h : n / 2 ^ 112 = 0x2002) : Embeds n (n / 2 ^ 80 % 2 ^ 32)
  | teredoServer (h : n / 2 ^ 96 = 0x20010000) : Embeds n (n / 2 ^ 64 % 2 ^ 32)
  | teredoClient (h : n / 2 ^ 96 = 0x20010000) : Embeds n (2 ^ 32 - 1 - n % 2 ^ 32)

end Net
