import Groundlane.Text.Latin1
import Groundlane.Text.Lines

/-!
# Quoted-printable

The two replacements that take soft line breaks out and write a unit for each escaped byte. They
read every encoding of a byte sequence as the string of the bytes (`decode_of_encodes`).
-/

namespace QuotedPrintable

open Utf16

/-- `=`. -/
def equals : UInt16 := 0x3d

/-- `replace(/=\r?\n/g, "")`: the units of a break that are still to be skipped. -/
def dropSoftBreaks : Nat → Text → Text
  | _, [] => []
  | skip + 1, _ :: rest => dropSoftBreaks skip rest
  | 0, unit :: rest =>
    if unit = equals ∧ rest.head? = some lineFeed then dropSoftBreaks 1 rest
    else if unit = equals ∧ rest.take 2 = [carriageReturn, lineFeed] then dropSoftBreaks 2 rest
    else unit :: dropSoftBreaks 0 rest

/-- The value of a hexadecimal digit. -/
def hexValue (unit : UInt16) : Option Nat :=
  if 0x30 ≤ unit ∧ unit ≤ 0x39 then some (unit.toNat - 0x30)
  else if 0x41 ≤ unit ∧ unit ≤ 0x46 then some (unit.toNat - 0x37)
  else if 0x61 ≤ unit ∧ unit ≤ 0x66 then some (unit.toNat - 0x57)
  else none

/-- The number of the two digits at the start. -/
def hexPair : Text → Option Nat
  | high :: low :: _ =>
    match hexValue high, hexValue low with
    | some h, some l => some (16 * h + l)
    | _, _ => none
  | _ => none

/-- `replace(/=([0-9A-Fa-f]\x7b2\x7d)/g, ...)`: the digits that are still to be skipped. -/
def decodeEscapes : Nat → Text → Text
  | _, [] => []
  | skip + 1, _ :: rest => decodeEscapes skip rest
  | 0, unit :: rest =>
    if unit = equals then
      match hexPair rest with
      | some byte => .ofNat byte :: decodeEscapes 2 rest
      | none => unit :: decodeEscapes 0 rest
    else unit :: decodeEscapes 0 rest

/-- The string with one unit for each byte. -/
def decode (text : Text) : Text := decodeEscapes 0 (dropSoftBreaks 0 text)

/-! ## Encodings -/

/-- The ways to write bytes: an ASCII byte other than `=` as itself, every byte as an escape, and
soft line breaks in between. -/
inductive Encodes : List UInt8 → Text → Prop
  | nil : Encodes [] []
  | literal {byte : UInt8} {bytes : List UInt8} {text : Text} (hascii : byte < 0x80)
    (hequals : byte ≠ 0x3d) (h : Encodes bytes text) :
    Encodes (byte :: bytes) (.ofNat byte.toNat :: text)
  | escape {byte : UInt8} {bytes : List UInt8} {high low : UInt16} {text : Text}
    (hpair : hexPair [high, low] = some byte.toNat) (h : Encodes bytes text) :
    Encodes (byte :: bytes) (equals :: high :: low :: text)
  | softBreak {bytes : List UInt8} {text : Text} (h : Encodes bytes text) :
    Encodes bytes (equals :: carriageReturn :: lineFeed :: text)
  | softLineFeed {bytes : List UInt8} {text : Text} (h : Encodes bytes text) :
    Encodes bytes (equals :: lineFeed :: text)

theorem dropSoftBreaks_unit {unit : UInt16} (h : unit ≠ equals) (rest : Text) :
    dropSoftBreaks 0 (unit :: rest) = unit :: dropSoftBreaks 0 rest := by
  rw [dropSoftBreaks, if_neg fun hbreak => h hbreak.1, if_neg fun hbreak => h hbreak.1]

theorem decodeEscapes_unit {unit : UInt16} (h : unit ≠ equals) (rest : Text) :
    decodeEscapes 0 (unit :: rest) = unit :: decodeEscapes 0 rest := by
  rw [decodeEscapes, if_neg h]

/-- A digit is neither an equals sign nor part of a line break. -/
theorem hexValue_digit {unit : UInt16} {value : Nat} (h : hexValue unit = some value) :
    unit ≠ equals ∧ unit ≠ lineFeed ∧ unit ≠ carriageReturn := by
  have hnone : hexValue equals = none ∧ hexValue lineFeed = none ∧
      hexValue carriageReturn = none := by
    decide
  refine ⟨?_, ?_, ?_⟩
  · rintro rfl
    exact Option.some_ne_none value (h.symm.trans hnone.1)
  · rintro rfl
    exact Option.some_ne_none value (h.symm.trans hnone.2.1)
  · rintro rfl
    exact Option.some_ne_none value (h.symm.trans hnone.2.2)

theorem hexPair_digits {high low : UInt16} {byte : Nat} (h : hexPair [high, low] = some byte) :
    (∃ value, hexValue high = some value) ∧ ∃ value, hexValue low = some value := by
  unfold hexPair at h
  simp only at h
  split at h
  · rename_i hhigh hlow
    exact ⟨⟨_, hhigh⟩, _, hlow⟩
  · cases h

/-- Every encoding is read as the string of the bytes. -/
theorem decode_of_encodes {bytes : List UInt8} {text : Text} (h : Encodes bytes text) :
    decode text = Utf8.latin1 bytes := by
  induction h with
  | nil => rfl
  | @literal byte bytes text hascii hequals _ ih =>
    have hunit : UInt16.ofNat byte.toNat ≠ equals := by
      intro heq
      have hnat := congrArg UInt16.toNat heq
      rw [Utf8.toNat_unit] at hnat
      exact hequals (UInt8.toNat_inj.1 hnat)
    unfold decode at ih ⊢
    rw [dropSoftBreaks_unit hunit, decodeEscapes_unit hunit, ih]
    rfl
  | @escape byte bytes high low text hpair _ ih =>
    obtain ⟨⟨_, hhigh⟩, _, hlow⟩ := hexPair_digits hpair
    have hfirst := hexValue_digit hhigh
    unfold decode at ih ⊢
    have hkept : dropSoftBreaks 0 (equals :: high :: low :: text) =
        equals :: high :: low :: dropSoftBreaks 0 text := by
      rw [dropSoftBreaks, if_neg fun hbreak => hfirst.2.1 (Option.some.inj hbreak.2),
        if_neg fun hbreak => hfirst.2.2 (List.cons.inj hbreak.2).1,
        dropSoftBreaks_unit hfirst.1, dropSoftBreaks_unit (hexValue_digit hlow).1]
    have hread : hexPair (high :: low :: dropSoftBreaks 0 text) = some byte.toNat := hpair
    rw [hkept, decodeEscapes, if_pos rfl, hread]
    show UInt16.ofNat byte.toNat :: decodeEscapes 0 (dropSoftBreaks 0 text) = _
    rw [ih]
    rfl
  | @softBreak bytes text _ ih =>
    unfold decode at ih ⊢
    have hnext : (carriageReturn :: lineFeed :: text).head? ≠ some lineFeed :=
      fun heq => absurd (Option.some.inj heq) (by decide)
    rw [dropSoftBreaks, if_neg fun hbreak => hnext hbreak.2, if_pos ⟨rfl, rfl⟩]
    exact ih
  | @softLineFeed bytes text _ ih =>
    unfold decode at ih ⊢
    rw [dropSoftBreaks, if_pos ⟨rfl, rfl⟩]
    exact ih

end QuotedPrintable
