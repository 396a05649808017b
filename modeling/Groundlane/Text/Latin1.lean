import Groundlane.Text.Utf8

/-!
# Strings of bytes

Strings with one code unit for each byte, as `atob` returns them. Their UTF-8 bytes are these bytes
if and only if all are ASCII (`encode_latin1_iff`).
-/

namespace Utf8

open Utf16

/-- The string of the bytes, one unit for each. -/
def latin1 (bytes : List UInt8) : Text := bytes.map fun byte => .ofNat byte.toNat

/-- `Buffer.from(text, "latin1")`, which drops the upper halves of units. -/
def toLatin1 (text : Text) : List UInt8 := text.map fun unit => .ofNat unit.toNat

/-- All bytes are below 0x80. -/
def IsAscii (bytes : List UInt8) : Prop := ∀ byte ∈ bytes, byte < 0x80

/-- The text of the bytes: the one whose UTF-8 bytes they are. -/
def IsTextOf (bytes : List UInt8) (text : Text) : Prop :=
  isWellFormed text = true ∧ encode text = bytes

theorem toNat_unit (byte : UInt8) : (UInt16.ofNat byte.toNat).toNat = byte.toNat := by
  have hlt := byte.toNat_lt
  refine UInt16.toNat_ofNat_of_lt ?_
  show byte.toNat < 65536
  omega

theorem toLatin1_latin1 (bytes : List UInt8) : toLatin1 (latin1 bytes) = bytes := by
  unfold toLatin1 latin1
  rw [List.map_map]
  refine (List.map_congr_left fun byte _ => ?_).trans (List.map_id bytes)
  show UInt8.ofNat (UInt16.ofNat byte.toNat).toNat = byte
  rw [toNat_unit, UInt8.ofNat_toNat]

/-- A byte is no surrogate, and is written as one byte if it is ASCII and as two otherwise. -/
theorem encode_unit (byte : UInt8) :
    (isHigh (.ofNat byte.toNat) || isLow (.ofNat byte.toNat)) = false ∧
      encode [.ofNat byte.toNat] = if byte < 0x80 then [byte]
        else [.ofNat (0xc0 + byte.toNat / 0x40), .ofNat (0x80 + byte.toNat % 0x40)] := by
  have hlt := byte.toNat_lt
  have htoNat := toNat_unit byte
  have hsurrogate : (isHigh (.ofNat byte.toNat) || isLow (.ofNat byte.toNat)) = false := by
    simp only [isHigh, isLow, UInt16.le_iff_toNat_le, UInt16.lt_iff_toNat_lt, htoNat,
      Bool.or_eq_false_iff, Bool.and_eq_false_iff, decide_eq_false_iff_not]
    have hconst : (0xd800 : UInt16).toNat = 0xd800 ∧ (0xdc00 : UInt16).toNat = 0xdc00 :=
      ⟨rfl, rfl⟩
    omega
  refine ⟨hsurrogate, ?_⟩
  show bytes (if isHigh (.ofNat byte.toNat) || isLow (.ofNat byte.toNat) then 0xfffd
    else (UInt16.ofNat byte.toNat).toNat) ++ [] = _
  rw [hsurrogate, if_neg Bool.false_ne_true, htoNat, List.append_nil, bytes]
  have hascii : byte < 0x80 ↔ byte.toNat < 0x80 := UInt8.lt_iff_toNat_lt
  by_cases h : byte.toNat < 0x80
  · rw [if_pos h, if_pos (hascii.2 h), UInt8.ofNat_toNat]
  · rw [if_neg h, if_neg (fun hbyte => h (hascii.1 hbyte)), if_pos (by omega)]

/-- No byte is a surrogate. -/
theorem isWellFormed_latin1 (bytes : List UInt8) : isWellFormed (latin1 bytes) = true := by
  apply isWellFormed_of_all
  intro unit hunit
  obtain ⟨byte, -, rfl⟩ := List.mem_map.1 hunit
  exact (encode_unit byte).1

theorem encode_latin1_cons (byte : UInt8) (rest : List UInt8) :
    encode (latin1 (byte :: rest)) = encode [.ofNat byte.toNat] ++ encode (latin1 rest) := by
  have hsingle : isWellFormed [UInt16.ofNat byte.toNat] = true := isWellFormed_latin1 [byte]
  show encode ([UInt16.ofNat byte.toNat] ++ latin1 rest) = _
  unfold encode
  rw [codePoints_append _ hsingle, List.flatMap_append]

theorem length_le_encode_latin1 (bytes : List UInt8) :
    bytes.length ≤ (encode (latin1 bytes)).length := by
  induction bytes with
  | nil => exact Nat.zero_le _
  | cons byte rest ih =>
    rw [encode_latin1_cons, List.length_append, (encode_unit byte).2]
    split
    · show rest.length + 1 ≤ 1 + _
      omega
    · show rest.length + 1 ≤ 2 + _
      omega

variable {bytes : List UInt8} {text : Text}

/-- Bytes are the UTF-8 bytes of their string if and only if they are ASCII. -/
theorem encode_latin1_iff : encode (latin1 bytes) = bytes ↔ IsAscii bytes := by
  induction bytes with
  | nil => exact ⟨fun _ _ h => absurd h List.not_mem_nil, fun _ => rfl⟩
  | cons byte rest ih =>
    rw [encode_latin1_cons, (encode_unit byte).2]
    unfold IsAscii at ih ⊢
    rw [List.forall_mem_cons]
    by_cases h : byte < 0x80
    · rw [if_pos h, List.singleton_append, List.cons_inj_right, ih]
      exact ⟨fun hrest => ⟨h, hrest⟩, fun hall => hall.2⟩
    · rw [if_neg h]
      refine ⟨fun heq => ?_, fun hall => absurd hall.1 h⟩
      -- Two bytes stand for the first one, and at least one for each other.
      have hlength : 2 + (encode (latin1 rest)).length = rest.length + 1 :=
        List.length_append.symm.trans (congrArg List.length heq)
      have hrest := length_le_encode_latin1 rest
      omega

/-- The bytes of a text are read as the text. -/
theorem IsTextOf.read (h : IsTextOf bytes text) : Decoder.start.read bytes = text := by
  obtain ⟨hwell, rfl⟩ := h
  exact (Decoder.read_encode (isPoint_of_mem text) hwell).trans (flatten_codePoints text)

/-- The string of the bytes is their text if and only if they are ASCII. -/
theorem IsTextOf.latin1_iff (h : IsTextOf bytes text) : latin1 bytes = text ↔ IsAscii bytes := by
  rw [← encode_latin1_iff]
  constructor
  · rintro rfl
    exact h.2
  · intro hascii
    have hself : IsTextOf bytes (latin1 bytes) := ⟨isWellFormed_latin1 bytes, hascii⟩
    rw [← hself.read, h.read]

end Utf8
