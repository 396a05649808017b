import Groundlane.Text.Utf16

/-!
# Base64

`atob`, whose result is the string of the bytes, and the padded texts of byte sequences, which it
reads back (`atob_encode`).
-/

namespace Base64

open Utf16

def alphabet : Text :=
  ascii "ABCDEFGHIJKLMNOPQRSTUVWXYZabcdefghijklmnopqrstuvwxyz0123456789+/"

/-- The six bits of a letter. -/
def sextet (unit : UInt16) : Option Nat := alphabet.idxOf? unit

/-- The bytes of groups of six bits; bits that fill no byte are dropped. -/
def bytesOf : List Nat → List UInt8
  | a :: b :: c :: d :: rest =>
    .ofNat (a * 4 + b / 16) :: .ofNat (b % 16 * 16 + c / 4) :: .ofNat (c % 4 * 64 + d) ::
      bytesOf rest
  | [a, b, c] => [.ofNat (a * 4 + b / 16), .ofNat (b % 16 * 16 + c / 4)]
  | [a, b] => [.ofNat (a * 4 + b / 16)]
  | _ => []

/-- ASCII white space. -/
def isSpace (unit : UInt16) : Bool := [9, 10, 12, 13, 0x20].contains unit

/-- Without the padding, if the length allows for one. -/
def unpadded (text : Text) : Text :=
  if text.length % 4 = 0 then
    let equals : UInt16 := 0x3d
    if text.reverse.take 2 = [equals, equals] then text.dropLast.dropLast
    else if text.reverse.take 1 = [equals] then text.dropLast
    else text
  else text

/-- The bytes of the string that `atob` returns. -/
def atob (text : Text) : Option (List UInt8) :=
  let letters := unpadded (text.filter fun unit => !isSpace unit)
  if letters.length % 4 = 1 then none else (letters.mapM sextet).map bytesOf


/-! ## Encoding -/

/-- The letter of six bits. -/
def letter (bits : Nat) : UInt16 := alphabet.getD bits 0

/-- The groups of six bits of the bytes. -/
def sextets : List UInt8 → List Nat
  | a :: b :: c :: rest =>
    a.toNat / 4 :: (a.toNat % 4 * 16 + b.toNat / 16) :: (b.toNat % 16 * 4 + c.toNat / 64) ::
      c.toNat % 64 :: sextets rest
  | [a, b] => [a.toNat / 4, a.toNat % 4 * 16 + b.toNat / 16, b.toNat % 16 * 4]
  | [a] => [a.toNat / 4, a.toNat % 4 * 16]
  | [] => []

/-- The padding of a last group with as many letters. -/
def padding (letters : Nat) : Text :=
  if letters % 4 = 0 then [] else List.replicate (4 - letters % 4) 0x3d

/-- The padded text of the bytes. -/
def encode (bytes : List UInt8) : Text :=
  (sextets bytes).map letter ++ padding (sextets bytes).length

/-! ## Reading back -/

variable (bytes : List UInt8)

theorem sextets_lt : ∀ bits ∈ sextets bytes, bits < 64 := by
  fun_induction sextets bytes with
  | case1 a b c rest ih =>
    have ha := a.toNat_lt
    have hb := b.toNat_lt
    have hc := c.toNat_lt
    simp only [List.forall_mem_cons]
    exact ⟨by omega, by omega, by omega, by omega, ih⟩
  | case2 a b =>
    have ha := a.toNat_lt
    have hb := b.toNat_lt
    simp only [List.forall_mem_cons]
    exact ⟨by omega, by omega, by omega, nofun⟩
  | case3 a =>
    have ha := a.toNat_lt
    simp only [List.forall_mem_cons]
    exact ⟨by omega, by omega, nofun⟩
  | case4 => exact fun _ h => absurd h List.not_mem_nil

theorem bytesOf_sextets : bytesOf (sextets bytes) = bytes := by
  have hbyte : ∀ (byte : UInt8) (n : Nat), n = byte.toNat → UInt8.ofNat n = byte := by
    rintro byte n rfl
    exact UInt8.ofNat_toNat
  fun_induction sextets bytes with
  | case1 a b c rest ih =>
    have ha := a.toNat_lt
    have hb := b.toNat_lt
    have hc := c.toNat_lt
    rw [bytesOf, ih, hbyte a _ (by omega), hbyte b _ (by omega), hbyte c _ (by omega)]
  | case2 a b =>
    have ha := a.toNat_lt
    have hb := b.toNat_lt
    rw [bytesOf, hbyte a _ (by omega), hbyte b _ (by omega)]
  | case3 a =>
    have ha := a.toNat_lt
    rw [bytesOf, hbyte a _ (by omega)]
  | case4 => rfl

/-- One letter too many is never left over. -/
theorem length_sextets : (sextets bytes).length % 4 ≠ 1 := by
  fun_induction sextets bytes with
  | case1 a b c rest ih =>
    simp only [List.length_cons]
    omega
  | case2 a b => exact (by decide : 3 % 4 ≠ 1)
  | case3 a => exact (by decide : 2 % 4 ≠ 1)
  | case4 => exact (by decide : 0 % 4 ≠ 1)

/-- The letters are read back, and are neither white space nor padding. -/
theorem letter_spec : ∀ bits, bits < 64 → sextet (letter bits) = some bits ∧
    isWhiteSpace (letter bits) = false ∧ isSpace (letter bits) = false ∧
    letter bits ≠ 0x3d := by
  decide +kernel

theorem mapM_sextet {bits : List Nat} (h : ∀ n ∈ bits, n < 64) :
    (bits.map letter).mapM sextet = some bits := by
  induction bits with
  | nil => rfl
  | cons n rest ih =>
    rw [List.map_cons, List.mapM_cons, (letter_spec n (h n List.mem_cons_self)).1,
      ih fun other hother => h other (List.mem_cons_of_mem _ hother)]
    rfl

/-- The padding is taken off. -/
theorem unpadded_padded {letters : Text} (hlength : letters.length % 4 ≠ 1)
    (h : ∀ unit ∈ letters, unit ≠ 0x3d) :
    unpadded (letters ++ padding letters.length) = letters := by
  unfold unpadded padding
  by_cases hfull : letters.length % 4 = 0
  · rw [if_pos hfull, List.append_nil, if_pos hfull]
    rcases List.eq_nil_or_concat letters with rfl | ⟨front, last, rfl⟩
    · rfl
    · have hlast := h last (by simp)
      simp only [List.concat_eq_append, List.reverse_append, List.reverse_singleton,
        List.singleton_append, List.take_succ_cons, List.take_zero]
      rw [if_neg fun heq => hlast (List.cons.inj heq).1,
        if_neg fun heq => hlast (List.cons.inj heq).1]
  · rw [if_neg hfull]
    rcases (by omega : letters.length % 4 = 2 ∨ letters.length % 4 = 3) with htwo | hthree
    · have hmod : (letters ++ [0x3d, 0x3d]).length % 4 = 0 := by
        rw [List.length_append]
        show (letters.length + 2) % 4 = 0
        omega
      rw [htwo]
      show (if (letters ++ [0x3d, 0x3d]).length % 4 = 0 then _ else _) = _
      rw [if_pos hmod, if_pos (by rw [List.reverse_append]; rfl)]
      show ((letters ++ [0x3d, 0x3d]).dropLast).dropLast = letters
      rw [List.dropLast_append_of_ne_nil (by decide), List.dropLast_append_of_ne_nil (by decide)]
      exact List.append_nil letters
    · have hmod : (letters ++ [0x3d]).length % 4 = 0 := by
        rw [List.length_append]
        show (letters.length + 1) % 4 = 0
        omega
      rw [hthree]
      show (if (letters ++ [0x3d]).length % 4 = 0 then _ else _) = _
      rcases List.eq_nil_or_concat letters with rfl | ⟨front, last, rfl⟩
      · cases hthree
      · have hlast := h last (by simp)
        have hreverse : (front.concat last ++ [0x3d]).reverse = 0x3d :: last :: front.reverse := by
          simp
        show (if _ then if (front.concat last ++ [0x3d]).reverse.take 2 = [0x3d, 0x3d] then _ else
          if (front.concat last ++ [0x3d]).reverse.take 1 = [0x3d] then
            (front.concat last ++ [0x3d]).dropLast else _ else _) = front.concat last
        have hone : (0x3d :: last :: front.reverse).take 2 ≠ [0x3d, 0x3d] :=
          fun heq => hlast (List.cons.inj (List.cons.inj heq).2).1
        rw [if_pos hmod, hreverse, if_neg hone]
        show (front.concat last ++ [0x3d]).dropLast = front.concat last
        rw [List.dropLast_concat]

/-- A letter of the bytes. -/
theorem letter_of_mem {bytes : List UInt8} {unit : UInt16}
    (h : unit ∈ (sextets bytes).map letter) :
    (sextet unit).isSome = true ∧ isSpace unit = false ∧ unit ≠ 0x3d := by
  obtain ⟨bits, hbits, rfl⟩ := List.mem_map.1 h
  obtain ⟨hsextet, -, hspace, hequals⟩ := letter_spec bits (sextets_lt bytes bits hbits)
  exact ⟨hsextet ▸ rfl, hspace, hequals⟩

/-- The padding is at most two equals signs, and fills the last group. -/
theorem padding_spec {letters : Nat} (h : letters % 4 ≠ 1) :
    (padding letters).length ≤ 2 ∧ (letters + (padding letters).length) % 4 = 0 ∧
      ∀ unit ∈ padding letters, unit = 0x3d := by
  unfold padding
  split
  · exact ⟨Nat.zero_le 2, by rw [List.length_nil]; omega, fun _ h => absurd h List.not_mem_nil⟩
  · rw [List.length_replicate]
    exact ⟨by omega, by omega, fun unit hunit => List.eq_of_mem_replicate hunit⟩

/-- Neither letters nor padding are white space. -/
theorem filter_encode : (encode bytes).filter (fun unit => !isSpace unit) = encode bytes := by
  rw [List.filter_eq_self]
  intro unit hunit
  rcases List.mem_append.1 hunit with hunit | hunit
  · rw [(letter_of_mem hunit).2.1]
    rfl
  · rw [(padding_spec (length_sextets bytes)).2.2 unit hunit]
    rfl

/-- The bytes of a padded text are read back. -/
theorem atob_encode : atob (encode bytes) = some bytes := by
  have hlength : ((sextets bytes).map letter).length % 4 ≠ 1 := by
    rw [List.length_map]
    exact length_sextets bytes
  have hunpadded : unpadded (encode bytes) = (sextets bytes).map letter := by
    unfold encode
    rw [← List.length_map letter]
    exact unpadded_padded hlength fun unit hunit => (letter_of_mem hunit).2.2
  unfold atob
  rw [filter_encode, hunpadded]
  simp only
  rw [if_neg hlength, mapM_sextet (sextets_lt bytes), Option.map_some, bytesOf_sextets]

end Base64
