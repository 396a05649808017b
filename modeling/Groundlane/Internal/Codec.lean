import Groundlane.Text.Utf8

/-!
# The codecs of internal contexts

The hand-written base64url codec of `worker/internal-context.ts` over the UTF-8 bytes of a text,
and the hexadecimal text of a signature. A non-empty text without unpaired surrogates or byte
order mark is read back (`base64UrlDecodeToString_encode`).
-/

namespace Groundlane.InternalContext

open Utf16 Utf8

/-- `alphabet`. -/
def alphabet : Text :=
  ascii "ABCDEFGHIJKLMNOPQRSTUVWXYZabcdefghijklmnopqrstuvwxyz0123456789-_"

/-- The character of a six-bit number. -/
def char (index : Nat) : UInt16 := alphabet.getD (index % 64) 0

/-- `rev.get`. -/
def rev (unit : UInt16) : Option Nat := alphabet.idxOf? unit

/-- The characters of a byte sequence, three bytes at a time. -/
def encodeBytes : List UInt8 → Text
  | a :: b :: c :: rest =>
    let n := a.toNat * 0x10000 + b.toNat * 0x100 + c.toNat
    char (n / 0x40000) :: char (n / 0x1000) :: char (n / 0x40) :: char n :: encodeBytes rest
  | [a, b] =>
    let n := a.toNat * 0x10000 + b.toNat * 0x100
    [char (n / 0x40000), char (n / 0x1000), char (n / 0x40)]
  | [a] =>
    let n := a.toNat * 0x10000
    [char (n / 0x40000), char (n / 0x1000)]
  | [] => []

/-- `base64UrlEncodeString`. -/
def base64UrlEncodeString (input : Text) : Text := encodeBytes (encode input)

example : base64UrlEncodeString (ascii "a?") = ascii "YT8" := by decide +kernel

/-- The bytes of a character sequence, four characters at a time. -/
def decodeBytes : Text → Option (List UInt8)
  | a :: b :: c :: d :: rest => do
    let a ← rev a
    let b ← rev b
    let c ← rev c
    let d ← rev d
    let n := a * 0x40000 + b * 0x1000 + c * 0x40 + d
    let bytes ← decodeBytes rest
    some (.ofNat (n / 0x10000) :: .ofNat (n / 0x100) :: .ofNat n :: bytes)
  | [a, b, c] => do
    let a ← rev a
    let b ← rev b
    let c ← rev c
    let n := a * 0x40000 + b * 0x1000 + c * 0x40
    some [.ofNat (n / 0x10000), .ofNat (n / 0x100)]
  | [a, b] => do
    let a ← rev a
    let b ← rev b
    let n := a * 0x40000 + b * 0x1000
    some [.ofNat (n / 0x10000)]
  | [_] => none
  | [] => some []

/-- `base64UrlDecodeToString`. -/
def base64UrlDecodeToString (input : Text) : Option Text :=
  if input.length = 0 ∨ input.length % 4 = 1 then none else (decodeBytes input).map decode

/-- `bytesToHex`. -/
def bytesToHex (bytes : List UInt8) : Text :=
  bytes.flatMap fun byte =>
    [.ofNat (hexDigit (byte.toNat / 16)).toNat, .ofNat (hexDigit (byte.toNat % 16)).toNat]

/-! ## Reading back -/

theorem rev_char (index : Nat) : rev (char index) = some (index % 64) := by
  have hall : ∀ index, index < 64 → rev (alphabet.getD index 0) = some index := by decide +kernel
  exact hall (index % 64) (Nat.mod_lt _ (by decide))

variable (bytes : List UInt8)

/-- The bytes of a sequence of characters are the bytes that were written. -/
theorem decodeBytes_encodeBytes : decodeBytes (encodeBytes bytes) = some bytes := by
  have hbyte : ∀ (byte : UInt8) (n : Nat), n % 256 = byte.toNat → UInt8.ofNat n = byte := by
    intro byte n hn
    rw [← UInt8.toNat_inj, UInt8.toNat_ofNat', hn]
  fun_induction encodeBytes bytes with
  | case1 a b c rest n ih =>
    have ha := a.toNat_lt
    have hb := b.toNat_lt
    have hc := c.toNat_lt
    rw [decodeBytes]
    simp only [rev_char, ih, Option.bind_eq_bind, Option.bind_some]
    rw [hbyte a _ (by omega), hbyte b _ (by omega), hbyte c _ (by omega)]
  | case2 a b n =>
    have ha := a.toNat_lt
    have hb := b.toNat_lt
    rw [decodeBytes]
    simp only [rev_char, Option.bind_eq_bind, Option.bind_some]
    rw [hbyte a _ (by omega), hbyte b _ (by omega)]
  | case3 a n =>
    have ha := a.toNat_lt
    rw [decodeBytes]
    simp only [rev_char, Option.bind_eq_bind, Option.bind_some]
    rw [hbyte a _ (by omega)]
  | case4 => rfl

/-- The lengths that no encoding has are one more than a multiple of four. -/
theorem length_encodeBytes : (encodeBytes bytes).length % 4 ≠ 1 := by
  fun_induction encodeBytes bytes with
  | case1 a b c rest n ih =>
    simp only [List.length_cons]
    omega
  | case2 a b n =>
    show 3 % 4 ≠ 1
    decide
  | case3 a n =>
    show 2 % 4 ≠ 1
    decide
  | case4 => decide

theorem encodeBytes_ne_nil {bytes : List UInt8} (h : bytes ≠ []) : encodeBytes bytes ≠ [] := by
  fun_cases encodeBytes bytes <;> simp_all

theorem encode_ne_nil {text : Text} (h : text ≠ []) : encode text ≠ [] := by
  obtain ⟨unit, rest, rfl⟩ := List.exists_cons_of_ne_nil h
  obtain ⟨tail, points, hpoints⟩ := head_codePoints unit rest
  have hbytes : ∀ point, bytes point ≠ [] := by
    intro point
    unfold bytes
    split
    · exact List.cons_ne_nil _ _
    split
    · exact List.cons_ne_nil _ _
    split
    · exact List.cons_ne_nil _ _
    · exact List.cons_ne_nil _ _
  rw [encode, hpoints, List.flatMap_cons]
  exact List.append_ne_nil_of_left_ne_nil (hbytes _) _

/-- A text is read back from its characters. -/
theorem base64UrlDecodeToString_encode {text : Text} (hne : text ≠ [])
    (hwellFormed : isWellFormed text = true) (hmark : text.head? ≠ some 0xfeff) :
    base64UrlDecodeToString (base64UrlEncodeString text) = some text := by
  have hlength : (encodeBytes (encode text)).length ≠ 0 := fun hzero =>
    encodeBytes_ne_nil (encode_ne_nil hne) (List.length_eq_zero_iff.1 hzero)
  have hcond : ¬ ((encodeBytes (encode text)).length = 0 ∨
      (encodeBytes (encode text)).length % 4 = 1) :=
    fun hor => hor.elim hlength (length_encodeBytes _)
  rw [base64UrlDecodeToString, base64UrlEncodeString, if_neg hcond, decodeBytes_encodeBytes]
  exact congrArg some (decode_encode hwellFormed hmark)

/-! ## The characters that occur -/

/-- No character of the alphabet is a dot. -/
theorem char_ne_dot (index : Nat) : char index ≠ 0x2e := by
  have hall : ∀ index, index < 64 → alphabet.getD index 0 ≠ 0x2e := by decide +kernel
  exact hall (index % 64) (Nat.mod_lt _ (by decide))

theorem dot_notMem_encodeBytes : 0x2e ∉ encodeBytes bytes := by
  fun_induction encodeBytes bytes with
  | case1 a b c rest n ih => simp [Ne.symm (char_ne_dot _), ih]
  | case2 a b n => simp [Ne.symm (char_ne_dot _)]
  | case3 a n => simp [Ne.symm (char_ne_dot _)]
  | case4 => exact List.not_mem_nil

theorem dot_notMem_bytesToHex : 0x2e ∉ bytesToHex bytes := by
  have hdigit : ∀ digit, digit < 16 → UInt16.ofNat (hexDigit digit).toNat ≠ 0x2e := by decide
  intro hmem
  obtain ⟨byte, -, hbyte⟩ := List.mem_flatMap.1 hmem
  have hlt := byte.toNat_lt
  simp only [List.mem_cons, List.not_mem_nil, or_false] at hbyte
  cases hbyte with
  | inl heq => exact hdigit _ (by omega) heq.symm
  | inr heq => exact hdigit _ (by omega) heq.symm

end Groundlane.InternalContext
