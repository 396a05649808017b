import Groundlane.Text.Utf16

/-!
# UTF-8

`TextEncoder` and `TextDecoder` on strings of code units. The encoder writes the replacement
character for an unpaired surrogate; the decoder is the state machine of the encoding standard,
which reads malformed bytes as replacement characters and drops a byte order mark at the start.
A well-formed string that starts with no byte order mark is read back (`decode_encode`).
-/

namespace Utf8

open Utf16

/-! ## Encoding -/

/-- The scalar value that is written for a code point. -/
def scalar : Text → Nat
  | [unit] => if isHigh unit || isLow unit then 0xfffd else unit.toNat
  | [first, second] => 0x10000 + (first.toNat - 0xd800) * 0x400 + (second.toNat - 0xdc00)
  | _ => 0

/-- The bytes of a scalar value. -/
def bytes (point : Nat) : List UInt8 :=
  if point < 0x80 then [.ofNat point]
  else if point < 0x800 then [.ofNat (0xc0 + point / 0x40), .ofNat (0x80 + point % 0x40)]
  else if point < 0x10000 then
    [.ofNat (0xe0 + point / 0x1000), .ofNat (0x80 + point / 0x40 % 0x40),
      .ofNat (0x80 + point % 0x40)]
  else
    [.ofNat (0xf0 + point / 0x40000), .ofNat (0x80 + point / 0x1000 % 0x40),
      .ofNat (0x80 + point / 0x40 % 0x40), .ofNat (0x80 + point % 0x40)]

/-- `TextEncoder.encode`. -/
def encode (text : Text) : List UInt8 :=
  (codePoints text).flatMap fun point => bytes (scalar point)

/-! ## Decoding -/

/-- The decoder between two bytes: what it has read of a scalar value, how many bytes are still
to come and the range of the next one. -/
structure Decoder where
  point : Nat
  needed : Nat
  lower : Nat
  upper : Nat

namespace Decoder

/-- Between two scalar values. -/
def start : Decoder := ⟨0, 0, 0x80, 0xbf⟩

/-- The code units of a scalar value. -/
def units (point : Nat) : Text :=
  if point < 0x10000 then [.ofNat point]
  else
    [.ofNat (0xd800 + (point - 0x10000) / 0x400), .ofNat (0xdc00 + (point - 0x10000) % 0x400)]

/-- The first byte of a scalar value. -/
def lead (byte : Nat) : Text × Decoder :=
  if byte < 0x80 then (units byte, start)
  else if 0xc2 ≤ byte ∧ byte ≤ 0xdf then ([], ⟨byte - 0xc0, 1, 0x80, 0xbf⟩)
  else if 0xe0 ≤ byte ∧ byte ≤ 0xef then
    ([], ⟨byte - 0xe0, 2, if byte = 0xe0 then 0xa0 else 0x80, if byte = 0xed then 0x9f else 0xbf⟩)
  else if 0xf0 ≤ byte ∧ byte ≤ 0xf4 then
    ([], ⟨byte - 0xf0, 3, if byte = 0xf0 then 0x90 else 0x80, if byte = 0xf4 then 0x8f else 0xbf⟩)
  else ([0xfffd], start)

/-- One byte: the code units that it completes and the next state. -/
def step (state : Decoder) (byte : Nat) : Text × Decoder :=
  if state.needed = 0 then lead byte
  else if byte < state.lower ∨ state.upper < byte then
    -- the byte ends a malformed sequence and is read once more as a first byte
    (0xfffd :: (lead byte).1, (lead byte).2)
  else
    let point := state.point * 0x40 + (byte - 0x80)
    if state.needed = 1 then (units point, start)
    else ([], ⟨point, state.needed - 1, 0x80, 0xbf⟩)

/-- The text of the remaining bytes. -/
def read : Decoder → List UInt8 → Text
  | state, [] => if state.needed = 0 then [] else [0xfffd]
  | state, byte :: rest => (state.step byte.toNat).1 ++ read (state.step byte.toNat).2 rest

end Decoder

/-- `TextDecoder.decode`. -/
def decode (input : List UInt8) : Text :=
  match Decoder.start.read input with
  | [] => []
  | unit :: rest => if unit = 0xfeff then rest else unit :: rest

/-! ## Well-formed strings -/

/-- Not an unpaired surrogate. -/
def isPaired : Text → Bool
  | [unit] => !(isHigh unit || isLow unit)
  | _ => true

/-- `String.prototype.isWellFormed`. -/
def isWellFormed (text : Text) : Bool := (codePoints text).all isPaired

/-- The code points of a text stay what they are when a text follows that cannot be joined. -/
theorem codePoints_append {left : Text} (right : Text) (h : isWellFormed left = true) :
    codePoints (left ++ right) = codePoints left ++ codePoints right := by
  unfold isWellFormed at h
  fun_induction codePoints left with
  | case1 => rfl
  | case2 unit =>
    have hunit : isHigh unit = false := by
      simp only [List.all_cons, isPaired, List.all_nil, Bool.and_true, Bool.not_eq_true',
        Bool.or_eq_false_iff] at h
      exact h.1
    cases right with
    | nil => rfl
    | cons second rest =>
      show codePoints (unit :: second :: rest) = _
      rw [codePoints, if_neg (by simp [hunit])]
      rfl
  | case3 first second rest hpair ih =>
    show codePoints (first :: second :: (rest ++ right)) = _
    rw [List.all_cons, Bool.and_eq_true] at h
    rw [codePoints, if_pos hpair, ih h.2]
    rfl
  | case4 first second rest hpair ih =>
    show codePoints (first :: second :: (rest ++ right)) = _
    rw [List.all_cons, Bool.and_eq_true] at h
    rw [codePoints, if_neg hpair]
    exact congrArg _ (ih h.2)

@[simp] theorem isWellFormed_nil : isWellFormed [] = true := rfl

theorem isWellFormed_append {left right : Text} (hleft : isWellFormed left = true)
    (hright : isWellFormed right = true) : isWellFormed (left ++ right) = true := by
  show (codePoints (left ++ right)).all isPaired = true
  rw [codePoints_append right hleft, List.all_append, Bool.and_eq_true]
  exact ⟨hleft, hright⟩

theorem isWellFormed_cons {unit : UInt16} {rest : Text}
    (hunit : (isHigh unit || isLow unit) = false) (hrest : isWellFormed rest = true) :
    isWellFormed (unit :: rest) = true := by
  have hsingle : isWellFormed [unit] = true := by
    simp [isWellFormed, codePoints, isPaired, hunit]
  exact isWellFormed_append hsingle hrest

theorem isWellFormed_flatMap {α : Type} {pieces : List α} {write : α → Text}
    (h : ∀ piece ∈ pieces, isWellFormed (write piece) = true) :
    isWellFormed (pieces.flatMap write) = true := by
  induction pieces with
  | nil => rfl
  | cons piece pieces ih =>
    rw [List.flatMap_cons]
    exact isWellFormed_append (h piece List.mem_cons_self)
      (ih fun other hother => h other (List.mem_cons_of_mem _ hother))

/-- A text without surrogates. -/
theorem isWellFormed_of_all {text : Text}
    (h : ∀ unit ∈ text, (isHigh unit || isLow unit) = false) : isWellFormed text = true := by
  induction text with
  | nil => rfl
  | cons unit rest ih =>
    exact isWellFormed_cons (h unit List.mem_cons_self)
      (ih fun other hother => h other (List.mem_cons_of_mem _ hother))

/-! ## Reading back -/

/-- What the encoder writes: a number below `0x110000` that is no surrogate. -/
def IsScalar (point : Nat) : Prop :=
  point < 0xd800 ∨ 0xe000 ≤ point ∧ point < 0x110000

/-- A byte inside a sequence. -/
theorem Decoder.step_inside {point needed lower upper byte : Nat} (hlower : lower ≤ byte)
    (hupper : byte ≤ upper) (hneeded : 1 < needed) :
    (Decoder.mk point needed lower upper).step byte =
      ([], ⟨point * 0x40 + (byte - 0x80), needed - 1, 0x80, 0xbf⟩) := by
  unfold Decoder.step
  rw [if_neg (by show needed ≠ 0; omega), if_neg (by show ¬ (byte < lower ∨ upper < byte); omega),
    if_neg (by show needed ≠ 1; omega)]

/-- The last byte of a sequence. -/
theorem Decoder.step_last {point lower upper byte : Nat} (hlower : lower ≤ byte)
    (hupper : byte ≤ upper) :
    (Decoder.mk point 1 lower upper).step byte = (units (point * 0x40 + (byte - 0x80)), start) := by
  unfold Decoder.step
  rw [if_neg (by show 1 ≠ 0; omega), if_neg (by show ¬ (byte < lower ∨ upper < byte); omega),
    if_pos rfl]

/-- The bytes of a scalar value are read as its code units. -/
theorem Decoder.read_bytes {point : Nat} (h : IsScalar point) (rest : List UInt8) :
    start.read (bytes point ++ rest) = units point ++ start.read rest := by
  have htoNat : ∀ byte, byte < 256 → (UInt8.ofNat byte).toNat = byte := fun byte hbyte => by
    simp [Nat.mod_eq_of_lt hbyte]
  have hstart : ∀ byte, start.step byte = lead byte := fun byte => rfl
  unfold IsScalar at h
  unfold bytes
  split
  · next h1 =>
      simp only [List.cons_append, List.nil_append, read, htoNat point (by omega), hstart]
      rw [lead, if_pos h1]
  · next h1 =>
      split
      · next h2 =>
          simp only [List.cons_append, List.nil_append, read,
            htoNat (0xc0 + point / 0x40) (by omega), htoNat (0x80 + point % 0x40) (by omega),
            hstart]
          rw [lead, if_neg (by omega), if_pos (by omega), step_last (by omega) (by omega)]
          have hpoint : (0xc0 + point / 0x40 - 0xc0) * 0x40 + (0x80 + point % 0x40 - 0x80) =
              point := by
            omega
          rw [hpoint]
          rfl
      · next h2 =>
          split
          · next h3 =>
              simp only [List.cons_append, List.nil_append, read,
                htoNat (0xe0 + point / 0x1000) (by omega),
                htoNat (0x80 + point / 0x40 % 0x40) (by omega),
                htoNat (0x80 + point % 0x40) (by omega), hstart]
              rw [lead, if_neg (by omega), if_neg (by omega), if_pos (by omega),
                step_inside (by split <;> omega) (by split <;> omega) (by omega),
                step_last (by omega) (by omega)]
              have hpoint : ((0xe0 + point / 0x1000 - 0xe0) * 0x40 +
                  (0x80 + point / 0x40 % 0x40 - 0x80)) * 0x40 + (0x80 + point % 0x40 - 0x80) =
                  point := by
                omega
              rw [hpoint]
              rfl
          · next h3 =>
              simp only [List.cons_append, List.nil_append, read,
                htoNat (0xf0 + point / 0x40000) (by omega),
                htoNat (0x80 + point / 0x1000 % 0x40) (by omega),
                htoNat (0x80 + point / 0x40 % 0x40) (by omega),
                htoNat (0x80 + point % 0x40) (by omega), hstart]
              rw [lead, if_neg (by omega), if_neg (by omega), if_neg (by omega), if_pos (by omega),
                step_inside (by split <;> omega) (by split <;> omega) (by omega),
                step_inside (by omega) (by omega) (by omega), step_last (by omega) (by omega)]
              have hpoint : (((0xf0 + point / 0x40000 - 0xf0) * 0x40 +
                  (0x80 + point / 0x1000 % 0x40 - 0x80)) * 0x40 +
                  (0x80 + point / 0x40 % 0x40 - 0x80)) * 0x40 + (0x80 + point % 0x40 - 0x80) =
                  point := by
                omega
              rw [hpoint]
              rfl

/-- A code point that is no unpaired surrogate is the code units of its scalar value. -/
theorem units_scalar {point : Text} (h : IsPoint point) (hpaired : isPaired point = true) :
    IsScalar (scalar point) ∧ Decoder.units (scalar point) = point := by
  cases h with
  | unit unit =>
    have hlt := unit.toNat_lt
    simp only [isPaired, Bool.not_eq_true'] at hpaired
    have hscalar : scalar [unit] = unit.toNat :=
      if_neg fun htrue => Bool.false_ne_true (hpaired.symm.trans htrue)
    rw [hscalar]
    refine ⟨?_, ?_⟩
    · simp only [isHigh, isLow, UInt16.le_iff_toNat_le, UInt16.lt_iff_toNat_lt,
        Bool.or_eq_false_iff, Bool.and_eq_false_iff, decide_eq_false_iff_not] at hpaired
      have hconst : (0xd800 : UInt16).toNat = 0xd800 ∧ (0xdc00 : UInt16).toNat = 0xdc00 ∧
          (0xe000 : UInt16).toNat = 0xe000 := ⟨rfl, rfl, rfl⟩
      unfold IsScalar
      omega
    · have hunit : unit.toNat < 0x10000 := hlt
      rw [Decoder.units, if_pos hunit, UInt16.ofNat_toNat]
  | pair first second hpair =>
    simp only [isHigh, isLow, Bool.and_eq_true, decide_eq_true_eq, UInt16.le_iff_toNat_le,
      UInt16.lt_iff_toNat_lt] at hpair
    have hconst : (0xd800 : UInt16).toNat = 0xd800 ∧ (0xdc00 : UInt16).toNat = 0xdc00 ∧
        (0xe000 : UInt16).toNat = 0xe000 := ⟨rfl, rfl, rfl⟩
    have hscalar : scalar [first, second] =
        0x10000 + (first.toNat - 0xd800) * 0x400 + (second.toNat - 0xdc00) := rfl
    rw [hscalar]
    refine ⟨?_, ?_⟩
    · unfold IsScalar
      omega
    · rw [Decoder.units, if_neg (by omega)]
      have hfirst : 0xd800 + (0x10000 + (first.toNat - 0xd800) * 0x400 +
          (second.toNat - 0xdc00) - 0x10000) / 0x400 = first.toNat := by omega
      have hsecond : 0xdc00 + (0x10000 + (first.toNat - 0xd800) * 0x400 +
          (second.toNat - 0xdc00) - 0x10000) % 0x400 = second.toNat := by omega
      rw [hfirst, hsecond, UInt16.ofNat_toNat, UInt16.ofNat_toNat]

theorem Decoder.read_encode {points : List Text} (hpoints : ∀ point ∈ points, IsPoint point)
    (hpaired : points.all isPaired = true) :
    start.read (points.flatMap fun point => bytes (scalar point)) = points.flatten := by
  induction points with
  | nil => rfl
  | cons point points ih =>
    rw [List.all_cons, Bool.and_eq_true] at hpaired
    obtain ⟨hscalar, hunits⟩ := units_scalar (hpoints point List.mem_cons_self) hpaired.1
    rw [List.flatMap_cons, read_bytes hscalar, hunits, List.flatten_cons,
      ih (fun other hother => hpoints other (List.mem_cons_of_mem _ hother)) hpaired.2]

/-- A well-formed string is read back from its bytes. -/
theorem decode_encode {text : Text} (h : isWellFormed text = true)
    (hmark : text.head? ≠ some 0xfeff) : decode (encode text) = text := by
  have hread : Decoder.start.read (encode text) = text :=
    (Decoder.read_encode (isPoint_of_mem text) h).trans (flatten_codePoints text)
  unfold decode
  rw [hread]
  cases text with
  | nil => rfl
  | cons unit rest =>
    have hunit : unit ≠ 0xfeff := fun heq => hmark (congrArg some heq)
    show (if unit = 0xfeff then rest else unit :: rest) = unit :: rest
    rw [if_neg hunit]

end Utf8
