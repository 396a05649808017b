import Groundlane.Text.Lines
import Groundlane.Text.QuotedPrintable
import Groundlane.Text.Utf8

/-!
# Percent-encoding

`decodeURIComponent`, which reads the escaped bytes between other units as UTF-8 and throws where
they are malformed.
-/

namespace Percent

open Utf16

/-- `%`. -/
def percent : UInt16 := 0x25

/-- One more escaped byte: the code units that it completes and the next state, unless it cannot
stand here. -/
def step (state : Utf8.Decoder) (byte : Nat) : Option (Text × Utf8.Decoder) :=
  if state.needed = 0 then
    if byte < 0x80 ∨ (0xc2 ≤ byte ∧ byte ≤ 0xf4) then some (Utf8.Decoder.lead byte) else none
  else if byte < state.lower ∨ state.upper < byte then none
  else some (state.step byte)

/-- The text behind some escaped bytes. -/
def read (state : Utf8.Decoder) : Text → Option Text
  | [] => if state.needed = 0 then some [] else none
  | unit :: rest =>
    if unit = percent then
      match rest with
      | high :: low :: rest =>
        (QuotedPrintable.hexPair [high, low]).bind fun byte =>
          (step state byte).bind fun next => (read next.2 rest).map (next.1 ++ ·)
      | _ => none
    else if state.needed = 0 then (read state rest).map (unit :: ·)
    else none

/-- `decodeURIComponent`, if it does not throw. -/
def decodeURIComponent (text : Text) : Option Text := read .start text

end Percent
