import Groundlane.Email.Extract
import Groundlane.Parser.Mime

/-!
# Transfer encodings

The three decoders of MIME bodies on the base64 and quoted-printable encodings of bytes. The
extraction of emails reads the escaped bytes of a quoted-printable body as a string, and writes
this as UTF-8, and returns the string of the bytes where their text is asked for. It inverts an
encoding and agrees with the bounded parser if and only if no byte is outside ASCII, or the body is
in base64 and the bytes are no text (`decoders_invert_iff`).
-/

namespace Groundlane.Email

open Utf16 Utf8

inductive TransferEncoding where
  | base64
  | quotedPrintable
deriving DecidableEq, Repr

/-- The value of `Content-Transfer-Encoding`. -/
def TransferEncoding.name : TransferEncoding → Text
  | base64 => ascii "base64"
  | quotedPrintable => ascii "quoted-printable"

/-- The text is the bytes in base64, with any line wrapping, or one of their quoted-printable
forms. -/
def TransferEncoding.Encodes (bytes : List UInt8) (text : Text) : TransferEncoding → Prop
  | base64 => text.filter (fun unit => !isWhiteSpace unit) = Base64.encode bytes
  | quotedPrintable => QuotedPrintable.Encodes bytes text

/-- The bytes are returned, and where they are a text both engines return it. -/
structure Inverts (encoding : TransferEncoding) (bytes : List UInt8) (body : Text) : Prop where
  inverse : decodeMimeBody body encoding.name = bytes
  agree : ∀ text, IsTextOf bytes text →
    decodeMimeBodyText body encoding.name = text ∧
      Parser.decodeMimeBody body encoding.name = .ok text

variable {bytes : List UInt8} {body : Text}

/-! ## Base64 -/

/-- The bounded parser takes the padded texts of bytes. -/
theorem isCompactBase64_encode (bytes : List UInt8) :
    Parser.isCompactBase64 (Base64.encode bytes) = true := by
  obtain ⟨hshort, hgroups, hequals⟩ := Base64.padding_spec (Base64.length_sextets bytes)
  have hpadding : (Base64.encode bytes).dropWhile (fun unit => (Base64.sextet unit).isSome) =
      Base64.padding (Base64.sextets bytes).length := by
    unfold Base64.encode
    rw [List.dropWhile_append_of_pos fun unit hunit => (Base64.letter_of_mem hunit).1]
    -- The padding starts with no letter.
    cases hpadding : Base64.padding (Base64.sextets bytes).length with
    | nil => rfl
    | cons unit rest =>
      rw [hequals unit (hpadding ▸ List.mem_cons_self)]
      rfl
  have hlength : (Base64.encode bytes).length % 4 = 0 := by
    unfold Base64.encode
    rw [List.length_append, List.length_map]
    exact hgroups
  unfold Parser.isCompactBase64
  simp only [hpadding, Bool.and_eq_true, decide_eq_true_eq, List.all_eq_true]
  exact ⟨⟨hshort, hequals⟩, hlength⟩

theorem decodeMimeBody_base64 (h : TransferEncoding.base64.Encodes bytes body) :
    decodeMimeBody body TransferEncoding.base64.name = bytes ∧
      decodeMimeBodyText body TransferEncoding.base64.name = latin1 bytes ∧
      Parser.decodeMimeBody body TransferEncoding.base64.name =
        .ok (Decoder.start.read bytes) := by
  have hfilter : body.filter (fun unit => !isWhiteSpace unit) = Base64.encode bytes := h
  have hname : TransferEncoding.base64.name = ascii "base64" := rfl
  refine ⟨?_, ?_, ?_⟩
  · unfold decodeMimeBody
    rw [if_pos hname, hfilter, Base64.atob_encode]
    rfl
  · unfold decodeMimeBodyText
    rw [if_pos hname, hfilter, Base64.atob_encode]
    rfl
  · unfold Parser.decodeMimeBody
    simp only [hfilter]
    rw [if_pos hname, if_pos (isCompactBase64_encode bytes), Base64.atob_encode]
    rfl

/-! ## Quoted-printable -/

theorem decodeMimeBody_quotedPrintable (h : TransferEncoding.quotedPrintable.Encodes bytes body) :
    decodeMimeBody body TransferEncoding.quotedPrintable.name = encode (latin1 bytes) ∧
      decodeMimeBodyText body TransferEncoding.quotedPrintable.name = latin1 bytes ∧
      Parser.decodeMimeBody body TransferEncoding.quotedPrintable.name =
        .ok (Decoder.start.read bytes) := by
  have hdecode : QuotedPrintable.decode body = latin1 bytes :=
    QuotedPrintable.decode_of_encodes h
  have hname : TransferEncoding.quotedPrintable.name = ascii "quoted-printable" := rfl
  have hother : TransferEncoding.quotedPrintable.name ≠ ascii "base64" := by decide +kernel
  refine ⟨?_, ?_, ?_⟩
  · unfold decodeMimeBody
    rw [if_neg hother, if_pos hname, hdecode]
  · unfold decodeMimeBodyText
    rw [if_neg hother, if_pos hname, hdecode]
  · unfold Parser.decodeMimeBody Parser.decodeQuotedPrintable
    rw [if_neg hother, if_pos hname, hdecode, toLatin1_latin1]
    rfl

/-! ## The three decoders -/

/-- The decoders invert an encoding and agree if and only if the bytes are ASCII, or are in base64
and no text. -/
theorem decoders_invert_iff {encoding : TransferEncoding} (h : encoding.Encodes bytes body) :
    Inverts encoding bytes body ↔
      IsAscii bytes ∨ encoding = .base64 ∧ ¬ ∃ text, IsTextOf bytes text := by
  cases encoding with
  | base64 =>
      obtain ⟨hbytes, htext, hparser⟩ := decodeMimeBody_base64 h
      constructor
      · intro hinverts
        by_cases hsome : ∃ text, IsTextOf bytes text
        · obtain ⟨text, hof⟩ := hsome
          exact .inl (hof.latin1_iff.1 (htext.symm.trans (hinverts.agree text hof).1))
        · exact .inr ⟨rfl, hsome⟩
      · intro hcondition
        refine ⟨hbytes, fun text hof => ?_⟩
        rcases hcondition with hascii | ⟨-, hnone⟩
        · exact ⟨htext.trans (hof.latin1_iff.2 hascii), hparser.trans (congrArg _ hof.read)⟩
        · exact absurd ⟨text, hof⟩ hnone
  | quotedPrintable =>
      obtain ⟨hbytes, htext, hparser⟩ := decodeMimeBody_quotedPrintable h
      constructor
      · intro hinverts
        exact .inl (encode_latin1_iff.1 (hbytes.symm.trans hinverts.inverse))
      · rintro (hascii | ⟨hother, -⟩)
        · exact ⟨hbytes.trans (encode_latin1_iff.2 hascii), fun text hof =>
            ⟨htext.trans (hof.latin1_iff.2 hascii), hparser.trans (congrArg _ hof.read)⟩⟩
        · cases hother

/-! ## A letter outside ASCII -/

/-- The UTF-8 bytes of an e with an acute accent. -/
def sampleBytes : List UInt8 := [0xc3, 0xa9]

theorem isTextOf_sampleBytes : IsTextOf sampleBytes [0xe9] := by
  exact ⟨by decide +kernel, by decide +kernel⟩

theorem encodes_sampleBytes :
    TransferEncoding.quotedPrintable.Encodes sampleBytes (ascii "=C3=\r\n=A9") ∧
      TransferEncoding.base64.Encodes [0x61, 0x62] (ascii "YW\r\nI=") :=
  ⟨.escape (by decide +kernel) (.softBreak (.escape (by decide +kernel) .nil)),
    by show List.filter _ _ = _; decide +kernel⟩

/-- The letter is not inverted, and two ASCII letters are. -/
theorem decoders_invert_sample :
    ¬ Inverts .quotedPrintable sampleBytes (ascii "=C3=\r\n=A9") ∧
      Inverts .base64 [0x61, 0x62] (ascii "YW\r\nI=") := by
  obtain ⟨hquoted, hbase64⟩ := encodes_sampleBytes
  refine ⟨fun hinverts => ?_, (decoders_invert_iff hbase64).2 (.inl ?_)⟩
  · rcases (decoders_invert_iff hquoted).1 hinverts with hascii | ⟨hother, -⟩
    · exact absurd (hascii 0xc3 List.mem_cons_self) (by decide)
    · cases hother
  · show ∀ byte ∈ [0x61, 0x62], byte < 0x80
    simp

/-- The escaped bytes of the letter come back as four bytes, and its text as two letters. -/
theorem escaped_letter_garbled :
    TransferEncoding.quotedPrintable.Encodes sampleBytes (ascii "=C3=A9") ∧
      IsTextOf sampleBytes [0xe9] ∧
      decodeMimeBody (ascii "=C3=A9") TransferEncoding.quotedPrintable.name ≠ sampleBytes ∧
      decodeMimeBodyText (ascii "=C3=A9") TransferEncoding.quotedPrintable.name ≠ [0xe9] ∧
      Parser.decodeMimeBody (ascii "=C3=A9") TransferEncoding.quotedPrintable.name =
        .ok [0xe9] := by
  have hencodes : TransferEncoding.quotedPrintable.Encodes sampleBytes (ascii "=C3=A9") :=
    .escape (by decide +kernel) (.escape (by decide +kernel) .nil)
  obtain ⟨hbytes, htext, hparser⟩ := decodeMimeBody_quotedPrintable hencodes
  rw [hbytes, htext, hparser, isTextOf_sampleBytes.read]
  exact ⟨hencodes, isTextOf_sampleBytes, by decide +kernel, by decide +kernel, rfl⟩

end Groundlane.Email
