import FoldTape.Text.Decimal
import FoldTape.Text.Quoted

/-!
# Text encodings

Bytes are decoded to text as UTF-8, as Latin-1 or as ASCII. UTF-8 is decoded byte by byte: a
byte either stands alone, or leads a sequence and announces how many bytes follow and in which
range the next one lies. The ranges are those of RFC 3629, so neither overlong forms nor
surrogates nor values above U+10FFFF are accepted.

An error names the bytes it blames by their positions, counted from zero.
-/

namespace FoldTape

/-- The encodings a text can be decoded from. -/
inductive Encoding where
  | utf8
  | latin1
  | ascii
  deriving DecidableEq, Repr

/-- Why bytes are not text. -/
inductive DecodeFault where
  /-- A byte that can neither stand alone nor lead a sequence. -/
  | invalidStart
  /-- A byte out of the range that its sequence demands. -/
  | invalidContinuation
  /-- The bytes end inside a sequence. -/
  | unexpectedEnd
  /-- A byte above 127 where only ASCII is allowed. -/
  | notAscii
  deriving DecidableEq, Repr

/-- A decoding error: the blamed bytes from `first` to `last`, and the value of the first. -/
structure DecodeError where
  fault : DecodeFault
  first : Nat
  last : Nat
  byte : UInt8
  deriving DecidableEq, Repr

/-! ## §1 UTF-8 -/

/-- An unfinished sequence: where it began, the bits gathered so far, how many bytes are still
missing, and the range that the next byte has to lie in. -/
structure Utf8Sequence where
  start : Nat
  lead : UInt8
  value : Nat
  missing : Nat
  low : UInt8
  high : UInt8

/-- The sequence that a byte leads, if it leads one. -/
def Utf8Sequence.ofLead? (position : Nat) (b : UInt8) : Option Utf8Sequence :=
  let bits (n : UInt8) : Nat := (b - n).toNat
  if 0xc2 ≤ b ∧ b ≤ 0xdf then some ⟨position, b, bits 0xc0, 1, 0x80, 0xbf⟩
  else if b = 0xe0 then some ⟨position, b, bits 0xe0, 2, 0xa0, 0xbf⟩
  else if b = 0xed then some ⟨position, b, bits 0xe0, 2, 0x80, 0x9f⟩
  else if 0xe1 ≤ b ∧ b ≤ 0xef then some ⟨position, b, bits 0xe0, 2, 0x80, 0xbf⟩
  else if b = 0xf0 then some ⟨position, b, bits 0xf0, 3, 0x90, 0xbf⟩
  else if 0xf1 ≤ b ∧ b ≤ 0xf3 then some ⟨position, b, bits 0xf0, 3, 0x80, 0xbf⟩
  else if b = 0xf4 then some ⟨position, b, bits 0xf0, 3, 0x80, 0x8f⟩
  else none

/-- Decodes bytes from a position on. `pending` is the sequence that has not ended yet and
`done` what has been decoded before, last character first. -/
def decodeUtf8From (position : Nat) (pending : Option Utf8Sequence) (done : List Char) :
    List UInt8 → Except DecodeError (List Char)
  | [] =>
    match pending with
    | none => .ok done.reverse
    | some s => .error ⟨.unexpectedEnd, s.start, position - 1, s.lead⟩
  | b :: rest =>
    match pending with
    | none =>
      if b < 0x80 then decodeUtf8From (position + 1) none (Char.ofNat b.toNat :: done) rest
      else
        match Utf8Sequence.ofLead? position b with
        | some s => decodeUtf8From (position + 1) (some s) done rest
        | none => .error ⟨.invalidStart, position, position, b⟩
    | some s =>
      if s.low ≤ b ∧ b ≤ s.high then
        let value := s.value * 64 + (b - 0x80).toNat
        if s.missing ≤ 1 then
          decodeUtf8From (position + 1) none (Char.ofNat value :: done) rest
        else
          decodeUtf8From (position + 1)
            (some { s with value, missing := s.missing - 1, low := 0x80, high := 0xbf }) done rest
      else .error ⟨.invalidContinuation, s.start, position - 1, s.lead⟩

/-! ## §2 Encodings of one byte to a character -/

/-- In Latin-1 every byte is the code point of a character. -/
def decodeLatin1 (bytes : List UInt8) : List Char :=
  bytes.map fun b => Char.ofNat b.toNat

/-- ASCII is Latin-1 without the upper half. -/
def decodeAscii (bytes : List UInt8) : Except DecodeError (List Char) :=
  match bytes.zipIdx.find? fun (b, _) => 0x80 ≤ b with
  | some (b, position) => .error ⟨.notAscii, position, position, b⟩
  | none => .ok (decodeLatin1 bytes)

/-- Decodes bytes to text. -/
def Encoding.decode : Encoding → List UInt8 → Except DecodeError (List Char)
  | .utf8, bytes => decodeUtf8From 0 none [] bytes
  | .latin1, bytes => .ok (decodeLatin1 bytes)
  | .ascii, bytes => decodeAscii bytes

/-! ## §3 Messages -/

/-- The name of the encoding whose rules were broken. -/
def DecodeFault.encodingName : DecodeFault → String
  | .notAscii => "ascii"
  | _ => "utf-8"

/-- The rule that was broken. -/
def DecodeFault.reason : DecodeFault → String
  | .invalidStart => "invalid start byte"
  | .invalidContinuation => "invalid continuation byte"
  | .unexpectedEnd => "unexpected end of data"
  | .notAscii => "ordinal not in range(128)"

/-- The text of a decoding error. A single blamed byte is shown, more are only located. -/
def DecodeError.message (e : DecodeError) : String :=
  let blamed :=
    if e.first = e.last then
      "byte 0x" ++ String.ofList (hexadecimal 2 e.byte.toNat) ++ " in position " ++
        decimalText e.first
    else "bytes in position " ++ decimalText e.first ++ "-" ++ decimalText e.last
  quoted e.fault.encodingName ++ " codec can't decode " ++ blamed ++ ": " ++ e.fault.reason

end FoldTape
