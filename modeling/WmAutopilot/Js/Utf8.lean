import WmAutopilot.Js.Scan

/-!
# A decoder of UTF-8 that is given its bytes in parts

* `Utf8.Decoder`   what is kept of a sequence that is not complete;
* `Decoder.byte`   one byte: a byte that does not go on with a sequence ends it;
* `decodePart`, `Decoder.finish`   `decoder.decode(bytes, { stream })`;
* `decode`         the text of all bytes.
-/

set_option autoImplicit false

namespace Js
namespace Utf8

/-- what a `TextDecoder` keeps. -/
structure Decoder where
  /-- the bytes that are missing of a sequence. -/
  needed : ℕ := 0
  codePoint : ℕ := 0
  /-- the bounds of the next byte of the sequence. -/
  lower : ℕ := 0x80
  upper : ℕ := 0xBF
  /-- a character was put out, or a byte order mark dropped. -/
  started : Bool := false
  deriving DecidableEq, Repr

namespace Decoder

/-- the replacement character -/
def replacement : Char := Char.ofNat 0xFFFD

def byteOrderMark : Char := Char.ofNat 0xFEFF

/-- a sequence ends with a character. -/
def put (d : Decoder) (c : Char) : Decoder × List Char :=
  ({ started := true }, if d.started = true ∨ c ≠ byteOrderMark then [c] else [])

/-- the first byte of a sequence. -/
def lead (d : Decoder) (b : ℕ) : Decoder × List Char :=
  if b ≤ 0x7F then d.put (Char.ofNat b)
  else if 0xC2 ≤ b ∧ b ≤ 0xDF then ({ d with needed := 1, codePoint := b % 32 }, [])
  else if 0xE0 ≤ b ∧ b ≤ 0xEF then
    ({ d with
      needed := 2
      codePoint := b % 16
      lower := if b = 0xE0 then 0xA0 else 0x80
      upper := if b = 0xED then 0x9F else 0xBF }, [])
  else if 0xF0 ≤ b ∧ b ≤ 0xF4 then
    ({ d with
      needed := 3
      codePoint := b % 8
      lower := if b = 0xF0 then 0x90 else 0x80
      upper := if b = 0xF4 then 0x8F else 0xBF }, [])
  else d.put replacement

def byte (d : Decoder) (byte : UInt8) : Decoder × List Char :=
  let b := byte.toNat
  if d.needed = 0 then d.lead b
  else if b < d.lower ∨ d.upper < b then
    let broken := d.put replacement
    let next := broken.1.lead b
    (next.1, broken.2 ++ next.2)
  else if d.needed = 1 then d.put (Char.ofNat (d.codePoint * 64 + b % 64))
  else
    ({ needed := d.needed - 1, codePoint := d.codePoint * 64 + b % 64, started := d.started }, [])

/-- the end of the stream. -/
def finish (d : Decoder) : List Char := if d.needed = 0 then [] else (d.put replacement).2

end Decoder

/-- `decoder.decode(bytes, { stream: true })` -/
def decodePart : Decoder → List UInt8 → Decoder × List Char := scan Decoder.byte

/-- the text of all bytes. -/
def decode (bytes : List UInt8) : List Char :=
  (decodePart {} bytes).2 ++ (decodePart {} bytes).1.finish

example : decode [0xEF, 0xBB, 0xBF, 0xE2, 0x82, 0xAC, 0x41] = ['€', 'A'] := by decide

end Utf8
end Js
