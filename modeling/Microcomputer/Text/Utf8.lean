/-!
# UTF-8

**State.**  Inside a character the decoder remembers the bytes that are still wanted, the bits read
so far, and the range of the next byte, which keeps out overlong forms, surrogates and numbers above
`10FFFF`.

**Defects.**  A byte that cannot continue the pending character ends it as a defect and is read
again.  `ofUtf8?` refuses text with a defect; `ofUtf8Repaired` puts U+FFFD in the place of each.
-/

namespace Microcomputer
namespace Text
namespace Utf8

/-- A character of which some bytes have been read. -/
structure Pending where
  /-- Bytes still wanted. -/
  wanted : Nat
  /-- Bits read so far. -/
  bits : Nat
  /-- Least value of the next byte. -/
  low : UInt8
  /-- Greatest value of the next byte. -/
  high : UInt8
  deriving DecidableEq

/-- What a byte means where a character may start. -/
inductive Lead
  | complete (c : Char)
  | opening (pending : Pending)
  | illFormed

def lead (b : UInt8) : Lead :=
  if b < 0x80 then .complete (Char.ofNat b.toNat)
  else if b < 0xC2 then .illFormed
  else if b < 0xE0 then .opening ⟨1, b.toNat - 0xC0, 0x80, 0xBF⟩
  else if b = 0xE0 then .opening ⟨2, 0, 0xA0, 0xBF⟩
  else if b = 0xED then .opening ⟨2, 0xD, 0x80, 0x9F⟩
  else if b < 0xF0 then .opening ⟨2, b.toNat - 0xE0, 0x80, 0xBF⟩
  else if b = 0xF0 then .opening ⟨3, 0, 0x90, 0xBF⟩
  else if b < 0xF4 then .opening ⟨3, b.toNat - 0xF0, 0x80, 0xBF⟩
  else if b = 0xF4 then .opening ⟨3, 4, 0x80, 0x8F⟩
  else .illFormed

/-- The characters and defects (`none`) read so far, and the character being read. -/
structure Decoder where
  pieces : Array (Option Char) := #[]
  pending : Option Pending := none

namespace Decoder

/-- Read a byte between two characters. -/
def start
    (pieces : Array (Option Char))
    (b : UInt8) :
    Decoder :=
  match lead b with
  | .complete c => { pieces := pieces.push (some c) }
  | .opening pending => { pieces, pending := some pending }
  | .illFormed => { pieces := pieces.push none }

def read
    (decoder : Decoder)
    (b : UInt8) :
    Decoder :=
  match decoder.pending with
  | none => start decoder.pieces b
  | some pending =>
      if pending.low ≤ b ∧ b ≤ pending.high then
        let bits := pending.bits * 64 + (b.toNat - 0x80)
        if pending.wanted ≤ 1 then
          { pieces := decoder.pieces.push (some (Char.ofNat bits)) }
        else
          { pieces := decoder.pieces
            pending := some ⟨pending.wanted - 1, bits, 0x80, 0xBF⟩ }
      else
        start (decoder.pieces.push none) b

/-- Everything read, an unfinished character at the end being a defect. -/
def finish (decoder : Decoder) : List (Option Char) :=
  match decoder.pending with
  | none => decoder.pieces.toList
  | some _ => (decoder.pieces.push none).toList

end Decoder

/-- The characters and defects of a byte sequence, in order. -/
def pieces (bytes : Array UInt8) : List (Option Char) :=
  (bytes.foldl Decoder.read {}).finish

end Utf8

/-- The text that the bytes encode, or nothing if they are ill-formed anywhere. -/
def ofUtf8? (bytes : Array UInt8) : Option String :=
  ((Utf8.pieces bytes).mapM id).map String.ofList

/-- The text that the bytes encode, with U+FFFD in the place of every defect. -/
def ofUtf8Repaired (bytes : Array UInt8) : String :=
  String.ofList ((Utf8.pieces bytes).map (·.getD '\uFFFD'))

example : ofUtf8Repaired #[0x41, 0xE2, 0x82, 0xAC, 0xE2, 0x82, 0x42] = "A€\uFFFDB" := by
  decide +kernel

example : ofUtf8? #[0xED, 0xA0, 0x80] = none := by decide +kernel

end Text
end Microcomputer
