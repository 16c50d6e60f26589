import Microcomputer.Device
import Microcomputer.Instruction

/-!
# Listings

**Sweep.**  A byte that stands for an instruction, with at least two more bytes after it, is taken
together with these; every other byte is taken alone.

**Listing.**  After a heading, one line for each piece: its address, its bytes, and the statement
that assembles to them.
-/

namespace Microcomputer

inductive Piece
  | instruction (instruction : Instruction) (address : UInt16)
  | byte (value : UInt8)
  deriving DecidableEq

namespace Piece

def size : Piece → Nat
  | instruction _ _ => Instruction.size
  | byte _ => 1

def text : Piece → String
  | instruction i address => i.written address
  | byte value => "db " ++ Text.hexLiteral 2 value.toNat

def addressOf
    (low high : UInt8) :
    UInt16 :=
  low.toUInt16 + high.toUInt16 * 256

/-- The piece that starts at an offset of an image, if the image reaches that far. -/
def at?
    (image : Image)
    (offset : Nat) :
    Option Piece :=
  match image[offset]? with
  | none => none
  | some value =>
      match Instruction.ofOpcode? value, image[offset + 1]?, image[offset + 2]? with
      | some i, some low, some high => some (instruction i (addressOf low high))
      | _, _, _ => some (byte value)

theorem size_pos (piece : Piece) : 0 < piece.size := by
  cases piece <;> simp [size, Instruction.size]

theorem at?_eq_none_iff
    {image : Image}
    {offset : Nat} :
    at? image offset = none ↔ image.size ≤ offset := by
  unfold at?
  split
  · next h => simpa using h
  · next h =>
      have : offset < image.size := by
        rcases Nat.lt_or_ge offset image.size with hlt | hge
        · exact hlt
        · simp [hge] at h
      split <;> simp <;> omega

/-- The text of the piece at an offset, and its bytes. -/
def describe
    (image : Image)
    (offset : Nat) :
    String × Nat :=
  match at? image offset with
  | some piece => (piece.text, piece.size)
  | none => ("", 0)

end Piece

namespace Listing

/-- The pieces of an image from an offset on, each with its offset, after those in `done`. -/
def sweepFrom
    (image : Image)
    (done : Array (Nat × Piece))
    (offset : Nat) :
    Array (Nat × Piece) :=
  match _found : Piece.at? image offset with
  | none => done
  | some piece => sweepFrom image (done.push (offset, piece)) (offset + piece.size)
termination_by image.size - offset
decreasing_by
  have hlt : offset < image.size := by
    rcases Nat.lt_or_ge offset image.size with h | h
    · exact h
    · simp [Piece.at?_eq_none_iff.2 h] at _found
  have := piece.size_pos
  omega

def sweep (image : Image) : List (Nat × Piece) :=
  (sweepFrom image #[] 0).toList

def heading : String :=
  "; micro0 disassembly\n; ------------------\n\n"

/-- The line for a piece at an offset of an image that starts at `origin`. -/
def line
    (image : Image)
    (origin : UInt16)
    (offset : Nat)
    (piece : Piece) :
    String :=
  let address := origin + UInt16.ofNat offset
  let bytes := (image.extract offset (offset + piece.size)).toList
  let raw := " ".intercalate (bytes.map fun b => Text.hex 2 b.toNat)
  Text.hex 4 address.toNat ++ ":  " ++ Text.alignLeft 9 raw ++ " " ++ piece.text ++ "\n"

def text
    (image : Image)
    (origin : UInt16) :
    String :=
  heading ++ String.join ((sweep image).map fun entry => line image origin entry.1 entry.2)

end Listing
end Microcomputer
