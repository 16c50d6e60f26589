import Microcomputer.Text.Numeral

/-!
# Devices

* A RAM holds the image that was last loaded into it.  Its byte at offset `k` answers to the
  address `base + k`, without wrapping.
* A character output takes every byte written to it, and cannot be read.
-/

namespace Microcomputer

/-- A flat image: the bytes of a program or of a memory, the first one at offset zero. -/
abbrev Image := Array UInt8

inductive BusError
  | unmapped (address : UInt16)
  /-- The address belongs to a character output, which cannot be read. -/
  | writeOnly (address : UInt16)
  /-- The address belongs to a RAM, but lies outside the loaded image. -/
  | outOfBounds (address : UInt16)
  | duplicateBase (base : UInt16)
  deriving DecidableEq

namespace Device

def ramName : String := "ram"

def charOutName : String := "char-out"

end Device

def BusError.message : BusError → String
  | .unmapped address =>
      "no device mapped at address " ++ Text.hexLiteral 4 address.toNat
  | .writeOnly address =>
      Device.charOutName ++ " is write-only (read at " ++ Text.hexLiteral 4 address.toNat ++ ")"
  | .outOfBounds address =>
      "address " ++ Text.hexLiteral 4 address.toNat ++ " is outside the loaded "
        ++ Device.ramName ++ " image"
  | .duplicateBase base =>
      "a device is already mapped at base " ++ Text.hexLiteral 4 base.toNat

/-- Main memory: an image that answers from `base` upwards. -/
structure Ram where
  base : UInt16
  contents : Image := #[]
  deriving DecidableEq

namespace Ram

/-- The offset of an address in the image, if the image reaches that far. -/
def offset?
    (ram : Ram)
    (address : UInt16) :
    Option (Fin ram.contents.size) :=
  if h : ram.base ≤ address ∧ address.toNat - ram.base.toNat < ram.contents.size then
    some ⟨address.toNat - ram.base.toNat, h.2⟩
  else
    none

def read
    (ram : Ram)
    (address : UInt16) :
    Except BusError UInt8 :=
  match ram.offset? address with
  | some k => .ok ram.contents[k]
  | none => .error (.outOfBounds address)

def write
    (ram : Ram)
    (address : UInt16)
    (value : UInt8) :
    Except BusError Ram :=
  match ram.offset? address with
  | some k => .ok { ram with contents := ram.contents.set k value }
  | none => .error (.outOfBounds address)

theorem offset?_eq_some_iff
    {ram : Ram}
    {address : UInt16}
    {k : Fin ram.contents.size} :
    ram.offset? address = some k ↔
      ram.base ≤ address ∧ k.val = address.toNat - ram.base.toNat := by
  unfold offset?
  split
  · next h =>
      constructor
      · intro hk
        cases hk
        exact ⟨h.1, rfl⟩
      · rintro ⟨_, hk⟩
        exact congrArg some (Fin.ext hk.symm)
  · next h =>
      constructor
      · intro hk
        cases hk
      · rintro ⟨hb, hk⟩
        exact absurd ⟨hb, hk ▸ k.isLt⟩ h

def load
    (ram : Ram)
    (image : Image) :
    Ram :=
  { ram with contents := image }

/-- The address label of the byte at an offset, counted round the address space. -/
def label
    (ram : Ram)
    (offset : Nat) :
    UInt16 :=
  ram.base + UInt16.ofNat offset

/-- Up to `count` labelled bytes, from `start` or the base on. -/
def dump
    (ram : Ram)
    (start : UInt16)
    (count : Nat) :
    List (UInt16 × UInt8) :=
  let first := start.toNat - ram.base.toNat
  ((ram.contents.toList.drop first).take count).mapIdx fun k byte =>
    (ram.label (first + k), byte)

def summary (ram : Ram) : String :=
  "Ram \x7b base: " ++ Text.hexLiteral 4 ram.base.toNat
    ++ ", len: " ++ Text.decimal ram.contents.size
    ++ ", non_zero_bytes: " ++ Text.decimal (ram.contents.countP (· != 0)) ++ " \x7d"

end Ram

/-- The character output: every byte written to it, the oldest first. -/
structure CharOut where
  base : UInt16
  buffer : Array UInt8 := #[]
  deriving DecidableEq

namespace CharOut

def push
    (out : CharOut)
    (value : UInt8) :
    CharOut :=
  { out with buffer := out.buffer.push value }

def clear (out : CharOut) : CharOut :=
  { out with buffer := #[] }

def summary (out : CharOut) : String :=
  "CharOut \x7b base: " ++ Text.decimal out.base.toNat
    ++ ", buffer: ["
    ++ ", ".intercalate (out.buffer.toList.map fun b => Text.decimal b.toNat) ++ "] \x7d"

end CharOut

inductive Device
  | ram (ram : Ram)
  | charOut (out : CharOut)
  deriving DecidableEq

namespace Device

def base : Device → UInt16
  | ram r => r.base
  | charOut out => out.base

def name : Device → String
  | ram _ => ramName
  | charOut _ => charOutName

def read
    (device : Device)
    (address : UInt16) :
    Except BusError UInt8 :=
  match device with
  | ram r => r.read address
  | charOut _ => .error (.writeOnly address)

def write
    (device : Device)
    (address : UInt16)
    (value : UInt8) :
    Except BusError Device :=
  match device with
  | ram r => (r.write address value).map ram
  | charOut out => .ok (charOut (out.push value))

def summary : Device → String
  | ram r => r.summary
  | charOut out => out.summary

end Device
end Microcomputer
