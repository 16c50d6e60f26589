import Microcomputer.Device

/-!
# The bus

Devices are kept with the highest base first, and no two have the same base.  An address belongs to
the first device whose base is not above it, so a small device can be laid over a larger one.
-/

namespace Microcomputer

namespace ByBase

variable {α : Type}

/-- Put an item before the first one with a lower base. -/
def insert
    (base : α → UInt16)
    (item : α) :
    List α → List α
  | [] => [item]
  | other :: rest =>
      if base other < base item then
        item :: other :: rest
      else
        other :: insert base item rest

@[simp]
theorem mem_insert
    {base : α → UInt16}
    {item other : α}
    {items : List α} :
    other ∈ insert base item items ↔ other = item ∨ other ∈ items := by
  induction items with
  | nil => simp [insert]
  | cons first rest ih =>
      unfold insert
      split
      · simp
      · simp only [List.mem_cons, ih]
        exact or_left_comm

end ByBase

/-- The devices of a machine, the one with the highest base first. -/
structure Bus where
  devices : List Device := []
  deriving DecidableEq

namespace Bus

section Attaching

/-- Put one more device on the bus, unless its base is taken. -/
def attach
    (bus : Bus)
    (device : Device) :
    Except BusError Bus :=
  if bus.devices.any fun d => d.base == device.base then
    .error (.duplicateBase device.base)
  else
    .ok { devices := ByBase.insert Device.base device bus.devices }

def attachAll
    (bus : Bus) :
    List Device → Except BusError Bus
  | [] => .ok bus
  | device :: rest =>
      match bus.attach device with
      | .ok next => next.attachAll rest
      | .error e => .error e

end Attaching

section Access

/-- The device that an address belongs to. -/
def route?
    (bus : Bus)
    (address : UInt16) :
    Option Device :=
  bus.devices.find? fun d => d.base ≤ address

def read
    (bus : Bus)
    (address : UInt16) :
    Except BusError UInt8 :=
  match bus.route? address with
  | some device => device.read address
  | none => .error (.unmapped address)

/-- Write a byte at an address of the first device, in order, whose base is not above it. -/
def writeFirst
    (address : UInt16)
    (value : UInt8) :
    List Device → Except BusError (List Device)
  | [] => .error (.unmapped address)
  | d :: rest =>
      if d.base ≤ address then
        (d.write address value).map (· :: rest)
      else
        (writeFirst address value rest).map (d :: ·)

def write
    (bus : Bus)
    (address : UInt16)
    (value : UInt8) :
    Except BusError Bus :=
  (writeFirst address value bus.devices).map fun devices => { devices }

end Access

section Devices

/-- The first RAM in routing order. -/
def ram? (bus : Bus) : Option Ram :=
  bus.devices.findSome? fun
    | .ram r => some r
    | .charOut _ => none

/-- The first character output in routing order. -/
def charOut? (bus : Bus) : Option CharOut :=
  bus.devices.findSome? fun
    | .ram _ => none
    | .charOut out => some out

def loadFirst (image : Image) : List Device → List Device
  | [] => []
  | .ram r :: rest => .ram (r.load image) :: rest
  | d :: rest => d :: loadFirst image rest

/-- Replace the image of the first RAM in routing order, if there is a RAM. -/
def load
    (bus : Bus)
    (image : Image) :
    Bus :=
  { devices := loadFirst image bus.devices }

def clearFirst : List Device → List Device
  | [] => []
  | .charOut out :: rest => .charOut out.clear :: rest
  | d :: rest => d :: clearFirst rest

/-- Empty the first character output in routing order, if there is one. -/
def clear (bus : Bus) : Bus :=
  { devices := clearFirst bus.devices }

/-- The image of the first RAM, or no bytes. -/
def memory (bus : Bus) : Image :=
  (bus.ram?.map (·.contents)).getD #[]

/-- The bytes written to the first character output, or no bytes. -/
def output (bus : Bus) : Array UInt8 :=
  (bus.charOut?.map (·.buffer)).getD #[]

def summary (bus : Bus) : String :=
  let entry (d : Device) := "\"" ++ d.name ++ "@" ++ Text.hexLiteral 4 d.base.toNat ++ "\""
  "Bus \x7b devices: [" ++ ", ".intercalate (bus.devices.map entry) ++ "] \x7d"

end Devices

end Bus
end Microcomputer
