import Microcomputer.Board
import Microcomputer.MemoryMap
import Microcomputer.Text.Utf8

/-!
# The machine

A board whose bus has one RAM and one character output, placed by a memory map.  A reset restarts
the processor and empties the output; loading replaces the contents of the RAM.
-/

namespace Microcomputer

/-- Why a machine cannot be built, or stops. -/
inductive MachineError
  | overlap (base : UInt16)
  | bus (error : BusError)
  | cpu (error : CpuError)
  deriving DecidableEq

def MachineError.message : MachineError → String
  | .overlap base => "configuration error: " ++ (MemoryMap.Error.overlap base).message
  | .bus error => "bus error: " ++ error.message
  | .cpu error => "CPU error: " ++ error.message

/-- A processor and the bus that its map has set up. -/
structure Machine where
  board : Board
  map : MemoryMap
  deriving DecidableEq

namespace Machine

section Building

/-- A machine with an empty RAM. -/
def ofMap (map : MemoryMap) : Except MachineError Machine :=
  match map.overlap? with
  | some base => .error (.overlap base)
  | none =>
      match ({} : Bus).attachAll
          [.ram { base := map.ramBase }, .charOut { base := map.charOutBase }] with
      | .error e => .error (.bus e)
      | .ok bus => .ok { board := { bus }, map }

/-- Replace the contents of the RAM. -/
def load
    (m : Machine)
    (image : Image) :
    Machine :=
  { m with board := { m.board with bus := m.board.bus.load image } }

/-- Restart the processor and empty the output. -/
def reset (m : Machine) : Machine :=
  { m with board := { cpu := {}, bus := m.board.bus.clear } }

def setRegisters
    (m : Machine)
    (regs : Registers) :
    Machine :=
  { m with board := { m.board with cpu := { m.board.cpu with regs } } }

end Building

section Driving

/-- Put the outcome of driving a board back into its machine. -/
def ofBoard
    {α : Type}
    (map : MemoryMap)
    (outcome : Except CpuError α × Board) :
    Except MachineError α × Machine :=
  (outcome.1.mapError .cpu, { board := outcome.2, map })

def tick (m : Machine) : Except MachineError Unit × Machine :=
  ofBoard m.map m.board.tick

def run
    (count : Nat)
    (m : Machine) :
    Except MachineError Unit × Machine :=
  ofBoard m.map (m.board.run count)

/-- Tick to the end of the current or next instruction, and tell how many ticks that took. -/
def step (m : Machine) : Except MachineError Nat × Machine :=
  ofBoard m.map m.board.step

end Driving

section Views

def cpu (m : Machine) : Cpu :=
  m.board.cpu

def bus (m : Machine) : Bus :=
  m.board.bus

def memory (m : Machine) : Image :=
  m.bus.memory

def output (m : Machine) : Array UInt8 :=
  m.bus.output

/-- The output as text, with U+FFFD in the place of every ill-formed part. -/
def outputText (m : Machine) : String :=
  Text.ofUtf8Repaired m.output

/-- The offset in the RAM that an address would have, counted round the address space. -/
def offsetOf
    (m : Machine)
    (address : UInt16) :
    Nat :=
  (address - m.map.ramBase).toNat

/-- The address of the byte at an offset of the RAM, unless it lies beyond the address space. -/
def addressOf?
    (m : Machine)
    (offset : Nat) :
    Option UInt16 :=
  if m.map.ramBase.toNat + offset < 65536 then
    some (UInt16.ofNat (m.map.ramBase.toNat + offset))
  else
    none

def summary (m : Machine) : String :=
  "System \x7b cpu: " ++ m.cpu.summary ++ ", bus: " ++ m.bus.summary
    ++ ", config: " ++ m.map.summary ++ " \x7d"

end Views

end Machine
end Microcomputer
