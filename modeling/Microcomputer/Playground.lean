import Microcomputer.Assembly.Image
import Microcomputer.Listing
import Microcomputer.Machine
import Microcomputer.Snapshot

/-!
# The playground

A machine with the standard memory map for a page that assembles, loads and runs programs.  A reset
loads the last image again.
-/

namespace Microcomputer

/-- A machine and the image that it was loaded with. -/
structure Playground where
  machine : Machine
  program : Image := #[]
  deriving DecidableEq

namespace Playground

def start : Except MachineError Playground :=
  (Machine.ofMap {}).map fun machine => { machine }

/-- Load an image into a machine that has just been reset. -/
def loadImage
    (p : Playground)
    (image : Image) :
    Playground :=
  { machine := p.machine.reset.load image, program := image }

def loadSource
    (p : Playground)
    (source : String) :
    Except AssemblyError Playground :=
  (assemble source).map p.loadImage

def tick (p : Playground) : Except MachineError Unit × Playground :=
  let (result, machine) := p.machine.tick
  (result, { p with machine })

/-- Run an instruction, and tell what the memory shows where it stood. -/
def step (p : Playground) : Except MachineError String × Playground :=
  let offset := p.machine.offsetOf p.machine.cpu.regs.pc
  let (result, machine) := p.machine.step
  (result.map fun _ => (Piece.describe machine.memory offset).1, { p with machine })

/-- Tick `count` times, and tell how many ticks there were since the reset. -/
def run
    (count : Nat)
    (p : Playground) :
    Except MachineError UInt64 × Playground :=
  let (result, machine) := p.machine.run count
  (result.map fun _ => machine.cpu.cycles, { p with machine })

def reset (p : Playground) : Playground :=
  p.loadImage p.program

/-- The byte at an offset of the memory; zero beyond its end. -/
def byteAt
    (p : Playground)
    (offset : Nat) :
    UInt8 :=
  p.machine.memory[offset]?.getD 0

def cpuText (p : Playground) : String :=
  (Snapshot.ofCpu p.machine.cpu).compact

end Playground
end Microcomputer
