import Microcomputer.Listing
import Microcomputer.Machine

/-!
# The debugger

A machine with a program that can be loaded again, breakpoints, continuous execution and a view of
memory.  Continuous execution ends on a fault and where the program counter meets a breakpoint; a
breakpoint at the start does not stop the first instruction.
-/

namespace Microcomputer

inductive Status
  | ready
  | ticked (cycles : UInt64) (phase : Phase)
  | stepped (pc : UInt16) (text : String) (ticks : Nat)
  | failed (error : MachineError)
  | running
  | faultedAfter (cycles : UInt64)
  | stoppedAt (pc : UInt16)
  | breakpointSet (pc : UInt16)
  | breakpointRemoved (pc : UInt16)
  | reset
  deriving DecidableEq

def Status.text : Status → String
  | .ready => "Ready. 't' tick, 's' step, 'r' run, 'q' quit."
  | .ticked cycles phase => "tick " ++ Text.decimal cycles.toNat ++ " → " ++ phase.name
  | .stepped pc text ticks =>
      Text.hex 4 pc.toNat ++ ": " ++ text ++ " (" ++ Text.decimal ticks ++ " ticks)"
  | .failed error => "Error: " ++ error.message
  | .running => "Running..."
  | .faultedAfter cycles => "Faulted after " ++ Text.decimal cycles.toNat ++ " ticks"
  | .stoppedAt pc => "Breakpoint at PC=" ++ Text.hex 4 pc.toNat
  | .breakpointSet pc => "Set breakpoint at PC=" ++ Text.hex 4 pc.toNat
  | .breakpointRemoved pc => "Removed breakpoint at PC=" ++ Text.hex 4 pc.toNat
  | .reset => "Reset. Ready."

structure Debugger where
  machine : Machine
  /-- The image that a reset loads again. -/
  program : Image
  /-- Addresses where continuous execution stops, in ascending order. -/
  breakpoints : List UInt16 := []
  running : Bool := false
  quitting : Bool := false
  status : Status := .ready
  /-- The first row of memory in view. -/
  scroll : Nat := 0
  deriving DecidableEq

namespace Debugger

def rowBytes : Nat := 16

/-- A debugger for a program on a machine with a memory map. -/
def start
    (program : Image)
    (map : MemoryMap) :
    Except MachineError Debugger :=
  (Machine.ofMap map).map fun m => { machine := m.load program, program }

section Driving

def fail
    (d : Debugger)
    (error : MachineError) :
    Debugger :=
  { d with status := .failed error, running := false }

def tick (d : Debugger) : Debugger :=
  match d.machine.tick with
  | (.ok (), machine) =>
      { d with machine, status := .ticked machine.cpu.cycles machine.cpu.phase }
  | (.error e, machine) => { d with machine }.fail e

def shownAt
    (machine : Machine)
    (address : UInt16) :
    String :=
  (Piece.describe machine.memory (machine.offsetOf address)).1

def step (d : Debugger) : Debugger :=
  let pc := d.machine.cpu.regs.pc
  match d.machine.step with
  | (.ok ticks, machine) =>
      { d with machine, status := .stepped pc (shownAt machine pc) ticks }
  | (.error e, machine) => { d with machine }.fail e

def run (d : Debugger) : Debugger :=
  { d with running := true, status := .running }

/-- End continuous execution if the program counter is at a breakpoint. -/
def checkBreakpoint (d : Debugger) : Debugger :=
  let pc := d.machine.cpu.regs.pc
  if d.breakpoints.contains pc then
    { d with running := false, status := .stoppedAt pc }
  else
    d

def update (d : Debugger) : Debugger :=
  if !d.running then
    d
  else if d.machine.cpu.isRunning then
    d.step.checkBreakpoint
  else
    { d with running := false, status := .faultedAfter d.machine.cpu.cycles }

def reset (d : Debugger) : Debugger :=
  { d with
    machine := d.machine.reset.load d.program
    running := false
    status := .reset }

def quit (d : Debugger) : Debugger :=
  { d with quitting := true }

end Driving

section Breakpoints

def insertAscending (address : UInt16) : List UInt16 → List UInt16
  | [] => [address]
  | a :: rest => if a < address then a :: insertAscending address rest else address :: a :: rest

/-- Set a breakpoint at the program counter, or remove the one that is there. -/
def toggleBreakpoint (d : Debugger) : Debugger :=
  let pc := d.machine.cpu.regs.pc
  if d.breakpoints.contains pc then
    { d with breakpoints := d.breakpoints.erase pc, status := .breakpointRemoved pc }
  else
    { d with breakpoints := insertAscending pc d.breakpoints, status := .breakpointSet pc }

end Breakpoints

section Views

def lastRow (d : Debugger) : Nat :=
  (d.machine.memory.size - 1) / rowBytes

/-- Move the view of memory down, or up if the number is negative. -/
def scrollBy
    (d : Debugger)
    (rows : Int) :
    Debugger :=
  { d with scroll := min (d.scroll + rows).toNat d.lastRow }

structure CodeLine where
  address : UInt16
  text : String
  isCurrent : Bool
  deriving DecidableEq

/-- The position of the piece that covers the program counter. -/
def currentPosition
    (pieces : List (Nat × Piece))
    (pc : Nat) :
    Nat :=
  pieces.countP (fun entry => entry.1 ≤ pc) - 1

/-- Up to `lines` lines of code around the program counter. -/
def codeView
    (d : Debugger)
    (lines : Nat) :
    List CodeLine :=
  let pc := d.machine.offsetOf d.machine.cpu.regs.pc
  let pieces := Listing.sweep d.machine.memory
  let first := currentPosition pieces pc - lines / 2
  ((pieces.drop first).take lines).map fun (offset, piece) =>
    { address := d.machine.map.ramBase + UInt16.ofNat offset
      text := piece.text
      isCurrent := offset == pc }

end Views

end Debugger
end Microcomputer
