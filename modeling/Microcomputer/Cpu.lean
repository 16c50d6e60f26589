import Microcomputer.Bus
import Microcomputer.Instruction

/-!
# The processor

**Registers.**  Arithmetic on them wraps: the program counter and the index at 64K, the accumulator
and the buffer at 256.

**Micro-steps.**  The ticks of an instruction are numbered from zero.  Ticks zero and one, which
settle and fetch, are the processor's.

* Ticks two and three: the two bytes after the opcode become the index, the low byte first.
* Tick four: a load reads its byte into the accumulator, a store writes the accumulator, an
  addition reads its operand into the buffer, and a branch decides on the program counter.
* Tick five: an addition adds the buffer to the accumulator.

The last tick also moves the program counter past the instruction, unless a branch is taken.

**Sequencer.**  The tick counter says where the processor is inside an instruction.
-/

namespace Microcomputer

section Registers

/-- The registers, all zero at the start. -/
structure Registers where
  pc : UInt16 := 0
  acc : UInt8 := 0
  /-- The direct address, put together one byte at a time. -/
  index : UInt16 := 0
  /-- The operand that an addition has read and not yet added. -/
  buffer : UInt8 := 0
  deriving DecidableEq

namespace Registers

def advance
    (regs : Registers)
    (count : UInt16) :
    Registers :=
  { regs with pc := regs.pc + count }

def jump
    (regs : Registers)
    (address : UInt16) :
    Registers :=
  { regs with pc := address }

def setIndexLow
    (regs : Registers)
    (low : UInt8) :
    Registers :=
  { regs with index := low.toUInt16 }

def addIndexHigh
    (regs : Registers)
    (high : UInt8) :
    Registers :=
  { regs with index := regs.index + high.toUInt16 * 256 }

end Registers

end Registers

section MicroSteps

/-- Why the processor stops. -/
inductive CpuError
  /-- The processor has stopped before and was not reset. -/
  | faulted
  | unknownOpcode (opcode : UInt8) (pc : UInt16)
  | bus (error : BusError)
  | noInstruction
  | noMicroStep (instruction : Instruction) (step : UInt8)
  deriving DecidableEq

def CpuError.message : CpuError → String
  | .faulted => "CPU has faulted; reset required"
  | .unknownOpcode opcode pc =>
      "unknown opcode " ++ Text.hexLiteral 2 opcode.toNat
        ++ " at " ++ Text.hexLiteral 4 pc.toNat
  | .bus error => "bus error: " ++ error.message
  | .noInstruction => "execute step without a fetched instruction"
  | .noMicroStep instruction step =>
      instruction.mnemonic ++ " has no micro-step " ++ Text.decimal step.toNat

inductive Progress
  | continuing
  | done
  deriving DecidableEq

structure MicroStep where
  progress : Progress
  regs : Registers
  bus : Bus
  deriving DecidableEq

namespace Instruction

def next (regs : Registers) : Registers :=
  regs.advance (UInt16.ofNat size)

def completeLoad
    (regs : Registers)
    (bus : Bus) :
    Except CpuError MicroStep :=
  match bus.read regs.index with
  | .ok value => .ok ⟨.done, next { regs with acc := value }, bus⟩
  | .error e => .error (.bus e)

def completeStore
    (regs : Registers)
    (bus : Bus) :
    Except CpuError MicroStep :=
  match bus.write regs.index regs.acc with
  | .ok written => .ok ⟨.done, next regs, written⟩
  | .error e => .error (.bus e)

def readOperand
    (regs : Registers)
    (bus : Bus) :
    Except CpuError MicroStep :=
  match bus.read regs.index with
  | .ok value => .ok ⟨.continuing, { regs with buffer := value }, bus⟩
  | .error e => .error (.bus e)

def completeAdd
    (regs : Registers)
    (bus : Bus) :
    MicroStep :=
  ⟨.done, next { regs with acc := regs.acc + regs.buffer }, bus⟩

def completeBranch
    (regs : Registers)
    (bus : Bus) :
    MicroStep :=
  ⟨.done, if regs.acc = 0 then regs.jump regs.index else next regs, bus⟩

def readAddressLow
    (regs : Registers)
    (bus : Bus) :
    Except CpuError MicroStep :=
  match bus.read (regs.pc + 1) with
  | .ok low => .ok ⟨.continuing, regs.setIndexLow low, bus⟩
  | .error e => .error (.bus e)

def readAddressHigh
    (regs : Registers)
    (bus : Bus) :
    Except CpuError MicroStep :=
  match bus.read (regs.pc + 2) with
  | .ok high => .ok ⟨.continuing, regs.addIndexHigh high, bus⟩
  | .error e => .error (.bus e)

def microStep
    (i : Instruction)
    (step : UInt8)
    (regs : Registers)
    (bus : Bus) :
    Except CpuError MicroStep :=
  if step = 2 then readAddressLow regs bus
  else if step = 3 then readAddressHigh regs bus
  else if step = 4 then
    match i with
    | load => completeLoad regs bus
    | store => completeStore regs bus
    | add => readOperand regs bus
    | branchIfZero => .ok (completeBranch regs bus)
  else if step = 5 ∧ i = add then .ok (completeAdd regs bus)
  else .error (.noMicroStep i step)

end Instruction

end MicroSteps

section Sequencer

inductive RunState
  | running
  | faulted
  deriving DecidableEq

inductive Phase
  | idle
  | fetch
  | execute (step : UInt8)
  deriving DecidableEq

/-- A processor; by default one that has just been reset. -/
structure Cpu where
  regs : Registers := {}
  state : RunState := .running
  /-- Successful ticks since the reset. -/
  cycles : UInt64 := 0
  /-- The number of the next tick of the current instruction. -/
  counter : UInt8 := 0
  /-- The instruction fetched last. -/
  current : Option Instruction := none
  /-- Instructions completed since the reset. -/
  retired : UInt64 := 0
  deriving DecidableEq

namespace RunState

def name : RunState → String
  | running => "Running"
  | faulted => "Faulted"

end RunState

namespace Phase

def name : Phase → String
  | idle => "Idle"
  | fetch => "Fetch"
  | execute step => "Execute(" ++ Text.decimal step.toNat ++ ")"

end Phase

namespace Registers

def summary (regs : Registers) : String :=
  "Registers \x7b pc: " ++ Text.decimal regs.pc.toNat
    ++ ", acc: " ++ Text.decimal regs.acc.toNat
    ++ ", index: " ++ Text.decimal regs.index.toNat
    ++ ", buffer: " ++ Text.decimal regs.buffer.toNat ++ " \x7d"

end Registers

namespace Cpu

def phase (cpu : Cpu) : Phase :=
  if cpu.counter = 0 then .idle
  else if cpu.counter = 1 then .fetch
  else .execute cpu.counter

/-- Between two instructions: the next tick is a settle tick. -/
def atBoundary (cpu : Cpu) : Bool :=
  cpu.counter == 0

def isRunning (cpu : Cpu) : Bool :=
  cpu.state == .running

def isFaulted (cpu : Cpu) : Bool :=
  cpu.state == .faulted

def summary (cpu : Cpu) : String :=
  "Cpu \x7b state: " ++ cpu.state.name
    ++ ", cycles: " ++ Text.decimal cpu.cycles.toNat
    ++ ", phase: " ++ cpu.phase.name
    ++ ", regs: " ++ cpu.regs.summary ++ " \x7d"

end Cpu

end Sequencer

end Microcomputer
