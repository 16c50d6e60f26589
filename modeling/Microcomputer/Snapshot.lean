import Microcomputer.Cpu
import Microcomputer.Json.Reader
import Microcomputer.Json.Value

/-!
# Snapshots

The JSON forms of the parts of a machine.  The only field that may be missing is the current
instruction of a processor, and null stands for none.
-/

namespace Microcomputer
namespace Snapshot

section Numbers

def byte? (value : Json) : Option UInt8 :=
  (value.naturalBelow? UInt8.size).map UInt8.ofNat

def word? (value : Json) : Option UInt16 :=
  (value.naturalBelow? UInt16.size).map UInt16.ofNat

def count? (value : Json) : Option UInt64 :=
  (value.naturalBelow? UInt64.size).map UInt64.ofNat

def bytes? (value : Json) : Option (Array UInt8) :=
  value.elements?.bind fun elements => (elements.mapM byte?).map List.toArray

def ofBytes (bytes : Array UInt8) : Json :=
  .array (bytes.toList.map fun b => .ofNat b.toNat)

end Numbers

section Cases

def instructionName : Instruction → String
  | .load => "LoadDirect"
  | .store => "StoreDirect"
  | .add => "AddDirect"
  | .branchIfZero => "BranchIfZeroSet"

def ofInstruction (i : Instruction) : Json :=
  .string (instructionName i)

def instructionNamed? (name : String) : Option Instruction :=
  Instruction.all.find? fun i => instructionName i == name

def instruction? (value : Json) : Option Instruction :=
  value.case?.bind instructionNamed?

def ofCurrent : Option Instruction → Json
  | some i => ofInstruction i
  | none => .null

/-- An instruction, or none for null or a missing field. -/
def current? : Option Json → Option (Option Instruction)
  | none => some none
  | some .null => some none
  | some value => (instruction? value).map some

def ofRunState (state : RunState) : Json :=
  .string state.name

def runStateNamed? (name : String) : Option RunState :=
  [RunState.running, RunState.faulted].find? fun s => s.name == name

def runState? (value : Json) : Option RunState :=
  value.case?.bind runStateNamed?

end Cases

section Records

def ofRegisters (regs : Registers) : Json :=
  .object
    [("pc", .ofNat regs.pc.toNat), ("acc", .ofNat regs.acc.toNat),
      ("index", .ofNat regs.index.toNat), ("buffer", .ofNat regs.buffer.toNat)]

def registers? (value : Json) : Option Registers :=
  match value.fields? ["pc", "acc", "index", "buffer"] with
  | some [some pc, some acc, some index, some buffer] =>
      match word? pc, byte? acc, word? index, byte? buffer with
      | some pc, some acc, some index, some buffer => some { pc, acc, index, buffer }
      | _, _, _, _ => none
  | _ => none

def cpuFields : List String :=
  ["regs", "state", "cycles", "tick_counter", "current", "retired"]

def ofCpu (cpu : Cpu) : Json :=
  .object
    [("regs", ofRegisters cpu.regs), ("state", ofRunState cpu.state),
      ("cycles", .ofNat cpu.cycles.toNat), ("tick_counter", .ofNat cpu.counter.toNat),
      ("current", ofCurrent cpu.current), ("retired", .ofNat cpu.retired.toNat)]

def cpu? (value : Json) : Option Cpu :=
  match value.fields? cpuFields with
  | some [some regs, some state, some cycles, some counter, current, some retired] =>
      match registers? regs, runState? state, count? cycles, byte? counter, current? current,
          count? retired with
      | some regs, some state, some cycles, some counter, some current, some retired =>
          some { regs, state, cycles, counter, current, retired }
      | _, _, _, _, _, _ => none
  | _ => none

def ofRam (ram : Ram) : Json :=
  .object [("base", .ofNat ram.base.toNat), ("contents", ofBytes ram.contents)]

def ram? (value : Json) : Option Ram :=
  match value.fields? ["base", "contents"] with
  | some [some base, some contents] =>
      match word? base, bytes? contents with
      | some base, some contents => some { base, contents }
      | _, _ => none
  | _ => none

def ofCharOut (out : CharOut) : Json :=
  .object [("base", .ofNat out.base.toNat), ("buffer", ofBytes out.buffer)]

def charOut? (value : Json) : Option CharOut :=
  match value.fields? ["base", "buffer"] with
  | some [some base, some buffer] =>
      match word? base, bytes? buffer with
      | some base, some buffer => some { base, buffer }
      | _, _ => none
  | _ => none

end Records

end Snapshot
end Microcomputer
