import Microcomputer.Text.Characters
import Microcomputer.Text.Numeral

/-!
# The instruction set

Four instructions of three bytes: an opcode and a direct address, low byte first.  Each takes a
settle tick, a fetch tick and three or four execution ticks.
-/

namespace Microcomputer

inductive Instruction
  /-- The byte at the address becomes the accumulator. -/
  | load
  /-- The accumulator becomes the byte at the address. -/
  | store
  /-- The byte at the address is added to the accumulator. -/
  | add
  /-- If the accumulator is zero, the address becomes the program counter. -/
  | branchIfZero
  deriving DecidableEq

namespace Instruction

def all : List Instruction :=
  [load, store, add, branchIfZero]

def opcode : Instruction → UInt8
  | load => 1
  | store => 2
  | add => 3
  | branchIfZero => 4

def ofOpcode? : UInt8 → Option Instruction
  | 1 => some load
  | 2 => some store
  | 3 => some add
  | 4 => some branchIfZero
  | _ => none

def size : Nat := 3

def mnemonic : Instruction → String
  | load => "load"
  | store => "store"
  | add => "add"
  | branchIfZero => "brz"

/-- The instruction that a word names, whatever the case of its letters. -/
def ofMnemonic? (word : String) : Option Instruction :=
  all.find? fun i => Text.sameWord i.mnemonic word

/-- Ticks from the settle tick to the one that completes the instruction. -/
def ticks : Instruction → Nat
  | add => 6
  | _ => 5

@[simp]
theorem ofOpcode?_opcode (i : Instruction) : ofOpcode? i.opcode = some i := by
  cases i <;> rfl

theorem ofOpcode?_eq_some_iff
    {b : UInt8}
    {i : Instruction} :
    ofOpcode? b = some i ↔ b = i.opcode := by
  constructor
  · intro h
    unfold ofOpcode? at h
    split at h <;> simp_all [opcode]
    all_goals subst h; rfl
  · rintro rfl
    exact ofOpcode?_opcode i

/-- The instruction with its direct address, as it is written in a source. -/
def written
    (i : Instruction)
    (address : UInt16) :
    String :=
  i.mnemonic ++ " [" ++ Text.hexLiteral 4 address.toNat ++ "]"

inductive DecodeError
  | unknownOpcode (opcode : UInt8)
  deriving DecidableEq

def DecodeError.message : DecodeError → String
  | .unknownOpcode opcode => "unknown opcode: " ++ Text.hexLiteral 2 opcode.toNat

/-- The instruction that a byte stands for, or the reason why there is none. -/
def decode (opcode : UInt8) : Except DecodeError Instruction :=
  match ofOpcode? opcode with
  | some i => .ok i
  | none => .error (.unknownOpcode opcode)

end Instruction
end Microcomputer
