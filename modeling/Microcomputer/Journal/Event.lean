import Microcomputer.Machine

/-!
# Events

What a run can report while it goes on.  An event has a level, the part of the program that it comes
from, a title, and fields with names.
-/

namespace Microcomputer

inductive Level
  | error
  | warn
  | info
  | debug
  | trace
  deriving DecidableEq

namespace Level

def all : List Level :=
  [error, warn, info, debug, trace]

def name : Level → String
  | error => "ERROR"
  | warn => "WARN"
  | info => "INFO"
  | debug => "DEBUG"
  | trace => "TRACE"

/-- The rank of a level, from one for the most important. -/
def rank : Level → Nat
  | error => 1
  | warn => 2
  | info => 3
  | debug => 4
  | trace => 5

end Level

inductive Event
  | imageRead (path : String) (size : Nat)
  | mapped (bus : Bus)
  | loaded (size : Nat)
  | runStarted (count : Nat) (start : UInt64)
  | tick (counter : UInt8) (pc : UInt16) (acc : UInt8)
  | fetched (pc : UInt16) (instruction : Instruction)
  | completed (instruction : Instruction) (pc : UInt16) (acc : UInt8)
  | faulted (pc : UInt16) (error : CpuError)
  deriving DecidableEq

namespace Event

def level : Event → Level
  | tick _ _ _ => .trace
  | faulted _ _ => .warn
  | _ => .debug

/-- The part of the program that an event comes from. -/
def origin : Event → String
  | imageRead _ _ => "micro0::asm::image"
  | mapped _ => "micro0::system"
  | loaded _ => "micro0::system"
  | runStarted _ _ => "micro0::system"
  | _ => "micro0::cpu::execute"

def title : Event → String
  | imageRead _ _ => "loaded image"
  | mapped _ => "memory map"
  | loaded _ => "loading image"
  | runStarted _ _ => "run"
  | tick _ _ _ => "tick"
  | fetched _ _ => "fetch"
  | completed _ _ _ => "complete"
  | faulted _ _ => "CPU faulted"

def fields : Event → List (String × String)
  | imageRead path size => [("path", path), ("bytes", Text.decimal size)]
  | mapped bus => [("bus", bus.summary)]
  | loaded size => [("bytes", Text.decimal size)]
  | runStarted count start =>
      [("cycles", Text.decimal count), ("start", Text.decimal start.toNat)]
  | tick counter pc acc =>
      [("tick", Text.decimal counter.toNat),
        ("pc", Text.hexLiteral 4 pc.toNat),
        ("acc", Text.hexLiteral 2 acc.toNat)]
  | fetched pc instruction =>
      [("pc", Text.hexLiteral 4 pc.toNat), ("instr", instruction.mnemonic)]
  | completed instruction pc acc =>
      [("instr", instruction.mnemonic),
        ("pc", Text.hexLiteral 4 pc.toNat),
        ("acc", Text.hexLiteral 2 acc.toNat)]
  | faulted pc error => [("pc", Text.decimal pc.toNat), ("error", error.message)]

/-- Whether an event has a field of a name; the title is a field too. -/
def hasField
    (event : Event)
    (name : String) :
    Bool :=
  name == "message" || event.fields.any fun field => field.1 == name

def text (event : Event) : String :=
  event.title ++ String.join (event.fields.map fun field => " " ++ field.1 ++ "=" ++ field.2)

def line (event : Event) : String :=
  event.level.name ++ " " ++ event.text

end Event

namespace Board

/-- What a tick that succeeded reports beyond itself. -/
def progressEvents (before after : Board) : List Event :=
  match before.cpu.counter, after.cpu.current with
  | 0, _ => []
  | 1, some i => [.fetched before.cpu.regs.pc i]
  | _, some i =>
      if after.cpu.counter = 0 then [.completed i after.cpu.regs.pc after.cpu.regs.acc] else []
  | _, none => []

def tickEvents (b : Board) : List Event :=
  match b.cpu.state with
  | .faulted => []
  | .running =>
      .tick b.cpu.counter b.cpu.regs.pc b.cpu.regs.acc ::
        match b.tick with
        | (.ok (), next) => progressEvents b next
        | (.error e, _) => [.faulted b.cpu.regs.pc e]

/-- What a run of `count` ticks reports, as far as it is wanted. -/
def runEvents
    (wanted : Event → Bool)
    (done : Array Event) :
    Nat → Board → Array Event
  | 0, _ => done
  | count + 1, b =>
      let done := done.appendList (b.tickEvents.filter wanted)
      match b.tick with
      | (.ok (), next) => runEvents wanted done count next
      | (.error _, _) => done

end Board

end Microcomputer
