import Microcomputer.Cpu

/-!
# The board

A processor wired to a bus, and the clock that drives it.  `tick` counts a tick that succeeds, and
marks the processor as faulted on one that does not; `run` and `step` stop at the first fault.
-/

namespace Microcomputer

/-- A processor and the bus that it is wired to. -/
structure Board where
  cpu : Cpu := {}
  bus : Bus := {}
  deriving DecidableEq

namespace Board

section OneTick

def settle (b : Board) : Board :=
  { b with cpu := { b.cpu with counter := 1 } }

/-- The fetch tick: read the byte at the program counter and take it as an opcode. -/
def fetch (b : Board) : Except CpuError Board :=
  match b.bus.read b.cpu.regs.pc with
  | .error e => .error (.bus e)
  | .ok opcode =>
      match Instruction.ofOpcode? opcode with
      | none => .error (.unknownOpcode opcode b.cpu.regs.pc)
      | some i => .ok { b with cpu := { b.cpu with current := some i, counter := 2 } }

def absorb
    (b : Board)
    (result : MicroStep) :
    Board :=
  match result.progress with
  | .continuing =>
      { cpu := { b.cpu with regs := result.regs, counter := b.cpu.counter + 1 }
        bus := result.bus }
  | .done =>
      { cpu := { b.cpu with
          regs := result.regs
          counter := 0
          retired := b.cpu.retired + 1 }
        bus := result.bus }

def execute (b : Board) : Except CpuError Board :=
  match b.cpu.current with
  | none => .error .noInstruction
  | some i => (i.microStep b.cpu.counter b.cpu.regs b.bus).map b.absorb

def advance (b : Board) : Except CpuError Board :=
  if b.cpu.counter = 0 then .ok b.settle
  else if b.cpu.counter = 1 then b.fetch
  else b.execute

def counted (b : Board) : Board :=
  { b with cpu := { b.cpu with cycles := b.cpu.cycles + 1 } }

def halted (b : Board) : Board :=
  { b with cpu := { b.cpu with state := .faulted } }

def tick (b : Board) : Except CpuError Unit × Board :=
  match b.cpu.state with
  | .faulted => (.error .faulted, b)
  | .running =>
      match b.advance with
      | .ok next => (.ok (), next.counted)
      | .error e => (.error e, b.halted)

end OneTick

section Counter

theorem microStep_step_of_continuing
    {i : Instruction}
    {step : UInt8}
    {regs : Registers}
    {bus : Bus}
    {result : MicroStep}
    (h : i.microStep step regs bus = .ok result)
    (hc : result.progress = .continuing) :
    step.toNat ≤ 4 := by
  unfold Instruction.microStep at h
  split at h
  · simp_all
  · split at h
    · simp_all
    · split at h
      · simp_all
      · split at h
        · cases h
          cases hc
        · cases h

theorem advance_counter
    {b next : Board}
    (h : b.advance = .ok next)
    (hn : next.cpu.counter ≠ 0) :
    b.cpu.counter.toNat ≤ 4 ∧ next.cpu.counter.toNat = b.cpu.counter.toNat + 1 := by
  unfold advance at h
  split at h
  · next h0 =>
      cases h
      simp [settle, h0]
  · split at h
    · next h1 =>
        unfold fetch at h
        split at h
        · cases h
        · split at h
          · cases h
          · cases h
            simp [h1]
    · unfold execute at h
      split at h
      · cases h
      · next i _ =>
          cases hm : i.microStep b.cpu.counter b.cpu.regs b.bus with
          | error e => simp [hm, Except.map] at h
          | ok result =>
              simp only [hm, Except.map, Except.ok.injEq] at h
              subst h
              cases hp : result.progress with
              | done => simp [absorb, hp] at hn
              | continuing =>
                  have h4 := microStep_step_of_continuing hm hp
                  refine ⟨h4, ?_⟩
                  simp only [absorb, hp]
                  rw [UInt8.toNat_add]
                  simp
                  omega

theorem tick_counter
    {b next : Board}
    (h : b.tick = (.ok (), next))
    (hn : next.cpu.counter ≠ 0) :
    b.cpu.counter.toNat ≤ 4 ∧ next.cpu.counter.toNat = b.cpu.counter.toNat + 1 := by
  unfold tick at h
  split at h
  · simp at h
  · split at h
    · next hadv =>
        simp only [Prod.mk.injEq, true_and] at h
        subst h
        have hc := advance_counter hadv (fun h0 => hn h0)
        exact hc
    · simp at h

end Counter

section ManyTicks

/-- Tick `count` times, or up to the first fault. -/
def run : Nat → Board → Except CpuError Unit × Board
  | 0, b => (.ok (), b)
  | count + 1, b =>
      match b.tick with
      | (.ok (), next) => run count next
      | (.error e, stopped) => (.error e, stopped)

/-- Tick to the end of the instruction, after `used` ticks of it. -/
def finish
    (used : Nat)
    (b : Board) :
    Except CpuError Nat × Board :=
  match h : b.tick with
  | (.ok (), next) =>
      if hn : next.cpu.counter = 0 then
        (.ok (used + 1), next)
      else
        finish (used + 1) next
  | (.error e, stopped) => (.error e, stopped)
termination_by 6 - b.cpu.counter.toNat
decreasing_by
  have := tick_counter h hn
  omega

/-- Tick to the end of the current or next instruction, and tell how many ticks that took. -/
def step (b : Board) : Except CpuError Nat × Board :=
  finish 0 b

def reset (b : Board) : Board :=
  { b with cpu := {} }

end ManyTicks

end Board
end Microcomputer
