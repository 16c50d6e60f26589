import Microcomputer.Board

/-!
# Inside an instruction

**Instructions.**  `Core.step` executes a whole instruction at once: it reads the opcode, decodes
it, reads the address, and performs the instruction on it.  It fails with the error of the first
access that fails, or with an unknown opcode.

**Invariant.**  `Underway m b`: the board `b` executes the instruction at which the core `m` stands,
with one case for each value of the tick counter.

**Ticks.**  `advance_outcome`: a tick leads one case further, or completes the instruction with the
effect of `Core.step`, or fails with its error.
-/

namespace Microcomputer

section Instructions

/-- The registers and the devices: everything that a program works on. -/
structure Core where
  regs : Registers
  bus : Bus
  deriving DecidableEq

/-- The registers and the devices of a board. -/
def Board.core (b : Board) : Core :=
  ⟨b.cpu.regs, b.bus⟩

@[simp]
theorem Board.core_regs (b : Board) : b.core.regs = b.cpu.regs :=
  rfl

@[simp]
theorem Board.core_bus (b : Board) : b.core.bus = b.bus :=
  rfl

namespace Core

section OneStep

/-- The byte at an address, as the processor gets it. -/
def byteAt
    (m : Core)
    (address : UInt16) :
    Except CpuError UInt8 :=
  match m.bus.read address with
  | .ok value => .ok value
  | .error e => .error (.bus e)

/-- The instruction at the program counter. -/
def fetched (m : Core) : Except CpuError Instruction :=
  match m.byteAt m.regs.pc with
  | .error e => .error e
  | .ok opcode =>
      match Instruction.ofOpcode? opcode with
      | some i => .ok i
      | none => .error (.unknownOpcode opcode m.regs.pc)

/-- The address that the two bytes after the opcode make. -/
def operand (m : Core) : Except CpuError UInt16 :=
  match m.byteAt (m.regs.pc + 1) with
  | .error e => .error e
  | .ok low =>
      match m.byteAt (m.regs.pc + 2) with
      | .error e => .error e
      | .ok high => .ok (UInt16.ofNat (low.toNat + 256 * high.toNat))

/-- The machine with a direct address in its index register. -/
def withIndex
    (m : Core)
    (address : UInt16) :
    Core :=
  { m with regs := { m.regs with index := address } }

/-- The machine with the program counter behind the instruction. -/
def past (m : Core) : Core :=
  { m with regs := { m.regs with pc := m.regs.pc + 3 } }

/-- What an instruction does with the address in the index register. -/
def perform (m : Core) : Instruction → Except CpuError Core
  | .load =>
      match m.byteAt m.regs.index with
      | .error e => .error e
      | .ok value => .ok { m with regs := { m.regs with acc := value } }.past
  | .store =>
      match m.bus.write m.regs.index m.regs.acc with
      | .error e => .error (.bus e)
      | .ok written => .ok { m with bus := written }.past
  | .add =>
      match m.byteAt m.regs.index with
      | .error e => .error e
      | .ok value =>
          .ok { m with regs := { m.regs with buffer := value, acc := m.regs.acc + value } }.past
  | .branchIfZero =>
      if m.regs.acc = 0 then
        .ok { m with regs := { m.regs with pc := m.regs.index } }
      else
        .ok m.past

/-- Execute the instruction at the program counter, and tell which one it was. -/
def step (m : Core) : Except CpuError (Instruction × Core) :=
  match m.fetched with
  | .error e => .error e
  | .ok i =>
      match m.operand with
      | .error e => .error e
      | .ok address =>
          match (m.withIndex address).perform i with
          | .error e => .error e
          | .ok next => .ok (i, next)

variable {m next : Core} {i : Instruction} {address : UInt16} {e : CpuError}

theorem step_eq_ok
    (hfetched : m.fetched = .ok i)
    (hoperand : m.operand = .ok address)
    (hperform : (m.withIndex address).perform i = .ok next) :
    m.step = .ok (i, next) := by
  simp only [step, hfetched, hoperand, hperform]

theorem step_of_fetched_error (hfetched : m.fetched = .error e) : m.step = .error e := by
  simp only [step, hfetched]

theorem step_of_operand_error
    (hfetched : m.fetched = .ok i)
    (hoperand : m.operand = .error e) :
    m.step = .error e := by
  simp only [step, hfetched, hoperand]

theorem step_of_perform_error
    (hfetched : m.fetched = .ok i)
    (hoperand : m.operand = .ok address)
    (hperform : (m.withIndex address).perform i = .error e) :
    m.step = .error e := by
  simp only [step, hfetched, hoperand, hperform]

end OneStep

section ManySteps

/-- Execute a number of instructions, and list them. -/
def steps (m : Core) : Nat → Except CpuError (List Instruction × Core)
  | 0 => .ok ([], m)
  | count + 1 =>
      match m.steps count with
      | .error e => .error e
      | .ok (executed, reached) =>
          match reached.step with
          | .error e => .error e
          | .ok (i, next) => .ok (executed ++ [i], next)

@[simp]
theorem steps_zero (m : Core) : m.steps 0 = .ok ([], m) :=
  rfl

theorem steps_succ
    {m reached next : Core}
    {count : Nat}
    {executed : List Instruction}
    {i : Instruction}
    (h : m.steps count = .ok (executed, reached))
    (hstep : reached.step = .ok (i, next)) :
    m.steps (count + 1) = .ok (executed ++ [i], next) := by
  simp only [steps, h, hstep]

end ManySteps

end Core

end Instructions

section Ticking

namespace Board

/-- How far the board has come with the instruction at which the core `m` stands. -/
inductive Underway (m : Core) (b : Board) : Prop
  /-- Before the settle tick. -/
  | boundary
      (hcounter : b.cpu.counter = 0)
      (hcore : b.core = m)
  /-- Before the fetch tick. -/
  | settled
      (hcounter : b.cpu.counter = 1)
      (hcore : b.core = m)
  /-- The opcode is decoded. -/
  | decoded
      (i : Instruction)
      (hcounter : b.cpu.counter = 2)
      (hcurrent : b.cpu.current = some i)
      (hfetched : m.fetched = .ok i)
      (hcore : b.core = m)
  /-- The low byte of the address is in the index. -/
  | lowRead
      (i : Instruction)
      (low : UInt8)
      (hcounter : b.cpu.counter = 3)
      (hcurrent : b.cpu.current = some i)
      (hfetched : m.fetched = .ok i)
      (hlow : m.byteAt (m.regs.pc + 1) = .ok low)
      (hcore : b.core = m.withIndex low.toUInt16)
  /-- The address is in the index. -/
  | addressed
      (i : Instruction)
      (address : UInt16)
      (hcounter : b.cpu.counter = 4)
      (hcurrent : b.cpu.current = some i)
      (hfetched : m.fetched = .ok i)
      (hoperand : m.operand = .ok address)
      (hcore : b.core = m.withIndex address)
  /-- An addition has its operand in the buffer. -/
  | operandRead
      (address : UInt16)
      (value : UInt8)
      (hcounter : b.cpu.counter = 5)
      (hcurrent : b.cpu.current = some .add)
      (hfetched : m.fetched = .ok .add)
      (hoperand : m.operand = .ok address)
      (hvalue : m.byteAt address = .ok value)
      (hregs : b.cpu.regs = { m.regs with index := address, buffer := value })
      (hbus : b.bus = m.bus)

/-- What a tick of the board `b` can lead to inside the instruction at `m`. -/
inductive Outcome (m : Core) (b : Board) : Except CpuError Board → Prop
  | onward
      {next : Board}
      (hnext : Underway m next)
      (hcounter : next.cpu.counter.toNat = b.cpu.counter.toNat + 1)
      (hretired : next.cpu.retired = b.cpu.retired) :
      Outcome m b (.ok next)
  | complete
      {next : Board}
      (i : Instruction)
      (hstep : m.step = .ok (i, next.core))
      (hticks : i.ticks = b.cpu.counter.toNat + 1)
      (hcounter : next.cpu.counter = 0)
      (hretired : next.cpu.retired = b.cpu.retired + 1) :
      Outcome m b (.ok next)
  | fault
      {e : CpuError}
      (hstep : m.step = .error e) :
      Outcome m b (.error e)

theorem Underway.counted
    {m : Core}
    {b : Board}
    (h : Underway m b) :
    Underway m b.counted := by
  cases h with
  | boundary hcounter hcore => exact .boundary hcounter hcore
  | settled hcounter hcore => exact .settled hcounter hcore
  | decoded i hcounter hcurrent hfetched hcore =>
      exact .decoded i hcounter hcurrent hfetched hcore
  | lowRead i low hcounter hcurrent hfetched hlow hcore =>
      exact .lowRead i low hcounter hcurrent hfetched hlow hcore
  | addressed i address hcounter hcurrent hfetched hoperand hcore =>
      exact .addressed i address hcounter hcurrent hfetched hoperand hcore
  | operandRead address value hcounter hcurrent hfetched hoperand hvalue hregs hbus =>
      exact .operandRead address value hcounter hcurrent hfetched hoperand hvalue hregs hbus

section Ticks

variable {m : Core} {b : Board}

theorem advance_eq_microStep
    {i : Instruction}
    (h0 : b.cpu.counter ≠ 0)
    (h1 : b.cpu.counter ≠ 1)
    (hcurrent : b.cpu.current = some i) :
    b.advance = (i.microStep b.cpu.counter b.cpu.regs b.bus).map b.absorb := by
  simp [advance, execute, h0, h1, hcurrent]

theorem outcome_of_boundary
    (hcounter : b.cpu.counter = 0)
    (hcore : b.core = m) :
    Outcome m b b.advance := by
  have hadvance : b.advance = .ok b.settle := by
    simp [advance, hcounter]
  rw [hadvance]
  refine Outcome.onward (Underway.settled rfl hcore) ?_ rfl
  simp [settle, hcounter]

theorem outcome_of_settled
    (hcounter : b.cpu.counter = 1)
    (hcore : b.core = m) :
    Outcome m b b.advance := by
  subst hcore
  have hadvance : b.advance = b.fetch := by
    simp [advance, hcounter]
  rw [hadvance, fetch]
  cases hread : b.bus.read b.cpu.regs.pc with
  | error e =>
      have hfetched : b.core.fetched = .error (.bus e) := by
        simp [Core.fetched, Core.byteAt, hread]
      exact Outcome.fault (Core.step_of_fetched_error hfetched)
  | ok opcode =>
      cases hi : Instruction.ofOpcode? opcode with
      | none =>
          have hfetched :
              b.core.fetched = .error (.unknownOpcode opcode b.cpu.regs.pc) := by
            simp [Core.fetched, Core.byteAt, hread, hi]
          simp only [hi]
          exact Outcome.fault (Core.step_of_fetched_error hfetched)
      | some i =>
          have hfetched : b.core.fetched = .ok i := by
            simp [Core.fetched, Core.byteAt, hread, hi]
          simp only [hi]
          refine Outcome.onward (Underway.decoded i rfl rfl hfetched rfl) ?_ rfl
          simp [hcounter]

theorem outcome_of_decoded
    {i : Instruction}
    (hcounter : b.cpu.counter = 2)
    (hcurrent : b.cpu.current = some i)
    (hfetched : m.fetched = .ok i)
    (hcore : b.core = m) :
    Outcome m b b.advance := by
  subst hcore
  have hadvance :
      b.advance = (Instruction.readAddressLow b.cpu.regs b.bus).map b.absorb := by
    rw [advance_eq_microStep (by simp [hcounter]) (by simp [hcounter]) hcurrent, hcounter]
    simp [Instruction.microStep]
  rw [hadvance, Instruction.readAddressLow]
  cases hlow : b.bus.read (b.cpu.regs.pc + 1) with
  | error e =>
      have hoperand : b.core.operand = .error (.bus e) := by
        simp [Core.operand, Core.byteAt, hlow]
      exact Outcome.fault (Core.step_of_operand_error hfetched hoperand)
  | ok low =>
      have hbyte : b.core.byteAt (b.core.regs.pc + 1) = .ok low := by
        simp [Core.byteAt, hlow]
      refine Outcome.onward (Underway.lowRead i low ?_ hcurrent hfetched hbyte rfl) ?_ rfl
      · simp [absorb, hcounter]
      · simp [absorb, hcounter]

/-- A board whose core has read its address differs from the machine before in the index only. -/
theorem parts_of_withIndex
    {index : UInt16}
    (hcore : b.core = m.withIndex index) :
    b.cpu.regs = { m.regs with index } ∧ b.bus = m.bus := by
  constructor
  · rw [← core_regs, hcore]
    rfl
  · rw [← core_bus, hcore]
    rfl

theorem address_of_bytes
    (low high : UInt8) :
    low.toUInt16 + high.toUInt16 * 256 = UInt16.ofNat (low.toNat + 256 * high.toNat) := by
  apply UInt16.toNat.inj
  simp
  omega

theorem outcome_of_lowRead
    {i : Instruction}
    {low : UInt8}
    (hcounter : b.cpu.counter = 3)
    (hcurrent : b.cpu.current = some i)
    (hfetched : m.fetched = .ok i)
    (hlow : m.byteAt (m.regs.pc + 1) = .ok low)
    (hcore : b.core = m.withIndex low.toUInt16) :
    Outcome m b b.advance := by
  obtain ⟨hregs, hbus⟩ := parts_of_withIndex hcore
  have hadvance :
      b.advance = (Instruction.readAddressHigh b.cpu.regs b.bus).map b.absorb := by
    rw [advance_eq_microStep (by simp [hcounter]) (by simp [hcounter]) hcurrent, hcounter]
    simp [Instruction.microStep]
  rw [hadvance, Instruction.readAddressHigh, hregs, hbus]
  cases hhigh : m.bus.read (m.regs.pc + 2) with
  | error e =>
      have hoperand : m.operand = .error (.bus e) := by
        simp only [Core.operand, hlow]
        simp [Core.byteAt, hhigh]
      exact Outcome.fault (Core.step_of_operand_error hfetched hoperand)
  | ok high =>
      have hoperand :
          m.operand = .ok (UInt16.ofNat (low.toNat + 256 * high.toNat)) := by
        simp only [Core.operand, hlow]
        simp [Core.byteAt, hhigh]
      refine Outcome.onward
        (Underway.addressed i _ ?_ hcurrent hfetched hoperand ?_) ?_ rfl
      · simp [absorb, hcounter]
      · simp [absorb, core, Core.withIndex, Registers.addIndexHigh, address_of_bytes]
      · simp [absorb, hcounter]

theorem mk_next
    (regs : Registers)
    (bus : Bus) :
    (⟨Instruction.next regs, bus⟩ : Core) = Core.past ⟨regs, bus⟩ :=
  rfl

theorem outcome_of_perform
    {i : Instruction}
    {address : UInt16}
    {result : MicroStep}
    (hfetched : m.fetched = .ok i)
    (hoperand : m.operand = .ok address)
    (hperform : (m.withIndex address).perform i = .ok ⟨result.regs, result.bus⟩)
    (hticks : i.ticks = b.cpu.counter.toNat + 1)
    (hdone : result.progress = .done) :
    Outcome m b (.ok (b.absorb result)) := by
  have hcore : (b.absorb result).core = ⟨result.regs, result.bus⟩ := by
    simp [absorb, hdone, core]
  refine Outcome.complete i ?_ hticks ?_ ?_
  · rw [hcore]
    exact Core.step_eq_ok hfetched hoperand hperform
  · simp [absorb, hdone]
  · simp [absorb, hdone]

section Addressed

variable {address : UInt16}

theorem outcome_of_load
    (hcounter : b.cpu.counter = 4)
    (hfetched : m.fetched = .ok .load)
    (hoperand : m.operand = .ok address)
    (hcore : b.core = m.withIndex address) :
    Outcome m b ((Instruction.microStep .load 4 b.cpu.regs b.bus).map b.absorb) := by
  cases hread : b.bus.read b.cpu.regs.index with
  | error e =>
      have hperform : (m.withIndex address).perform .load = .error (.bus e) := by
        simp [← hcore, Core.perform, Core.byteAt, hread]
      simp only [Instruction.microStep, Instruction.completeLoad, hread]
      exact Outcome.fault (Core.step_of_perform_error hfetched hoperand hperform)
  | ok value =>
      simp only [Instruction.microStep, Instruction.completeLoad, hread]
      refine outcome_of_perform hfetched hoperand ?_ (by rw [hcounter]; rfl) rfl
      simp [← hcore, Core.perform, Core.byteAt, hread, mk_next]

theorem outcome_of_store
    (hcounter : b.cpu.counter = 4)
    (hfetched : m.fetched = .ok .store)
    (hoperand : m.operand = .ok address)
    (hcore : b.core = m.withIndex address) :
    Outcome m b ((Instruction.microStep .store 4 b.cpu.regs b.bus).map b.absorb) := by
  cases hwrite : b.bus.write b.cpu.regs.index b.cpu.regs.acc with
  | error e =>
      have hperform : (m.withIndex address).perform .store = .error (.bus e) := by
        simp [← hcore, Core.perform, hwrite]
      simp only [Instruction.microStep, Instruction.completeStore, hwrite]
      exact Outcome.fault (Core.step_of_perform_error hfetched hoperand hperform)
  | ok written =>
      simp only [Instruction.microStep, Instruction.completeStore, hwrite]
      refine outcome_of_perform hfetched hoperand ?_ (by rw [hcounter]; rfl) rfl
      simp [← hcore, Core.perform, hwrite, mk_next]

/-- An addition only reads its operand here; it has one more tick. -/
theorem outcome_of_readOperand
    (hcounter : b.cpu.counter = 4)
    (hcurrent : b.cpu.current = some .add)
    (hfetched : m.fetched = .ok .add)
    (hoperand : m.operand = .ok address)
    (hcore : b.core = m.withIndex address) :
    Outcome m b ((Instruction.microStep .add 4 b.cpu.regs b.bus).map b.absorb) := by
  obtain ⟨hregs, hbus⟩ := parts_of_withIndex hcore
  cases hread : b.bus.read b.cpu.regs.index with
  | error e =>
      have hperform : (m.withIndex address).perform .add = .error (.bus e) := by
        simp [← hcore, Core.perform, Core.byteAt, hread]
      simp only [Instruction.microStep, Instruction.readOperand, hread]
      exact Outcome.fault (Core.step_of_perform_error hfetched hoperand hperform)
  | ok value =>
      have hvalue : m.byteAt address = .ok value := by
        rw [hregs, hbus] at hread
        simp only [Core.byteAt, hread]
      simp only [Instruction.microStep, Instruction.readOperand, hread]
      refine Outcome.onward
        (Underway.operandRead address value ?_ hcurrent hfetched hoperand hvalue ?_ hbus) ?_ rfl
      · simp [absorb, hcounter]
      · simp [absorb, hregs]
      · simp [absorb, hcounter]

theorem outcome_of_branch
    (hcounter : b.cpu.counter = 4)
    (hfetched : m.fetched = .ok .branchIfZero)
    (hoperand : m.operand = .ok address)
    (hcore : b.core = m.withIndex address) :
    Outcome m b ((Instruction.microStep .branchIfZero 4 b.cpu.regs b.bus).map b.absorb) := by
  simp only [Instruction.microStep]
  refine outcome_of_perform hfetched hoperand ?_ (by rw [hcounter]; rfl) rfl
  rw [← hcore]
  by_cases hzero : b.cpu.regs.acc = 0
  · simp [Core.perform, Instruction.completeBranch, hzero, Registers.jump]
  · simp [core, Core.perform, Instruction.completeBranch, hzero, mk_next]

theorem outcome_of_addressed
    {i : Instruction}
    (hcounter : b.cpu.counter = 4)
    (hcurrent : b.cpu.current = some i)
    (hfetched : m.fetched = .ok i)
    (hoperand : m.operand = .ok address)
    (hcore : b.core = m.withIndex address) :
    Outcome m b b.advance := by
  have hadvance :
      b.advance = (i.microStep 4 b.cpu.regs b.bus).map b.absorb := by
    rw [advance_eq_microStep (by simp [hcounter]) (by simp [hcounter]) hcurrent, hcounter]
  rw [hadvance]
  cases i with
  | load => exact outcome_of_load hcounter hfetched hoperand hcore
  | store => exact outcome_of_store hcounter hfetched hoperand hcore
  | add => exact outcome_of_readOperand hcounter hcurrent hfetched hoperand hcore
  | branchIfZero => exact outcome_of_branch hcounter hfetched hoperand hcore

end Addressed

theorem outcome_of_operandRead
    {address : UInt16}
    {value : UInt8}
    (hcounter : b.cpu.counter = 5)
    (hcurrent : b.cpu.current = some .add)
    (hfetched : m.fetched = .ok .add)
    (hoperand : m.operand = .ok address)
    (hvalue : m.byteAt address = .ok value)
    (hregs : b.cpu.regs = { m.regs with index := address, buffer := value })
    (hbus : b.bus = m.bus) :
    Outcome m b b.advance := by
  have hadvance :
      b.advance = .ok (b.absorb (Instruction.completeAdd b.cpu.regs b.bus)) := by
    rw [advance_eq_microStep (by simp [hcounter]) (by simp [hcounter]) hcurrent, hcounter]
    simp [Instruction.microStep, Except.map]
  rw [hadvance]
  refine outcome_of_perform hfetched hoperand ?_ (by rw [hcounter]; rfl) rfl
  have hbyte : (m.withIndex address).byteAt (m.withIndex address).regs.index = .ok value :=
    hvalue
  simp only [Core.perform, hbyte, Instruction.completeAdd, mk_next, hregs, hbus]
  rfl

/-- **One tick.** It goes on with the instruction, or completes it or fails as one step does. -/
theorem advance_outcome (h : Underway m b) : Outcome m b b.advance := by
  cases h with
  | boundary hcounter hcore => exact outcome_of_boundary hcounter hcore
  | settled hcounter hcore => exact outcome_of_settled hcounter hcore
  | decoded i hcounter hcurrent hfetched hcore =>
      exact outcome_of_decoded hcounter hcurrent hfetched hcore
  | lowRead i low hcounter hcurrent hfetched hlow hcore =>
      exact outcome_of_lowRead hcounter hcurrent hfetched hlow hcore
  | addressed i address hcounter hcurrent hfetched hoperand hcore =>
      exact outcome_of_addressed hcounter hcurrent hfetched hoperand hcore
  | operandRead address value hcounter hcurrent hfetched hoperand hvalue hregs hbus =>
      exact outcome_of_operandRead hcounter hcurrent hfetched hoperand hvalue hregs hbus

end Ticks
end Board

end Ticking

end Microcomputer
