import Microcomputer.Proofs.Processor.Stepping

/-!
# The timetable of an instruction

Which of the changes that an instruction makes falls on which of its ticks.

**Accesses.**  An `Execution b` is the instruction at the program counter of a board between two
instructions, with what each of its accesses to the bus gives; so all of them succeed.

**Timetable.**  `Execution.midway k` is the board after `k` ticks that have not ended the
instruction, and `Execution.completed` the board after the last one.  There is one lemma for each
tick, and `tick_midway` and `tick_last` put them together.

**Results.**  `effects_land_on_last_tick`: the board goes through these states.  `step_eq_ok_iff`: a
step from between two instructions succeeds exactly if there is such an execution.
-/

namespace Microcomputer
namespace Board

/-- The instruction at the program counter of a board, and what its accesses give. -/
structure Execution (b : Board) where
  instruction : Instruction
  low : UInt8
  high : UInt8
  /-- The byte at the address, which only a load and an addition read. -/
  value : UInt8
  /-- The bus after the write, which only a store makes. -/
  written : Bus
  fetched : b.bus.read b.cpu.regs.pc = .ok instruction.opcode
  lowRead : b.bus.read (b.cpu.regs.pc + 1) = .ok low
  highRead : b.bus.read (b.cpu.regs.pc + 2) = .ok high
  valueRead :
    instruction = .load ∨ instruction = .add →
      b.bus.read (UInt16.ofNat (low.toNat + 256 * high.toNat)) = .ok value
  valueWritten :
    instruction = .store →
      b.bus.write (UInt16.ofNat (low.toNat + 256 * high.toNat)) b.cpu.regs.acc = .ok written

namespace Execution

section States

variable {b : Board} (x : Execution b)

/-- The direct address of the instruction. -/
def address : UInt16 :=
  UInt16.ofNat (x.low.toNat + 256 * x.high.toNat)

/-- The board after `k` ticks that have not ended the instruction. -/
def midway (k : Nat) : Board :=
  { b with
    cpu :=
      { b.cpu with
        regs :=
          { b.cpu.regs with
            index :=
              if k ≤ 2 then b.cpu.regs.index
              else if k = 3 then x.low.toUInt16
              else x.address
            buffer := if k ≤ 4 then b.cpu.regs.buffer else x.value }
        cycles := b.cpu.cycles + UInt64.ofNat k
        counter := UInt8.ofNat k
        current := if k ≤ 1 then b.cpu.current else some x.instruction } }

/-- The registers after the last tick. -/
def finalRegs : Registers where
  pc :=
    match x.instruction with
    | .branchIfZero => if b.cpu.regs.acc = 0 then x.address else b.cpu.regs.pc + 3
    | _ => b.cpu.regs.pc + 3
  acc :=
    match x.instruction with
    | .load => x.value
    | .add => b.cpu.regs.acc + x.value
    | _ => b.cpu.regs.acc
  index := x.address
  buffer :=
    match x.instruction with
    | .add => x.value
    | _ => b.cpu.regs.buffer

/-- The bus after the last tick. -/
def finalBus : Bus :=
  match x.instruction with
  | .store => x.written
  | _ => b.bus

/-- The board after the last tick of the instruction. -/
def completed : Board where
  cpu :=
    { b.cpu with
      regs := x.finalRegs
      cycles := b.cpu.cycles + UInt64.ofNat x.instruction.ticks
      counter := 0
      current := some x.instruction
      retired := b.cpu.retired + 1 }
  bus := x.finalBus

end States

section Ticks

variable {b : Board} (x : Execution b)

theorem midway_zero (hboundary : b.cpu.counter = 0) : x.midway 0 = b := by
  obtain ⟨cpu, bus⟩ := b
  obtain ⟨regs, state, cycles, counter, current, retired⟩ := cpu
  simp only at hboundary
  subst hboundary
  simp [midway]

/-- The micro-step of the last tick, in which all effects of the instruction land. -/
theorem microStep_last :
    x.instruction.microStep (UInt8.ofNat (x.instruction.ticks - 1))
        (x.midway (x.instruction.ticks - 1)).cpu.regs b.bus =
      .ok ⟨.done, x.finalRegs, x.finalBus⟩ := by
  cases hi : x.instruction with
  | load =>
      have hvalue : b.bus.read x.address = .ok x.value := x.valueRead (Or.inl hi)
      simp [Instruction.ticks, midway, Instruction.microStep, Instruction.completeLoad, hvalue,
        Instruction.next, Registers.advance, Instruction.size, finalRegs, finalBus, hi]
  | store =>
      have hwritten : b.bus.write x.address b.cpu.regs.acc = .ok x.written := x.valueWritten hi
      simp [Instruction.ticks, midway, Instruction.microStep, Instruction.completeStore, hwritten,
        Instruction.next, Registers.advance, Instruction.size, finalRegs, finalBus, hi]
  | add =>
      simp [Instruction.ticks, midway, Instruction.microStep, Instruction.completeAdd,
        Instruction.next, Registers.advance, Instruction.size, finalRegs, finalBus, hi]
  | branchIfZero =>
      by_cases hzero : b.cpu.regs.acc = 0
      · simp [Instruction.ticks, midway, Instruction.microStep, Instruction.completeBranch, hzero,
          Registers.jump, finalRegs, finalBus, hi]
      · simp [Instruction.ticks, midway, Instruction.microStep, Instruction.completeBranch, hzero,
          Instruction.next, Registers.advance, Instruction.size, finalRegs, finalBus, hi]

variable (hrunning : b.cpu.state = .running)
include hrunning

theorem tick_of_advance
    {k : Nat}
    {next last : Board}
    (hadvance : (x.midway k).advance = .ok next)
    (hlast : next.counted = last) :
    (x.midway k).tick = (.ok (), last) := by
  have hstate : (x.midway k).cpu.state = .running := hrunning
  rw [tick_eq_ok hstate hadvance, hlast]

theorem tick_settle : (x.midway 0).tick = (.ok (), x.midway 1) := by
  have hadvance : (x.midway 0).advance = .ok (x.midway 0).settle := by
    simp [advance, midway]
  refine x.tick_of_advance hrunning hadvance ?_
  simp [counted, settle, midway]

theorem tick_fetch : (x.midway 1).tick = (.ok (), x.midway 2) := by
  have hadvance : (x.midway 1).advance = .ok
      { b with
        cpu := { (x.midway 1).cpu with current := some x.instruction, counter := 2 } } := by
    simp [advance, fetch, midway, x.fetched]
  refine x.tick_of_advance hrunning hadvance ?_
  simp [counted, midway, UInt64.add_assoc]

/-- An execution tick absorbs what its micro-step gives. -/
theorem tick_of_microStep
    {k : Nat}
    {result : MicroStep}
    {last : Board}
    (hlow : 2 ≤ k)
    (hhigh : k ≤ 5)
    (hstep :
      x.instruction.microStep (UInt8.ofNat k) (x.midway k).cpu.regs b.bus = .ok result)
    (hlast : ((x.midway k).absorb result).counted = last) :
    (x.midway k).tick = (.ok (), last) := by
  have hcounter : (x.midway k).cpu.counter.toNat = k := by
    rw [midway, UInt8.toNat_ofNat']
    omega
  have hcurrent : (x.midway k).cpu.current = some x.instruction := if_neg (by omega)
  have hadvance : (x.midway k).advance = .ok ((x.midway k).absorb result) := by
    rw [advance_eq_microStep ?_ ?_ hcurrent]
    · exact congrArg (Except.map (x.midway k).absorb) hstep
    · intro h
      simp [h] at hcounter
      omega
    · intro h
      simp [h] at hcounter
      omega
  exact x.tick_of_advance hrunning hadvance hlast

theorem tick_low : (x.midway 2).tick = (.ok (), x.midway 3) := by
  have hstep : x.instruction.microStep 2 (x.midway 2).cpu.regs b.bus =
      .ok ⟨.continuing, b.cpu.regs.setIndexLow x.low, b.bus⟩ := by
    simp [midway, Instruction.microStep, Instruction.readAddressLow, x.lowRead]
  refine x.tick_of_microStep hrunning (by decide) (by decide) hstep ?_
  simp [counted, absorb, midway, Registers.setIndexLow, UInt64.add_assoc]

theorem tick_high : (x.midway 3).tick = (.ok (), x.midway 4) := by
  have hstep : x.instruction.microStep 3 (x.midway 3).cpu.regs b.bus =
      .ok ⟨.continuing, { b.cpu.regs with index := x.address }, b.bus⟩ := by
    simp [midway, Instruction.microStep, Instruction.readAddressHigh, x.highRead,
      Registers.addIndexHigh, address_of_bytes, address]
  refine x.tick_of_microStep hrunning (by decide) (by decide) hstep ?_
  simp [counted, absorb, midway, UInt64.add_assoc]

theorem tick_operand
    (hadd : x.instruction = .add) :
    (x.midway 4).tick = (.ok (), x.midway 5) := by
  have hvalue : b.bus.read x.address = .ok x.value := x.valueRead (Or.inr hadd)
  have hstep : x.instruction.microStep 4 (x.midway 4).cpu.regs b.bus =
      .ok ⟨.continuing, { b.cpu.regs with index := x.address, buffer := x.value }, b.bus⟩ := by
    simp [midway, hadd, Instruction.microStep, Instruction.readOperand, hvalue]
  refine x.tick_of_microStep hrunning (by decide) (by decide) hstep ?_
  simp [counted, absorb, midway, UInt64.add_assoc]

/-- A tick that does not end the instruction. -/
theorem tick_midway
    {k : Nat}
    (hk : k + 1 < x.instruction.ticks) :
    (x.midway k).tick = (.ok (), x.midway (k + 1)) := by
  match k with
  | 0 => exact x.tick_settle hrunning
  | 1 => exact x.tick_fetch hrunning
  | 2 => exact x.tick_low hrunning
  | 3 => exact x.tick_high hrunning
  | 4 =>
      have hadd : x.instruction = .add := by
        cases hi : x.instruction with
        | add => rfl
        | load | store | branchIfZero => simp [hi, Instruction.ticks] at hk
      exact x.tick_operand hrunning hadd
  | k + 5 =>
      have hticks : x.instruction.ticks ≤ 6 := by cases x.instruction <;> decide
      omega

/-- The tick that ends the instruction. -/
theorem tick_last
    {k : Nat}
    (hk : k + 1 = x.instruction.ticks) :
    (x.midway k).tick = (.ok (), x.completed) := by
  have hticks : 5 ≤ x.instruction.ticks ∧ x.instruction.ticks ≤ 6 := by
    cases x.instruction <;> decide
  have hstep := x.microStep_last
  rw [← hk, Nat.add_sub_cancel] at hstep
  refine x.tick_of_microStep hrunning (by omega) (by omega) hstep ?_
  have hcurrent : (x.midway k).cpu.current = some x.instruction := if_neg (by omega)
  have hcycles : b.cpu.cycles + UInt64.ofNat k + 1 =
      b.cpu.cycles + UInt64.ofNat x.instruction.ticks := by
    rw [← hk, UInt64.ofNat_add, ← UInt64.add_assoc]
    rfl
  simp only [counted, absorb, completed, hcurrent, ← hcycles]
  rfl

end Ticks

section Runs

variable {b : Board} (x : Execution b)
variable (hrunning : b.cpu.state = .running) (hboundary : b.cpu.counter = 0)
include hrunning hboundary

theorem run_midway
    {k : Nat}
    (hk : k < x.instruction.ticks) :
    b.run k = (.ok (), x.midway k) := by
  induction k with
  | zero =>
      rw [x.midway_zero hboundary]
      rfl
  | succ k ih =>
      rw [run_succ, ih (Nat.lt_of_succ_lt hk)]
      exact x.tick_midway hrunning hk

theorem run_completed : b.run x.instruction.ticks = (.ok (), x.completed) := by
  obtain ⟨k, hk⟩ : ∃ k, k + 1 = x.instruction.ticks := by
    cases x.instruction <;> exact ⟨_, rfl⟩
  rw [← hk, run_succ, x.run_midway hrunning hboundary (by omega)]
  exact x.tick_last hrunning hk

theorem stopsAfter : b.StopsAfter x.instruction.ticks where
  pos := by cases x.instruction <;> decide
  onward := by
    intro k hpos hlt
    have hticks : x.instruction.ticks ≤ 6 := by cases x.instruction <;> decide
    rw [x.run_midway hrunning hboundary hlt]
    refine ⟨rfl, fun hzero => ?_⟩
    have hcounter : (UInt8.ofNat k).toNat = 0 := congrArg UInt8.toNat hzero
    rw [UInt8.toNat_ofNat'] at hcounter
    omega
  stop := by
    rw [x.run_completed hrunning hboundary]
    exact fun _ => rfl

end Runs
end Execution

section Steps

variable {b next last : Board} {m : Core} {i : Instruction} {t : Nat}

theorem read_of_byteAt
    {address : UInt16}
    {value : UInt8}
    (h : m.byteAt address = .ok value) :
    m.bus.read address = .ok value := by
  unfold Core.byteAt at h
  split at h
  · cases h
    assumption
  · cases h

theorem read_of_fetched
    (h : m.fetched = .ok i) :
    m.bus.read m.regs.pc = .ok i.opcode := by
  unfold Core.fetched at h
  split at h
  · cases h
  · next opcode hopcode =>
      split at h
      · next j hj =>
          cases h
          rw [read_of_byteAt hopcode, Instruction.ofOpcode?_eq_some_iff.1 hj]
      · cases h

theorem reads_of_operand
    {address : UInt16}
    (h : m.operand = .ok address) :
    ∃ low high : UInt8,
      m.bus.read (m.regs.pc + 1) = .ok low ∧
      m.bus.read (m.regs.pc + 2) = .ok high ∧
      address = UInt16.ofNat (low.toNat + 256 * high.toNat) := by
  unfold Core.operand at h
  split at h
  · cases h
  · next low hlow =>
      split at h
      · cases h
      · next high hhigh =>
          cases h
          exact ⟨low, high, read_of_byteAt hlow, read_of_byteAt hhigh, rfl⟩

theorem exists_execution_of_core
    {after : Core}
    (h : b.core.step = .ok (i, after)) :
    Nonempty (Execution b) := by
  unfold Core.step at h
  split at h
  · cases h
  next j hfetched =>
  split at h
  · cases h
  next address hoperand =>
  split at h
  · cases h
  next reached hperform =>
  have hopcode := read_of_fetched hfetched
  obtain ⟨low, high, hlow, hhigh, rfl⟩ := reads_of_operand hoperand
  cases j with
  | load =>
      simp only [Core.perform] at hperform
      split at hperform
      · cases hperform
      · next value hvalue =>
          exact ⟨⟨.load, low, high, value, b.bus, hopcode, hlow, hhigh,
            fun _ => read_of_byteAt hvalue, by simp⟩⟩
  | store =>
      simp only [Core.perform] at hperform
      split at hperform
      · cases hperform
      · next written hwritten =>
          exact ⟨⟨.store, low, high, 0, written, hopcode, hlow, hhigh, by simp, fun _ => hwritten⟩⟩
  | add =>
      simp only [Core.perform] at hperform
      split at hperform
      · cases hperform
      · next value hvalue =>
          exact ⟨⟨.add, low, high, value, b.bus, hopcode, hlow, hhigh,
            fun _ => read_of_byteAt hvalue, by simp⟩⟩
  | branchIfZero =>
      exact ⟨⟨.branchIfZero, low, high, 0, b.bus, hopcode, hlow, hhigh, by simp, by simp⟩⟩

theorem underway_of_tick
    (hunderway : Underway m b)
    (h : b.tick = (.ok (), next)) :
    (Underway m next ∧ next.cpu.counter.toNat = b.cpu.counter.toNat + 1) ∨
    (∃ i : Instruction, m.step = .ok (i, next.core) ∧ next.cpu.counter = 0) := by
  have houtcome := advance_outcome hunderway
  unfold tick at h
  split at h
  · cases h
  split at h
  next after hadvance =>
      cases h
      rw [hadvance] at houtcome
      cases houtcome with
      | onward hnext hcounter => exact Or.inl ⟨hnext.counted, hcounter⟩
      | complete i hstep _ hcounter => exact Or.inr ⟨i, hstep, hcounter⟩
  · cases h

theorem core_step_of_finish
    {used : Nat}
    (hunderway : Underway m b)
    (h : b.finish used = (.ok t, last)) :
    ∃ i : Instruction, m.step = .ok (i, last.core) := by
  fun_induction finish used b with
  | case1 used b next hnext hzero =>
      cases h
      rcases underway_of_tick hunderway hnext with ⟨-, hcounter⟩ | ⟨i, hstep, -⟩
      · simp [hzero] at hcounter
      · exact ⟨i, hstep⟩
  | case2 used b next hnext hinside ih =>
      rcases underway_of_tick hunderway hnext with ⟨hgoes, -⟩ | ⟨i, -, hzero⟩
      · exact ih hgoes h
      · exact absurd hzero hinside
  | case3 => cases h

/-- A step succeeds exactly if all accesses of the instruction do, and takes its ticks. -/
theorem step_eq_ok_iff
    (hrunning : b.cpu.state = .running)
    (hboundary : b.cpu.counter = 0) :
    b.step = (.ok t, last) ↔
      ∃ x : Execution b, t = x.instruction.ticks ∧ last = x.completed := by
  have hexecuted : ∀ x : Execution b, b.step = (.ok x.instruction.ticks, x.completed) := by
    intro x
    rw [(x.stopsAfter hrunning hboundary).step_eq, x.run_completed hrunning hboundary]
    rfl
  constructor
  · intro hstep
    obtain ⟨i, hcore⟩ := core_step_of_finish (.boundary hboundary rfl) hstep
    obtain ⟨x⟩ := exists_execution_of_core hcore
    rw [hexecuted x] at hstep
    cases hstep
    exact ⟨x, rfl, rfl⟩
  · rintro ⟨x, rfl, rfl⟩
    exact hexecuted x

theorem exists_execution_of_step
    (hboundary : b.cpu.counter = 0)
    (h : b.step = (.ok t, last)) :
    ∃ x : Execution b, t = x.instruction.ticks ∧ last = x.completed := by
  cases hstate : b.cpu.state with
  | running => exact (step_eq_ok_iff hstate hboundary).1 h
  | faulted =>
      rw [step, finish_of_faulted hstate] at h
      cases h

end Steps

/-- **The timetable.** The ticks of an instruction read its address and operand one byte at a time;
all other effects land with the last one. -/
theorem effects_land_on_last_tick
    {b : Board}
    (hrunning : b.cpu.state = .running)
    (hboundary : b.cpu.counter = 0)
    (x : Execution b) :
    (∀ k, 1 ≤ k → k < x.instruction.ticks → b.run k = (.ok (), x.midway k)) ∧
    b.run x.instruction.ticks = (.ok (), x.completed) :=
  ⟨fun _ _ => x.run_midway hrunning hboundary, x.run_completed hrunning hboundary⟩

/-- An addition whose opcode is the last byte of the address space, behind a store. -/
def wrapping : Board where
  cpu :=
    { regs := { pc := 0xFFFF, acc := 250, index := 0x1234, buffer := 7 }
      current := some .store }
  bus :=
    { devices :=
        [.ram { base := 0xFFFF, contents := #[3] }, .ram { base := 0, contents := #[2, 0, 9] }] }

def wrappingAddition : Execution wrapping where
  instruction := .add
  low := 2
  high := 0
  value := 9
  written := {}
  fetched := by decide
  lowRead := by decide
  highRead := by decide
  valueRead := by decide
  valueWritten := by decide

/-- The sum is there at the end only, and so is the program counter behind the instruction. -/
theorem wrapping_lands_on_last_tick :
    wrapping.cpu.state = .running ∧
    wrapping.cpu.counter = 0 ∧
    (wrapping.run 1).2.cpu.current = some .store ∧
    (wrapping.run 2).2.cpu.regs = { pc := 0xFFFF, acc := 250, index := 0x1234, buffer := 7 } ∧
    (wrapping.run 3).2.cpu.regs = { pc := 0xFFFF, acc := 250, index := 2, buffer := 7 } ∧
    (wrapping.run 5).2.cpu.regs = { pc := 0xFFFF, acc := 250, index := 2, buffer := 9 } ∧
    (wrapping.run 6).2.cpu.regs = { pc := 2, acc := 3, index := 2, buffer := 9 } := by
  obtain ⟨hmidway, hlast⟩ := effects_land_on_last_tick (b := wrapping) rfl rfl wrappingAddition
  refine ⟨rfl, rfl, ?_, ?_, ?_, ?_, ?_⟩
  · rw [hmidway 1 (by decide) (by decide)]
    decide
  · rw [hmidway 2 (by decide) (by decide)]
    decide
  · rw [hmidway 3 (by decide) (by decide)]
    decide
  · rw [hmidway 5 (by decide) (by decide)]
    decide
  · rw [show 6 = wrappingAddition.instruction.ticks from rfl, hlast]
    decide

end Board
end Microcomputer
