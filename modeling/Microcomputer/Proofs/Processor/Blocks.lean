import Microcomputer.Proofs.Processor.Driving

/-!
# Blocks of instructions

**Blocks.**  `Takes n P Q`: from every board between two instructions whose core has the property
`P`, `n` ticks lead to one whose core has the property `Q`.  `takes_of_step` gets this from a step
of the core, and `Takes.trans` puts two blocks together.

**Standard machine.**  `Standing pc acc printed memory` describes a core whose RAM starts at zero
and whose output starts at 0xF000.  There is one lemma for each thing that an instruction can do
there.
-/

namespace Microcomputer

section Blocks

/-- The processor runs and stands between two instructions. -/
structure Board.Between (b : Board) : Prop where
  running : b.cpu.state = .running
  boundary : b.cpu.counter = 0

namespace Board

variable {m next : Core} {i : Instruction}

theorem tick_of_underway
    {b : Board}
    (h : Underway m b)
    (hrunning : b.cpu.state = .running)
    (hstep : m.step = .ok (i, next)) :
    ∃ after : Board,
      b.tick = (.ok (), after) ∧
      after.cpu.state = .running ∧
      (Underway m after ∧ after.cpu.counter.toNat = b.cpu.counter.toNat + 1 ∨
        after.cpu.counter = 0 ∧ i.ticks = b.cpu.counter.toNat + 1 ∧ after.core = next) := by
  have houtcome := advance_outcome h
  cases hadvance : b.advance with
  | error e =>
      rw [hadvance] at houtcome
      cases houtcome with
      | fault hfault => simp [hfault] at hstep
  | ok after =>
      rw [hadvance] at houtcome
      have hafter : after.cpu.state = .running := (advance_frame hadvance).1.trans hrunning
      refine ⟨after.counted, tick_eq_ok hrunning hadvance, hafter, ?_⟩
      cases houtcome with
      | onward hunderway hcounter => exact Or.inl ⟨hunderway.counted, hcounter⟩
      | complete j hcompleted hticks hcounter =>
          rw [hstep, Except.ok.injEq, Prod.mk.injEq] at hcompleted
          rw [hcompleted.1, hcompleted.2]
          exact Or.inr ⟨hcounter, hticks, rfl⟩

theorem run_of_underway
    {b : Board}
    (h : Underway m b)
    (hrunning : b.cpu.state = .running)
    (hstep : m.step = .ok (i, next)) :
    ∃ (k : Nat) (last : Board),
      b.cpu.counter.toNat + k = i.ticks ∧
      b.run k = (.ok (), last) ∧
      last.Between ∧
      last.core = next := by
  obtain ⟨after, htick, hafter, hcase⟩ := tick_of_underway h hrunning hstep
  rcases hcase with ⟨hunderway, hcounter⟩ | ⟨hcounter, hticks, hcore⟩
  · have hmoved : b.cpu.counter.toNat ≤ 4 := by
      refine (tick_counter htick ?_).1
      rintro hzero
      simp [hzero] at hcounter
    obtain ⟨k, last, hticks, hrun, hlast⟩ := run_of_underway hunderway hafter hstep
    refine ⟨k + 1, last, by omega, ?_, hlast⟩
    rw [run, htick]
    exact hrun
  · refine ⟨1, after, by omega, ?_, ⟨hafter, hcounter⟩, hcore⟩
    rw [run_one, htick]
termination_by 6 - b.cpu.counter.toNat
decreasing_by omega

end Board

/-- From every board between two instructions with `P`, some ticks lead to one with `Q`. -/
def Takes
    (count : Nat)
    (P Q : Core → Prop) :
    Prop :=
  ∀ b : Board, b.Between → P b.core →
    ∃ last : Board, b.run count = (.ok (), last) ∧ last.Between ∧ Q last.core

variable {P Q R : Core → Prop}

/-- An instruction is a block of as many ticks as it takes. -/
theorem takes_of_step
    {i : Instruction}
    (h : ∀ m, P m → ∃ next, m.step = .ok (i, next) ∧ Q next) :
    Takes i.ticks P Q := by
  intro b hb hP
  obtain ⟨next, hstep, hQ⟩ := h b.core hP
  obtain ⟨k, last, hticks, hrun, hlast, hcore⟩ :=
    Board.run_of_underway (.boundary hb.boundary rfl) hb.running hstep
  have hk : k = i.ticks := by simpa [hb.boundary] using hticks
  rw [← hk]
  exact ⟨last, hrun, hlast, by rwa [hcore]⟩

theorem Takes.trans
    {first second : Nat}
    (h : Takes first P Q)
    (h' : Takes second Q R) :
    Takes (first + second) P R := by
  intro b hb hP
  obtain ⟨mid, hmid, hbetween, hQ⟩ := h b hb hP
  obtain ⟨last, hlast, hR⟩ := h' mid hbetween hQ
  refine ⟨last, ?_, hR⟩
  rw [Board.run_add, hmid]
  exact hlast

/-- A block that leads back to its start can be repeated. -/
theorem Takes.repeated
    {count : Nat}
    (h : Takes count P P)
    (times : Nat) :
    Takes (times * count) P P := by
  induction times with
  | zero =>
      intro b hb hP
      rw [Nat.zero_mul]
      exact ⟨b, rfl, hb, hP⟩
  | succ times ih =>
      rw [Nat.succ_mul]
      exact ih.trans h

end Blocks

section Standard

/-- A bus with a character output at 0xF000 and a RAM at zero. -/
def standardBus (printed memory : List UInt8) : Bus where
  devices :=
    [ .charOut { base := 0xF000, buffer := printed.toArray },
      .ram { base := 0, contents := memory.toArray } ]

variable {printed memory : List UInt8} {address : UInt16} {value : UInt8}

theorem read_standardBus
    (haddress : address < 0xF000)
    (hvalue : memory[address.toNat]? = some value) :
    (standardBus printed memory).read address = .ok value := by
  have houtput : ¬ (0xF000 : UInt16) ≤ address := UInt16.not_le.2 haddress
  obtain ⟨hinside, hget⟩ := List.getElem?_eq_some_iff.1 hvalue
  simp [Bus.read, Bus.route?, standardBus, Device.base, houtput, Device.read, Ram.read,
    Ram.offset?, hinside, hget]

theorem write_standardBus
    (haddress : address < 0xF000)
    (hinside : address.toNat < memory.length) :
    (standardBus printed memory).write address value =
      .ok (standardBus printed (memory.set address.toNat value)) := by
  have houtput : ¬ (0xF000 : UInt16) ≤ address := UInt16.not_le.2 haddress
  simp [Bus.write, Bus.writeFirst, standardBus, Device.base, houtput, Device.write, Ram.write,
    Ram.offset?, hinside, Except.map]

theorem print_standardBus
    (haddress : 0xF000 ≤ address) :
    (standardBus printed memory).write address value =
      .ok (standardBus (printed ++ [value]) memory) := by
  simp [Bus.write, Bus.writeFirst, standardBus, Device.base, haddress, Device.write,
    CharOut.push, Except.map]

/-- A core of the standard machine; its index and its buffer may hold anything. -/
structure Standing
    (pc : Nat)
    (acc : UInt8)
    (printed memory : List UInt8)
    (m : Core) :
    Prop where
  pc : m.regs.pc = UInt16.ofNat pc
  acc : m.regs.acc = acc
  bus : m.bus = standardBus printed memory

/-- The three bytes of an instruction lie in the memory. -/
structure Encoded
    (memory : List UInt8)
    (pc : Nat)
    (i : Instruction)
    (address : UInt16) :
    Prop where
  below : pc + 2 < 0xF000
  opcode : memory[pc]? = some i.opcode
  low : memory[pc + 1]? = some (UInt8.ofNat (address.toNat % 256))
  high : memory[pc + 2]? = some (UInt8.ofNat (address.toNat / 256))

end Standard

section Instructions

variable {pc : Nat} {acc value : UInt8} {printed memory : List UInt8} {address : UInt16}
variable {m next : Core} {i : Instruction}

theorem Standing.byteAt
    (h : Standing pc acc printed memory m)
    (haddress : address < 0xF000)
    (hvalue : memory[address.toNat]? = some value) :
    m.byteAt address = .ok value := by
  rw [Core.byteAt, h.bus, read_standardBus haddress hvalue]

theorem Standing.byteAt_pc
    (h : Standing pc acc printed memory m)
    (offset : Nat)
    (hbelow : pc + offset < 0xF000)
    (hvalue : memory[pc + offset]? = some value) :
    m.byteAt (m.regs.pc + UInt16.ofNat offset) = .ok value := by
  have haddress : (m.regs.pc + UInt16.ofNat offset).toNat = pc + offset := by
    rw [h.pc, UInt16.toNat_add, UInt16.toNat_ofNat', UInt16.toNat_ofNat']
    omega
  refine h.byteAt ?_ (by rwa [haddress])
  rw [UInt16.lt_iff_toNat_lt, haddress]
  exact hbelow

/-- The instruction at the program counter is executed. -/
theorem Standing.step
    (h : Standing pc acc printed memory m)
    (hencoded : Encoded memory pc i address)
    (hperform : (m.withIndex address).perform i = .ok next) :
    m.step = .ok (i, next) := by
  have hbelow := hencoded.below
  have hopcode : m.byteAt (m.regs.pc + 0) = .ok i.opcode :=
    h.byteAt_pc 0 (by omega) hencoded.opcode
  have hlow : m.byteAt (m.regs.pc + 1) = .ok _ := h.byteAt_pc 1 (by omega) hencoded.low
  have hhigh : m.byteAt (m.regs.pc + 2) = .ok _ := h.byteAt_pc 2 (by omega) hencoded.high
  have hfetched : m.fetched = .ok i := by
    rw [UInt16.add_zero] at hopcode
    simp only [Core.fetched, hopcode, Instruction.ofOpcode?_opcode]
  have haddress : UInt16.ofNat ((UInt8.ofNat (address.toNat % 256)).toNat +
      256 * (UInt8.ofNat (address.toNat / 256)).toNat) = address := by
    have hlt := address.toNat_lt
    apply UInt16.toNat.inj
    simp only [UInt8.toNat_ofNat', UInt16.toNat_ofNat']
    omega
  have hoperand : m.operand = .ok address := by
    simp only [Core.operand, hlow, hhigh, haddress]
  exact Core.step_eq_ok hfetched hoperand hperform

theorem Standing.perform_store
    {written : Bus}
    (h : Standing pc acc printed memory m)
    (hwrite : (standardBus printed memory).write address acc = .ok written) :
    (m.withIndex address).perform .store =
      .ok (Core.past ⟨{ m.regs with index := address }, written⟩) := by
  rw [← h.bus, ← h.acc] at hwrite
  have hindex : (m.withIndex address).bus.write (m.withIndex address).regs.index
      (m.withIndex address).regs.acc = .ok written := hwrite
  rw [Core.perform, hindex]
  rfl

theorem takes_load
    (hencoded : Encoded memory pc .load address)
    (haddress : address < 0xF000)
    (hvalue : memory[address.toNat]? = some value) :
    Takes 5 (Standing pc acc printed memory) (Standing (pc + 3) value printed memory) := by
  refine takes_of_step (i := .load) fun m h => ?_
  have hread : (m.withIndex address).byteAt (m.withIndex address).regs.index = .ok value :=
    h.byteAt haddress hvalue
  have hperform : (m.withIndex address).perform .load =
      .ok { m with regs := { m.regs with acc := value, index := address } }.past := by
    rw [Core.perform, hread]
    rfl
  exact ⟨_, h.step hencoded hperform, by simp [Core.past, h.pc], rfl, h.bus⟩

theorem takes_store
    (hencoded : Encoded memory pc .store address)
    (haddress : address < 0xF000)
    (hinside : address.toNat < memory.length) :
    Takes 5 (Standing pc acc printed memory)
      (Standing (pc + 3) acc printed (memory.set address.toNat acc)) := by
  refine takes_of_step (i := .store) fun m h => ?_
  exact ⟨_, h.step hencoded (h.perform_store (write_standardBus haddress hinside)),
    by simp [Core.past, h.pc], h.acc, rfl⟩

theorem takes_print
    (hencoded : Encoded memory pc .store address)
    (haddress : 0xF000 ≤ address) :
    Takes 5 (Standing pc acc printed memory) (Standing (pc + 3) acc (printed ++ [acc]) memory) := by
  refine takes_of_step (i := .store) fun m h => ?_
  exact ⟨_, h.step hencoded (h.perform_store (print_standardBus haddress)),
    by simp [Core.past, h.pc], h.acc, rfl⟩

theorem takes_add
    (hencoded : Encoded memory pc .add address)
    (haddress : address < 0xF000)
    (hvalue : memory[address.toNat]? = some value) :
    Takes 6 (Standing pc acc printed memory) (Standing (pc + 3) (acc + value) printed memory) := by
  refine takes_of_step (i := .add) fun m h => ?_
  have hread : (m.withIndex address).byteAt (m.withIndex address).regs.index = .ok value :=
    h.byteAt haddress hvalue
  have hperform : (m.withIndex address).perform .add =
      .ok { m with regs :=
        { m.regs with acc := m.regs.acc + value, index := address, buffer := value } }.past := by
    rw [Core.perform, hread]
    rfl
  exact ⟨_, h.step hencoded hperform, by simp [Core.past, h.pc], by simp [Core.past, h.acc], h.bus⟩

/-- A branch on zero is taken. -/
theorem takes_branch_zero
    (hencoded : Encoded memory pc .branchIfZero address) :
    Takes 5 (Standing pc 0 printed memory) (Standing address.toNat 0 printed memory) := by
  refine takes_of_step (i := .branchIfZero) fun m h => ?_
  have hperform : (m.withIndex address).perform .branchIfZero =
      .ok { m with regs := { m.regs with pc := address, index := address } } := by
    rw [Core.perform, if_pos (show (m.withIndex address).regs.acc = 0 from h.acc)]
    rfl
  exact ⟨_, h.step hencoded hperform, by simp, h.acc, h.bus⟩

theorem takes_branch_nonzero
    (hencoded : Encoded memory pc .branchIfZero address)
    (hacc : acc ≠ 0) :
    Takes 5 (Standing pc acc printed memory) (Standing (pc + 3) acc printed memory) := by
  refine takes_of_step (i := .branchIfZero) fun m h => ?_
  have hperform : (m.withIndex address).perform .branchIfZero = .ok (m.withIndex address).past := by
    rw [Core.perform, if_neg (show (m.withIndex address).regs.acc ≠ 0 from h.acc ▸ hacc)]
  exact ⟨_, h.step hencoded hperform, by simp [Core.past, Core.withIndex, h.pc], h.acc, h.bus⟩

end Instructions
end Microcomputer
