import Microcomputer.Board

/-!
# What a tick can do

**Micro-steps.**  `Performed i regs bus step result` lists what the instructions do at each of their
micro-steps.

**Ticks.**  `Advanced b next` lists the ways in which a tick succeeds, and `Refused b e` those in
which it fails.

**Results.**  `performed_of_microStep`, `advanced_of_advance` and `refused_of_advance`: there is no
other way.  `tick_outcome` says the same of a whole tick.
-/

namespace Microcomputer
namespace Instruction

/-- What an instruction does at its micro-step `step`. -/
inductive Performed (i : Instruction) (regs : Registers) (bus : Bus) : UInt8 → MicroStep → Prop
  | addressLow
      {low : UInt8}
      (hread : bus.read (regs.pc + 1) = .ok low) :
      Performed i regs bus 2 ⟨.continuing, regs.setIndexLow low, bus⟩
  | addressHigh
      {high : UInt8}
      (hread : bus.read (regs.pc + 2) = .ok high) :
      Performed i regs bus 3 ⟨.continuing, regs.addIndexHigh high, bus⟩
  | loaded
      {value : UInt8}
      (hi : i = .load)
      (hread : bus.read regs.index = .ok value) :
      Performed i regs bus 4 ⟨.done, next { regs with acc := value }, bus⟩
  | stored
      {written : Bus}
      (hi : i = .store)
      (hwrite : bus.write regs.index regs.acc = .ok written) :
      Performed i regs bus 4 ⟨.done, next regs, written⟩
  | operandRead
      {value : UInt8}
      (hi : i = .add)
      (hread : bus.read regs.index = .ok value) :
      Performed i regs bus 4 ⟨.continuing, { regs with buffer := value }, bus⟩
  | branched
      (hi : i = .branchIfZero) :
      Performed i regs bus 4 (completeBranch regs bus)
  | added
      (hi : i = .add) :
      Performed i regs bus 5 (completeAdd regs bus)

variable {i : Instruction} {step : UInt8} {regs : Registers} {bus : Bus}

theorem performed_of_microStep
    {result : MicroStep}
    (h : i.microStep step regs bus = .ok result) :
    Performed i regs bus step result := by
  unfold microStep at h
  split at h
  · next hstep =>
      subst hstep
      unfold readAddressLow at h
      split at h <;> cases h
      exact .addressLow (by assumption)
  split at h
  · next hstep =>
      subst hstep
      unfold readAddressHigh at h
      split at h <;> cases h
      exact .addressHigh (by assumption)
  split at h
  · next hstep =>
      subst hstep
      cases i with
      | load =>
          simp only [completeLoad] at h
          split at h <;> cases h
          exact .loaded rfl (by assumption)
      | store =>
          simp only [completeStore] at h
          split at h <;> cases h
          exact .stored rfl (by assumption)
      | add =>
          simp only [readOperand] at h
          split at h <;> cases h
          exact .operandRead rfl (by assumption)
      | branchIfZero =>
          cases h
          exact .branched rfl
  split at h
  · next hlast =>
      obtain ⟨rfl, rfl⟩ := hlast
      cases h
      exact .added rfl
  · cases h

theorem Performed.succ_lt_ticks
    {result : MicroStep}
    (h : Performed i regs bus step result)
    (hprogress : result.progress = .continuing) :
    step.toNat + 1 < i.ticks := by
  cases h with
  | addressLow => cases i <;> decide
  | addressHigh => cases i <;> decide
  | loaded => cases hprogress
  | stored => cases hprogress
  | operandRead hi => rw [hi]; decide
  | branched => cases hprogress
  | added => cases hprogress

theorem Performed.succ_eq_ticks
    {result : MicroStep}
    (h : Performed i regs bus step result)
    (hprogress : result.progress = .done) :
    step.toNat + 1 = i.ticks := by
  cases h with
  | addressLow => cases hprogress
  | addressHigh => cases hprogress
  | loaded hi => rw [hi]; rfl
  | stored hi => rw [hi]; rfl
  | operandRead => cases hprogress
  | branched hi => rw [hi]; rfl
  | added hi => rw [hi]; rfl

theorem refused_of_microStep
    {e : CpuError}
    (hlow : 2 ≤ step.toNat)
    (hhigh : step.toNat < i.ticks)
    (h : i.microStep step regs bus = .error e) :
    ∃ refused : BusError, e = .bus refused := by
  unfold microStep at h
  split at h
  · unfold readAddressLow at h
    split at h <;> cases h
    exact ⟨_, rfl⟩
  split at h
  · unfold readAddressHigh at h
    split at h <;> cases h
    exact ⟨_, rfl⟩
  split at h
  · cases i with
    | load =>
        simp only [completeLoad] at h
        split at h <;> cases h
        exact ⟨_, rfl⟩
    | store =>
        simp only [completeStore] at h
        split at h <;> cases h
        exact ⟨_, rfl⟩
    | add =>
        simp only [readOperand] at h
        split at h <;> cases h
        exact ⟨_, rfl⟩
    | branchIfZero => cases h
  · next h2 h3 h4 =>
      simp only [← UInt8.toNat_inj] at h2 h3 h4
      simp at h2 h3 h4
      -- Only an addition takes more than five ticks.
      have hlast : step = 5 ∧ i = .add := by
        rw [← UInt8.toNat_inj]
        cases i <;> simp [ticks] at hhigh ⊢ <;> omega
      rw [if_pos hlast] at h
      cases h

end Instruction

namespace Board

/-- The ways in which a tick of the sequencer succeeds. -/
inductive Advanced (b : Board) : Board → Prop
  | settled
      (hcounter : b.cpu.counter = 0) :
      Advanced b b.settle
  | fetched
      (i : Instruction)
      (hcounter : b.cpu.counter = 1)
      (hread : b.bus.read b.cpu.regs.pc = .ok i.opcode) :
      Advanced b { b with cpu := { b.cpu with current := some i, counter := 2 } }
  | executed
      (i : Instruction)
      (result : MicroStep)
      (hcounter : 2 ≤ b.cpu.counter.toNat)
      (hcurrent : b.cpu.current = some i)
      (hstep : i.microStep b.cpu.counter b.cpu.regs b.bus = .ok result) :
      Advanced b (b.absorb result)

/-- The ways in which a tick of the sequencer fails. -/
inductive Refused (b : Board) : CpuError → Prop
  | unread
      (refused : BusError)
      (hcounter : b.cpu.counter = 1)
      (hread : b.bus.read b.cpu.regs.pc = .error refused) :
      Refused b (.bus refused)
  | undecoded
      (opcode : UInt8)
      (hcounter : b.cpu.counter = 1)
      (hread : b.bus.read b.cpu.regs.pc = .ok opcode)
      (hnone : Instruction.ofOpcode? opcode = none) :
      Refused b (.unknownOpcode opcode b.cpu.regs.pc)
  | noInstruction
      (hcounter : 2 ≤ b.cpu.counter.toNat)
      (hcurrent : b.cpu.current = none) :
      Refused b .noInstruction
  | unexecuted
      (i : Instruction)
      {e : CpuError}
      (hcounter : 2 ≤ b.cpu.counter.toNat)
      (hcurrent : b.cpu.current = some i)
      (hstep : i.microStep b.cpu.counter b.cpu.regs b.bus = .error e) :
      Refused b e

variable {b next : Board} {e : CpuError}

theorem two_le_counter
    (h0 : b.cpu.counter ≠ 0)
    (h1 : b.cpu.counter ≠ 1) :
    2 ≤ b.cpu.counter.toNat := by
  simp [← UInt8.toNat_inj] at h0 h1
  omega

theorem advanced_of_advance
    (h : b.advance = .ok next) :
    Advanced b next := by
  unfold advance at h
  split at h
  · next hcounter =>
      cases h
      exact .settled hcounter
  split at h
  · next hcounter =>
      unfold fetch at h
      split at h
      · cases h
      · next opcode hread =>
          split at h
          · cases h
          · next i hi =>
              cases h
              rw [Instruction.ofOpcode?_eq_some_iff.1 hi] at hread
              exact .fetched i hcounter hread
  · next h0 h1 =>
      unfold execute at h
      split at h
      · cases h
      · next i hcurrent =>
          cases hstep : i.microStep b.cpu.counter b.cpu.regs b.bus with
          | error e => simp [hstep, Except.map] at h
          | ok result =>
              simp [hstep, Except.map] at h
              subst h
              exact .executed i result (two_le_counter h0 h1) hcurrent hstep

theorem refused_of_advance
    (h : b.advance = .error e) :
    Refused b e := by
  unfold advance at h
  split at h
  · cases h
  split at h
  · next hcounter =>
      unfold fetch at h
      split at h
      · next refused hread =>
          cases h
          exact .unread refused hcounter hread
      · next opcode hread =>
          split at h
          · next hnone =>
              cases h
              exact .undecoded opcode hcounter hread hnone
          · cases h
  · next h0 h1 =>
      unfold execute at h
      split at h
      · next hnone =>
          cases h
          exact .noInstruction (two_le_counter h0 h1) hnone
      · next i hcurrent =>
          cases hstep : i.microStep b.cpu.counter b.cpu.regs b.bus with
          | ok result => simp [hstep, Except.map] at h
          | error e' =>
              simp [hstep, Except.map] at h
              subst h
              exact .unexecuted i (two_le_counter h0 h1) hcurrent hstep

/-- A tick advances a running processor and is counted, or it fails and changes nothing else. -/
theorem tick_outcome (b : Board) :
    (∃ next, b.cpu.state = .running ∧ Advanced b next ∧ b.tick = (.ok (), next.counted)) ∨
    (∃ e, b.cpu.state = .running ∧ Refused b e ∧ b.tick = (.error e, b.halted)) ∨
    (b.cpu.state = .faulted ∧ b.tick = (.error .faulted, b)) := by
  cases hstate : b.cpu.state with
  | faulted => simp [tick, hstate]
  | running =>
      cases hadvance : b.advance with
      | ok next =>
          exact Or.inl ⟨next, rfl, advanced_of_advance hadvance, by simp [tick, hstate, hadvance]⟩
      | error e =>
          exact Or.inr (Or.inl
            ⟨e, rfl, refused_of_advance hadvance, by simp [tick, hstate, hadvance]⟩)

end Board
end Microcomputer
