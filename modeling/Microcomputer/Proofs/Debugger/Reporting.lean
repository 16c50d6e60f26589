import Microcomputer.Proofs.Debugger.Continuous

/-!
# Faults in continuous execution

What the debugger says when the program that it runs faults.

**Where it faults.**  An instruction moves the program counter with its last tick only, so a step
that fails leaves it alone (`Board.pc_of_step_error`).

**What is said.**  An update looks for a breakpoint at the program counter also after a step that
failed.  So the fault is told unless there is a breakpoint where the program stands, which is then
told in its place.

**Results.**  `fault_told_unless_breakpoint`, and `fault_untold_at_breakpoint` for the other case.
-/

namespace Microcomputer

section ProgramCounter

theorem Instruction.Performed.pc_of_continuing
    {i : Instruction}
    {step : UInt8}
    {regs : Registers}
    {bus : Bus}
    {result : MicroStep}
    (h : i.Performed regs bus step result)
    (hprogress : result.progress = .continuing) :
    result.regs.pc = regs.pc := by
  cases h with
  | addressLow => rfl
  | addressHigh => rfl
  | loaded => cases hprogress
  | stored => cases hprogress
  | operandRead => rfl
  | branched => cases hprogress
  | added => cases hprogress

namespace Board

variable {b next stopped : Board}

theorem pc_of_tick
    (h : b.tick = (.ok (), next))
    (hinside : next.cpu.counter ≠ 0) :
    next.cpu.regs.pc = b.cpu.regs.pc := by
  rcases tick_outcome b with ⟨after, -, hadvanced, htick⟩ | ⟨e, -, -, htick⟩ | ⟨-, htick⟩
  · rw [htick] at h
    cases h
    cases hadvanced with
    | settled => rfl
    | fetched => rfl
    | executed i result _ _ hstep =>
        cases hprogress : result.progress with
        | done => simp [counted, absorb, hprogress] at hinside
        | continuing =>
            have hpc := (Instruction.performed_of_microStep hstep).pc_of_continuing hprogress
            simpa [counted, absorb, hprogress] using hpc
  · simp [htick] at h
  · simp [htick] at h

theorem pc_of_finish_error
    {used : Nat}
    {e : CpuError}
    (h : b.finish used = (.error e, stopped)) :
    stopped.cpu.regs.pc = b.cpu.regs.pc := by
  fun_induction finish used b with
  | case1 => cases h
  | case2 used b next hnext hinside ih => exact (ih h).trans (pc_of_tick hnext hinside)
  | case3 used b e' stopped' hstopped =>
      cases h
      rw [stopped_of_tick hstopped]

theorem pc_of_step_error
    {e : CpuError}
    (h : b.step = (.error e, stopped)) :
    stopped.cpu.regs.pc = b.cpu.regs.pc :=
  pc_of_finish_error h

end Board

end ProgramCounter

namespace Machine

theorem stopped_of_step
    {m : Machine}
    {e : MachineError}
    (h : m.step.1 = .error e) :
    m.step.2.cpu.state = .faulted ∧ m.step.2.cpu.regs.pc = m.cpu.regs.pc := by
  cases hstep : m.board.step with
  | mk result stopped =>
      cases result with
      | ok t => simp [step, ofBoard, hstep, Except.mapError] at h
      | error e' =>
          have hfaulted := Board.faulted_of_run (Board.run_of_step_error hstep)
          have hpc := Board.pc_of_step_error hstep
          simp only [step, ofBoard, hstep]
          exact ⟨hfaulted, hpc⟩

end Machine

namespace Debugger

variable {d : Debugger}

/-- The lines about a fault and about a breakpoint are never the same. -/
theorem text_stoppedAt_ne
    (pc : UInt16)
    (e : MachineError) :
    (Status.stoppedAt pc).text ≠ (Status.failed e).text := by
  intro h
  have hlists : "Breakpoint at PC=".toList ++ (Text.hex 4 pc.toNat).toList =
      "Error: ".toList ++ e.message.toList := by
    rw [← String.toList_append, ← String.toList_append]
    exact congrArg String.toList h
  have hfirst := congrArg List.head? hlists
  have hbreakpoint : "Breakpoint at PC=".toList.head? = some 'B' := by decide
  have herror : "Error: ".toList.head? = some 'E' := by decide
  rw [List.head?_append, List.head?_append, hbreakpoint, herror] at hfirst
  simp at hfirst

theorem status_of_fault
    {e : MachineError}
    (hrunning : d.running = true)
    (hstate : d.machine.cpu.state = .running)
    (hfault : d.machine.step.1 = .error e) :
    d.update.status =
      if d.machine.cpu.regs.pc ∈ d.breakpoints then .stoppedAt d.machine.cpu.regs.pc
      else .failed e := by
  have hupdate : d.update = d.step.checkBreakpoint := by
    simp [update, hrunning, Cpu.isRunning, hstate]
  have hpc := (Machine.stopped_of_step hfault).2
  rw [hupdate, step]
  cases hstep : d.machine.step with
  | mk result machine =>
      rw [hstep] at hfault hpc
      subst hfault
      by_cases hbreak : d.machine.cpu.regs.pc ∈ d.breakpoints
      · simp [checkBreakpoint, fail, hpc, hbreak]
      · simp [checkBreakpoint, fail, hpc, hbreak]

/-- **A fault in continuous execution.** An update that faults stops the debugger, which tells the
fault exactly if there is no breakpoint there. -/
theorem fault_told_unless_breakpoint
    (d : Debugger)
    (e : MachineError)
    (hrunning : d.running = true)
    (hstate : d.machine.cpu.state = .running)
    (hfault : d.machine.step.1 = .error e) :
    let pc := d.machine.cpu.regs.pc
    d.update.running = false ∧
    d.update.machine = d.machine.step.2 ∧
    d.update.machine.cpu.state = .faulted ∧
    d.update.machine.cpu.regs.pc = pc ∧
    (d.update.status.text = "Error: " ++ e.message ↔ pc ∉ d.breakpoints) ∧
    (d.update.status.text = "Breakpoint at PC=" ++ Text.hex 4 pc.toNat ↔ pc ∈ d.breakpoints) := by
  intro pc
  obtain ⟨hmachine, -, hgoes⟩ := update_of_running hrunning hstate
  obtain ⟨hfaulted, hpc⟩ := Machine.stopped_of_step hfault
  have hstatus := status_of_fault hrunning hstate hfault
  have hstops : d.update.running = false := by
    refine Bool.eq_false_iff.2 fun hon => ?_
    obtain ⟨⟨t, ht⟩, -⟩ := hgoes.1 hon
    rw [hfault] at ht
    cases ht
  have hdistinct := text_stoppedAt_ne pc e
  rw [hmachine, hstatus]
  refine ⟨hstops, rfl, hfaulted, hpc, ?_, ?_⟩
  · by_cases hbreak : pc ∈ d.breakpoints
    · rw [if_pos hbreak]
      exact iff_of_false hdistinct (not_not_intro hbreak)
    · rw [if_neg hbreak]
      exact iff_of_true rfl hbreak
  · by_cases hbreak : pc ∈ d.breakpoints
    · rw [if_pos hbreak]
      exact iff_of_true rfl hbreak
    · rw [if_neg hbreak]
      exact iff_of_false hdistinct.symm hbreak

/-- A program that is no instruction, run with some breakpoints. -/
def faulting (breakpoints : List UInt16) : Debugger where
  machine :=
    { board :=
        { bus :=
            { devices :=
                [.charOut { base := 0xF000 }, .ram { base := 0, contents := #[0xEE] }] } }
      map := {} }
  program := #[0xEE]
  breakpoints := breakpoints
  running := true

theorem step_faulting (breakpoints : List UInt16) :
    (faulting breakpoints).machine.step.1 = .error (.cpu (.unknownOpcode 0xEE 0)) := by
  have hany : (faulting breakpoints).machine = (faulting []).machine := rfl
  rw [hany]
  decide +kernel

/-- A breakpoint elsewhere does not hide the fault. -/
theorem fault_told_elsewhere :
    let d := faulting [3]
    d.running = true ∧
    d.machine.cpu.state = .running ∧
    d.machine.step.1 = .error (.cpu (.unknownOpcode 0xEE 0)) ∧
    d.machine.cpu.regs.pc ∉ d.breakpoints ∧
    d.update.running = false ∧
    d.update.status.text =
      "Error: " ++ (MachineError.cpu (.unknownOpcode 0xEE 0)).message := by
  intro d
  have hfree : d.machine.cpu.regs.pc ∉ d.breakpoints := by decide
  obtain ⟨hstops, -, -, -, htold, -⟩ :=
    fault_told_unless_breakpoint d _ rfl rfl (step_faulting [3])
  exact ⟨rfl, rfl, step_faulting [3], hfree, hstops, htold.2 hfree⟩

/-- A breakpoint at the instruction that faults hides the fault. -/
theorem fault_untold_at_breakpoint :
    ¬ ∀ (d : Debugger) (e : MachineError),
      d.running = true →
      d.machine.cpu.state = .running →
      d.machine.step.1 = .error e →
      d.update.running = false ∧ d.update.status.text = "Error: " ++ e.message := by
  intro hall
  obtain ⟨-, htold⟩ := hall (faulting [0]) _ rfl rfl (step_faulting [0])
  have hbreak : (faulting [0]).machine.cpu.regs.pc ∈ (faulting [0]).breakpoints := by decide
  rw [status_of_fault rfl rfl (step_faulting [0]), if_pos hbreak] at htold
  exact text_stoppedAt_ne _ _ htold

end Debugger
end Microcomputer
