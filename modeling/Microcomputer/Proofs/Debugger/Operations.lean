import Microcomputer.Debugger.Basic
import Microcomputer.Proofs.Processor.Wiring

/-!
# What can be done to a debugger

**Operations.**  `Debugger.Operation` lists them, `Debugger.perform` does one of them and
`Debugger.performAll` several, one after the other.

**Invariant.**  `Debugger.Holding program map d`: the debugger has its program and a machine wired
by the map, whatever the machine has done.  `Holding.perform` carries it over one operation and
`Holding.performAll` over several.

**Restart.**  `Holding.reset`: a reset makes the machine as it was at the start.

**Frames.**  For each operation, what it leaves as it was.

**Later.**  `performAll_machine`: two debuggers with one program and one machine do the same with
it, as long as no continuous execution is asked for, which depends on more.
-/

namespace Microcomputer
namespace Debugger

/-- What can be done to a debugger. -/
inductive Operation
  | tick
  | step
  | run
  | update
  | toggleBreakpoint
  | scroll (rows : Int)
  | reset
  | setRegisters (regs : Registers)
  deriving DecidableEq

/-- Do one thing to a debugger. -/
def perform (d : Debugger) : Operation → Debugger
  | .tick => d.tick
  | .step => d.step
  | .run => d.run
  | .update => d.update
  | .toggleBreakpoint => d.toggleBreakpoint
  | .scroll rows => d.scrollBy rows
  | .reset => d.reset
  | .setRegisters regs => { d with machine := d.machine.setRegisters regs }

/-- Do several things to a debugger, one after the other. -/
def performAll
    (d : Debugger)
    (operations : List Operation) :
    Debugger :=
  operations.foldl perform d

section Frames

variable (d : Debugger)

theorem tick_frame :
    d.tick =
      { d with
        machine := d.machine.tick.2
        running := d.tick.running
        status := d.tick.status } := by
  unfold tick
  cases d.machine.tick with
  | mk result machine => cases result <;> rfl

theorem step_frame :
    d.step =
      { d with
        machine := d.machine.step.2
        running := d.step.running
        status := d.step.status } := by
  unfold step
  cases d.machine.step with
  | mk result machine => cases result <;> rfl

theorem checkBreakpoint_frame :
    d.checkBreakpoint =
      { d with running := d.checkBreakpoint.running, status := d.checkBreakpoint.status } := by
  unfold checkBreakpoint
  dsimp only
  split
  · rfl
  · rfl

theorem toggleBreakpoint_frame :
    d.toggleBreakpoint =
      { d with
        breakpoints := d.toggleBreakpoint.breakpoints
        status := d.toggleBreakpoint.status } := by
  unfold toggleBreakpoint
  dsimp only
  split
  · rfl
  · rfl

theorem update_cases :
    d.update = d ∨
    d.update = d.step.checkBreakpoint ∨
    d.update = { d with running := false, status := .faultedAfter d.machine.cpu.cycles } := by
  unfold update
  split
  · exact Or.inl rfl
  · split
    · exact Or.inr (Or.inl rfl)
    · exact Or.inr (Or.inr rfl)

theorem update_machine :
    (d.update.machine = d.machine ∨ d.update.machine = d.machine.step.2) ∧
      d.update.program = d.program := by
  rcases d.update_cases with hsame | hstep | hend
  · rw [hsame]
    exact ⟨Or.inl rfl, rfl⟩
  · rw [hstep, checkBreakpoint_frame, step_frame]
    exact ⟨Or.inr rfl, rfl⟩
  · rw [hend]
    exact ⟨Or.inl rfl, rfl⟩

/-- No operation changes the program. -/
theorem perform_program (operation : Operation) : (d.perform operation).program = d.program := by
  cases operation with
  | tick => rw [perform, tick_frame]
  | step => rw [perform, step_frame]
  | update => exact d.update_machine.2
  | toggleBreakpoint => rw [perform, toggleBreakpoint_frame]
  | run => rfl
  | scroll rows => rfl
  | reset => rfl
  | setRegisters regs => rfl

end Frames

/-- The debugger has its program, and a machine that is wired by its map. -/
structure Holding
    (program : Image)
    (map : MemoryMap)
    (d : Debugger) :
    Prop where
  program_eq : d.program = program
  wired : d.machine.Wired map

section History

variable {program : Image} {map : MemoryMap} {d fresh : Debugger}

theorem machine_of_start
    (h : start program map = .ok fresh) :
    fresh.machine = map.loaded program ∧ fresh.Holding program map := by
  cases hbuilt : Machine.ofMap map with
  | error e => simp [start, hbuilt, Except.map] at h
  | ok m =>
      simp only [start, hbuilt, Except.map, Except.ok.injEq] at h
      subst h
      have hwired := (Machine.wired_of_ofMap hbuilt).load program
      exact ⟨Machine.load_of_ofMap hbuilt program, rfl, hwired⟩

theorem Holding.perform
    (h : d.Holding program map)
    (operation : Operation) :
    (d.perform operation).Holding program map := by
  refine ⟨(d.perform_program operation).trans h.program_eq, ?_⟩
  cases operation with
  | tick =>
      rw [Debugger.perform, tick_frame]
      exact h.wired.tick
  | step =>
      rw [Debugger.perform, step_frame]
      exact h.wired.step
  | update =>
      rw [Debugger.perform]
      rcases d.update_machine.1 with hsame | hstep
      · rw [hsame]
        exact h.wired
      · rw [hstep]
        exact h.wired.step
  | toggleBreakpoint =>
      rw [Debugger.perform, toggleBreakpoint_frame]
      exact h.wired
  | run => exact h.wired
  | scroll rows => exact h.wired
  | reset => exact h.wired.reset.load d.program
  | setRegisters regs => exact h.wired.setRegisters regs

theorem Holding.performAll
    (h : d.Holding program map)
    (operations : List Operation) :
    (d.performAll operations).Holding program map := by
  induction operations generalizing d with
  | nil => exact h
  | cons operation others ih => exact ih (h.perform operation)

theorem Holding.reset
    (h : d.Holding program map) :
    d.reset.machine = map.loaded program := by
  change d.machine.reset.load d.program = _
  rw [h.program_eq, h.wired.restarted]

end History

section Later

variable {d other : Debugger}

theorem perform_machine
    (hmachine : d.machine = other.machine)
    (hprogram : d.program = other.program)
    {operation : Operation}
    (hoperation : operation ≠ .update) :
    (d.perform operation).machine = (other.perform operation).machine := by
  cases operation with
  | update => exact absurd rfl hoperation
  | tick =>
      rw [perform, perform, tick_frame d, tick_frame other]
      exact congrArg (fun m => m.tick.2) hmachine
  | step =>
      rw [perform, perform, step_frame d, step_frame other]
      exact congrArg (fun m => m.step.2) hmachine
  | toggleBreakpoint =>
      rw [perform, perform, toggleBreakpoint_frame d, toggleBreakpoint_frame other]
      exact hmachine
  | run => exact hmachine
  | scroll rows => exact hmachine
  | reset => simp only [perform, reset, hmachine, hprogram]
  | setRegisters regs => simp only [perform, hmachine]

theorem performAll_machine
    (hmachine : d.machine = other.machine)
    (hprogram : d.program = other.program)
    {operations : List Operation}
    (hoperations : ∀ o ∈ operations, o ≠ .update) :
    (d.performAll operations).machine = (other.performAll operations).machine := by
  induction operations generalizing d other with
  | nil => exact hmachine
  | cons operation others ih =>
      have hfirst := hoperations operation List.mem_cons_self
      refine ih (perform_machine hmachine hprogram hfirst) ?_ fun o ho =>
        hoperations o (List.mem_cons_of_mem operation ho)
      rw [perform_program, perform_program, hprogram]

end Later

end Debugger
end Microcomputer
