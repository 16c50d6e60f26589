import Microcomputer.Proofs.Processor.Driving
import Microcomputer.Proofs.Processor.InPlace

/-!
# Faults

What a fault changes, and how long it lasts.  The processor may be in any state, also in one
that no run leads to: any registers, any tick counter, any or no current instruction.

**One fault.**  `Board.stopped_of_tick`: a tick that fails stops the processor and does nothing
else.  With `Change.on_tick` this holds of the tick that makes its changes one by one.

**Stopped machines.**  `perform_of_faulted` and `performAll_of_faulted`: as long as the processor
is not restarted, everything that drives the machine is refused and leaves it as it is.

**Result.**  `faults_atomic_and_sticky`.
-/

namespace Microcomputer
namespace Machine

/-- The operation restarts the processor. -/
def Operation.Restarts : Operation → Prop
  | .reset => True
  | .resetProcessor => True
  | _ => False

variable {m : Machine}

theorem perform_of_faulted
    (h : m.cpu.state = .faulted)
    {drive : Drive}
    (hdrive : drive ≠ .run 0) :
    m.perform drive.operation = (some (.cpu .faulted), m) := by
  cases drive with
  | tick => simp [Drive.operation, perform, tick, Board.tick_of_faulted h]
  | step => simp [Drive.operation, perform, step, Board.step, Board.finish_of_faulted h]
  | run count =>
      cases count with
      | zero => exact absurd rfl hdrive
      | succ count => simp [Drive.operation, perform, run, Board.run_of_faulted h]

theorem machine_of_faulted
    (h : m.cpu.state = .faulted)
    (drive : Drive) :
    (m.perform drive.operation).2 = m := by
  by_cases hnone : drive = .run 0
  · rw [hnone]
    rfl
  · rw [perform_of_faulted h hnone]

/-- Driving a stopped machine changes nothing. -/
theorem performAll_of_faulted
    (h : m.cpu.state = .faulted)
    (drives : List Drive) :
    m.performAll (drives.map Drive.operation) = m := by
  induction drives with
  | nil => rfl
  | cons drive others ih =>
      rw [List.map_cons, performAll, machine_of_faulted h]
      exact ih

/-- What does not restart a stopped processor changes its registers at most. -/
theorem cpu_of_perform
    (h : m.cpu.state = .faulted)
    {operation : Operation}
    (hoperation : ¬ operation.Restarts) :
    ∃ regs : Registers, (m.perform operation).2.cpu = { m.cpu with regs } := by
  cases operation with
  | tick => exact ⟨m.cpu.regs, congrArg cpu (machine_of_faulted h .tick)⟩
  | run count => exact ⟨m.cpu.regs, congrArg cpu (machine_of_faulted h (.run count))⟩
  | step => exact ⟨m.cpu.regs, congrArg cpu (machine_of_faulted h .step)⟩
  | reset => exact absurd trivial hoperation
  | resetProcessor => exact absurd trivial hoperation
  | load image => exact ⟨m.cpu.regs, rfl⟩
  | setRegisters regs => exact ⟨regs, rfl⟩
  | changeBus change => exact ⟨m.cpu.regs, rfl⟩

theorem cpu_of_performAll
    (h : m.cpu.state = .faulted)
    (operations : List Operation)
    (hoperations : ∀ operation, operation ∈ operations → ¬ operation.Restarts) :
    ∃ regs : Registers, (m.performAll operations).cpu = { m.cpu with regs } := by
  induction operations generalizing m with
  | nil => exact ⟨m.cpu.regs, rfl⟩
  | cons operation others ih =>
      obtain ⟨regs, hone⟩ := cpu_of_perform h (hoperations operation List.mem_cons_self)
      have hfaulted : (m.perform operation).2.cpu.state = .faulted := by rw [hone, h]
      obtain ⟨regs', hall⟩ :=
        ih hfaulted fun o ho => hoperations o (List.mem_cons_of_mem operation ho)
      exact ⟨regs', by rw [performAll, hall, hone]⟩

/-- **Faults are atomic and sticky.** A tick that fails only stops the processor, and a stopped one
refuses everything until it is restarted. -/
theorem faults_atomic_and_sticky (m : Machine) :
    Change.tick.on m.board = m.board.tick ∧
    (m.cpu.state = .running →
      ∀ (e : CpuError) (stopped : Board),
        m.board.tick = (.error e, stopped) →
        stopped = { m.board with cpu := { m.board.cpu with state := .faulted } }) ∧
    (m.cpu.state = .faulted →
      ∀ drives : List Drive,
        m.performAll (drives.map Drive.operation) = m ∧
        ∀ drive : Drive, drive ≠ .run 0 →
          m.perform drive.operation = (some (.cpu .faulted), m)) ∧
    (m.cpu.state = .faulted →
      ∀ operations : List Operation, (∀ o, o ∈ operations → ¬ o.Restarts) →
        let reached := m.performAll operations
        reached.cpu = { m.cpu with regs := reached.cpu.regs } ∧
        ∀ drive : Drive, drive ≠ .run 0 →
          reached.perform drive.operation = (some (.cpu .faulted), reached)) ∧
    (∀ operation : Operation, operation.Restarts → (m.perform operation).2.cpu = {}) := by
  refine ⟨Change.on_tick m.board, fun _ e stopped => Board.stopped_of_tick, ?_, ?_, ?_⟩
  · intro hfaulted drives
    exact ⟨performAll_of_faulted hfaulted drives, fun drive => perform_of_faulted hfaulted⟩
  · intro hfaulted operations hoperations reached
    obtain ⟨regs, hcpu⟩ := cpu_of_performAll hfaulted operations hoperations
    have hreached : reached.cpu = { m.cpu with regs } := hcpu
    refine ⟨by rw [hreached], fun drive => perform_of_faulted ?_⟩
    rw [hreached]
    exact hfaulted
  · intro operation hoperation
    cases operation with
    | reset => rfl
    | resetProcessor => rfl
    | tick => exact hoperation.elim
    | run count => exact hoperation.elim
    | step => exact hoperation.elim
    | load image => exact hoperation.elim
    | setRegisters regs => exact hoperation.elim
    | changeBus change => exact hoperation.elim

/-- A processor far beyond the last tick of its instruction, as no run leaves it behind. -/
example :
    let b : Board :=
      { cpu := { regs := { acc := 7, index := 3 }, counter := 200, current := some .add }
        bus := { devices := [.ram { base := 0, contents := #[3, 0, 0] }] } }
    b.tick =
      (.error (.noMicroStep .add 200), { b with cpu := { b.cpu with state := .faulted } }) := by
  decide

end Machine
end Microcomputer
