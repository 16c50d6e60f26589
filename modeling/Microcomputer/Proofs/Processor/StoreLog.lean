import Microcomputer.Proofs.Bus.Replay
import Microcomputer.Proofs.Processor.Driving

/-!
# Memory and output as a log of stores

What a program has made of the devices is told by the stores that it has completed.

**Log.**  `Completion.store?` is the store that a completed instruction has made: the accumulator
at the address in the index.  `Board.stores b n` lists the stores completed in `n` ticks.

**Invariant.**  The bus is the old one after the log so far.  `bus_tick` carries this over one
tick, and `bus_run` over a whole run, whether it fails or not.

**Result.**  `memory_and_output_of_stores`.
-/

namespace Microcomputer

/-- The store that a completed instruction has made, if it was a store. -/
def Board.Completion.store? (done : Board.Completion) : Option Store :=
  match done.instruction with
  | .store => some ⟨done.regs.index, done.regs.acc⟩
  | _ => none

namespace Board

/-- The stores completed in `n` ticks, in order. -/
def stores
    (b : Board)
    (n : Nat) :
    List Store :=
  (b.completions n).filterMap Completion.store?

theorem stores_succ
    (b : Board)
    (n : Nat) :
    b.stores (n + 1) =
      b.stores n ++ ((b.run n).2.completed?.bind Completion.store?).toList := by
  rw [stores, completions_succ, List.filterMap_append, ← stores]
  cases (b.run n).2.completed? with
  | none => rfl
  | some done => cases h : done.store? <;> simp [h]

section Ticks

variable {b : Board} {start : Bus} {log : List Store}

/-- The last micro-step of an instruction writes what the completed instruction stores, and
nothing else. -/
theorem bus_of_done
    {i : Instruction}
    {step : UInt8}
    {regs : Registers}
    {result : MicroStep}
    (h : i.Performed regs (start.replay log) step result)
    (hdone : result.progress = .done) :
    result.bus = start.replay (log ++ (Completion.store? ⟨i, result.regs⟩).toList) := by
  cases h with
  | addressLow => cases hdone
  | addressHigh => cases hdone
  | operandRead => cases hdone
  | loaded hi => simp [hi, Completion.store?]
  | branched hi => simp [hi, Completion.store?, Instruction.completeBranch]
  | added hi => simp [hi, Completion.store?, Instruction.completeAdd]
  | stored hi hwrite =>
      subst hi
      exact Bus.write_replay (s := ⟨regs.index, regs.acc⟩) hwrite

theorem bus_tick
    (h : b.bus = start.replay log) :
    b.tick.2.bus = start.replay (log ++ (b.completed?.bind Completion.store?).toList) := by
  cases htick : b.tick with
  | mk outcome next =>
      cases outcome with
      | error e => simp [completed?_of_error htick, stopped_of_tick htick, h]
      | ok _ =>
          cases ticked_of_tick htick with
          | inside hnone _ _ hbus => simp [hnone, hbus, h]
          | completing i result _ hperformed hdone hsome _ _ hbus =>
              rw [h] at hperformed
              rw [hsome, Option.bind_some, ← bus_of_done hperformed hdone]
              exact hbus

/-- **The bus after a run.**  It is the old one after the completed stores. -/
theorem bus_run
    (b : Board)
    (n : Nat) :
    (b.run n).2.bus = b.bus.replay (b.stores n) := by
  induction n with
  | zero => simp [run, stores, completions_zero]
  | succ n ih => rw [run_succ_snd, stores_succ, bus_tick ih]

/-- What is printed stays printed. -/
theorem output_prefix_of_le
    (b : Board)
    {k n : Nat}
    (h : k ≤ n) :
    (b.run k).2.bus.output.toList <+: (b.run n).2.bus.output.toList := by
  obtain ⟨more, rfl⟩ := Nat.exists_eq_add_of_le h
  rw [run_add_snd]
  generalize (b.run k).2 = mid
  rw [bus_run, Bus.output_replay, Array.toList_append]
  exact List.prefix_append _ _

end Ticks

end Board

namespace Machine

/-- The instructions that a machine completes while it is driven, in order. -/
def completions
    (m : Machine)
    (drives : List Drive) :
    List Board.Completion :=
  m.board.completions (m.ticksOfAll drives)

/-- **Memory and output are the log of completed stores.** However a machine is driven, its devices
change by the completed stores, in their order. -/
theorem memory_and_output_of_stores
    (m : Machine)
    (drives : List Drive) :
    let final := m.performAll (drives.map Drive.operation)
    let completed := m.completions drives
    let log := completed.filterMap Board.Completion.store?
    let toOutput := (log.filter fun s => m.bus.routesToOutput s.address).map Store.value
    let toMemory := log.filter fun s => m.bus.routesToMemory s.address
    final.bus = m.bus.replay log ∧
    final.output = m.output ++ toOutput.toArray ∧
    (∀ r : Ram, m.bus.ram? = some r →
      ∃ after : Ram,
        final.bus.ram? = some after ∧
        after.base = r.base ∧
        after.contents.size = r.contents.size ∧
        ∀ (k : Nat) (old : UInt8),
          r.contents[k]? = some old →
          after.contents[k]? = some ((lastAt? toMemory (r.base.toNat + k)).getD old)) ∧
    (final.bus.devices.map Device.base = m.bus.devices.map Device.base ∧
      final.bus.devices.map Device.name = m.bus.devices.map Device.name ∧
      ∀ address : UInt16, final.bus.slot? address = m.bus.slot? address) ∧
    (m.output.toList <+: final.output.toList ∧
      final.output.size ≤ m.output.size + completed.length ∧
      Board.RetiredMore m.board final.board completed.length) := by
  intro final completed log toOutput toMemory
  have hfinal : final = { m with board := (m.board.run (m.ticksOfAll drives)).2 } :=
    performAll_drives m drives
  have hbus : final.bus = m.bus.replay log := by
    rw [hfinal]
    exact Board.bus_run m.board (m.ticksOfAll drives)
  have houtput : final.output = m.output ++ toOutput.toArray := by
    rw [output, hbus]
    exact Bus.output_replay m.bus log
  refine ⟨hbus, houtput, ?_, ⟨?_, ?_, ?_⟩, ?_, ?_, ?_⟩
  · intro r hr
    refine ⟨r.replay toMemory, ?_, rfl, by simp [Ram.replay], ?_⟩
    · rw [hbus, Bus.ram?_replay, hr]
      rfl
    · intro k old hold
      simp [Ram.replay, hold]
  · rw [hbus]
    exact Bus.map_replay (by simp) m.bus log
  · rw [hbus]
    exact Bus.map_replay (by simp) m.bus log
  · intro address
    rw [hbus, Bus.slot?_replay]
  · rw [houtput, Array.toList_append]
    exact List.prefix_append _ _
  · have hstores : toOutput.length ≤ completed.length := by
      calc toOutput.length
          = (log.filter fun s => m.bus.routesToOutput s.address).length := List.length_map _
        _ ≤ log.length := List.length_filter_le _ _
        _ ≤ completed.length := List.length_filterMap_le _ _
    calc final.output.size
        = m.output.size + toOutput.length := by rw [houtput, Array.size_append]; rfl
      _ ≤ m.output.size + completed.length := Nat.add_le_add_left hstores _
  · refine Board.retiredMore_of_eq ?_
    rw [hfinal]
    exact Board.retired_run m.board (m.ticksOfAll drives)

/-- A program that loads its own first byte, prints it and puts it back. -/
example :
    let b : Board :=
      { bus :=
          { devices :=
              [ .charOut { base := 0xF000 },
                .ram { base := 0, contents := #[1, 0, 0, 2, 0, 0xF0, 2, 0, 0] } ] } }
    b.stores 20 = [⟨0xF000, 1⟩, ⟨0, 1⟩] ∧ (b.run 20).2.bus = b.bus.replay (b.stores 20) := by
  decide

end Machine
end Microcomputer
