import Microcomputer.Proofs.Processor.Driving

/-!
# What the counters count

A processor has three counters: of its ticks, of the instructions that it has completed, and of the
ticks of the instruction at hand.

**Tally.**  `Tally` is a count kept from outside: the ticks that have succeeded since the last
restart, and the instructions that were completed by them.  `Tally.run` keeps it over the ticks of a
board, and `Tally.performAll` over all that can be done to a machine.

**Invariant.**  `Tally.Agrees`: the counters of the processor are those of the tally, and the ticks
are those of the completed instructions and of the one at hand.  `Tally.Agrees.tick` carries this
over one tick, `Tally.Agrees.perform` over one operation.

**Result.**  `counters_of_operations`.
-/

namespace Microcomputer

/-- What the ticks since a restart have come to. -/
structure Tally where
  /-- The ticks that have succeeded. -/
  ticks : Nat := 0
  /-- The instructions that were completed, in order. -/
  completed : List Instruction := []
  deriving DecidableEq

namespace Tally

section Keeping

/-- Keep the tally over one tick of a board, which may fail. -/
def tick
    (t : Tally)
    (b : Board) :
    Tally where
  ticks := if b.tick.1.isOk then t.ticks + 1 else t.ticks
  completed := t.completed ++ (b.completed?.map Board.Completion.instruction).toList

/-- Keep the tally over `n` ticks. -/
def run
    (t : Tally)
    (b : Board) :
    Nat → Tally
  | 0 => t
  | n + 1 => (t.run b n).tick (b.run n).2

open Machine in
/-- Keep the tally over one operation; a restart begins a new one. -/
def perform
    (t : Tally)
    (m : Machine) :
    Operation → Tally
  | .tick => t.run m.board (m.ticksOf .tick)
  | .run count => t.run m.board (m.ticksOf (.run count))
  | .step => t.run m.board (m.ticksOf .step)
  | .reset => {}
  | .resetProcessor => {}
  | .load _ => t
  | .setRegisters _ => t
  | .changeBus _ => t

/-- Keep the tally over several operations, one after the other. -/
def performAll
    (t : Tally)
    (m : Machine) :
    List Machine.Operation → Tally
  | [] => t
  | operation :: others => (t.perform m operation).performAll (m.perform operation).2 others

/-- The ticks that the completed instructions have taken. -/
def spent (t : Tally) : Nat :=
  (t.completed.map Instruction.ticks).sum

theorem spent_le (t : Tally) :
    5 * t.completed.length ≤ t.spent ∧ t.spent ≤ 6 * t.completed.length := by
  rw [spent]
  induction t.completed with
  | nil => simp
  | cons i others ih =>
      have hticks : 5 ≤ i.ticks ∧ i.ticks ≤ 6 := by cases i <;> decide
      simp only [List.map_cons, List.sum_cons, List.length_cons]
      omega

end Keeping

/-- The counters of a processor are right. -/
structure Agrees
    (t : Tally)
    (cpu : Cpu) :
    Prop where
  cycles_eq : cpu.cycles = UInt64.ofNat t.ticks
  retired_eq : cpu.retired = UInt64.ofNat t.completed.length
  ticks_eq : t.ticks = t.spent + cpu.counter.toNat

section Ticks

variable {t : Tally} {b : Board}

theorem agrees_new : Agrees {} {} :=
  ⟨rfl, rfl, rfl⟩

theorem Agrees.eq_of_cpu
    {cpu other : Cpu}
    (h : t.Agrees cpu)
    (hcycles : other.cycles = cpu.cycles)
    (hretired : other.retired = cpu.retired)
    (hcounter : other.counter = cpu.counter) :
    t.Agrees other :=
  ⟨hcycles.trans h.cycles_eq, hretired.trans h.retired_eq, by rw [hcounter, h.ticks_eq]⟩

/-- A tick that fails counts for nothing. -/
theorem tick_of_error
    {e : CpuError}
    {stopped : Board}
    (h : b.tick = (.error e, stopped)) :
    t.tick b = t := by
  simp [Tally.tick, h, Board.completed?_of_error h, Except.isOk, Except.toBool]

theorem tick_of_ok
    {next : Board}
    (h : b.tick = (.ok (), next)) :
    t.tick b =
      ⟨t.ticks + 1, t.completed ++ (b.completed?.map Board.Completion.instruction).toList⟩ := by
  simp [Tally.tick, h, Except.isOk, Except.toBool]

/-- One tick, whether it fails or not, keeps the counters right. -/
theorem Agrees.tick (h : t.Agrees b.cpu) : (t.tick b).Agrees b.tick.2.cpu := by
  have hticks := h.ticks_eq
  cases htick : b.tick with
  | mk outcome next =>
      cases outcome with
      | error e =>
          rw [tick_of_error htick, Board.stopped_of_tick htick]
          exact h.eq_of_cpu rfl rfl rfl
      | ok _ =>
          have hcycles : next.cpu.cycles = UInt64.ofNat (t.ticks + 1) := by
            rw [Board.cycles_of_tick htick, h.cycles_eq, UInt64.ofNat_add]
            rfl
          rw [tick_of_ok htick]
          cases Board.ticked_of_tick htick with
          | inside hnone hcounter hretired =>
              rw [hnone, Option.map_none, Option.toList_none, List.append_nil]
              refine ⟨hcycles, hretired.trans h.retired_eq, ?_⟩
              -- Nothing is completed, and the counter has moved on with the ticks.
              change t.ticks + 1 = t.spent + next.cpu.counter.toNat
              omega
          | completing i result hcurrent hperformed hdone hsome hcounter hretired =>
              have hlast := hperformed.succ_eq_ticks hdone
              rw [hsome, Option.map_some, Option.toList_some]
              refine ⟨hcycles, ?_, ?_⟩
              · rw [hretired, h.retired_eq, List.length_append, UInt64.ofNat_add]
                rfl
              · -- The counter was one short of the ticks of the instruction, and is zero again.
                simp only [spent, List.map_append, List.sum_append, List.map_cons, List.map_nil,
                  List.sum_cons, List.sum_nil, hcounter] at hticks ⊢
                change t.ticks + 1 = _ + (i.ticks + 0) + 0
                omega

/-- A run keeps the counters right. -/
theorem Agrees.run
    (h : t.Agrees b.cpu)
    (n : Nat) :
    (t.run b n).Agrees (b.run n).2.cpu := by
  induction n with
  | zero => exact h
  | succ n ih =>
      rw [Board.run_succ_snd]
      exact ih.tick

end Ticks

section Operations

open Machine

variable {t : Tally} {m : Machine}

theorem Agrees.drive
    (h : t.Agrees m.cpu)
    (drive : Drive) :
    (t.run m.board (m.ticksOf drive)).Agrees (m.perform drive.operation).2.cpu := by
  rw [perform_drive]
  exact h.run (m.ticksOf drive)

theorem Agrees.perform
    (h : t.Agrees m.cpu)
    (operation : Operation) :
    (t.perform m operation).Agrees (m.perform operation).2.cpu := by
  cases operation with
  | tick => exact h.drive .tick
  | run count => exact h.drive (.run count)
  | step => exact h.drive .step
  | reset => exact agrees_new
  | resetProcessor => exact agrees_new
  | load image => exact h
  | setRegisters regs => exact h.eq_of_cpu rfl rfl rfl
  | changeBus change => exact h

theorem Agrees.performAll
    (h : t.Agrees m.cpu)
    (operations : List Operation) :
    (t.performAll m operations).Agrees (m.performAll operations).cpu := by
  induction operations generalizing t m with
  | nil => exact h
  | cons operation others ih => exact ih (h.perform operation)

end Operations

end Tally

namespace Machine

/-- **The counters.** The processor counts the ticks and the instructions since the last restart,
and five or six ticks go to an instruction. -/
theorem counters_of_operations
    (bus : Bus)
    (map : MemoryMap)
    (operations : List Operation)
    (hticks :
      (Tally.performAll {} { board := { bus }, map } operations).ticks < 2 ^ 64) :
    let m : Machine := { board := { bus }, map }
    let cpu := (m.performAll operations).cpu
    let tally := Tally.performAll {} m operations
    cpu.cycles.toNat = tally.ticks ∧
    cpu.retired.toNat = tally.completed.length ∧
    cpu.cycles.toNat = (tally.completed.map Instruction.ticks).sum + cpu.counter.toNat ∧
    5 * cpu.retired.toNat + cpu.counter.toNat ≤ cpu.cycles.toNat ∧
    cpu.cycles.toNat ≤ 6 * cpu.retired.toNat + cpu.counter.toNat := by
  intro m cpu tally
  have hagrees : tally.Agrees cpu := Tally.agrees_new.performAll (m := m) operations
  have hsum : tally.ticks = tally.spent + cpu.counter.toNat := hagrees.ticks_eq
  obtain ⟨hlower, hupper⟩ := tally.spent_le
  have hcycles : cpu.cycles.toNat = tally.ticks := by
    rw [hagrees.cycles_eq]
    exact UInt64.toNat_ofNat_of_lt hticks
  have hretired : cpu.retired.toNat = tally.completed.length := by
    have hfew : tally.completed.length < 2 ^ 64 := by
      have hlt : tally.ticks < 2 ^ 64 := hticks
      omega
    rw [hagrees.retired_eq]
    exact UInt64.toNat_ofNat_of_lt hfew
  refine ⟨hcycles, hretired, hcycles.trans hsum, ?_, ?_⟩ <;> omega

/-- A part of a load, a restart, the whole load, and then no instruction. -/
def interrupted : List Operation :=
  [.run 3, .resetProcessor, .step, .setRegisters { pc := 3, acc := 7 }, .run 4, .tick]

/-- A RAM with a load, and a byte behind it that is no instruction. -/
def loading : Bus where
  devices := [.ram { base := 0, contents := #[1, 0, 0, 9] }]

/-- After the fault there are six ticks: five of the load, and one before the fetch that fails. -/
theorem counters_of_interrupted :
    let m : Machine := { board := { bus := loading }, map := {} }
    let cpu := (m.performAll interrupted).cpu
    (Tally.performAll {} m interrupted).ticks < 2 ^ 64 ∧
    Tally.performAll {} m interrupted = ⟨6, [.load]⟩ ∧
    cpu.state = .faulted ∧
    cpu.cycles.toNat = 6 ∧
    cpu.retired.toNat = 1 ∧
    6 = 5 + cpu.counter.toNat := by
  intro m cpu
  have htally : Tally.performAll {} m interrupted = ⟨6, [.load]⟩ := by decide +kernel
  have hfew : (Tally.performAll {} m interrupted).ticks < 2 ^ 64 := by
    rw [htally]
    decide
  have hstate : cpu.state = .faulted := by decide +kernel
  obtain ⟨hcycles, hretired, hsum, -, -⟩ := counters_of_operations loading {} interrupted hfew
  rw [hcycles, htally] at hsum
  rw [htally] at hcycles hretired
  exact ⟨hfew, htally, hstate, hcycles, hretired, hsum⟩

end Machine
end Microcomputer
