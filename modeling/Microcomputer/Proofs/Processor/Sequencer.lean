import Microcomputer.Machine
import Microcomputer.Proofs.Processor.Tick

/-!
# The sequencer in every reachable state

**Operations.**  `Machine.Operation` lists what can be done to a machine from outside, and
`Machine.performAll` does several of them.

**Invariant.**  `Sequenced cpu`: the counter is at most five, there is a current instruction from
two on, and it is an addition at five.  `Board.orderly_tick` keeps it over one tick, and
`Machine.sequenced_perform` over one operation.

**Result.**  `sequenced_of_operations`.
-/

namespace Microcomputer

/-- The sequencer is lost: it has no instruction, or one without the micro-step it is to do. -/
def CpuError.OfSequencer : CpuError → Prop
  | .noInstruction => True
  | .noMicroStep _ _ => True
  | _ => False

/-- The tick counter fits the current instruction. -/
structure Sequenced (cpu : Cpu) : Prop where
  counter_le : cpu.counter.toNat ≤ 5
  current : 2 ≤ cpu.counter.toNat → cpu.current.isSome = true
  addition : cpu.counter.toNat = 5 → cpu.current = some .add

theorem sequenced_new : Sequenced {} where
  counter_le := by simp
  current := by simp
  addition := by simp

section Ticks

variable {cpu : Cpu} {i : Instruction}

theorem sequenced_of_lt_ticks
    (hcurrent : cpu.current = some i)
    (hcounter : cpu.counter.toNat < i.ticks) :
    Sequenced cpu := by
  cases i with
  | add =>
      have hsix : cpu.counter.toNat < 6 := hcounter
      exact ⟨by omega, by simp [hcurrent], by simp [hcurrent]⟩
  | load | store | branchIfZero =>
      have hfive : cpu.counter.toNat < 5 := hcounter
      exact ⟨by omega, by simp [hcurrent], by omega⟩

theorem Sequenced.lt_ticks
    (h : Sequenced cpu)
    (hcurrent : cpu.current = some i) :
    cpu.counter.toNat < i.ticks := by
  have hle := h.counter_le
  by_cases hfive : cpu.counter.toNat = 5
  · have hadd : i = .add := by simpa [hcurrent] using h.addition hfive
    simp [hadd, hfive, Instruction.ticks]
  · have hticks : 5 ≤ i.ticks := by cases i <;> decide
    omega

end Ticks

namespace Board

/-- The sequencer is in order, and it was not the cause of an error. -/
def Orderly {α : Type} (outcome : Except CpuError α × Board) : Prop :=
  Sequenced outcome.2.cpu ∧ ∀ e, outcome.1 = .error e → ¬ e.OfSequencer

variable {b next : Board}

theorem counter_absorb
    {i : Instruction}
    {result : MicroStep}
    (hstep : i.Performed b.cpu.regs b.bus b.cpu.counter result)
    (hprogress : result.progress = .continuing) :
    (b.absorb result).cpu.counter.toNat = b.cpu.counter.toNat + 1 := by
  have hlt := hstep.succ_lt_ticks hprogress
  have hticks : i.ticks ≤ 6 := by cases i <;> decide
  simp only [absorb, hprogress]
  rw [UInt8.toNat_add]
  simp
  omega

/-- A tick that succeeds completes an instruction, or moves the counter on without running
over. -/
theorem counter_of_advanced
    (h : Advanced b next) :
    (next.cpu.counter = 0 ∧ next.cpu.retired = b.cpu.retired + 1) ∨
    (next.cpu.counter.toNat = b.cpu.counter.toNat + 1 ∧ next.cpu.retired = b.cpu.retired) := by
  cases h with
  | settled hcounter => simp [settle, hcounter]
  | fetched i hcounter _ => simp [hcounter]
  | executed i result _ _ hstep =>
      have hperformed := Instruction.performed_of_microStep hstep
      cases hprogress : result.progress with
      | done => simp [absorb, hprogress]
      | continuing =>
          exact Or.inr ⟨counter_absorb hperformed hprogress, by simp [absorb, hprogress]⟩

theorem sequenced_of_advanced
    (h : Advanced b next) :
    Sequenced next.cpu := by
  cases h with
  | settled => constructor <;> simp [settle]
  | fetched i =>
      have htwo : 2 < i.ticks := by cases i <;> decide
      exact sequenced_of_lt_ticks rfl htwo
  | executed i result _ hcurrent hstep =>
      have hperformed := Instruction.performed_of_microStep hstep
      cases hprogress : result.progress with
      | done => constructor <;> simp [absorb, hprogress]
      | continuing =>
          have hafter : (b.absorb result).cpu.current = some i := by
            simp [absorb, hprogress, hcurrent]
          refine sequenced_of_lt_ticks hafter ?_
          rw [counter_absorb hperformed hprogress]
          exact hperformed.succ_lt_ticks hprogress

theorem not_ofSequencer_of_refused
    {e : CpuError}
    (hb : Sequenced b.cpu)
    (h : Refused b e) :
    ¬ e.OfSequencer := by
  cases h with
  | unread => exact id
  | undecoded => exact id
  | noInstruction hlow hnone =>
      have hsome := hb.current hlow
      simp [hnone] at hsome
  | unexecuted i hlow hcurrent hstep =>
      obtain ⟨refused, rfl⟩ :=
        Instruction.refused_of_microStep hlow (hb.lt_ticks hcurrent) hstep
      exact id

/-- One tick keeps the sequencer in order. -/
theorem orderly_tick (hb : Sequenced b.cpu) : Orderly b.tick := by
  rcases tick_outcome b with ⟨next, -, hnext, htick⟩ | ⟨e, -, he, htick⟩ | ⟨-, htick⟩
  · have hseq := sequenced_of_advanced hnext
    rw [htick]
    exact ⟨⟨hseq.counter_le, hseq.current, hseq.addition⟩, by simp⟩
  · rw [htick]
    refine ⟨⟨hb.counter_le, hb.current, hb.addition⟩, ?_⟩
    simpa using not_ofSequencer_of_refused hb he
  · rw [htick]
    exact ⟨hb, by simp [CpuError.OfSequencer]⟩

theorem orderly_run
    (count : Nat)
    (hb : Sequenced b.cpu) :
    Orderly (b.run count) := by
  induction count generalizing b with
  | zero => exact ⟨hb, by simp [run]⟩
  | succ count ih =>
      have htick := orderly_tick hb
      unfold run
      split
      · next next hnext =>
          rw [hnext] at htick
          exact ih htick.1
      · next e stopped hstopped =>
          rw [hstopped] at htick
          exact ⟨htick.1, by simpa using htick.2⟩

theorem orderly_finish
    (used : Nat)
    (hb : Sequenced b.cpu) :
    Orderly (b.finish used) := by
  fun_induction finish used b with
  | case1 used b next hnext hzero =>
      have htick := orderly_tick hb
      rw [hnext] at htick
      exact ⟨htick.1, by simp⟩
  | case2 used b next hnext hcounter ih =>
      have htick := orderly_tick hb
      rw [hnext] at htick
      exact ih htick.1
  | case3 used b e stopped hstopped =>
      have htick := orderly_tick hb
      rw [hstopped] at htick
      exact ⟨htick.1, by simpa using htick.2⟩

end Board

namespace Machine

/-- What can be done to a machine from outside. -/
inductive Operation
  | tick
  | run (count : Nat)
  | step
  /-- Restart the processor and empty the output. -/
  | reset
  /-- Restart the processor alone. -/
  | resetProcessor
  | load (image : Image)
  | setRegisters (regs : Registers)
  /-- Change the bus in any way: attach a device, write a byte, put another image into a RAM. -/
  | changeBus (change : Bus → Bus)

/-- The error of driving a machine, if there is one, and the machine that it leaves behind. -/
def reported
    {α : Type}
    (outcome : Except MachineError α × Machine) :
    Option MachineError × Machine :=
  match outcome with
  | (.ok _, m) => (none, m)
  | (.error e, m) => (some e, m)

/-- Do one thing to a machine. -/
def perform (m : Machine) : Operation → Option MachineError × Machine
  | .tick => reported m.tick
  | .run count => reported (m.run count)
  | .step => reported m.step
  | .reset => (none, m.reset)
  | .resetProcessor => (none, { m with board := m.board.reset })
  | .load image => (none, m.load image)
  | .setRegisters regs => (none, m.setRegisters regs)
  | .changeBus change => (none, { m with board := { m.board with bus := change m.board.bus } })

/-- Do several things to a machine, one after the other, whether they fail or not. -/
def performAll (m : Machine) : List Operation → Machine
  | [] => m
  | operation :: others => (m.perform operation).2.performAll others

@[simp]
theorem reported_ok
    {α : Type}
    (map : MemoryMap)
    (value : α)
    (b : Board) :
    reported (ofBoard map (.ok value, b)) = (none, { board := b, map }) :=
  rfl

@[simp]
theorem reported_error
    {α : Type}
    (map : MemoryMap)
    (e : CpuError)
    (b : Board) :
    reported (ofBoard map ((.error e : Except CpuError α), b)) =
      (some (.cpu e), { board := b, map }) :=
  rfl

theorem reported_snd
    {α : Type}
    (outcome : Except MachineError α × Machine) :
    (reported outcome).2 = outcome.2 := by
  obtain ⟨result, m⟩ := outcome
  cases result <;> rfl

theorem sequenced_reported
    {α : Type}
    {map : MemoryMap}
    {outcome : Except CpuError α × Board}
    (h : Board.Orderly outcome) :
    Sequenced (reported (ofBoard map outcome)).2.cpu ∧
      ∀ e, (reported (ofBoard map outcome)).1 = some (.cpu e) → ¬ e.OfSequencer := by
  obtain ⟨result, b⟩ := outcome
  cases result with
  | ok value => exact ⟨h.1, by simp⟩
  | error e => exact ⟨h.1, by simpa using h.2⟩

theorem sequenced_perform
    {m : Machine}
    (h : Sequenced m.cpu)
    (operation : Operation) :
    Sequenced (m.perform operation).2.cpu ∧
      ∀ e, (m.perform operation).1 = some (.cpu e) → ¬ e.OfSequencer := by
  cases operation with
  | tick => exact sequenced_reported (Board.orderly_tick h)
  | run count => exact sequenced_reported (Board.orderly_run count h)
  | step => exact sequenced_reported (Board.orderly_finish 0 h)
  | reset => exact ⟨sequenced_new, by simp [perform]⟩
  | resetProcessor => exact ⟨sequenced_new, by simp [perform]⟩
  | load image => exact ⟨h, by simp [perform]⟩
  | setRegisters regs => exact ⟨⟨h.counter_le, h.current, h.addition⟩, by simp [perform]⟩
  | changeBus change => exact ⟨h, by simp [perform]⟩

theorem sequenced_performAll
    {m : Machine}
    (h : Sequenced m.cpu)
    (operations : List Operation) :
    Sequenced (m.performAll operations).cpu := by
  induction operations generalizing m with
  | nil => exact h
  | cons operation others ih => exact ih (sequenced_perform h operation).1

/-- **The sequencer.** Whatever is done to a machine, the tick counter fits the current instruction,
and no operation fails because of the sequencer. -/
theorem sequenced_of_operations
    (bus : Bus)
    (map : MemoryMap)
    (operations : List Operation) :
    let reached := Machine.performAll { board := { bus }, map } operations
    Sequenced reached.cpu ∧
    (∀ (operation : Operation) (e : CpuError),
      (reached.perform operation).1 = some (.cpu e) → ¬ e.OfSequencer) ∧
    (∀ next : Board, reached.board.tick = (.ok (), next) →
      (next.cpu.counter = 0 ∧ next.cpu.retired = reached.cpu.retired + 1) ∨
      (next.cpu.counter.toNat = reached.cpu.counter.toNat + 1 ∧
        next.cpu.retired = reached.cpu.retired)) := by
  intro reached
  have hnew : Sequenced (Machine.cpu { board := { bus }, map }) := sequenced_new
  have hreached : Sequenced reached.cpu := sequenced_performAll hnew operations
  refine ⟨hreached, fun operation => (sequenced_perform hreached operation).2, ?_⟩
  intro next htick
  rcases Board.tick_outcome reached.board with
    ⟨after, -, hafter, hok⟩ | ⟨e, -, -, herror⟩ | ⟨-, herror⟩
  · have hmoved := Board.counter_of_advanced hafter
    simp [htick] at hok
    subst hok
    exact hmoved
  · simp [htick] at herror
  · simp [htick] at herror

end Machine
end Microcomputer
