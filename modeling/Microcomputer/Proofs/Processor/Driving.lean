import Microcomputer.Proofs.Processor.Refinement
import Microcomputer.Proofs.Processor.Sequencer

/-!
# Ticks, runs and steps

**Stopped processors.**  A tick that fails stops the processor and does nothing else
(`stopped_of_tick`), and a stopped processor refuses every tick, run and step.

**Length.**  `StopsAfter b n`: ticking until an instruction ends or a tick fails takes exactly `n`
ticks.  There is one such number, and it is at most six (`exists_stopsAfter`).

**Steps.**  A step is a run of as many ticks as it answers (`run_of_step_ok`), and of six ticks if
it fails (`run_of_step_error`).

**Drives.**  `performAll_drives` makes one run of several drives of a machine.

**Completions.**  `Board.completions b n` lists the instructions that are completed in `n` ticks.
-/

namespace Microcomputer
namespace Board

section Stopped

variable {b stopped : Board} {e : CpuError}

theorem tick_of_faulted (h : b.cpu.state = .faulted) : b.tick = (.error .faulted, b) := by
  rw [tick, h]

theorem run_of_faulted
    (h : b.cpu.state = .faulted)
    (count : Nat) :
    b.run (count + 1) = (.error .faulted, b) := by
  rw [run, tick_of_faulted h]

theorem finish_of_faulted
    (h : b.cpu.state = .faulted)
    (used : Nat) :
    b.finish used = (.error .faulted, b) := by
  have htick := tick_of_faulted h
  rw [finish]
  split
  · next hok => simp [htick] at hok
  · next herror =>
      rw [htick] at herror
      cases herror
      rfl

theorem stopped_of_tick
    (h : b.tick = (.error e, stopped)) :
    stopped = { b with cpu := { b.cpu with state := .faulted } } := by
  rcases tick_outcome b with ⟨next, -, -, htick⟩ | ⟨e', -, -, htick⟩ | ⟨hfaulted, htick⟩
  · simp [htick] at h
  · rw [htick] at h
    cases h
    rfl
  · rw [htick] at h
    cases h
    rw [← hfaulted]

/-- A tick that succeeds leaves the processor running. -/
theorem running_of_tick
    {next : Board}
    (h : b.tick = (.ok (), next)) :
    next.cpu.state = .running := by
  unfold tick at h
  split at h
  · simp at h
  · next hrunning =>
      split at h
      · next after hadvance =>
          cases h
          exact (advance_frame hadvance).1.trans hrunning
      · simp at h

/-- A tick that succeeds is counted. -/
theorem cycles_of_tick
    {next : Board}
    (h : b.tick = (.ok (), next)) :
    next.cpu.cycles = b.cpu.cycles + 1 := by
  unfold tick at h
  split at h
  · simp at h
  · split at h
    · next after hadvance =>
        cases h
        exact congrArg (· + 1) (advance_frame hadvance).2
    · simp at h

theorem faulted_of_run
    {n : Nat}
    (h : b.run n = (.error e, stopped)) :
    stopped.cpu.state = .faulted := by
  obtain ⟨t, mid, -, -, htick⟩ := exists_fault_of_run h
  rw [stopped_of_tick htick]

theorem run_of_error
    {n more : Nat}
    (h : b.run n = (.error e, stopped)) :
    b.run (n + more) = (.error e, stopped) := by
  rw [run_add, h]

theorem run_add_snd
    (b : Board)
    (first second : Nat) :
    (b.run (first + second)).2 = ((b.run first).2.run second).2 := by
  rw [run_add]
  cases hfirst : b.run first with
  | mk result mid =>
      cases result with
      | ok _ => rfl
      | error e =>
          cases second with
          | zero => rfl
          | succ second => rw [run_of_faulted (faulted_of_run hfirst)]

theorem run_one (b : Board) : b.run 1 = b.tick := by
  rw [run]
  split
  · next h => exact h.symm
  · next h => exact h.symm

theorem run_succ_snd
    (b : Board)
    (n : Nat) :
    (b.run (n + 1)).2 = (b.run n).2.tick.2 := by
  rw [run_add_snd, run_one]

theorem run_succ_of_tick
    {next : Board}
    (h : b.tick = (.ok (), next))
    (n : Nat) :
    b.run (n + 1) = next.run n := by
  rw [run, h]

end Stopped

section Length

/-- Ticking until an instruction ends or a tick fails takes exactly `n` ticks. -/
structure StopsAfter
    (b : Board)
    (n : Nat) :
    Prop where
  pos : 0 < n
  onward : ∀ k, 0 < k → k < n → (b.run k).1 = .ok () ∧ (b.run k).2.cpu.counter ≠ 0
  stop : (b.run n).1 = .ok () → (b.run n).2.cpu.counter = 0

variable {b next : Board} {n n' : Nat}

theorem StopsAfter.unique
    (h : b.StopsAfter n)
    (h' : b.StopsAfter n') :
    n = n' := by
  rcases Nat.lt_trichotomy n n' with hlt | heq | hgt
  · obtain ⟨hok, hinside⟩ := h'.onward n h.pos hlt
    exact absurd (h.stop hok) hinside
  · exact heq
  · obtain ⟨hok, hinside⟩ := h.onward n' h'.pos hgt
    exact absurd (h'.stop hok) hinside

theorem stopsAfter_one (h : b.tick.1 = .ok () → b.tick.2.cpu.counter = 0) : b.StopsAfter 1 where
  pos := Nat.one_pos
  onward := by
    intro k hpos hlt
    omega
  stop := by
    rw [run_one]
    exact h

/-- A tick that goes on with an instruction comes before those that are left of it. -/
theorem StopsAfter.cons
    (h : next.StopsAfter n)
    (htick : b.tick = (.ok (), next))
    (hinside : next.cpu.counter ≠ 0) :
    b.StopsAfter (n + 1) where
  pos := Nat.succ_pos n
  onward := by
    intro k hpos hlt
    obtain ⟨k, rfl⟩ := Nat.exists_eq_succ_of_ne_zero (Nat.ne_of_gt hpos)
    rw [run_succ_of_tick htick]
    rcases Nat.eq_zero_or_pos k with rfl | hk
    · exact ⟨rfl, hinside⟩
    · exact h.onward k hk (Nat.lt_of_succ_lt_succ hlt)
  stop := by
    rw [run_succ_of_tick htick]
    exact h.stop

/-- Ticking to the end of the instruction stops, and gives what a run of its ticks gives. -/
theorem finish_outcome
    (used : Nat)
    (b : Board) :
    ∃ n : Nat,
      b.StopsAfter n ∧
      n ≤ 5 - b.cpu.counter.toNat + 1 ∧
      b.finish used = ((b.run n).1.map fun _ => used + n, (b.run n).2) := by
  fun_induction finish used b with
  | case1 used b next hnext hzero =>
      refine ⟨1, stopsAfter_one ?_, by omega, ?_⟩
      · intro _
        rw [hnext]
        exact hzero
      · rw [run_one, hnext]
        rfl
  | case2 used b next hnext hinside ih =>
      obtain ⟨n, hstops, hle, hfinish⟩ := ih
      have hmoved := tick_counter hnext hinside
      refine ⟨n + 1, hstops.cons hnext hinside, by omega, ?_⟩
      rw [hfinish, run_succ_of_tick hnext, Nat.add_assoc, Nat.add_comm 1 n]
  | case3 used b e stopped hstopped =>
      refine ⟨1, stopsAfter_one ?_, by omega, ?_⟩
      · intro hok
        simp [hstopped] at hok
      · rw [run_one, hstopped]
        rfl

theorem exists_stopsAfter (b : Board) : ∃ n, n ≤ 6 ∧ b.StopsAfter n := by
  obtain ⟨n, hstops, hle, -⟩ := finish_outcome 0 b
  exact ⟨n, by omega, hstops⟩

theorem StopsAfter.step_eq
    (h : b.StopsAfter n) :
    b.step = ((b.run n).1.map fun _ => n, (b.run n).2) := by
  obtain ⟨n', h', -, hfinish⟩ := finish_outcome 0 b
  rw [h.unique h', step, hfinish, Nat.zero_add]

end Length

section Steps

variable {b last stopped : Board} {e : CpuError} {t : Nat}

theorem stopsAfter_of_step_ok
    (h : b.step = (.ok t, last)) :
    b.StopsAfter t ∧ t ≤ 6 ∧ b.run t = (.ok (), last) := by
  obtain ⟨n, hle, hstops⟩ := b.exists_stopsAfter
  rw [hstops.step_eq] at h
  cases hrun : b.run n with
  | mk result after =>
      rw [hrun] at h
      cases result with
      | error e => cases h
      | ok _ =>
          cases h
          exact ⟨hstops, hle, hrun⟩

theorem run_of_step_ok
    (h : b.step = (.ok t, last)) :
    0 < t ∧ t ≤ 6 ∧ b.run t = (.ok (), last) ∧ last.cpu.counter = 0 := by
  obtain ⟨hstops, hle, hrun⟩ := stopsAfter_of_step_ok h
  have hzero := hstops.stop
  rw [hrun] at hzero
  exact ⟨hstops.pos, hle, hrun, hzero rfl⟩

theorem running_of_step_ok
    (h : b.step = (.ok t, last)) :
    last.cpu.state = .running := by
  obtain ⟨hpos, -, hrun, -⟩ := run_of_step_ok h
  obtain ⟨n, rfl⟩ := Nat.exists_eq_succ_of_ne_zero (Nat.ne_of_gt hpos)
  rw [run_succ] at hrun
  split at hrun
  · exact running_of_tick hrun
  · simp at hrun

theorem run_of_step_error
    (h : b.step = (.error e, stopped)) :
    b.run 6 = (.error e, stopped) := by
  obtain ⟨n, hle, hstops⟩ := b.exists_stopsAfter
  rw [hstops.step_eq] at h
  cases hrun : b.run n with
  | mk result after =>
      rw [hrun] at h
      cases result with
      | ok _ => cases h
      | error e' =>
          cases h
          rw [← Nat.add_sub_cancel' hle]
          exact run_of_error hrun

end Steps

section Completions

/-- An instruction that was completed, and the registers right after its last tick. -/
structure Completion where
  instruction : Instruction
  regs : Registers
  deriving DecidableEq

/-- The instruction that the next tick completes, if it completes one. -/
def completed? (b : Board) : Option Completion :=
  match b.tick with
  | (.ok (), next) =>
      if next.cpu.counter = 0 then
        next.cpu.current.map fun i => ⟨i, next.cpu.regs⟩
      else
        none
  | (.error _, _) => none

/-- The instructions completed in `n` ticks, in order. -/
def completions
    (b : Board)
    (n : Nat) :
    List Completion :=
  (List.range n).filterMap fun k => (b.run k).2.completed?

theorem completions_zero (b : Board) : b.completions 0 = [] :=
  rfl

theorem completions_succ
    (b : Board)
    (n : Nat) :
    b.completions (n + 1) = b.completions n ++ (b.run n).2.completed?.toList := by
  rw [completions, List.range_succ, List.filterMap_append]
  cases h : (b.run n).2.completed? <;> simp [completions, h]

/-- The ticks that succeed: inside an instruction, where the bus is left alone, and at its end. -/
inductive Ticked (b next : Board) : Prop
  | inside
      (hnone : b.completed? = none)
      (hcounter : next.cpu.counter.toNat = b.cpu.counter.toNat + 1)
      (hretired : next.cpu.retired = b.cpu.retired)
      (hbus : next.bus = b.bus)
  | completing
      (i : Instruction)
      (result : MicroStep)
      (hcurrent : b.cpu.current = some i)
      (hperformed : i.Performed b.cpu.regs b.bus b.cpu.counter result)
      (hdone : result.progress = .done)
      (hsome : b.completed? = some ⟨i, result.regs⟩)
      (hcounter : next.cpu.counter = 0)
      (hretired : next.cpu.retired = b.cpu.retired + 1)
      (hbus : next.bus = result.bus)

variable {b next : Board}

theorem completed?_of_tick
    (h : b.tick = (.ok (), next)) :
    b.completed? =
      if next.cpu.counter = 0 then
        next.cpu.current.map fun i => ⟨i, next.cpu.regs⟩
      else
        none := by
  rw [completed?, h]

theorem completed?_of_error
    {e : CpuError}
    {stopped : Board}
    (h : b.tick = (.error e, stopped)) :
    b.completed? = none := by
  rw [completed?, h]

theorem bus_of_continuing
    {i : Instruction}
    {step : UInt8}
    {regs : Registers}
    {bus : Bus}
    {result : MicroStep}
    (h : i.Performed regs bus step result)
    (hprogress : result.progress = .continuing) :
    result.bus = bus := by
  cases h with
  | addressLow => rfl
  | addressHigh => rfl
  | loaded => rfl
  | stored => cases hprogress
  | operandRead => rfl
  | branched => rfl
  | added => rfl

theorem ticked_of_tick
    (h : b.tick = (.ok (), next)) :
    Ticked b next := by
  rcases tick_outcome b with ⟨after, -, hadvanced, htick⟩ | ⟨e, -, -, htick⟩ | ⟨-, htick⟩
  · rw [htick] at h
    cases h
    have hcompleted := completed?_of_tick htick
    cases hadvanced with
    | settled hcounter =>
        exact .inside (by simp [hcompleted, counted, settle])
          (by simp [counted, settle, hcounter]) rfl rfl
    | fetched i hcounter hread =>
        exact .inside (by simp [hcompleted, counted]) (by simp [counted, hcounter]) rfl rfl
    | executed i result hcounter hcurrent hstep =>
        have hperformed := Instruction.performed_of_microStep hstep
        cases hprogress : result.progress with
        | continuing =>
            have hmoved := counter_absorb hperformed hprogress
            have hne : (b.absorb result).counted.cpu.counter ≠ 0 := by
              intro hzero
              have : (b.absorb result).cpu.counter.toNat = 0 := by
                rw [show (b.absorb result).cpu.counter = 0 from hzero]
                rfl
              omega
            rw [if_neg hne] at hcompleted
            have hbus := bus_of_continuing hperformed hprogress
            exact .inside hcompleted hmoved (by simp [counted, absorb, hprogress])
              (by simp [counted, absorb, hprogress, hbus])
        | done =>
            refine .completing i result hcurrent hperformed hprogress ?_ ?_ ?_ ?_
            · simp [hcompleted, counted, absorb, hprogress, hcurrent]
            · simp [counted, absorb, hprogress]
            · simp [counted, absorb, hprogress]
            · simp [counted, absorb, hprogress]
  · simp [htick] at h
  · simp [htick] at h

theorem retired_run
    (b : Board)
    (n : Nat) :
    (b.run n).2.cpu.retired = b.cpu.retired + UInt64.ofNat (b.completions n).length := by
  induction n with
  | zero => simp [run, completions_zero]
  | succ n ih =>
      rw [run_succ_snd, completions_succ, List.length_append, UInt64.ofNat_add, ← UInt64.add_assoc,
        ← ih]
      generalize (b.run n).2 = mid
      cases htick : mid.tick with
      | mk outcome next =>
          cases outcome with
          | error e => simp [completed?_of_error htick, stopped_of_tick htick]
          | ok _ =>
              cases ticked_of_tick htick with
              | inside hnone _ hretired => simp [hnone, hretired]
              | completing i result _ _ _ hsome _ hretired => simp [hsome, hretired]

end Completions

end Board

namespace Machine

section Drives

/-- What drives a machine. -/
inductive Drive
  | tick
  | run (count : Nat)
  | step
  deriving DecidableEq

def Drive.operation : Drive → Operation
  | .tick => .tick
  | .run count => .run count
  | .step => .step

/-- How many ticks a drive takes; a step that fails has failed by its sixth. -/
def ticksOf (m : Machine) : Drive → Nat
  | .tick => 1
  | .run count => count
  | .step =>
      match m.step.1 with
      | .ok t => t
      | .error _ => 6

/-- How many ticks several drives take, one after the other. -/
def ticksOfAll (m : Machine) : List Drive → Nat
  | [] => 0
  | drive :: others => m.ticksOf drive + (m.perform drive.operation).2.ticksOfAll others

theorem board_reported
    {α : Type}
    (map : MemoryMap)
    (outcome : Except CpuError α × Board) :
    (reported (ofBoard map outcome)).2 = { board := outcome.2, map } := by
  obtain ⟨result, b⟩ := outcome
  cases result <;> rfl

theorem perform_drive
    (m : Machine)
    (drive : Drive) :
    (m.perform drive.operation).2 = { m with board := (m.board.run (m.ticksOf drive)).2 } := by
  cases drive with
  | tick =>
      rw [Drive.operation, perform, tick, board_reported, ticksOf, Board.run_one]
  | run count =>
      rw [Drive.operation, perform, run, board_reported, ticksOf]
  | step =>
      rw [Drive.operation, perform, ticksOf, step, board_reported]
      cases hstep : m.board.step with
      | mk result last =>
          cases result with
          | ok t =>
              obtain ⟨-, -, hrun, -⟩ := Board.run_of_step_ok hstep
              simp [ofBoard, Except.mapError, hrun]
          | error e =>
              simp [ofBoard, Except.mapError, Board.run_of_step_error hstep]

theorem performAll_drives
    (m : Machine)
    (drives : List Drive) :
    m.performAll (drives.map Drive.operation) =
      { m with board := (m.board.run (m.ticksOfAll drives)).2 } := by
  induction drives generalizing m with
  | nil => rfl
  | cons drive others ih =>
      rw [List.map_cons, performAll, ih, ticksOfAll, Board.run_add_snd, perform_drive]

end Drives

end Machine
end Microcomputer
