import Microcomputer.Proofs.Processor.Driving

/-!
# Steps as runs

A step ticks on as long as it is inside an instruction.  How long that takes, and what it amounts
to.

**One step.**  A step is a run of the ticks after which it stops (`step_of_stopsAfter`).  If it
succeeds, its last tick completes an instruction and the others complete none; they are the ticks
that were left of this instruction (`StopsAfter.completes`).

**Several steps.**  `Machine.Stepped` lists the ticks of steps that succeed one after the other, and
`Machine.runEach` makes several runs.  Both come to one run of all their ticks
(`Stepped.run_sum`, `runEach_eq_run`).

**Result.**  `steps_are_runs`.
-/

namespace Microcomputer
namespace Board

section Completion

variable {b : Board} {n k : Nat}

/-- The last tick of a run that succeeds. -/
theorem tick_of_run_succ
    (h : (b.run (n + 1)).1 = .ok ()) :
    (b.run n).2.tick = (.ok (), (b.run (n + 1)).2) := by
  rw [run_succ] at h ⊢
  cases hrun : b.run n with
  | mk result mid =>
      rw [hrun] at h
      cases result with
      | error e => cases h
      | ok _ => exact Prod.ext h rfl

theorem StopsAfter.inside
    (h : b.StopsAfter n)
    (hk : k < n) :
    (b.run k).2.cpu.counter.toNat = b.cpu.counter.toNat + k ∧ b.completions k = [] := by
  induction k with
  | zero => exact ⟨rfl, completions_zero b⟩
  | succ k ih =>
      obtain ⟨hcounter, hbefore⟩ := ih (Nat.lt_of_succ_lt hk)
      obtain ⟨hok, hinside⟩ := h.onward (k + 1) (Nat.succ_pos k) hk
      cases ticked_of_tick (tick_of_run_succ hok) with
      | inside hnone hmoved =>
          rw [completions_succ, hbefore, hnone]
          exact ⟨by omega, rfl⟩
      | completing i result hcurrent hperformed hdone hsome hzero => exact absurd hzero hinside

theorem StopsAfter.completes
    (h : b.StopsAfter n)
    (hok : (b.run n).1 = .ok ()) :
    ∃ i : Instruction,
      b.completions n = [⟨i, (b.run n).2.cpu.regs⟩] ∧ b.cpu.counter.toNat + n = i.ticks := by
  obtain ⟨k, rfl⟩ := Nat.exists_eq_succ_of_ne_zero (Nat.ne_of_gt h.pos)
  obtain ⟨hcounter, hbefore⟩ := h.inside (Nat.lt_succ_self k)
  have htick := tick_of_run_succ hok
  have hzero := h.stop hok
  cases ticked_of_tick htick with
  | inside hnone hmoved =>
      have hend : (b.run (k + 1)).2.cpu.counter.toNat = 0 := by rw [hzero]; rfl
      omega
  | completing i result hcurrent hperformed hdone hsome =>
      have hlast := hperformed.succ_eq_ticks hdone
      have hcompleted := completed?_of_tick htick
      rw [if_pos hzero, hsome, eq_comm, Option.map_eq_some_iff] at hcompleted
      obtain ⟨j, -, hsame⟩ := hcompleted
      refine ⟨j, ?_, ?_⟩
      · rw [completions_succ, hbefore, hsome, ← hsame]
        rfl
      · obtain ⟨rfl, -⟩ := Completion.mk.inj hsame
        omega

end Completion

end Board

namespace Machine

/-- Steps that succeed, one after the other, with the ticks that each of them takes. -/
inductive Stepped : Machine → List Nat → Machine → Prop
  | none
      (m : Machine) :
      Stepped m [] m
  | more
      {m next last : Machine}
      {t : Nat}
      {others : List Nat}
      (hstep : m.step = (.ok t, next))
      (hothers : Stepped next others last) :
      Stepped m (t :: others) last

/-- Run several times, one run after the other, up to the first fault. -/
def runEach (m : Machine) : List Nat → Except MachineError Unit × Machine
  | [] => (.ok (), m)
  | count :: others =>
      match m.run count with
      | (.ok (), next) => next.runEach others
      | (.error e, stopped) => (.error e, stopped)

variable {m last stopped : Machine} {n t : Nat}

section OneStep

theorem step_of_stopsAfter
    (h : m.board.StopsAfter n) :
    m.step = ((m.run n).1.map fun _ => n, (m.run n).2) := by
  rw [step, run, h.step_eq]
  cases m.board.run n with
  | mk result after =>
      cases result with
      | ok _ => rfl
      | error e => rfl

theorem board_of_step
    (h : m.step = (.ok t, last)) :
    ∃ after : Board, m.board.step = (.ok t, after) ∧ last = { m with board := after } := by
  rw [step] at h
  cases hstep : m.board.step with
  | mk result after =>
      rw [hstep] at h
      cases result with
      | error e => simp [ofBoard, Except.mapError] at h
      | ok t' =>
          cases h
          exact ⟨after, rfl, rfl⟩

theorem run_of_step
    (h : m.step = (.ok t, last)) :
    m.run t = (.ok (), last) := by
  obtain ⟨after, hboard, rfl⟩ := board_of_step h
  obtain ⟨-, -, hrun, -⟩ := Board.run_of_step_ok hboard
  rw [run, hrun]
  rfl

theorem run_of_step_error
    {e : MachineError}
    (h : m.step = (.error e, stopped)) :
    m.run 6 = (.error e, stopped) := by
  rw [step] at h
  rw [run]
  cases hstep : m.board.step with
  | mk result after =>
      rw [hstep] at h
      cases result with
      | ok t => simp [ofBoard, Except.mapError] at h
      | error e' =>
          rw [Board.run_of_step_error hstep]
          cases h
          rfl

end OneStep

section SeveralSteps

theorem run_add
    (m : Machine)
    (first second : Nat) :
    m.run (first + second) =
      match m.run first with
      | (.ok (), next) => next.run second
      | (.error e, stopped) => (.error e, stopped) := by
  simp only [run, Board.run_add]
  cases m.board.run first with
  | mk result mid => cases result <;> rfl

/-- Several runs are one run of all their ticks, also if one of them fails. -/
theorem runEach_eq_run
    (m : Machine)
    (counts : List Nat) :
    m.runEach counts = m.run counts.sum := by
  induction counts generalizing m with
  | nil => rfl
  | cons count others ih =>
      rw [runEach, List.sum_cons, run_add]
      cases m.run count with
      | mk result mid =>
          cases result with
          | ok _ => exact ih mid
          | error e => rfl

theorem Stepped.run_sum
    {ticks : List Nat}
    (h : m.Stepped ticks last) :
    m.run ticks.sum = (.ok (), last) := by
  induction h with
  | none m => rfl
  | more hstep hothers ih =>
      rw [List.sum_cons, run_add, run_of_step hstep]
      exact ih

end SeveralSteps

/-- **Steps are runs.** A step stops after at most six ticks, at the first boundary or the first
error, and is a run of so many. -/
theorem steps_are_runs (m : Machine) :
    (∃ n, n ≤ 6 ∧ m.board.StopsAfter n ∧ m.step = ((m.run n).1.map fun _ => n, (m.run n).2)) ∧
    (∀ t last, m.step = (.ok t, last) →
      m.run t = (.ok (), last) ∧
      last.cpu.counter = 0 ∧
      (∀ k, 0 < k → k < t → (m.run k).2.cpu.counter ≠ 0) ∧
      ∃ i : Instruction,
        m.board.completions t = [⟨i, last.cpu.regs⟩] ∧ m.cpu.counter.toNat + t = i.ticks) ∧
    (∀ e stopped, m.step = (.error e, stopped) → m.run 6 = (.error e, stopped)) ∧
    (∀ ticks last, m.Stepped ticks last →
      ∀ counts : List Nat, counts.sum = ticks.sum → m.runEach counts = (.ok (), last)) := by
  refine ⟨?_, ?_, fun e stopped => run_of_step_error, ?_⟩
  · obtain ⟨n, hle, hstops⟩ := m.board.exists_stopsAfter
    exact ⟨n, hle, hstops, step_of_stopsAfter hstops⟩
  · intro t last hstep
    obtain ⟨after, hboard, rfl⟩ := board_of_step hstep
    obtain ⟨hstops, -, hrun⟩ := Board.stopsAfter_of_step_ok hboard
    have hok : (m.board.run t).1 = .ok () := by rw [hrun]
    have hzero := hstops.stop hok
    obtain ⟨i, hcompleted, hticks⟩ := hstops.completes hok
    rw [hrun] at hzero hcompleted
    have hinside : ∀ k, 0 < k → k < t → (m.run k).2.cpu.counter ≠ 0 := fun k hpos hlt =>
      (hstops.onward k hpos hlt).2
    exact ⟨run_of_step hstep, hzero, hinside, i, hcompleted, hticks⟩
  · intro ticks last hstepped counts hsum
    rw [runEach_eq_run, hsum]
    exact hstepped.run_sum

/-- A program that doubles a byte and puts it in the place of its first opcode. -/
def doubling : Machine where
  board :=
    { bus :=
        { devices :=
            [ .charOut { base := 0xF000 },
              .ram { base := 0, contents := #[1, 9, 0, 3, 9, 0, 2, 0, 0, 1] } ] } }
  map := {}

/-- Its three steps take sixteen ticks, and three runs of so many ticks do the same. -/
theorem doubling_steps_are_runs :
    let last := (doubling.run 16).2
    doubling.Stepped [5, 6, 5] last ∧
    [3, 0, 13].sum = [5, 6, 5].sum ∧
    last.memory = #[2, 9, 0, 3, 9, 0, 2, 0, 0, 1] ∧
    doubling.runEach [3, 0, 13] = (.ok (), last) := by
  intro last
  have hload : doubling.step = (.ok 5, (doubling.run 5).2) := by decide +kernel
  have hadd : (doubling.run 5).2.step = (.ok 6, (doubling.run 11).2) := by decide +kernel
  have hstore : (doubling.run 11).2.step = (.ok 5, last) := by decide +kernel
  have hsteps : doubling.Stepped [5, 6, 5] last :=
    .more hload (.more hadd (.more hstore (.none last)))
  have hsum : [3, 0, 13].sum = [5, 6, 5].sum := rfl
  have hmemory : last.memory = #[2, 9, 0, 3, 9, 0, 2, 0, 0, 1] := by decide +kernel
  exact ⟨hsteps, hsum, hmemory, (steps_are_runs doubling).2.2.2 _ last hsteps _ hsum⟩

end Machine
end Microcomputer
