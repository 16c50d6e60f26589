import Mathlib.Algebra.Ring.Nat
import Microcomputer.Proofs.Processor.Tick
import Microcomputer.Proofs.Processor.Underway

/-!
# Whole runs

A run of any number of ticks, from a board between two instructions, against
the steps of its core.

**Ticks.**  `run_add` splits a run at any tick, and `exists_fault_of_run` finds the
tick at which a run fails.

**Invariant.**  `Progress` collects what the ticks so far amount to: a number of
whole instructions, and a part of the next one.  `Progress.onward` and
`Progress.complete` carry it over one tick, `progress_of_run` over a whole run.

**Results.**  `run_refines_steps`: the run executes the instructions that the core
executes in single steps, shows the same registers and devices between any two
of them, takes as many ticks as they have, and fails with the same error.
-/

namespace Microcomputer
namespace Board

section Ticks

theorem run_add
    (b : Board)
    (first second : Nat) :
    b.run (first + second) =
      match b.run first with
      | (.ok (), next) => next.run second
      | (.error e, stopped) => (.error e, stopped) := by
  induction first generalizing b with
  | zero =>
      rw [Nat.zero_add]
      rfl
  | succ first ih =>
      rw [Nat.succ_add]
      simp only [run]
      split
      · exact ih _
      · rfl

theorem run_succ
    (b : Board)
    (count : Nat) :
    b.run (count + 1) =
      match b.run count with
      | (.ok (), next) => next.tick
      | (.error e, stopped) => (.error e, stopped) := by
  rw [run_add]
  split
  · simp only [run]
    split
    · next h => exact h.symm
    · next h => exact h.symm
  · rfl

theorem run_of_le
    {b last : Board}
    {k n : Nat}
    (hk : k ≤ n)
    (h : b.run n = (.ok (), last)) :
    ∃ mid : Board, b.run k = (.ok (), mid) := by
  obtain ⟨rest, rfl⟩ := Nat.exists_eq_add_of_le hk
  rw [run_add] at h
  split at h
  · next mid hmid => exact ⟨mid, hmid⟩
  · simp at h

theorem exists_fault_of_run
    {b stopped : Board}
    {n : Nat}
    {e : CpuError}
    (h : b.run n = (.error e, stopped)) :
    ∃ (t : Nat) (mid : Board),
      t < n ∧ b.run t = (.ok (), mid) ∧ mid.tick = (.error e, stopped) := by
  induction n with
  | zero => simp [run] at h
  | succ n ih =>
      rw [run_succ] at h
      split at h
      · next mid hmid => exact ⟨n, mid, Nat.lt_succ_self n, hmid, h⟩
      · next e' stopped' hearlier =>
          obtain ⟨t, mid, ht, hrun, htick⟩ := ih (hearlier.trans h)
          exact ⟨t, mid, Nat.lt_succ_of_lt ht, hrun, htick⟩

theorem advance_frame
    {b next : Board}
    (h : b.advance = .ok next) :
    next.cpu.state = b.cpu.state ∧ next.cpu.cycles = b.cpu.cycles := by
  cases advanced_of_advance h with
  | settled => exact ⟨rfl, rfl⟩
  | fetched => exact ⟨rfl, rfl⟩
  | executed i result =>
      unfold absorb
      split <;> exact ⟨rfl, rfl⟩

theorem tick_eq_ok
    {b next : Board}
    (hrunning : b.cpu.state = .running)
    (h : b.advance = .ok next) :
    b.tick = (.ok (), next.counted) := by
  simp only [tick, hrunning, h]

theorem tick_eq_error
    {b : Board}
    {e : CpuError}
    (hrunning : b.cpu.state = .running)
    (h : b.advance = .error e) :
    b.tick = (.error e, b.halted) := by
  simp only [tick, hrunning, h]

end Ticks

section Progress

/-- The board `last` has completed `count` instructions more than `b`, as far as a word can tell. -/
def RetiredMore
    (b last : Board)
    (count : Nat) :
    Prop :=
  last.cpu.retired = b.cpu.retired + UInt64.ofNat count ∧
    (b.cpu.retired.toNat + count < 2 ^ 64 →
      last.cpu.retired.toNat = b.cpu.retired.toNat + count)

theorem retiredMore_of_eq
    {b last : Board}
    {count : Nat}
    (h : last.cpu.retired = b.cpu.retired + UInt64.ofNat count) :
    RetiredMore b last count := by
  refine ⟨h, fun hfits => ?_⟩
  rw [h, UInt64.toNat_add, UInt64.toNat_ofNat']
  omega

/-- A board that stands between two instructions after `k` ticks has what the instructions up to
there leave behind. -/
def ShowsSteps
    (b : Board)
    (executed : List Instruction)
    (k : Nat) :
    Prop :=
  ∀ mid : Board, b.run k = (.ok (), mid) → mid.cpu.counter = 0 →
    ∃ j : Nat,
      j ≤ executed.length ∧
      RetiredMore b mid j ∧
      b.core.steps j = .ok (executed.take j, mid.core) ∧
      k = ((executed.take j).map Instruction.ticks).sum

theorem ShowsSteps.append
    {b : Board}
    {executed : List Instruction}
    {k : Nat}
    (h : ShowsSteps b executed k)
    (i : Instruction) :
    ShowsSteps b (executed ++ [i]) k := by
  intro mid hmid hcounter
  obtain ⟨j, hj, hretired, hsteps, hticks⟩ := h mid hmid hcounter
  have htake : (executed ++ [i]).take j = executed.take j :=
    List.take_append_of_le_length hj
  refine ⟨j, ?_, hretired, ?_, ?_⟩
  · rw [List.length_append]
    omega
  · rw [htake]
    exact hsteps
  · rw [htake]
    exact hticks

/-- What `n` ticks amount to: the instructions of `executed`, and a part of the one at `reached`. -/
structure Progress
    (b : Board)
    (n : Nat)
    (last : Board)
    (executed : List Instruction)
    (reached : Core) :
    Prop where
  run : b.run n = (.ok (), last)
  steps : b.core.steps executed.length = .ok (executed, reached)
  underway : Underway reached last
  running : last.cpu.state = .running
  retired : last.cpu.retired = b.cpu.retired + UInt64.ofNat executed.length
  cycles : last.cpu.cycles = b.cpu.cycles + UInt64.ofNat n
  ticks : n = (executed.map Instruction.ticks).sum + last.cpu.counter.toNat
  shows : ∀ k, k ≤ n → ShowsSteps b executed k

theorem progress_start
    {b : Board}
    (hrunning : b.cpu.state = .running)
    (hboundary : b.cpu.counter = 0) :
    Progress b 0 b [] b.core where
  run := rfl
  steps := rfl
  underway := Underway.boundary hboundary rfl
  running := hrunning
  retired := by simp
  cycles := by simp
  ticks := by simp [hboundary]
  shows := by
    intro k hk mid hmid _
    obtain rfl : k = 0 := Nat.le_zero.1 hk
    cases hmid
    exact ⟨0, Nat.le_refl 0, retiredMore_of_eq (by simp), rfl, rfl⟩

section OneMore

variable {b last after : Board} {n : Nat} {executed : List Instruction} {reached : Core}

theorem Progress.onward
    (h : Progress b n last executed reached)
    (hrun : b.run (n + 1) = (.ok (), after.counted))
    (hadvance : last.advance = .ok after)
    (hafter : Underway reached after)
    (hcounter : after.cpu.counter.toNat = last.cpu.counter.toNat + 1)
    (hretired : after.cpu.retired = last.cpu.retired) :
    Progress b (n + 1) after.counted executed reached where
  run := hrun
  steps := h.steps
  underway := hafter.counted
  running := (advance_frame hadvance).1.trans h.running
  retired := hretired.trans h.retired
  cycles := by
    rw [UInt64.ofNat_add, ← UInt64.add_assoc, ← h.cycles, ← (advance_frame hadvance).2]
    rfl
  ticks := by
    have hticks := h.ticks
    simp only [counted]
    omega
  shows := by
    intro k hk
    rcases Nat.le_succ_iff.1 hk with hle | rfl
    · exact h.shows k hle
    · intro mid hmid hzero
      rw [hrun] at hmid
      cases hmid
      have : after.cpu.counter.toNat = 0 := by
        rw [show after.cpu.counter = 0 from hzero]
        rfl
      omega

/-- A tick that completes the current instruction. -/
theorem Progress.complete
    {i : Instruction}
    (h : Progress b n last executed reached)
    (hrun : b.run (n + 1) = (.ok (), after.counted))
    (hadvance : last.advance = .ok after)
    (hstep : reached.step = .ok (i, after.core))
    (hticks : i.ticks = last.cpu.counter.toNat + 1)
    (hcounter : after.cpu.counter = 0)
    (hretired : after.cpu.retired = last.cpu.retired + 1) :
    Progress b (n + 1) after.counted (executed ++ [i]) after.core := by
  have hsteps :
      b.core.steps (executed ++ [i]).length = .ok (executed ++ [i], after.core) := by
    rw [List.length_append]
    exact Core.steps_succ h.steps hstep
  have hcount :
      after.counted.cpu.retired =
        b.cpu.retired + UInt64.ofNat (executed ++ [i]).length := by
    rw [List.length_append, UInt64.ofNat_add, ← UInt64.add_assoc, ← h.retired]
    exact hretired
  have hsum : n + 1 = ((executed ++ [i]).map Instruction.ticks).sum := by
    have hbefore := h.ticks
    rw [List.map_append, List.sum_append, List.map_singleton, List.sum_singleton, hticks]
    omega
  refine
    { run := hrun
      steps := hsteps
      underway := Underway.boundary hcounter rfl
      running := (advance_frame hadvance).1.trans h.running
      retired := hcount
      cycles := ?_
      ticks := ?_
      shows := ?_ }
  · rw [UInt64.ofNat_add, ← UInt64.add_assoc, ← h.cycles, ← (advance_frame hadvance).2]
    rfl
  · simp only [counted, hcounter]
    exact hsum
  · intro k hk
    rcases Nat.le_succ_iff.1 hk with hle | rfl
    · exact (h.shows k hle).append i
    · intro mid hmid _
      rw [hrun] at hmid
      cases hmid
      refine ⟨_, Nat.le_refl _, retiredMore_of_eq hcount, ?_, ?_⟩
      · rw [List.take_length]
        exact hsteps
      · rw [List.take_length]
        exact hsum

end OneMore

/-- Every run that succeeds makes progress. -/
theorem progress_of_run
    {b last : Board}
    {n : Nat}
    (hrunning : b.cpu.state = .running)
    (hboundary : b.cpu.counter = 0)
    (hrun : b.run n = (.ok (), last)) :
    ∃ (executed : List Instruction) (reached : Core),
      Progress b n last executed reached := by
  induction n generalizing last with
  | zero =>
      cases hrun
      exact ⟨[], b.core, progress_start hrunning hboundary⟩
  | succ n ih =>
      have hlast := hrun
      rw [run_succ] at hlast
      split at hlast
      · next mid hmid =>
          obtain ⟨executed, reached, h⟩ := ih hmid
          have houtcome := advance_outcome h.underway
          cases hadvance : mid.advance with
          | error e => simp [tick_eq_error h.running hadvance] at hlast
          | ok after =>
              rw [tick_eq_ok h.running hadvance] at hlast
              cases hlast
              rw [hadvance] at houtcome
              cases houtcome with
              | onward hafter hcounter hretired =>
                  exact ⟨executed, reached,
                    h.onward hrun hadvance hafter hcounter hretired⟩
              | complete i hstep hticks hcounter hretired =>
                  exact ⟨executed ++ [i], after.core,
                    h.complete hrun hadvance hstep hticks hcounter hretired⟩
      · simp at hlast

/-- A tick that fails does so with the error of the step, and stops the processor. -/
theorem Progress.fault
    {b last stopped : Board}
    {n : Nat}
    {executed : List Instruction}
    {reached : Core}
    {e : CpuError}
    (h : Progress b n last executed reached)
    (htick : last.tick = (.error e, stopped)) :
    reached.step = .error e ∧ stopped = last.halted := by
  have houtcome := advance_outcome h.underway
  cases hadvance : last.advance with
  | ok after => simp [tick_eq_ok h.running hadvance] at htick
  | error e' =>
      rw [tick_eq_error h.running hadvance] at htick
      rw [hadvance] at houtcome
      cases htick
      cases houtcome with
      | fault hstep => exact ⟨hstep, rfl⟩

end Progress

section WholeRuns

/-- **Whole runs.** A run executes whole instructions as the core does one by one, takes their
ticks, and fails with the error of the core. -/
theorem run_refines_steps
    {b : Board}
    (hrunning : b.cpu.state = .running)
    (hboundary : b.cpu.counter = 0)
    (n : Nat) :
    ∃ (executed : List Instruction) (reached : Core),
      b.core.steps executed.length = .ok (executed, reached) ∧
      RetiredMore b (b.run n).2 executed.length ∧
      (∀ k, k ≤ n → ShowsSteps b executed k) ∧
      ((b.run n).1 = .ok () →
        n = (executed.map Instruction.ticks).sum + (b.run n).2.cpu.counter.toNat) ∧
      (∀ e : CpuError, (b.run n).1 = .error e → reached.step = .error e) := by
  cases hrun : b.run n with
  | mk result final =>
      cases result with
      | ok _ =>
          obtain ⟨executed, reached, h⟩ := progress_of_run hrunning hboundary hrun
          refine ⟨executed, reached, h.steps, retiredMore_of_eq h.retired, h.shows, ?_, ?_⟩
          · intro _
            exact h.ticks
          · intro e he
            cases he
      | error e =>
          obtain ⟨t, mid, ht, hmid, htick⟩ := exists_fault_of_run hrun
          obtain ⟨executed, reached, h⟩ := progress_of_run hrunning hboundary hmid
          obtain ⟨hstep, rfl⟩ := h.fault htick
          refine ⟨executed, reached, h.steps, retiredMore_of_eq h.retired, ?_, ?_, ?_⟩
          · intro k hk
            rcases Nat.lt_or_ge t k with hlt | hle
            · -- No run beyond the fault succeeds.
              intro later hlater
              obtain ⟨next, hnext⟩ := run_of_le hlt hlater
              rw [run_succ, hmid] at hnext
              simp [htick] at hnext
            · exact h.shows k hle
          · intro hok
            cases hok
          · intro e' he
            cases he
            exact hstep

/-- A board whose program prints the letter `H` and goes on into a byte that is no opcode. -/
def printer : Board where
  bus :=
    { devices :=
        [ .charOut { base := 0xF000 },
          .ram { base := 0, contents := #[1, 6, 0, 2, 0, 0xF0, 72] } ] }

theorem printer_refines_steps :
    printer.cpu.state = .running ∧ printer.cpu.counter = 0 ∧
      ∃ (executed : List Instruction) (reached : Core),
        printer.core.steps executed.length = .ok (executed, reached) ∧
        RetiredMore printer (printer.run 12).2 executed.length ∧
        (∀ k, k ≤ 12 → ShowsSteps printer executed k) ∧
        reached.step = .error (.unknownOpcode 72 6) := by
  obtain ⟨executed, reached, hsteps, hretired, hshows, _, hfault⟩ :=
    run_refines_steps (b := printer) rfl rfl 12
  exact ⟨rfl, rfl, executed, reached, hsteps, hretired, hshows, hfault _ rfl⟩

end WholeRuns
end Board
end Microcomputer
