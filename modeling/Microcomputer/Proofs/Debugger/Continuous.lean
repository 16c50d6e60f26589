import Microcomputer.Debugger.Basic
import Microcomputer.Proofs.Processor.Driving
import Mathlib.Logic.Function.Iterate

/-!
# Continuous execution

Where the debugger stops a program that it runs step by step.

**Reference.**  `Machine.afterSteps m k` is the machine after `k` steps that nobody watches.
`Debugger.StopsAt d k`: step `k` of these, counted from zero, fails or ends on a breakpoint.

**Invariant.**  `Followed d k reached`: after `k` updates the debugger still runs and no step has
been one to stop at, or it has stopped behind the first of these.  `Followed.update` carries it over
one update, and `followed_updates` over all of them.

**Result.**  `updates_follow_steps`.
-/

namespace Microcomputer

/-- The machine after `k` steps, whether they fail or not. -/
def Machine.afterSteps
    (m : Machine)
    (k : Nat) :
    Machine :=
  (fun m => m.step.2)^[k] m

theorem Machine.afterSteps_succ
    (m : Machine)
    (k : Nat) :
    m.afterSteps (k + 1) = (m.afterSteps k).step.2 :=
  Function.iterate_succ_apply' _ k m

/-- A step that succeeds leaves the processor running. -/
theorem Machine.running_of_step
    {m : Machine}
    {t : Nat}
    (h : m.step.1 = .ok t) :
    m.step.2.cpu.state = .running := by
  cases hstep : m.board.step with
  | mk result last =>
      cases result with
      | error e => simp [step, ofBoard, hstep, Except.mapError] at h
      | ok t' =>
          simp only [step, ofBoard, hstep]
          exact Board.running_of_step_ok hstep

namespace Debugger

/-- Step `k`, counted from zero, fails or leaves the program counter at a breakpoint. -/
def StopsAt
    (d : Debugger)
    (k : Nat) :
    Prop :=
  (∃ e, (d.machine.afterSteps k).step.1 = .error e) ∨
    (d.machine.afterSteps (k + 1)).cpu.regs.pc ∈ d.breakpoints

section OneUpdate

variable {d : Debugger}

theorem update_of_stopped (h : d.running = false) : d.update = d := by
  simp [update, h]

theorem update_of_faulted
    (hrunning : d.running = true)
    (hstate : d.machine.cpu.state = .faulted) :
    d.update.running = false ∧ d.update.machine = d.machine := by
  simp [update, hrunning, Cpu.isRunning, hstate]

theorem update_of_running
    (hrunning : d.running = true)
    (hstate : d.machine.cpu.state = .running) :
    d.update.machine = d.machine.step.2 ∧
    d.update.breakpoints = d.breakpoints ∧
    (d.update.running = true ↔
      (∃ t, d.machine.step.1 = .ok t) ∧ d.machine.step.2.cpu.regs.pc ∉ d.breakpoints) := by
  have hupdate : d.update = d.step.checkBreakpoint := by
    simp [update, hrunning, Cpu.isRunning, hstate]
  rw [hupdate, step]
  cases hstep : d.machine.step with
  | mk result machine =>
      cases result with
      | ok t =>
          by_cases hbreak : machine.cpu.regs.pc ∈ d.breakpoints
          · simp [checkBreakpoint, hbreak]
          · simp [checkBreakpoint, hbreak, hrunning]
      | error e =>
          by_cases hbreak : machine.cpu.regs.pc ∈ d.breakpoints
          · simp [checkBreakpoint, fail, hbreak]
          · simp [checkBreakpoint, fail, hbreak]

end OneUpdate

section Updates

variable {d reached : Debugger} {k : Nat}

/-- What `k` updates have come to. -/
inductive Followed
    (d : Debugger)
    (k : Nat)
    (reached : Debugger) :
    Prop
  | going
      (hrunning : reached.running = true)
      (hstate : reached.machine.cpu.state = .running)
      (hbreakpoints : reached.breakpoints = d.breakpoints)
      (hmachine : reached.machine = d.machine.afterSteps k)
      (hpassed : ∀ j < k, ¬ d.StopsAt j)
  | ended
      (j : Nat)
      (hj : j < k)
      (hstopped : reached.running = false)
      (hstops : d.StopsAt j)
      (hfirst : ∀ i < j, ¬ d.StopsAt i)
      (hmachine : reached.machine = d.machine.afterSteps (j + 1))

theorem Followed.update (h : Followed d k reached) : Followed d (k + 1) reached.update := by
  cases h with
  | ended j hj hstopped hstops hfirst hmachine =>
      rw [update_of_stopped hstopped]
      exact .ended j (Nat.lt_succ_of_lt hj) hstopped hstops hfirst hmachine
  | going hrunning hstate hbreakpoints hmachine hpassed =>
      obtain ⟨hstepped, hsame, hgoes⟩ := update_of_running hrunning hstate
      rw [hmachine, ← Machine.afterSteps_succ] at hstepped
      rw [hbreakpoints, hmachine, ← Machine.afterSteps_succ] at hgoes
      cases hon : reached.update.running with
      | true =>
          obtain ⟨⟨t, ht⟩, hfree⟩ := hgoes.1 hon
          refine .going hon ?_ (hsame.trans hbreakpoints) hstepped ?_
          · rw [hstepped, Machine.afterSteps_succ]
            exact Machine.running_of_step ht
          · intro j hj
            rcases Nat.lt_succ_iff_lt_or_eq.1 hj with hlt | rfl
            · exact hpassed j hlt
            · rintro (⟨e, he⟩ | hbreak)
              · simp [ht] at he
              · exact hfree hbreak
      | false =>
          refine .ended k (Nat.lt_succ_self k) hon ?_ hpassed hstepped
          -- The debugger has stopped, so one of the two reasons to go on is missing.
          cases hresult : (d.machine.afterSteps k).step.1 with
          | error e => exact Or.inl ⟨e, hresult⟩
          | ok t =>
              refine Or.inr (by_contra fun hfree => ?_)
              rw [hgoes.2 ⟨⟨t, hresult⟩, hfree⟩] at hon
              cases hon

theorem followed_updates
    (hrunning : d.running = true)
    (hstate : d.machine.cpu.state = .running)
    (k : Nat) :
    Followed d k (update^[k] d) := by
  induction k with
  | zero => exact .going hrunning hstate rfl rfl fun j hj => absurd hj (Nat.not_lt_zero j)
  | succ k ih =>
      rw [Function.iterate_succ_apply']
      exact ih.update

/-- **Continuous execution.** The updates of a debugger take one step of its machine each, up to the
first that fails or ends on a breakpoint. -/
theorem updates_follow_steps
    (d : Debugger)
    (hrunning : d.running = true) :
    (d.machine.cpu.state = .running →
      d.update.machine = d.machine.step.2 ∧
      ∀ k : Nat,
        ((update^[k] d).running = true ↔ ∀ j < k, ¬ d.StopsAt j) ∧
        ((update^[k] d).running = true → (update^[k] d).machine = d.machine.afterSteps k) ∧
        (∀ j < k, d.StopsAt j → (∀ i < j, ¬ d.StopsAt i) →
          (update^[k] d).machine = d.machine.afterSteps (j + 1) ∧
          ∀ more : Nat, update^[more] (update^[k] d) = update^[k] d)) ∧
    (d.machine.cpu.state = .faulted →
      d.update.running = false ∧ d.update.machine = d.machine) := by
  refine ⟨fun hstate => ⟨(update_of_running hrunning hstate).1, fun k => ?_⟩,
    update_of_faulted hrunning⟩
  cases followed_updates hrunning hstate k with
  | going hgoing _ _ hmachine hpassed =>
      refine ⟨⟨fun _ => hpassed, fun _ => hgoing⟩, fun _ => hmachine, ?_⟩
      intro j hj hstops
      exact absurd hstops (hpassed j hj)
  | ended j hj hstopped hstops hfirst hmachine =>
      refine ⟨⟨?_, ?_⟩, ?_, ?_⟩
      · intro hgoing
        simp [hstopped] at hgoing
      · intro hpassed
        exact absurd hstops (hpassed j hj)
      · intro hgoing
        simp [hstopped] at hgoing
      · intro j' hj' hstops' hfirst'
        obtain rfl : j = j' := by
          rcases Nat.lt_trichotomy j j' with hlt | heq | hgt
          · exact absurd hstops (hfirst' j hlt)
          · exact heq
          · exact absurd hstops' (hfirst j' hgt)
        exact ⟨hmachine, Function.iterate_fixed (update_of_stopped hstopped)⟩

/-- A load, a branch that is not taken, and no instruction, with two breakpoints. -/
def watched : Debugger where
  machine :=
    { board :=
        { bus :=
            { devices :=
                [ .charOut { base := 0xF000 },
                  .ram { base := 0, contents := #[1, 6, 0, 4, 3, 0, 9] } ] } }
      map := {} }
  program := #[1, 6, 0, 4, 3, 0, 9]
  breakpoints := [0, 6]
  running := true

/-- The debugger starts from one breakpoint and stops at the next, before the fault. -/
theorem watched_follows_steps :
    watched.running = true ∧
    watched.machine.cpu.state = .running ∧
    ¬ watched.StopsAt 0 ∧
    watched.StopsAt 1 ∧
    (update^[5] watched).machine = watched.machine.afterSteps 2 ∧
    (watched.machine.afterSteps 2).cpu.state = .running ∧
    (watched.machine.afterSteps 2).cpu.regs.pc = 6 := by
  have hstate : watched.machine.cpu.state = .running := rfl
  have hfirst : (watched.machine.afterSteps 0).step.1 = .ok 5 ∧
      (watched.machine.afterSteps 1).cpu.regs.pc = 3 := by
    decide +kernel
  have hsecond : (watched.machine.afterSteps 2).cpu.state = .running ∧
      (watched.machine.afterSteps 2).cpu.regs.pc = 6 := by
    decide +kernel
  have hpasses : ¬ watched.StopsAt 0 := by
    rintro (⟨e, he⟩ | hbreak)
    · rw [hfirst.1] at he
      cases he
    · rw [hfirst.2] at hbreak
      revert hbreak
      decide
  have hstops : watched.StopsAt 1 := Or.inr (by rw [hsecond.2]; decide)
  have hfollowed := ((updates_follow_steps watched rfl).1 hstate).2 5
  have hstopped := hfollowed.2.2 1 (by decide) hstops fun i hi => by
    obtain rfl := Nat.lt_one_iff.1 hi
    exact hpasses
  exact ⟨rfl, hstate, hpasses, hstops, hstopped.1, hsecond⟩

end Updates

end Debugger
end Microcomputer
