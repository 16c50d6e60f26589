import Microcomputer.Proofs.Processor.Sequencer

/-!
# Boards in lockstep

Two boards whose processors are the same, on buses that may differ in what no access can tell.

**Same outcomes.**  `Agree R x y`: two computations both succeed, with results that `R` relates, or
both fail with the same error.

**Buses.**  `Bus.Indistinct R`: related buses give the same reads, and the same write on both leaves
them related or fails on both.

**Results.**  `agree_advance` and `lockstep_tick` are the step; `lockstep_run`, `lockstep_finish`
and `Machine.lockstep_performAll` follow by induction.
-/

namespace Microcomputer

/-- Both computations give related results, or both give the same error. -/
inductive Agree
    {ε α β : Type}
    (R : α → β → Prop) :
    Except ε α → Except ε β → Prop
  | ok
      {x : α}
      {y : β}
      (h : R x y) :
      Agree R (.ok x) (.ok y)
  | error
      (e : ε) :
      Agree R (.error e) (.error e)

section Agreement

variable {ε α β γ δ : Type} {R : α → β → Prop} {x : Except ε α} {y : Except ε β}

theorem Agree.outcomes
    (h : Agree R x y) :
    (∃ a b, x = .ok a ∧ y = .ok b ∧ R a b) ∨ ∃ e, x = .error e ∧ y = .error e := by
  cases h with
  | ok h => exact Or.inl ⟨_, _, rfl, rfl, h⟩
  | error e => exact Or.inr ⟨e, rfl, rfl⟩

theorem Agree.map
    {S : γ → δ → Prop}
    {f : α → γ}
    {g : β → δ}
    (h : Agree R x y)
    (hmap : ∀ a b, R a b → S (f a) (g b)) :
    Agree S (x.map f) (y.map g) := by
  cases h with
  | ok hR => exact .ok (hmap _ _ hR)
  | error e => exact .error e

end Agreement

/-- No access tells two related buses apart. -/
structure Bus.Indistinct (R : Bus → Bus → Prop) : Prop where
  read : ∀ {bus bus' : Bus}, R bus bus' → ∀ address, bus.read address = bus'.read address
  write : ∀ {bus bus' : Bus}, R bus bus' → ∀ address value,
    Agree R (bus.write address value) (bus'.write address value)
  clear : ∀ {bus bus' : Bus}, R bus bus' → R bus.clear bus'.clear

variable {R : Bus → Bus → Prop}

namespace Instruction

/-- Two micro-steps with one result, on related buses. -/
structure SameStep
    (R : Bus → Bus → Prop)
    (result result' : MicroStep) :
    Prop where
  progress : result.progress = result'.progress
  regs : result.regs = result'.regs
  bus : R result.bus result'.bus

/-- A micro-step does the same on both buses. -/
theorem agree_microStep
    (hR : Bus.Indistinct R)
    {bus bus' : Bus}
    (h : R bus bus')
    (i : Instruction)
    (step : UInt8)
    (regs : Registers) :
    Agree (SameStep R) (i.microStep step regs bus) (i.microStep step regs bus') := by
  have hread := hR.read h
  unfold microStep
  split
  · rw [readAddressLow, readAddressLow, ← hread]
    cases bus.read (regs.pc + 1) with
    | ok low => exact .ok ⟨rfl, rfl, h⟩
    | error e => exact .error _
  split
  · rw [readAddressHigh, readAddressHigh, ← hread]
    cases bus.read (regs.pc + 2) with
    | ok high => exact .ok ⟨rfl, rfl, h⟩
    | error e => exact .error _
  split
  · cases i with
    | load =>
        simp only [completeLoad, ← hread]
        cases bus.read regs.index with
        | ok value => exact .ok ⟨rfl, rfl, h⟩
        | error e => exact .error _
    | store =>
        simp only [completeStore]
        rcases (hR.write h regs.index regs.acc).outcomes with
          ⟨written, written', hok, hok', hwritten⟩ | ⟨e, herror, herror'⟩
        · rw [hok, hok']
          exact .ok ⟨rfl, rfl, hwritten⟩
        · rw [herror, herror']
          exact .error _
    | add =>
        simp only [readOperand, ← hread]
        cases bus.read regs.index with
        | ok value => exact .ok ⟨rfl, rfl, h⟩
        | error e => exact .error _
    | branchIfZero => exact .ok ⟨rfl, rfl, h⟩
  split
  · exact .ok ⟨rfl, rfl, h⟩
  · exact .error _

end Instruction

namespace Board

/-- The same processor, on related buses. -/
structure Paired
    (R : Bus → Bus → Prop)
    (b b' : Board) :
    Prop where
  cpu : b.cpu = b'.cpu
  bus : R b.bus b'.bus

/-- Driving two boards has given the same, and has left them paired. -/
structure Lockstep
    {α : Type}
    (R : Bus → Bus → Prop)
    (outcome outcome' : Except CpuError α × Board) :
    Prop where
  result : outcome.1 = outcome'.1
  boards : Paired R outcome.2 outcome'.2

section Ticks

variable {b b' : Board}

theorem paired_absorb
    (h : Paired R b b')
    {result result' : MicroStep}
    (hresult : Instruction.SameStep R result result') :
    Paired R (b.absorb result) (b'.absorb result') := by
  unfold absorb
  rw [← hresult.progress]
  cases result.progress with
  | continuing => exact ⟨by simp [h.cpu, hresult.regs], hresult.bus⟩
  | done => exact ⟨by simp [h.cpu, hresult.regs], hresult.bus⟩

/-- The sequencer does the same on both boards. -/
theorem agree_advance
    (hR : Bus.Indistinct R)
    (h : Paired R b b') :
    Agree (Paired R) b.advance b'.advance := by
  unfold advance
  rw [← h.cpu]
  split
  · exact .ok ⟨by simp [settle, h.cpu], h.bus⟩
  split
  · rw [fetch, fetch, ← h.cpu, ← hR.read h.bus]
    cases b.bus.read b.cpu.regs.pc with
    | error e => exact .error _
    | ok opcode =>
        cases hi : Instruction.ofOpcode? opcode with
        | none =>
            simp only [hi]
            exact .error _
        | some i =>
            simp only [hi]
            exact .ok ⟨rfl, h.bus⟩
  · rw [execute, execute, ← h.cpu]
    cases b.cpu.current with
    | none => exact .error _
    | some i =>
        have hstep := Instruction.agree_microStep hR h.bus i b.cpu.counter b.cpu.regs
        exact hstep.map fun _ _ => paired_absorb h

/-- **One tick** of both boards. -/
theorem lockstep_tick
    (hR : Bus.Indistinct R)
    (h : Paired R b b') :
    Lockstep R b.tick b'.tick := by
  unfold tick
  rw [← h.cpu]
  cases b.cpu.state with
  | faulted => exact ⟨rfl, h⟩
  | running =>
      rcases (agree_advance hR h).outcomes with
        ⟨next, next', hok, hok', hnext⟩ | ⟨e, herror, herror'⟩
      · rw [hok, hok']
        exact ⟨rfl, by simp [counted, hnext.cpu], hnext.bus⟩
      · rw [herror, herror']
        exact ⟨rfl, by simp [halted, h.cpu], h.bus⟩

/-- What driving one of two boards in lockstep gives, the other one gives too. -/
theorem exists_of_lockstep
    {α : Type}
    {result : Except CpuError α}
    {outcome' : Except CpuError α × Board}
    (h : Lockstep R (result, b) outcome') :
    ∃ b', outcome' = (result, b') ∧ Paired R b b' :=
  ⟨outcome'.2, Prod.ext h.result.symm rfl, h.boards⟩

theorem lockstep_run
    (hR : Bus.Indistinct R)
    (count : Nat)
    (h : Paired R b b') :
    Lockstep R (b.run count) (b'.run count) := by
  induction count generalizing b b' with
  | zero => exact ⟨rfl, h⟩
  | succ count ih =>
      have hticks := lockstep_tick hR h
      rw [run, run]
      cases htick : b.tick with
      | mk result next =>
          rw [htick] at hticks
          obtain ⟨next', htick', hnexts⟩ := exists_of_lockstep hticks
          rw [htick']
          cases result with
          | ok _ => exact ih hnexts
          | error e => exact ⟨rfl, hnexts⟩

theorem finish_eq
    (b : Board)
    (used : Nat) :
    b.finish used =
      match b.tick with
      | (.ok (), next) =>
          if next.cpu.counter = 0 then (.ok (used + 1), next) else next.finish (used + 1)
      | (.error e, stopped) => (.error e, stopped) := by
  rw [finish]
  split
  · next next hnext =>
      rw [hnext]
      rfl
  · next e stopped hstopped => rw [hstopped]

theorem lockstep_finish
    (hR : Bus.Indistinct R)
    (used : Nat)
    (h : Paired R b b') :
    Lockstep R (b.finish used) (b'.finish used) := by
  fun_induction finish used b generalizing b' with
  | case1 used b next hnext hzero =>
      obtain ⟨next', hnext', hnexts⟩ := exists_of_lockstep (hnext ▸ lockstep_tick hR h)
      rw [finish_eq b', hnext']
      simp only [← hnexts.cpu, hzero, if_true]
      exact ⟨rfl, hnexts⟩
  | case2 used b next hnext hcounter ih =>
      obtain ⟨next', hnext', hnexts⟩ := exists_of_lockstep (hnext ▸ lockstep_tick hR h)
      rw [finish_eq b', hnext']
      simp only [← hnexts.cpu, hcounter, if_false]
      exact ih hnexts
  | case3 used b e stopped hstopped =>
      obtain ⟨stopped', hstopped', hboards⟩ := exists_of_lockstep (hstopped ▸ lockstep_tick hR h)
      rw [finish_eq b', hstopped']
      exact ⟨rfl, hboards⟩

end Ticks

end Board

namespace Machine

/-- The operation neither replaces the RAM nor changes the bus from outside. -/
def Operation.LeavesMemory : Operation → Prop
  | .load _ => False
  | .changeBus _ => False
  | _ => True

variable {m m' : Machine}

theorem lockstep_reported
    {α : Type}
    {map map' : MemoryMap}
    {outcome outcome' : Except CpuError α × Board}
    (h : Board.Lockstep R outcome outcome') :
    (reported (ofBoard map outcome)).1 = (reported (ofBoard map' outcome')).1 ∧
      Board.Paired R (reported (ofBoard map outcome)).2.board
        (reported (ofBoard map' outcome')).2.board := by
  obtain ⟨result, b⟩ := outcome
  obtain ⟨result', b'⟩ := outcome'
  obtain ⟨hresult, hboards⟩ := h
  obtain rfl : result = result' := hresult
  cases result with
  | ok value => exact ⟨rfl, hboards⟩
  | error e => exact ⟨rfl, hboards⟩

theorem lockstep_perform
    (hR : Bus.Indistinct R)
    (h : Board.Paired R m.board m'.board)
    {operation : Operation}
    (hoperation : operation.LeavesMemory) :
    (m.perform operation).1 = (m'.perform operation).1 ∧
      Board.Paired R (m.perform operation).2.board (m'.perform operation).2.board := by
  cases operation with
  | tick => exact lockstep_reported (Board.lockstep_tick hR h)
  | run count => exact lockstep_reported (Board.lockstep_run hR count h)
  | step => exact lockstep_reported (Board.lockstep_finish hR 0 h)
  | reset => exact ⟨rfl, rfl, hR.clear h.bus⟩
  | resetProcessor => exact ⟨rfl, rfl, h.bus⟩
  | load image => exact hoperation.elim
  | setRegisters regs => exact ⟨rfl, by simp [perform, setRegisters, h.cpu], h.bus⟩
  | changeBus change => exact hoperation.elim

/-- **Machines in lockstep.**  Whatever is done to both, they stay paired. -/
theorem lockstep_performAll
    (hR : Bus.Indistinct R)
    (h : Board.Paired R m.board m'.board)
    (operations : List Operation)
    (hoperations : ∀ o, o ∈ operations → o.LeavesMemory) :
    Board.Paired R (m.performAll operations).board (m'.performAll operations).board := by
  induction operations generalizing m m' with
  | nil => exact h
  | cons operation others ih =>
      have hone := lockstep_perform hR h (hoperations operation List.mem_cons_self)
      exact ih hone.2 fun o ho => hoperations o (List.mem_cons_of_mem operation ho)

end Machine
end Microcomputer
