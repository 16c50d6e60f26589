import Microcomputer.Proofs.Processor.Accounting
import Microcomputer.Proofs.Processor.InPlace

/-!
# What the events of a run add up to

A run reports its ticks as they come, and the processor counts them apart from that.

**Reports.**  `Board.reports b n` lists the events of `n` ticks.  A run collects those of them that
are wanted (`toList_runEvents`): it stops at a fault, and a processor that has stopped reports
nothing more.  A run in place reports the same (`told_runFor`).

**Progress.**  `Board.Progressed` lists the ticks that succeed by what they report: the fetch of an
instruction, its completion, or neither.

**Invariant.**  `Tally.Told`: as many events of each kind were reported as the tally of the ticks
says.  `Tally.Told.tick` carries this over one tick, `Tally.told_run` over a run.
-/

namespace Microcomputer

/-- How many events have a title. -/
def titled
    (title : String)
    (events : List Event) :
    Nat :=
  events.countP fun event => event.title == title

@[simp]
theorem titled_nil (title : String) : titled title [] = 0 :=
  rfl

@[simp]
theorem titled_cons
    (title : String)
    (event : Event)
    (others : List Event) :
    titled title (event :: others) =
      titled title others + if event.title = title then 1 else 0 := by
  simp [titled, List.countP_cons]

@[simp]
theorem titled_append
    (title : String)
    (first second : List Event) :
    titled title (first ++ second) = titled title first + titled title second :=
  List.countP_append

namespace Board

section Reports

variable {b next stopped : Board} {e : CpuError}

/-- What `n` ticks report. -/
def reports
    (b : Board)
    (n : Nat) :
    List Event :=
  (List.range n).flatMap fun k => (b.run k).2.tickEvents

theorem reports_succ
    (b : Board)
    (n : Nat) :
    b.reports (n + 1) = b.reports n ++ (b.run n).2.tickEvents := by
  simp [reports, List.range_succ]

theorem tickEvents_of_faulted (h : b.cpu.state = .faulted) : b.tickEvents = [] := by
  rw [tickEvents, h]

theorem tickEvents_of_tick (h : b.tick = (.ok (), next)) :
    b.tickEvents =
      .tick b.cpu.counter b.cpu.regs.pc b.cpu.regs.acc :: progressEvents b next := by
  cases hstate : b.cpu.state with
  | running => simp only [tickEvents, hstate, h]
  | faulted =>
      rw [tick_of_faulted hstate] at h
      cases h

theorem reports_of_tick
    (h : b.tick = (.ok (), next))
    (n : Nat) :
    b.reports (n + 1) = b.tickEvents ++ next.reports n := by
  rw [reports, List.range_succ_eq_map, List.flatMap_cons, List.flatMap_map]
  simp only [run_succ_of_tick h]
  rfl

/-- After a fault nothing is reported. -/
theorem reports_of_error
    (h : b.tick = (.error e, stopped))
    (n : Nat) :
    b.reports (n + 1) = b.tickEvents := by
  have hfirst : b.run 1 = (.error e, stopped) := (run_one b).trans h
  have hsilent : ∀ k, (b.run (k + 1)).2.tickEvents = [] := by
    intro k
    rw [Nat.add_comm, run_of_error hfirst]
    exact tickEvents_of_faulted (faulted_of_run hfirst)
  rw [reports, List.range_succ_eq_map, List.flatMap_cons, List.flatMap_map]
  simp only [hsilent]
  simp [run]

/-- No tick reads a file. -/
theorem imageRead_notMem_reports
    (b : Board)
    (n : Nat)
    (path : String)
    (size : Nat) :
    .imageRead path size ∉ b.reports n := by
  have hprogress : ∀ before after : Board,
      Event.imageRead path size ∉ progressEvents before after := by
    intro before after
    unfold progressEvents
    split
    · simp
    · simp
    · split <;> simp
    · simp
  simp only [reports, List.mem_flatMap, not_exists, not_and]
  intro k hk hmem
  unfold tickEvents at hmem
  split at hmem
  · cases hmem
  · split at hmem <;> simp [hprogress] at hmem

/-- A run collects the events of its ticks, as far as they are wanted. -/
theorem toList_runEvents
    (wanted : Event → Bool)
    (done : Array Event)
    (n : Nat)
    (b : Board) :
    (runEvents wanted done n b).toList = done.toList ++ (b.reports n).filter wanted := by
  induction n generalizing done b with
  | zero => simp [runEvents, reports]
  | succ n ih =>
      rw [runEvents]
      cases htick : b.tick with
      | mk outcome next =>
          cases outcome with
          | ok _ => simp [ih, reports_of_tick htick]
          | error e => simp [reports_of_error htick]

end Reports

end Board

namespace Change

section InPlace

variable
    (count : Nat)
    (b : Board)

theorem does_ticks : does (ticks count) b = (b.run count, .ofList (b.reports count)) := by
  induction count generalizing b with
  | zero => rfl
  | succ count ih =>
      rw [ticks, does_bind, does_tick, Board.run]
      cases htick : b.tick with
      | mk outcome next =>
          cases outcome with
          | ok _ =>
              rw [Board.reports_of_tick htick, FreeMonoid.ofList_append]
              simp only [ih]
              rfl
          | error e => rw [Board.reports_of_error htick]

/-- **The run in place.** It does what `Board.run` does, and reports itself and its ticks. -/
theorem does_runFor :
    does (runFor count) b =
      (b.run count, .ofList (.runStarted count b.cpu.cycles :: b.reports count)) := by
  simp [runFor, does_ticks, FreeMonoid.ofList_cons]

theorem told_runFor :
    told (runFor count) b = .runStarted count b.cpu.cycles :: b.reports count := by
  rw [told, does_runFor]
  rfl

end InPlace

end Change

namespace Board

section Progress

/-- The kinds of tick that succeed, by what they report beyond themselves. -/
inductive Progressed (b next : Board) : List Event → Prop
  | settled
      (hcounter : b.cpu.counter.toNat = 0)
      (hnext : next.cpu.counter.toNat = 1)
      (hnone : b.completed? = none) :
      Progressed b next []
  | fetched
      (i : Instruction)
      (hcounter : b.cpu.counter.toNat = 1)
      (hnext : next.cpu.counter.toNat = 2)
      (hnone : b.completed? = none) :
      Progressed b next [.fetched b.cpu.regs.pc i]
  | continuing
      (hcounter : 2 ≤ b.cpu.counter.toNat)
      (hnext : 2 ≤ next.cpu.counter.toNat)
      (hnone : b.completed? = none) :
      Progressed b next []
  | completing
      (i : Instruction)
      (hcounter : 2 ≤ b.cpu.counter.toNat)
      (hnext : next.cpu.counter.toNat = 0)
      (hsome : b.completed? = some ⟨i, next.cpu.regs⟩) :
      Progressed b next [.completed i next.cpu.regs.pc next.cpu.regs.acc]

variable {b next : Board}

theorem progressEvents_of_fetch
    {i : Instruction}
    (hcounter : b.cpu.counter = 1)
    (hcurrent : next.cpu.current = some i) :
    progressEvents b next = [.fetched b.cpu.regs.pc i] := by
  simp [progressEvents, hcounter, hcurrent]

theorem progressEvents_of_execution
    {i : Instruction}
    (hcounter : 2 ≤ b.cpu.counter.toNat)
    (hcurrent : next.cpu.current = some i) :
    progressEvents b next =
      if next.cpu.counter = 0 then [.completed i next.cpu.regs.pc next.cpu.regs.acc] else [] := by
  unfold progressEvents
  split
  · next hzero => simp [hzero] at hcounter
  · next hone _ => simp [hone] at hcounter
  · next hsome _ _ =>
      cases hcurrent.symm.trans hsome
      rfl
  · next hnone _ =>
      rw [hcurrent] at hnone
      cases hnone

theorem progressed_of_tick (h : b.tick = (.ok (), next)) :
    Progressed b next (progressEvents b next) := by
  rcases tick_outcome b with ⟨after, -, hadvanced, htick⟩ | ⟨e, -, -, htick⟩ | ⟨-, htick⟩
  · rw [htick] at h
    cases h
    have hcompleted := completed?_of_tick htick
    cases hadvanced with
    | settled hcounter =>
        have hevents : progressEvents b b.settle.counted = [] := by simp [progressEvents, hcounter]
        rw [hevents]
        exact .settled (by simp [hcounter]) (by simp [counted, settle])
          (by simp [hcompleted, counted, settle])
    | fetched i hcounter _ =>
        rw [progressEvents_of_fetch hcounter rfl]
        exact .fetched i (by simp [hcounter]) rfl (by simp [hcompleted, counted])
    | executed i result hcounter hcurrent hstep =>
        have hsame : (b.absorb result).counted.cpu.current = some i := by
          cases hprogress : result.progress <;> simp [counted, absorb, hprogress, hcurrent]
        rw [progressEvents_of_execution hcounter hsame]
        have hperformed := Instruction.performed_of_microStep hstep
        cases hprogress : result.progress with
        | continuing =>
            have hmoved : (b.absorb result).counted.cpu.counter.toNat = b.cpu.counter.toNat + 1 :=
              counter_absorb hperformed hprogress
            have hne : (b.absorb result).counted.cpu.counter ≠ 0 := by
              intro hzero
              simp [hzero] at hmoved
            rw [if_neg hne] at hcompleted ⊢
            exact .continuing hcounter (by omega) hcompleted
        | done =>
            have hzero : (b.absorb result).counted.cpu.counter = 0 := by
              simp [counted, absorb, hprogress]
            rw [if_pos hzero, hsame] at hcompleted
            rw [if_pos hzero]
            exact .completing i hcounter (by simp [hzero]) hcompleted
  · simp [htick] at h
  · simp [htick] at h

end Progress

end Board

namespace Tally

/-- The events that were reported agree with a tally, and with where the processor is. -/
structure Told
    (t : Tally)
    (events : List Event)
    (cpu : Cpu) :
    Prop where
  ticks : titled "tick" events = t.ticks + if cpu.state = .faulted then 1 else 0
  fetched : titled "fetch" events = t.completed.length + if 2 ≤ cpu.counter.toNat then 1 else 0
  completed : titled "complete" events = t.completed.length
  faulted : titled "CPU faulted" events = if cpu.state = .faulted then 1 else 0

section Telling

variable {t : Tally} {events : List Event} {b next : Board}

theorem told_new : Told {} [] {} where
  ticks := rfl
  fetched := rfl
  completed := rfl
  faulted := rfl

theorem Told.tick_of_ok
    (h : t.Told events b.cpu)
    (hrunning : b.cpu.state = .running)
    (htick : b.tick = (.ok (), next)) :
    (t.tick b).Told (events ++ b.tickEvents) next.cpu := by
  obtain ⟨hticks, hfetched, hcompleted, hfaulted⟩ := h
  have hstate : next.cpu.state = .running := Board.running_of_tick htick
  have hprogressed := Board.progressed_of_tick htick
  rw [Tally.tick_of_ok htick, Board.tickEvents_of_tick htick]
  revert hprogressed
  generalize Board.progressEvents b next = progress
  intro hprogressed
  cases hprogressed with
  | settled hcounter hnext hnone =>
      constructor <;> simp [Event.title, *]
  | fetched i hcounter hnext hnone =>
      constructor <;> simp [Event.title, *]
  | continuing hcounter hnext hnone =>
      constructor <;> simp [Event.title, *]
  | completing i hcounter hnext hsome =>
      constructor <;> simp [Event.title, *]

/-- One tick, whether it fails or not, is told as it is counted. -/
theorem Told.tick (h : t.Told events b.cpu) :
    (t.tick b).Told (events ++ b.tickEvents) b.tick.2.cpu := by
  rcases Board.tick_outcome b with ⟨next, hrunning, -, htick⟩ | ⟨e, hrunning, -, htick⟩ |
    ⟨hstopped, htick⟩
  · rw [htick]
    exact h.tick_of_ok hrunning htick
  · obtain ⟨hticks, hfetched, hcompleted, hfaulted⟩ := h
    have hevents : b.tickEvents =
        [.tick b.cpu.counter b.cpu.regs.pc b.cpu.regs.acc, .faulted b.cpu.regs.pc e] := by
      simp only [Board.tickEvents, hrunning, htick]
    rw [Tally.tick_of_error htick, hevents, htick]
    constructor
    · simp [Event.title, Board.halted, hticks, hrunning]
    · have hnone : titled "fetch" (events ++ [Event.tick b.cpu.counter b.cpu.regs.pc b.cpu.regs.acc,
          .faulted b.cpu.regs.pc e]) = titled "fetch" events := by simp [Event.title]
      exact hnone.trans hfetched
    · simpa [Event.title] using hcompleted
    · simp [Event.title, Board.halted, hfaulted, hrunning]
  · rw [Tally.tick_of_error htick, Board.tickEvents_of_faulted hstopped, List.append_nil, htick]
    exact h

theorem told_run
    (hnew : b.cpu = {})
    (n : Nat) :
    (Tally.run {} b n).Told (b.reports n) (b.run n).2.cpu := by
  induction n with
  | zero =>
      rw [Board.run, hnew]
      exact told_new
  | succ n ih =>
      rw [Board.run_succ_snd, Board.reports_succ]
      exact ih.tick

theorem ticks_run_le
    (t : Tally)
    (b : Board)
    (n : Nat) :
    (t.run b n).ticks ≤ t.ticks + n := by
  induction n with
  | zero => exact Nat.le_refl _
  | succ n ih =>
      have hone : ((t.run b n).tick (b.run n).2).ticks ≤ (t.run b n).ticks + 1 := by
        unfold Tally.tick
        split
        · exact Nat.le_refl _
        · exact Nat.le_succ _
      exact Nat.le_trans hone (Nat.add_le_add_right ih 1)

end Telling

end Tally

namespace Board

section Results

variable {b next : Board} {n : Nat}

theorem cycles_of_run
    (h : b.run n = (.ok (), next)) :
    next.cpu.cycles = b.cpu.cycles + UInt64.ofNat n := by
  induction n generalizing next with
  | zero =>
      cases h
      exact (UInt64.add_zero _).symm
  | succ n ih =>
      rw [run_succ] at h
      split at h
      · next mid hmid =>
          rw [cycles_of_tick h, ih hmid, UInt64.ofNat_add, UInt64.add_assoc]
          rfl
      · cases h

theorem running_of_run
    (hrunning : b.cpu.state = .running)
    (h : b.run n = (.ok (), next)) :
    next.cpu.state = .running := by
  cases n with
  | zero =>
      cases h
      exact hrunning
  | succ n =>
      rw [run_succ] at h
      split at h
      · exact running_of_tick h
      · cases h

theorem run_ends
    (hnew : b.cpu = {})
    (hfits : n < 2 ^ 64) :
    let cpu := (b.run n).2.cpu
    ((b.run n).1 = .ok () ∧
      (∀ k < n, (b.run k).2.tick.1 = .ok ()) ∧
      cpu.state = .running ∧
      cpu.cycles.toNat = n) ∨
    ∃ t e,
      t < n ∧
      (b.run n).1 = .error e ∧
      (∀ k < t, (b.run k).2.tick.1 = .ok ()) ∧
      (b.run t).2.tick.1 = .error e ∧
      cpu.state = .faulted ∧
      cpu.cycles.toNat = t := by
  intro cpu
  have hbefore : ∀ {k m : Nat} {last : Board},
      b.run m = (.ok (), last) → k < m → (b.run k).2.tick.1 = .ok () := by
    intro k m last hlast hk
    obtain ⟨after, hafter⟩ := run_of_le hk hlast
    obtain ⟨mid, hmid⟩ := run_of_le (Nat.le_succ k) hafter
    rw [run_succ, hmid] at hafter
    have htick : mid.tick = (.ok (), after) := hafter
    rw [hmid, htick]
  have hcount : ∀ {m : Nat} {last : Board},
      b.run m = (.ok (), last) → m ≤ n → last.cpu.cycles.toNat = m := by
    intro m last hlast hm
    have hzero : b.cpu.cycles = 0 := by rw [hnew]
    rw [cycles_of_run hlast, hzero, UInt64.zero_add]
    exact UInt64.toNat_ofNat_of_lt (Nat.lt_of_le_of_lt hm hfits)
  cases hrun : b.run n with
  | mk outcome last =>
      have hcpu : cpu = last.cpu := by rw [← show (b.run n).2 = last by rw [hrun]]
      rw [hcpu]
      cases outcome with
      | ok _ =>
          have hrunning : last.cpu.state = .running := running_of_run (by rw [hnew]) hrun
          exact Or.inl ⟨rfl, fun k hk => hbefore hrun hk, hrunning, hcount hrun (Nat.le_refl n)⟩
      | error e =>
          obtain ⟨t, mid, ht, hmid, htick⟩ := exists_fault_of_run hrun
          refine Or.inr ⟨t, e, ht, rfl, fun k hk => hbefore hmid hk, ?_, faulted_of_run hrun, ?_⟩
          · rw [hmid, htick]
          · rw [stopped_of_tick htick]
            change mid.cpu.cycles.toNat = t
            exact hcount hmid (Nat.le_of_lt ht)

theorem match_phase
    (b : Board)
    (n : Nat) :
    n + (if 2 ≤ b.cpu.counter.toNat then 1 else 0) =
      match b.cpu.phase with
      | .execute _ => n + 1
      | _ => n := by
  unfold Cpu.phase
  by_cases h0 : b.cpu.counter = 0
  · simp [h0]
  by_cases h1 : b.cpu.counter = 1
  · simp [h1]
  · simp [h0, h1, two_le_counter h0 h1]

/-- **Events and counters.**  The events of a run from the start are as many as its counters say. -/
theorem reports_of_new
    (hnew : b.cpu = {})
    (hfits : n < 2 ^ 64) :
    let cpu := (b.run n).2.cpu
    let events := b.reports n
    titled "tick" events = cpu.cycles.toNat + (if cpu.state = .faulted then 1 else 0) ∧
    titled "fetch" events = cpu.retired.toNat + (if 2 ≤ cpu.counter.toNat then 1 else 0) ∧
    titled "complete" events = cpu.retired.toNat ∧
    titled "CPU faulted" events = if cpu.state = .faulted then 1 else 0 := by
  intro cpu events
  have htold := Tally.told_run hnew n
  have hagrees : (Tally.run {} b n).Agrees cpu := by
    refine Tally.Agrees.run ?_ n
    rw [hnew]
    exact Tally.agrees_new
  have hticks : (Tally.run {} b n).ticks < 2 ^ 64 := by
    have hle := Tally.ticks_run_le {} b n
    simp only [Nat.zero_add] at hle
    omega
  have hcompleted : (Tally.run {} b n).completed.length < 2 ^ 64 := by
    have hspent := (Tally.run {} b n).spent_le
    have hsum := hagrees.ticks_eq
    omega
  have hcycles : cpu.cycles.toNat = (Tally.run {} b n).ticks := by
    rw [hagrees.cycles_eq]
    exact UInt64.toNat_ofNat_of_lt hticks
  have hretired : cpu.retired.toNat = (Tally.run {} b n).completed.length := by
    rw [hagrees.retired_eq]
    exact UInt64.toNat_ofNat_of_lt hcompleted
  rw [hcycles, hretired]
  exact ⟨htold.ticks, htold.fetched, htold.completed, htold.faulted⟩

end Results

end Board
end Microcomputer
