import Microcomputer.Journal.Event
import Microcomputer.Proofs.Bus.Replay
import Mathlib.Algebra.FreeMonoid.Basic
import Mathlib.Control.Monad.Writer

/-!
# A tick in place

The tick once more, as a sequence of changes that are made to one board: a register, the counter
or a byte of a device at a time, with the reports that are made between them.  Here it matters in
which order things happen, because what was changed or reported before an error stays.

**Changes.**  `Change α` is code that works on a board and gives a value or an error.  `readByte`,
`writeByte`, `setRegisters`, `setCpu` and `report` are its smallest parts, and `microStep`,
`sequence`, `tick` and `runFor` are put together from them.

**Results.**  `does_microStep` and `does_sequence`: when a micro-step or the sequencer fails, it has
not changed anything yet.  `on_tick` and `told_tick`: the tick in place is therefore `Board.tick`,
and it reports `Board.tickEvents`.
-/

namespace Microcomputer

/-- Code that changes a board in place and reports what it does, even if an error follows. -/
abbrev Change (α : Type) :=
  ExceptT CpuError (StateT Board (WriterT (FreeMonoid Event) Id)) α

namespace Change

section Parts

/-- Change the registers, which cannot fail. -/
def setRegisters (change : Registers → Registers) : Change Unit :=
  modify fun b => { b with cpu := { b.cpu with regs := change b.cpu.regs } }

/-- Change the processor, which cannot fail. -/
def setCpu (change : Cpu → Cpu) : Change Unit :=
  modify fun b => { b with cpu := change b.cpu }

def report (event : Event) : Change Unit :=
  ExceptT.lift (tell (.of event))

/-- Read a byte from the bus. -/
def readByte (address : UInt16) : Change UInt8 := do
  match (← get).bus.read address with
  | .ok value => return value
  | .error e => throw (.bus e)

/-- Find the device of an address and change it where it is. -/
def writeByte
    (address : UInt16)
    (value : UInt8) :
    Change Unit := do
  let bus := (← get).bus
  match bus.slot? address with
  | none => throw (.bus (.unmapped address))
  | some slot =>
      match bus.devices[slot]? with
      | none => throw (.bus (.unmapped address))
      | some (.charOut out) =>
          modify fun b => { b with bus := ⟨bus.devices.set slot (.charOut (out.push value))⟩ }
      | some (.ram r) =>
          match r.offset? address with
          | none => throw (.bus (.outOfBounds address))
          | some k =>
              modify fun b =>
                { b with
                  bus := ⟨bus.devices.set slot
                    (.ram { r with contents := r.contents.setIfInBounds k value })⟩ }

/-- Move the program counter behind the instruction, as its last change. -/
def complete : Change Progress := do
  setRegisters (·.advance (UInt16.ofNat Instruction.size))
  return .done

end Parts

section Ticks

/-- Execution tick `step` of an instruction: read or write first, then the registers. -/
def microStep
    (i : Instruction)
    (step : UInt8) :
    Change Progress := do
  let regs := (← get).cpu.regs
  if step = 2 then
    let low ← readByte (regs.pc + 1)
    setRegisters (·.setIndexLow low)
    return .continuing
  else if step = 3 then
    let high ← readByte (regs.pc + 2)
    setRegisters (·.addIndexHigh high)
    return .continuing
  else if step = 4 then
    match i with
    | .load =>
        let value ← readByte regs.index
        setRegisters ({ · with acc := value })
        complete
    | .store =>
        writeByte regs.index regs.acc
        complete
    | .add =>
        let value ← readByte regs.index
        setRegisters ({ · with buffer := value })
        return .continuing
    | .branchIfZero =>
        if regs.acc = 0 then
          setRegisters (·.jump regs.index)
          return .done
        else
          complete
  else if step = 5 ∧ i = .add then
    setRegisters fun now => { now with acc := now.acc + now.buffer }
    complete
  else
    throw (.noMicroStep i step)

/-- What the sequencer does on one tick, change by change. -/
def sequence : Change Unit := do
  let cpu := (← get).cpu
  if cpu.counter = 0 then
    setCpu ({ · with counter := 1 })
  else if cpu.counter = 1 then
    let opcode ← readByte cpu.regs.pc
    match Instruction.ofOpcode? opcode with
    | none => throw (.unknownOpcode opcode cpu.regs.pc)
    | some i =>
        report (.fetched cpu.regs.pc i)
        setCpu ({ · with current := some i })
        setCpu ({ · with counter := 2 })
  else
    match cpu.current with
    | none => throw .noInstruction
    | some i =>
        match ← microStep i cpu.counter with
        | .continuing => setCpu fun now => { now with counter := now.counter + 1 }
        | .done =>
            let regs := (← get).cpu.regs
            report (.completed i regs.pc regs.acc)
            setCpu ({ · with counter := 0 })
            setCpu fun now => { now with retired := now.retired + 1 }

/-- One tick of the clock: a stopped processor refuses, and an error stops the processor. -/
def tick : Change Unit := do
  let cpu := (← get).cpu
  match cpu.state with
  | .faulted => throw .faulted
  | .running =>
      report (.tick cpu.counter cpu.regs.pc cpu.regs.acc)
      tryCatch
        (do
          sequence
          setCpu fun now => { now with cycles := now.cycles + 1 })
        (fun e => do
          report (.faulted (← get).cpu.regs.pc e)
          setCpu ({ · with state := .faulted })
          throw e)

/-- Tick `count` times; an error ends it. -/
def ticks : Nat → Change Unit
  | 0 => return
  | count + 1 => do
      tick
      ticks count

def runFor (count : Nat) : Change Unit := do
  report (.runStarted count (← get).cpu.cycles)
  ticks count

end Ticks

section Running

variable {α β : Type}

/-- What the code gives on a board, how it leaves the board behind, and what it reports. -/
def does
    (code : Change α)
    (b : Board) :
    (Except CpuError α × Board) × FreeMonoid Event :=
  (code.run.run b).run

/-- What the code gives on a board, and how it leaves the board behind. -/
def on
    (code : Change α)
    (b : Board) :
    Except CpuError α × Board :=
  (does code b).1

/-- What the code reports on a board, in order. -/
def told
    (code : Change α)
    (b : Board) :
    List Event :=
  (does code b).2.toList

variable (b : Board)

@[simp]
theorem does_pure (value : α) : does (pure value) b = ((.ok value, b), 1) :=
  rfl

@[simp]
theorem does_throw (e : CpuError) : does (throw e : Change α) b = ((.error e, b), 1) :=
  rfl

@[simp]
theorem does_get : does get b = ((.ok b, b), 1) :=
  rfl

/-- Code that is done first leaves its board to what follows, unless it fails. -/
@[simp]
theorem does_bind
    (first : Change α)
    (rest : α → Change β) :
    does (first >>= rest) b =
      match does first b with
      | ((.ok value, next), told) => (does (rest value) next).map id (told * ·)
      | ((.error e, stopped), told) => ((.error e, stopped), told) := by
  unfold does
  rw [ExceptT.run_bind, StateT.run_bind, WriterT.run_bind]
  obtain ⟨⟨result, next⟩, told⟩ := (first.run.run b).run
  cases result with
  | ok value => rfl
  | error e => exact congrArg (Prod.mk _) (mul_one told)

@[simp]
theorem does_map
    (f : α → β)
    (code : Change α) :
    does (f <$> code) b =
      match does code b with
      | ((.ok value, next), told) => ((.ok (f value), next), told)
      | ((.error e, stopped), told) => ((.error e, stopped), told) := by
  rw [← bind_pure_comp, does_bind]
  obtain ⟨⟨result, next⟩, told⟩ := does code b
  cases result with
  | ok value => simp
  | error e => rfl

@[simp]
theorem does_tryCatch
    (code : Change α)
    (handler : CpuError → Change α) :
    does (tryCatch code handler) b =
      match does code b with
      | ((.ok value, next), told) => ((.ok value, next), told)
      | ((.error e, stopped), told) => (does (handler e) stopped).map id (told * ·) := by
  unfold does
  rw [ExceptT.run_tryCatch, StateT.run_bind, WriterT.run_bind]
  obtain ⟨⟨result, next⟩, told⟩ := (code.run.run b).run
  cases result with
  | ok value => exact congrArg (Prod.mk _) (mul_one told)
  | error e => rfl

@[simp]
theorem does_modify (change : Board → Board) :
    does (modify change) b = ((.ok (), change b), 1) :=
  rfl

@[simp]
theorem does_setRegisters (change : Registers → Registers) :
    does (setRegisters change) b =
      ((.ok (), { b with cpu := { b.cpu with regs := change b.cpu.regs } }), 1) :=
  rfl

@[simp]
theorem does_setCpu (change : Cpu → Cpu) :
    does (setCpu change) b = ((.ok (), { b with cpu := change b.cpu }), 1) :=
  rfl

@[simp]
theorem does_report (event : Event) : does (report event) b = ((.ok (), b), .of event) :=
  rfl

@[simp]
theorem does_readByte (address : UInt16) :
    does (readByte address) b =
      match b.bus.read address with
      | .ok value => ((.ok value, b), 1)
      | .error e => ((.error (.bus e), b), 1) := by
  cases hread : b.bus.read address <;> simp [readByte, hread]

@[simp]
theorem does_writeByte
    (address : UInt16)
    (value : UInt8) :
    does (writeByte address value) b =
      match b.bus.write address value with
      | .ok written => ((.ok (), { b with bus := written }), 1)
      | .error e => ((.error (.bus e), b), 1) := by
  cases hslot : b.bus.slot? address with
  | none => simp [writeByte, hslot, Bus.write_of_not_mapped hslot]
  | some slot =>
      obtain ⟨d, hd, -⟩ := Bus.route?_eq_of_slot hslot
      rw [Bus.write_of_slot hslot hd]
      cases d with
      | charOut out => simp [writeByte, hslot, hd, Device.write, Except.map]
      | ram r =>
          cases hk : r.offset? address with
          | none => simp [writeByte, hslot, hd, hk, Device.write, Ram.write, Except.map]
          | some k =>
              simp [writeByte, hslot, hd, hk, Device.write, Ram.write, Except.map,
                Array.setIfInBounds]

@[simp]
theorem does_complete :
    does complete b =
      ((.ok .done, { b with cpu := { b.cpu with regs := Instruction.next b.cpu.regs } }), 1) := by
  simp [complete, Instruction.next]

/-- A board on which a micro-step has been done. -/
def left
    (result : MicroStep) :
    Board :=
  { cpu := { b.cpu with regs := result.regs }, bus := result.bus }

/-- A micro-step that fails has changed nothing; one that succeeds has changed what it should. -/
@[simp]
theorem does_microStep
    (i : Instruction)
    (step : UInt8) :
    does (microStep i step) b =
      match i.microStep step b.cpu.regs b.bus with
      | .ok result => ((.ok result.progress, left b result), 1)
      | .error e => ((.error e, b), 1) := by
  by_cases h2 : step = 2
  · cases hread : b.bus.read (b.cpu.regs.pc + 1) <;>
      simp [microStep, Instruction.microStep, Instruction.readAddressLow, h2, hread, left]
  by_cases h3 : step = 3
  · cases hread : b.bus.read (b.cpu.regs.pc + 2) <;>
      simp [microStep, Instruction.microStep, Instruction.readAddressHigh, h3, hread, left]
  by_cases h4 : step = 4
  · cases i with
    | load =>
        cases hread : b.bus.read b.cpu.regs.index <;>
          simp [microStep, Instruction.microStep, Instruction.completeLoad, h4, hread, left]
    | store =>
        cases hwrite : b.bus.write b.cpu.regs.index b.cpu.regs.acc <;>
          simp [microStep, Instruction.microStep, Instruction.completeStore, h4, hwrite, left]
    | add =>
        cases hread : b.bus.read b.cpu.regs.index <;>
          simp [microStep, Instruction.microStep, Instruction.readOperand, h4, hread, left]
    | branchIfZero =>
        by_cases hzero : b.cpu.regs.acc = 0 <;>
          simp [microStep, Instruction.microStep, Instruction.completeBranch, h4, hzero, left]
  by_cases h5 : step = 5 ∧ i = .add
  · simp [microStep, Instruction.microStep, Instruction.completeAdd, h5, left]
  · simp [microStep, Instruction.microStep, h2, h3, h4, h5]

/-- The sequencer has changed and reported nothing when it fails. -/
@[simp]
theorem does_sequence :
    does sequence b =
      match b.advance with
      | .ok next => ((.ok (), next), .ofList (b.progressEvents next))
      | .error e => ((.error e, b), 1) := by
  by_cases h0 : b.cpu.counter = 0
  · simp [sequence, Board.advance, Board.settle, Board.progressEvents, h0]
  by_cases h1 : b.cpu.counter = 1
  · cases hread : b.bus.read b.cpu.regs.pc with
    | error e => simp [sequence, Board.advance, Board.fetch, h1, hread]
    | ok opcode =>
        cases hi : Instruction.ofOpcode? opcode <;>
          simp [sequence, Board.advance, Board.fetch, Board.progressEvents, h1, hread, hi]
  cases hcurrent : b.cpu.current with
  | none => simp [sequence, Board.advance, Board.execute, h0, h1, hcurrent]
  | some i =>
      cases hstep : i.microStep b.cpu.counter b.cpu.regs b.bus with
      | error e =>
          simp [sequence, Board.advance, Board.execute, h0, h1, hcurrent, hstep, Except.map]
      | ok result =>
          cases hprogress : result.progress with
          | continuing =>
              have hmoved : b.cpu.counter + 1 ≠ 0 := by
                have := Board.microStep_step_of_continuing hstep hprogress
                rw [Ne, ← UInt8.toNat_inj, UInt8.toNat_add]
                simp
                omega
              simp [sequence, Board.advance, Board.execute, Board.progressEvents, h0, h1, hcurrent,
                hstep, hprogress, hmoved, Except.map, Board.absorb, left]
          | done =>
              simp [sequence, Board.advance, Board.execute, Board.progressEvents, h0, h1, hcurrent,
                hstep, hprogress, Except.map, Board.absorb, left]

/-- **The tick in place.** Change by change, a tick does what it does at once. -/
theorem does_tick : does tick b = (b.tick, .ofList b.tickEvents) := by
  cases hstate : b.cpu.state with
  | faulted => simp [tick, Board.tick, Board.tickEvents, hstate]
  | running =>
      cases hadvance : b.advance with
      | ok next =>
          have hevents : b.progressEvents next.counted = b.progressEvents next := rfl
          simp [tick, Board.tick, Board.tickEvents, hstate, hadvance, hevents]
          rfl
      | error e =>
          simp [tick, Board.tick, Board.tickEvents, hstate, hadvance, Board.halted]

theorem on_writeByte
    (address : UInt16)
    (value : UInt8) :
    on (writeByte address value) b =
      match b.bus.write address value with
      | .ok written => (.ok (), { b with bus := written })
      | .error e => (.error (.bus e), b) := by
  rw [on, does_writeByte]
  cases b.bus.write address value <;> rfl

theorem on_tick : on tick b = b.tick := by
  rw [on, does_tick]

theorem told_tick : told tick b = b.tickEvents := by
  rw [told, does_tick]
  rfl

end Running

end Change
end Microcomputer
