import Microcomputer.Playground
import Microcomputer.Debugger.Basic
import Microcomputer.Proofs.Listing.Reassembly
import Microcomputer.Proofs.Listing.Recovery
import Microcomputer.Proofs.Processor.Timetable
import Microcomputer.Proofs.Processor.Wiring

/-!
# The instruction that a step names

**Texts.**  Two pieces with the same text are the same (`Piece.text_injective`).

**Code in memory.**  The bus and the memory have the same three bytes at an address that can be run
(`Machine.Wired.at?_of_reads`).

**Bytes after the step.**  Only a store changes memory, and only at its address
(`Board.Execution.exists_readAfter`).

**Results.**  `step_names_unless_overwritten`, and `overwritten_store_misnamed` for the other case.
-/

namespace Microcomputer

namespace Piece

section Bytes

/-- The piece that starts with a byte, if there are at least two more after it. -/
def ofBytes (first low high : UInt8) : Piece :=
  match Instruction.ofOpcode? first with
  | some i => instruction i (addressOf low high)
  | none => byte first

theorem at?_of_bytes
    {image : Image}
    {x : Nat}
    {first low high : UInt8}
    (hfirst : image[x]? = some first)
    (hlow : image[x + 1]? = some low)
    (hhigh : image[x + 2]? = some high) :
    at? image x = some (ofBytes first low high) := by
  unfold ofBytes
  cases hopcode : Instruction.ofOpcode? first with
  | none => exact Assembly.at?_of_data hfirst hopcode
  | some i =>
      rw [Instruction.ofOpcode?_eq_some_iff.1 hopcode] at hfirst
      exact Assembly.at?_of_code hfirst hlow hhigh

/-- Three bytes are an instruction in one way. -/
theorem ofBytes_eq_instruction_iff
    {first low high low' high' : UInt8}
    {i : Instruction} :
    ofBytes first low high = instruction i (addressOf low' high') ↔
      first = i.opcode ∧ low = low' ∧ high = high' := by
  constructor
  · intro h
    unfold ofBytes at h
    split at h
    · next j hj =>
        obtain ⟨rfl, haddress⟩ := Piece.instruction.inj h
        have hbytes := congrArg Assembly.addressBytes haddress
        rw [addressBytes_addressOf, addressBytes_addressOf] at hbytes
        simp only [List.cons.injEq, and_true] at hbytes
        exact ⟨Instruction.ofOpcode?_eq_some_iff.1 hj, hbytes⟩
    · cases h
  · rintro ⟨rfl, rfl, rfl⟩
    rw [ofBytes, Instruction.ofOpcode?_opcode]

end Bytes

end Piece

namespace MemoryMap

variable {map : MemoryMap} {address : UInt16}

theorem Reaches.toNat_succ
    (hvalid : map.overlap? = none)
    (h : map.Reaches address)
    (hsucc : map.Reaches (address + 1)) :
    (address + 1).toNat = address.toNat + 1 := by
  have hlt := address.toNat_lt
  have hwrap : (address + 1).toNat = (address.toNat + 1) % 65536 := UInt16.toNat_add address 1
  by_cases htop : address.toNat = 65535
  · -- The RAM would begin at zero, and the output at a higher base would hide the last address.
    have hbase := UInt16.le_iff_toNat_le.1 hsucc.1
    have hne : map.ramBase.toNat ≠ map.charOutBase.toNat := by
      intro hsame
      simp [overlap?, UInt16.toNat_inj.1 hsame] at hvalid
    have hbelow : map.ramBase < map.charOutBase := UInt16.lt_iff_toNat_lt.2 (by omega)
    have hout := UInt16.lt_iff_toNat_lt.1 (h.2 hbelow)
    have htopOut := map.charOutBase.toNat_lt
    omega
  · omega

end MemoryMap

namespace Machine
namespace Wired

variable {map : MemoryMap} {m : Machine} {address : UInt16} (h : Wired map m)
include h

theorem memory_of_read
    {value : UInt8}
    (hread : m.bus.read address = .ok value) :
    map.Reaches address ∧ m.memory[address.toNat - map.ramBase.toNat]? = some value := by
  obtain ⟨memory, output, hbus⟩ := h.bus_eq
  have hmemory : m.memory = memory := by rw [Machine.memory, hbus, MemoryMap.memory_wired]
  rw [hbus, MemoryMap.read_wired] at hread
  rw [hmemory]
  split at hread
  · next hreaches =>
      split at hread
      · next byte hbyte =>
          cases hread
          exact ⟨hreaches, hbyte⟩
      · cases hread
  · split at hread
    · cases hread
    · cases hread

theorem offsetOf_eq (hreaches : map.Reaches address) :
    m.offsetOf address = address.toNat - map.ramBase.toNat := by
  rw [offsetOf, h.map_eq, UInt16.toNat_sub_of_le _ _ hreaches.1]

/-- The memory has, as a piece, what the bus gives at three addresses in a row. -/
theorem at?_of_reads
    {first low high : UInt8}
    (hvalid : map.overlap? = none)
    (hfirst : m.bus.read address = .ok first)
    (hlow : m.bus.read (address + 1) = .ok low)
    (hhigh : m.bus.read (address + 2) = .ok high) :
    Piece.at? m.memory (m.offsetOf address) = some (Piece.ofBytes first low high) := by
  have hnext : address + 2 = address + 1 + 1 := (UInt16.add_assoc address 1 1).symm
  rw [hnext] at hhigh
  obtain ⟨hreaches, hfirst⟩ := h.memory_of_read hfirst
  obtain ⟨hreaches₁, hlow⟩ := h.memory_of_read hlow
  obtain ⟨hreaches₂, hhigh⟩ := h.memory_of_read hhigh
  have hbase := UInt16.le_iff_toNat_le.1 hreaches.1
  have hsucc := hreaches.toNat_succ hvalid hreaches₁
  rw [hreaches₁.toNat_succ hvalid hreaches₂, hsucc, Nat.add_assoc, Nat.sub_add_comm hbase] at hhigh
  rw [hsucc, Nat.sub_add_comm hbase] at hlow
  rw [h.offsetOf_eq hreaches]
  exact Piece.at?_of_bytes hfirst hlow hhigh

end Wired
end Machine

namespace Board
namespace Execution

variable {b : Board} (x : Execution b)

/-- The instruction stores into itself, and not what is there already. -/
def OverwritesItself : Prop :=
  x.instruction = .store ∧
  x.address ∈ [b.cpu.regs.pc, b.cpu.regs.pc + 1, b.cpu.regs.pc + 2] ∧
  b.bus.read x.address ≠ .ok b.cpu.regs.acc

/-- A byte is the same after the instruction unless that has stored another one there. -/
theorem exists_readAfter
    {address : UInt16}
    {value : UInt8}
    (hread : b.bus.read address = .ok value) :
    ∃ value',
      x.completed.bus.read address = .ok value' ∧
      (value' = value ↔
        ¬ (x.instruction = .store ∧ x.address = address ∧
          b.bus.read x.address ≠ .ok b.cpu.regs.acc)) := by
  by_cases hstore : x.instruction = .store
  · have hwritten : b.bus.write x.address b.cpu.regs.acc = .ok x.written := x.valueWritten hstore
    have hbus : x.completed.bus = x.written := by simp [completed, finalBus, hstore]
    rw [hbus, Bus.read_of_write hwritten]
    by_cases hsame : address = x.address
    · rw [hsame] at hread
      refine ⟨b.cpu.regs.acc, by simp [hsame, hread, Except.map], ?_⟩
      simp [hstore, hsame, hread, eq_comm]
    · refine ⟨value, by rw [if_neg hsame, hread], ?_⟩
      simp [Ne.symm hsame]
  · have hbus : x.completed.bus = b.bus := by
      cases hi : x.instruction with
      | store => exact absurd hi hstore
      | load | add | branchIfZero => simp [completed, finalBus, hi]
    exact ⟨value, by rw [hbus, hread], by simp [hstore]⟩

theorem exists_bytesAfter :
    ∃ first low high : UInt8,
      x.completed.bus.read b.cpu.regs.pc = .ok first ∧
      x.completed.bus.read (b.cpu.regs.pc + 1) = .ok low ∧
      x.completed.bus.read (b.cpu.regs.pc + 2) = .ok high ∧
      (first = x.instruction.opcode ∧ low = x.low ∧ high = x.high ↔ ¬ x.OverwritesItself) := by
  obtain ⟨first, hfirst, hsame⟩ := x.exists_readAfter x.fetched
  obtain ⟨low, hlow, hsame₁⟩ := x.exists_readAfter x.lowRead
  obtain ⟨high, hhigh, hsame₂⟩ := x.exists_readAfter x.highRead
  refine ⟨first, low, high, hfirst, hlow, hhigh, ?_⟩
  rw [hsame, hsame₁, hsame₂, OverwritesItself]
  simp only [List.mem_cons, List.not_mem_nil, or_false, or_and_right, and_or_left, not_or]

end Execution
end Board

namespace Debugger

/-- **The name of a step.** A step that is told names the instruction it has executed exactly if
that has not overwritten itself. -/
theorem step_names_unless_overwritten
    {map : MemoryMap}
    {m after : Machine}
    {ticks : Nat}
    (hvalid : map.overlap? = none)
    (hwired : m.Wired map)
    (hboundary : m.cpu.counter = 0)
    (hstep : m.step = (.ok ticks, after)) :
    ∃ x : Board.Execution m.board,
      after = { m with board := x.completed } ∧
      after.cpu.current = some x.instruction ∧
      after.cpu.regs.index = x.address ∧
      let pc := m.cpu.regs.pc
      let told := shownAt after pc
      (∀ d : Debugger, d.machine = m → d.step.status = .stepped pc told ticks) ∧
      (∀ p : Playground, p.machine = m → p.step = (.ok told, { p with machine := after })) ∧
      (told = x.instruction.written x.address ↔ ¬ x.OverwritesItself) := by
  have hreached : after.Wired map := by simpa only [hstep] using hwired.step
  obtain ⟨last, hlast, rfl⟩ := Machine.board_of_step hstep
  obtain ⟨x, -, rfl⟩ := Board.exists_execution_of_step hboundary hlast
  obtain ⟨first, low, high, hfirst, hlow, hhigh, hsame⟩ := x.exists_bytesAfter
  have hpiece := hreached.at?_of_reads hvalid hfirst hlow hhigh
  have htold : shownAt { m with board := x.completed } m.cpu.regs.pc =
      (Piece.ofBytes first low high).text :=
    congrArg Prod.fst (Piece.describe_of_at? hpiece)
  have hname : x.instruction.written x.address =
      (Piece.instruction x.instruction (Piece.addressOf x.low x.high)).text := by
    rw [Piece.text, Piece.addressOf, Board.address_of_bytes]
    rfl
  refine ⟨x, rfl, rfl, rfl, ?_, ?_, ?_⟩
  · rintro d rfl
    rw [Debugger.step, hstep]
  · rintro p rfl
    rw [Playground.step, hstep]
    rfl
  · rw [htold, hname, Piece.text_injective.eq_iff, Piece.ofBytes_eq_instruction_iff, hsame]

/-- A debugger with a store to an address, before a data byte. -/
def storing (target : UInt8) : Debugger where
  machine := MemoryMap.loaded {} #[2, target, 0, 9]
  program := #[2, target, 0, 9]

/-- A store to the data byte is named as it is. -/
theorem step_names_storing :
    let d := storing 3
    d.machine.Wired {} ∧
    d.machine.cpu.counter = 0 ∧
    d.step.machine.memory = #[2, 3, 0, 0] ∧
    d.step.status.text = "0000: store [0x0003] (5 ticks)" := by
  intro d
  have hwired : d.machine.Wired {} := ⟨rfl, _, _, rfl⟩
  have hstep : d.machine.step = (.ok 5, d.machine.step.2) := by decide +kernel
  have hmemory : d.step.machine.memory = #[2, 3, 0, 0] := by decide +kernel
  have hstore : d.machine.step.2.cpu.current = some .store := by decide +kernel
  have htarget : d.machine.step.2.cpu.regs.index = 3 := by decide +kernel
  obtain ⟨x, -, hcurrent, hindex, hstatus, -, hnamed⟩ :=
    step_names_unless_overwritten (by decide) hwired rfl hstep
  have hinstruction : .store = x.instruction := Option.some.inj (hstore.symm.trans hcurrent)
  have haddress : 3 = x.address := htarget.symm.trans hindex
  have hkept : ¬ x.OverwritesItself := by
    rintro ⟨-, hinside, -⟩
    rw [← haddress] at hinside
    exact absurd hinside (by decide)
  refine ⟨hwired, rfl, hmemory, ?_⟩
  rw [hstatus d rfl, hnamed.2 hkept, ← hinstruction, ← haddress]
  decide +kernel

/-- A store that changes the low byte of its own address is named with another address. -/
theorem overwritten_store_misnamed :
    ¬ ∀ (map : MemoryMap) (d : Debugger) (after : Machine) (ticks : Nat),
      map.overlap? = none →
      d.machine.Wired map →
      d.machine.cpu.counter = 0 →
      d.machine.step = (.ok ticks, after) →
      ∃ i : Instruction,
        after.cpu.current = some i ∧
        d.step.status =
          .stepped d.machine.cpu.regs.pc (i.written after.cpu.regs.index) ticks := by
  intro hall
  have hstep : (storing 1).machine.step = (.ok 5, (storing 1).machine.step.2) := by decide +kernel
  obtain ⟨i, hcurrent, hstatus⟩ := hall {} (storing 1) _ 5 (by decide) ⟨rfl, _, _, rfl⟩ rfl hstep
  have hstore : (storing 1).machine.step.2.cpu.current = some .store := by decide +kernel
  have hshown : (storing 1).step.status = .stepped 0 "store [0x0000]" 5 := by decide +kernel
  have hused : Instruction.store.written (storing 1).machine.step.2.cpu.regs.index =
      "store [0x0001]" := by decide +kernel
  obtain rfl : .store = i := Option.some.inj (hstore.symm.trans hcurrent)
  rw [hshown, hused] at hstatus
  exact absurd hstatus (by decide)

end Debugger
end Microcomputer
