import Microcomputer.Proofs.Bus.Memory
import Microcomputer.Proofs.Processor.Lockstep

/-!
# Bytes out of reach

**Reach.**  `MemoryMap.reach` counts the bytes of the RAM up to the output, if that has the higher
base, and up to the end of the address space otherwise.  Elsewhere the bus does not depend on the
RAM (`MemoryMap.read_wired`, `MemoryMap.write_wired`).

**Veil.**  `Veiled map loaded loaded'`: two buses have the same RAM within the reach, and beyond it
what was loaded into each.  `indistinct_veiled`: no access tells them apart.

**Result.**  `unreachable_bytes_isolated`.
-/

namespace Microcomputer
namespace MemoryMap

/-- How many bytes of the RAM the bus leads to, at most. -/
def reach (map : MemoryMap) : Nat :=
  if map.ramBase < map.charOutBase then
    map.charOutBase.toNat - map.ramBase.toNat
  else
    65536 - map.ramBase.toNat

/-- The address belongs to the RAM. -/
def Reaches
    (map : MemoryMap)
    (address : UInt16) :
    Prop :=
  map.ramBase ≤ address ∧ (map.ramBase < map.charOutBase → address < map.charOutBase)

instance (map : MemoryMap) (address : UInt16) : Decidable (map.Reaches address) :=
  inferInstanceAs (Decidable (_ ∧ _))

/-- The bus of a machine with this map, in routing order. -/
def wired
    (map : MemoryMap)
    (memory : Image)
    (output : Array UInt8) :
    Bus :=
  let ram : Device := .ram { base := map.ramBase, contents := memory }
  let charOut : Device := .charOut { base := map.charOutBase, buffer := output }
  { devices := if map.ramBase < map.charOutBase then [charOut, ram] else [ram, charOut] }

section Wired

variable {map : MemoryMap}

theorem ofMap_of_valid (hvalid : map.overlap? = none) :
    Machine.ofMap map = .ok { board := { bus := map.wired #[] #[] }, map } := by
  have hne : map.ramBase ≠ map.charOutBase := by
    intro hsame
    simp [overlap?, hsame] at hvalid
  simp [Machine.ofMap, hvalid, Bus.attachAll, Bus.attach, ByBase.insert, Device.base, hne, wired]
  congr

variable (map) (memory : Image) (output : Array UInt8)

theorem load_wired (image : Image) :
    (map.wired memory output).load image = map.wired image output := by
  by_cases hbase : map.ramBase < map.charOutBase
  · simp [wired, hbase, Bus.load, Bus.loadFirst, Ram.load]
  · simp [wired, hbase, Bus.load, Bus.loadFirst, Ram.load]

theorem clear_wired : (map.wired memory output).clear = map.wired memory #[] := by
  by_cases hbase : map.ramBase < map.charOutBase
  · simp [wired, hbase, Bus.clear, Bus.clearFirst, CharOut.clear]
  · simp [wired, hbase, Bus.clear, Bus.clearFirst, CharOut.clear]

theorem memory_wired : (map.wired memory output).memory = memory := by
  by_cases hbase : map.ramBase < map.charOutBase
  · simp [wired, hbase, Bus.memory, Bus.ram?]
  · simp [wired, hbase, Bus.memory, Bus.ram?]

theorem output_wired : (map.wired memory output).output = output := by
  by_cases hbase : map.ramBase < map.charOutBase
  · simp [wired, hbase, Bus.output, Bus.charOut?]
  · simp [wired, hbase, Bus.output, Bus.charOut?]

variable {map memory output} {address : UInt16}

theorem offset_lt_reach (h : map.Reaches address) :
    address.toNat - map.ramBase.toNat < map.reach := by
  have hlt := address.toNat_lt
  have hram := UInt16.le_iff_toNat_le.1 h.1
  unfold reach
  split
  · next hbase =>
      have hout := UInt16.lt_iff_toNat_lt.1 (h.2 hbase)
      omega
  · omega

section Access

variable (map memory output address)

/-- Who answers at an address: the RAM within its reach, then the output, or nobody. -/
theorem route?_wired :
    (map.wired memory output).route? address =
      if map.Reaches address then some (.ram { base := map.ramBase, contents := memory })
      else if map.charOutBase ≤ address then
        some (.charOut { base := map.charOutBase, buffer := output })
      else none := by
  by_cases hbase : map.ramBase < map.charOutBase
  · -- The output is asked first, and hides what lies above its base.
    by_cases hout : map.charOutBase ≤ address
    · simp [wired, Reaches, hbase, hout, Bus.route?, Device.base, ← UInt16.not_le]
    · by_cases hram : map.ramBase ≤ address
      · simp [wired, Reaches, hbase, hout, hram, Bus.route?, Device.base, ← UInt16.not_le]
      · simp [wired, Reaches, hbase, hout, hram, Bus.route?, Device.base]
  · by_cases hram : map.ramBase ≤ address
    · simp [wired, Reaches, hbase, hram, Bus.route?, Device.base]
    · by_cases hout : map.charOutBase ≤ address
      · simp [wired, Reaches, hbase, hram, hout, Bus.route?, Device.base]
      · simp [wired, Reaches, hbase, hram, hout, Bus.route?, Device.base]

theorem read_wired :
    (map.wired memory output).read address =
      if map.Reaches address then
        match memory[address.toNat - map.ramBase.toNat]? with
        | some value => .ok value
        | none => .error (.outOfBounds address)
      else if map.charOutBase ≤ address then .error (.writeOnly address)
      else .error (.unmapped address) := by
  rw [Bus.read, route?_wired]
  by_cases hreaches : map.Reaches address
  · cases hbyte : memory[address.toNat - map.ramBase.toNat]? with
    | some value => simp [hreaches, hreaches.1, Device.read, Ram.read_eq, Ram.byteAt?, hbyte]
    | none => simp [hreaches, hreaches.1, Device.read, Ram.read_eq, Ram.byteAt?, hbyte]
  · by_cases hout : map.charOutBase ≤ address
    · simp [hreaches, hout, Device.read]
    · simp [hreaches, hout]

theorem write_wired (value : UInt8) :
    (map.wired memory output).write address value =
      if map.Reaches address then
        match memory[address.toNat - map.ramBase.toNat]? with
        | some _ =>
            .ok (map.wired (memory.setIfInBounds (address.toNat - map.ramBase.toNat) value) output)
        | none => .error (.outOfBounds address)
      else if map.charOutBase ≤ address then .ok (map.wired memory (output.push value))
      else .error (.unmapped address) := by
  by_cases hbase : map.ramBase < map.charOutBase
  · by_cases hout : map.charOutBase ≤ address
    · simp [wired, Reaches, hbase, hout, Bus.write, Bus.writeFirst, Device.write, Device.base,
        CharOut.push, Except.map, ← UInt16.not_le]
    · by_cases hram : map.ramBase ≤ address
      · cases hbyte : memory[address.toNat - map.ramBase.toNat]? <;>
          simp [wired, Reaches, hbase, hout, hram, Bus.write, Bus.writeFirst, Device.write,
            Device.base, Ram.write_eq, Ram.byteAt?, hbyte, Except.map, ← UInt16.not_le]
      · simp [wired, Reaches, hbase, hout, hram, Bus.write, Bus.writeFirst, Device.base, Except.map]
  · by_cases hram : map.ramBase ≤ address
    · cases hbyte : memory[address.toNat - map.ramBase.toNat]? <;>
        simp [wired, Reaches, hbase, hram, Bus.write, Bus.writeFirst, Device.write, Device.base,
          Ram.write_eq, Ram.byteAt?, hbyte, Except.map]
    · by_cases hout : map.charOutBase ≤ address
      · simp [wired, Reaches, hbase, hram, hout, Bus.write, Bus.writeFirst, Device.write,
          Device.base, CharOut.push, Except.map]
      · simp [wired, Reaches, hbase, hram, hout, Bus.write, Bus.writeFirst, Device.base, Except.map]

end Access

end Wired

end MemoryMap

/-- Two buses with one map whose RAMs are the same within the reach, and as loaded beyond it. -/
inductive Veiled
    (map : MemoryMap)
    (loaded loaded' : Image) :
    Bus → Bus → Prop
  | intro
      (memory memory' : Image)
      (output : Array UInt8)
      (hsame : ∀ k, k < map.reach → memory[k]? = memory'[k]?)
      (hkept : ∀ k, map.reach ≤ k → memory[k]? = loaded[k]?)
      (hkept' : ∀ k, map.reach ≤ k → memory'[k]? = loaded'[k]?) :
      Veiled map loaded loaded' (map.wired memory output) (map.wired memory' output)

section Veil

variable {map : MemoryMap} {loaded loaded' : Image}

/-- **Nothing seen, nothing changed.**  No access tells what lies beyond the reach, nor changes
it. -/
theorem indistinct_veiled : Bus.Indistinct (Veiled map loaded loaded') where
  read := by
    rintro - - ⟨memory, memory', output, hsame, -, -⟩ address
    rw [MemoryMap.read_wired, MemoryMap.read_wired]
    split
    · next hreaches => rw [hsame _ (MemoryMap.offset_lt_reach hreaches)]
    · rfl
  write := by
    rintro - - ⟨memory, memory', output, hsame, hkept, hkept'⟩ address value
    rw [MemoryMap.write_wired, MemoryMap.write_wired]
    split
    · next hreaches =>
        have hoffset := MemoryMap.offset_lt_reach hreaches
        have hbyte' := hsame _ hoffset
        cases hbyte : memory[address.toNat - map.ramBase.toNat]? with
        | none =>
            rw [← hbyte', hbyte]
            exact .error _
        | some old =>
            rw [← hbyte', hbyte]
            rw [hbyte] at hbyte'
            refine .ok (.intro _ _ output ?_ ?_ ?_)
            · intro k hk
              have hin := (Array.getElem?_eq_some_iff.1 hbyte).1
              have hin' := (Array.getElem?_eq_some_iff.1 hbyte'.symm).1
              simp [Array.getElem?_setIfInBounds, hin, hin', hsame k hk]
            · intro k hk
              rw [Array.getElem?_setIfInBounds_ne (by omega), hkept k hk]
            · intro k hk
              rw [Array.getElem?_setIfInBounds_ne (by omega), hkept' k hk]
    split
    · exact .ok (.intro memory memory' _ hsame hkept hkept')
    · exact .error _
  clear := by
    rintro - - ⟨memory, memory', output, hsame, hkept, hkept'⟩
    rw [MemoryMap.clear_wired, MemoryMap.clear_wired]
    exact .intro memory memory' #[] hsame hkept hkept'

theorem Veiled.views
    {bus bus' : Bus}
    (h : Veiled map loaded loaded' bus bus') :
    bus.output = bus'.output ∧
    (∀ k, k < map.reach → bus.memory[k]? = bus'.memory[k]?) ∧
    (∀ k, map.reach ≤ k → bus.memory[k]? = loaded[k]? ∧ bus'.memory[k]? = loaded'[k]?) := by
  obtain ⟨memory, memory', output, hsame, hkept, hkept'⟩ := h
  simp only [MemoryMap.output_wired, MemoryMap.memory_wired]
  exact ⟨trivial, hsame, fun k hk => ⟨hkept k hk, hkept' k hk⟩⟩

end Veil

namespace Machine

/-- **Isolation.** Machines whose images agree within the reach of the RAM do the same, whatever is
done to both, and the bytes beyond stay as loaded. -/
theorem unreachable_bytes_isolated
    {map : MemoryMap}
    (hvalid : map.overlap? = none)
    {loaded loaded' : Image}
    (hsame : ∀ k, k < map.reach → loaded[k]? = loaded'[k]?) :
    ∃ fresh : Machine,
      ofMap map = .ok fresh ∧
      ∀ operations : List Operation, (∀ o, o ∈ operations → o.LeavesMemory) →
        let reached := (fresh.load loaded).performAll operations
        let reached' := (fresh.load loaded').performAll operations
        reached.cpu = reached'.cpu ∧
        reached.output = reached'.output ∧
        (∀ k, k < map.reach → reached.memory[k]? = reached'.memory[k]?) ∧
        (∀ o : Operation, o.LeavesMemory → (reached.perform o).1 = (reached'.perform o).1) ∧
        reached.step.1 = reached'.step.1 ∧
        ∀ k, map.reach ≤ k →
          reached.memory[k]? = loaded[k]? ∧ reached'.memory[k]? = loaded'[k]? := by
  let fresh : Machine := { board := { bus := map.wired #[] #[] }, map }
  have hnew : Board.Paired (Veiled map loaded loaded')
      (fresh.load loaded).board (fresh.load loaded').board := by
    refine ⟨rfl, ?_⟩
    simp only [fresh, load, MemoryMap.load_wired]
    exact .intro loaded loaded' #[] hsame (fun _ _ => rfl) (fun _ _ => rfl)
  refine ⟨fresh, MemoryMap.ofMap_of_valid hvalid, ?_⟩
  intro operations hoperations reached reached'
  have hpaired : Board.Paired (Veiled map loaded loaded') reached.board reached'.board :=
    lockstep_performAll indistinct_veiled hnew operations hoperations
  obtain ⟨houtput, hmemory, hkept⟩ := hpaired.bus.views
  refine ⟨hpaired.cpu, houtput, hmemory, ?_, ?_, hkept⟩
  · intro o ho
    exact (lockstep_perform indistinct_veiled hpaired ho).1
  · have hstep := Board.lockstep_finish indistinct_veiled 0 hpaired
    exact congrArg (Except.mapError MachineError.cpu) hstep.result

/-- A program that prints and runs into the output, in front of two bytes under it, or of three. -/
theorem bytes_under_output_isolated :
    let map : MemoryMap := { charOutBase := 8 }
    let loaded : Image := #[1, 6, 0, 2, 9, 0, 65, 0, 7, 7]
    let loaded' : Image := #[1, 6, 0, 2, 9, 0, 65, 0, 1, 2, 3]
    let operations : List Operation := [.setRegisters { acc := 5 }, .run 10, .step]
    map.overlap? = none ∧
    (∀ k, k < map.reach → loaded[k]? = loaded'[k]?) ∧
    (∀ o, o ∈ operations → o.LeavesMemory) ∧
    ∃ fresh : Machine,
      ofMap map = .ok fresh ∧
      let reached := (fresh.load loaded).performAll operations
      let reached' := (fresh.load loaded').performAll operations
      reached.cpu = reached'.cpu ∧
      reached.output = reached'.output ∧
      (∀ k, k < map.reach → reached.memory[k]? = reached'.memory[k]?) ∧
      (∀ o : Operation, o.LeavesMemory → (reached.perform o).1 = (reached'.perform o).1) ∧
      reached.step.1 = reached'.step.1 ∧
      ∀ k, map.reach ≤ k →
        reached.memory[k]? = loaded[k]? ∧ reached'.memory[k]? = loaded'[k]? := by
  intro map loaded loaded' operations
  have hvalid : map.overlap? = none := by decide
  have hsame : ∀ k, k < map.reach → loaded[k]? = loaded'[k]? := by decide
  have hleaves : ∀ o, o ∈ operations → o.LeavesMemory := by
    simp [operations, Operation.LeavesMemory]
  obtain ⟨fresh, hfresh, hall⟩ := unreachable_bytes_isolated hvalid hsame
  exact ⟨hvalid, hsame, hleaves, fresh, hfresh, hall operations hleaves⟩

end Machine
end Microcomputer
