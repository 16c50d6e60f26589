import Microcomputer.Proofs.Processor.Isolation
import Microcomputer.Proofs.Processor.StoreLog

/-!
# Wired machines

What a machine that was built from a memory map keeps for good, and what a reset and a load make of
it.

**Invariant.**  `Machine.Wired map m`: the machine has the map, and the two devices that the map
puts on its bus, whatever they hold.  It holds of a new machine (`wired_of_ofMap`), and nothing that
drives, resets, loads or sets the registers of a machine ends it.

**Restart.**  `Wired.restarted`: a reset and a load leave nothing of what a wired machine was.
-/

namespace Microcomputer

/-- A machine that has just been loaded with a program. -/
def MemoryMap.loaded
    (map : MemoryMap)
    (program : Image) :
    Machine :=
  { board := { bus := map.wired program #[] }, map }

theorem MemoryMap.replay_wired
    (map : MemoryMap)
    (memory : Image)
    (output : Array UInt8)
    (log : List Store) :
    ∃ (memory' : Image) (output' : Array UInt8),
      (map.wired memory output).replay log = map.wired memory' output' := by
  by_cases hbase : map.ramBase < map.charOutBase
  · simp only [wired, hbase, if_true, Bus.replay, List.mapIdx_cons, List.mapIdx_nil, Device.replay]
    exact ⟨_, _, rfl⟩
  · simp only [wired, hbase, if_false, Bus.replay, List.mapIdx_cons, List.mapIdx_nil, Device.replay]
    exact ⟨_, _, rfl⟩

namespace Machine

/-- The machine has a map and the devices that it places. -/
structure Wired
    (map : MemoryMap)
    (m : Machine) :
    Prop where
  map_eq : m.map = map
  bus_eq : ∃ (memory : Image) (output : Array UInt8), m.bus = map.wired memory output

variable {map : MemoryMap} {m fresh : Machine}

theorem ofMap_eq_ok
    (h : ofMap map = .ok fresh) :
    fresh = { board := { bus := map.wired #[] #[] }, map } := by
  cases hvalid : map.overlap? with
  | some base => simp [ofMap, hvalid] at h
  | none =>
      rw [MemoryMap.ofMap_of_valid hvalid] at h
      cases h
      rfl

theorem wired_of_ofMap (h : ofMap map = .ok fresh) : Wired map fresh := by
  rw [ofMap_eq_ok h]
  exact ⟨rfl, #[], #[], rfl⟩

theorem load_of_ofMap
    (h : ofMap map = .ok fresh)
    (program : Image) :
    fresh.load program = map.loaded program := by
  rw [ofMap_eq_ok h, load, MemoryMap.load_wired]
  rfl

namespace Wired

variable (h : Wired map m)
include h

theorem load (image : Image) : Wired map (m.load image) := by
  obtain ⟨memory, output, hbus⟩ := h.bus_eq
  refine ⟨h.map_eq, image, output, ?_⟩
  change m.bus.load image = _
  rw [hbus, MemoryMap.load_wired]

theorem reset : Wired map m.reset := by
  obtain ⟨memory, output, hbus⟩ := h.bus_eq
  refine ⟨h.map_eq, memory, #[], ?_⟩
  change m.bus.clear = _
  rw [hbus, MemoryMap.clear_wired]

theorem setRegisters (regs : Registers) : Wired map (m.setRegisters regs) :=
  ⟨h.map_eq, h.bus_eq⟩

/-- Driving a machine makes stores on its bus and nothing else. -/
theorem drive (d : Drive) : Wired map (m.perform d.operation).2 := by
  obtain ⟨memory, output, hbus⟩ := h.bus_eq
  obtain ⟨memory', output', hreplay⟩ :=
    map.replay_wired memory output (m.board.stores (m.ticksOf d))
  rw [perform_drive]
  refine ⟨h.map_eq, memory', output', ?_⟩
  change (m.board.run (m.ticksOf d)).2.bus = _
  rw [Board.bus_run, ← hreplay, ← hbus]
  rfl

theorem tick : Wired map m.tick.2 := by
  simpa [Drive.operation, perform, reported_snd] using h.drive .tick

theorem run (count : Nat) : Wired map (m.run count).2 := by
  simpa [Drive.operation, perform, reported_snd] using h.drive (.run count)

theorem step : Wired map m.step.2 := by
  simpa [Drive.operation, perform, reported_snd] using h.drive .step

/-- **Restart.**  After a reset and a load, a machine is as if it had only been loaded. -/
theorem restarted (program : Image) : m.reset.load program = map.loaded program := by
  obtain ⟨memory, output, hbus⟩ := h.bus_eq
  have hcleared : (m.board.bus.clear).load program = map.wired program #[] := by
    change (m.bus.clear).load program = _
    rw [hbus, MemoryMap.clear_wired, MemoryMap.load_wired]
  rw [Machine.load, Machine.reset, MemoryMap.loaded, hcleared, h.map_eq]

end Wired

end Machine
end Microcomputer
