import Microcomputer.Proofs.Json.Records
import Microcomputer.Proofs.Processor.Sequencer
import Microcomputer.Snapshot

/-!
# Snapshots are faithful

**Forms.**  `Faithful write read?`: every value is written as a well-formed JSON value, which stands
for that value.  There is one such lemma for each type that has a JSON form, put together from those
of its fields.

**Texts.**  A faithful form is read back from its compact text (`Faithful.readsBack`) and from its
pretty one (`Faithful.parse?_pretty`).

**Restoring.**  `restored? m text`: the machine with its processor read from a text.  With its own
snapshot it is the same machine (`restored?_eq`), so it goes on as before.

**Result.**  `snapshots_readBack`.
-/

namespace Microcomputer

theorem Machine.performAll_append
    (m : Machine)
    (before after : List Operation) :
    m.performAll (before ++ after) = (m.performAll before).performAll after := by
  induction before generalizing m with
  | nil => rfl
  | cons operation others ih => exact ih (m.perform operation).2

namespace Snapshot

open Json

section Forms

variable {α : Type}

/-- What a text stands for. -/
def parse?
    (read? : Json → Option α)
    (text : String) :
    Option α :=
  (ofText? text).bind read?

/-- What is written as a JSON value is that value read. -/
structure Faithful
    (write : α → Json)
    (read? : Json → Option α) :
    Prop where
  wellFormed : ∀ a, (write a).WellFormed
  read_write : ∀ a, read? (write a) = some a

/-- The compact text of every value is read back, and written again it is the same text. -/
def ReadsBack
    (write : α → Json)
    (read? : Json → Option α) :
    Prop :=
  ∀ a,
    parse? read? (write a).compact = some a ∧
    (parse? read? (write a).compact).map (fun b => (write b).compact) = some (write a).compact

variable {write : α → Json} {read? : Json → Option α}

theorem Faithful.readsBack (h : Faithful write read?) : ReadsBack write read? := by
  intro a
  have hparse : parse? read? (write a).compact = some a := by
    rw [parse?, ofText?_compact (h.wellFormed a), Option.bind_some, h.read_write]
  exact ⟨hparse, by rw [hparse, Option.map_some]⟩

theorem Faithful.parse?_pretty
    (h : Faithful write read?)
    (a : α) :
    parse? read? (write a).pretty = some a := by
  rw [parse?, ofText?_pretty (h.wellFormed a), Option.bind_some, h.read_write]

end Forms

section Numbers

theorem byte?_ofNat (b : UInt8) : byte? (ofNat b.toNat) = some b := by
  rw [byte?, naturalBelow?_ofNat b.toNat_lt, Option.map_some, UInt8.ofNat_toNat]

theorem word?_ofNat (w : UInt16) : word? (ofNat w.toNat) = some w := by
  rw [word?, naturalBelow?_ofNat w.toNat_lt, Option.map_some, UInt16.ofNat_toNat]

theorem count?_ofNat (n : UInt64) : count? (ofNat n.toNat) = some n := by
  rw [count?, naturalBelow?_ofNat n.toNat_lt, Option.map_some, UInt64.ofNat_toNat]

theorem faithful_bytes : Faithful ofBytes bytes? where
  wellFormed bytes := by
    refine wellFormed_array fun v hv => ?_
    obtain ⟨b, -, rfl⟩ := List.mem_map.1 hv
    exact wellFormed_ofNat b.toNat
  read_write bytes := by
    have hbytes : bytes.toList.mapM (byte? ∘ fun b => ofNat b.toNat) =
        some (bytes.toList.map id) :=
      Text.mapM_eq_some_map fun b _ => byte?_ofNat b
    rw [List.map_id] at hbytes
    rw [bytes?, ofBytes, elements?, Option.bind_some, List.mapM_map, hbytes]
    rfl

end Numbers

section Cases

theorem isPlain_instructionName (i : Instruction) : IsPlain (instructionName i) := by
  cases i <;> decide

theorem instructionNamed?_instructionName (i : Instruction) :
    instructionNamed? (instructionName i) = some i := by
  cases i <;> rfl

theorem faithful_instruction : Faithful ofInstruction instruction? where
  wellFormed i := wellFormed_string (isPlain_instructionName i)
  read_write i := by
    rw [instruction?, ofInstruction, case?, unescape?_of_isPlain (isPlain_instructionName i),
      Option.bind_some, instructionNamed?_instructionName]

theorem isPlain_name (state : RunState) : IsPlain state.name := by
  cases state <;> decide

theorem runStateNamed?_name (state : RunState) : runStateNamed? state.name = some state := by
  cases state <;> rfl

theorem faithful_runState : Faithful ofRunState runState? where
  wellFormed state := wellFormed_string (isPlain_name state)
  read_write state := by
    rw [runState?, ofRunState, case?, unescape?_of_isPlain (isPlain_name state),
      Option.bind_some, runStateNamed?_name]

theorem faithful_current : Faithful ofCurrent fun value => current? (some value) where
  wellFormed
    | none => wellFormed_null
    | some i => faithful_instruction.wellFormed i
  read_write
    | none => rfl
    | some i => by
        change (instruction? (ofInstruction i)).map some = some (some i)
        rw [faithful_instruction.read_write, Option.map_some]

end Cases

section Records

theorem isRecord_registers (regs : Registers) :
    IsRecord ["pc", "acc", "index", "buffer"]
      [ofNat regs.pc.toNat, ofNat regs.acc.toNat, ofNat regs.index.toNat,
        ofNat regs.buffer.toNat]
      (ofRegisters regs) where
  areFieldNames := by decide
  length_eq := rfl
  wellFormed_values := by simp [wellFormed_ofNat]
  eq_object := rfl

theorem faithful_registers : Faithful ofRegisters registers? where
  wellFormed regs := (isRecord_registers regs).wellFormed
  read_write regs := by
    simp only [registers?, (isRecord_registers regs).fields?_eq, List.map_cons, List.map_nil,
      word?_ofNat, byte?_ofNat]

theorem isRecord_cpu (cpu : Cpu) :
    IsRecord cpuFields
      [ofRegisters cpu.regs, ofRunState cpu.state, ofNat cpu.cycles.toNat,
        ofNat cpu.counter.toNat, ofCurrent cpu.current, ofNat cpu.retired.toNat]
      (ofCpu cpu) where
  areFieldNames := by decide
  length_eq := rfl
  wellFormed_values := by
    simp [wellFormed_ofNat, faithful_registers.wellFormed, faithful_runState.wellFormed,
      faithful_current.wellFormed]
  eq_object := rfl

theorem faithful_cpu : Faithful ofCpu cpu? where
  wellFormed cpu := (isRecord_cpu cpu).wellFormed
  read_write cpu := by
    simp only [cpu?, (isRecord_cpu cpu).fields?_eq, List.map_cons, List.map_nil,
      faithful_registers.read_write, faithful_runState.read_write, faithful_current.read_write,
      byte?_ofNat, count?_ofNat]

-- A processor that has fetched an addition.
example :
    (ofCpu { cycles := 2, counter := 2, current := some .add }).compact =
      "\x7b\"regs\":\x7b\"pc\":0,\"acc\":0,\"index\":0,\"buffer\":0\x7d,\"state\":\"Running\","
        ++ "\"cycles\":2,\"tick_counter\":2,\"current\":\"AddDirect\",\"retired\":0\x7d" := by
  decide +kernel

theorem isRecord_ram (ram : Ram) :
    IsRecord ["base", "contents"] [ofNat ram.base.toNat, ofBytes ram.contents] (ofRam ram) where
  areFieldNames := by decide
  length_eq := rfl
  wellFormed_values := by simp [wellFormed_ofNat, faithful_bytes.wellFormed]
  eq_object := rfl

theorem faithful_ram : Faithful ofRam ram? where
  wellFormed ram := (isRecord_ram ram).wellFormed
  read_write ram := by
    simp only [ram?, (isRecord_ram ram).fields?_eq, List.map_cons, List.map_nil, word?_ofNat,
      faithful_bytes.read_write]

theorem isRecord_charOut (out : CharOut) :
    IsRecord ["base", "buffer"] [ofNat out.base.toNat, ofBytes out.buffer] (ofCharOut out) where
  areFieldNames := by decide
  length_eq := rfl
  wellFormed_values := by simp [wellFormed_ofNat, faithful_bytes.wellFormed]
  eq_object := rfl

theorem faithful_charOut : Faithful ofCharOut charOut? where
  wellFormed out := (isRecord_charOut out).wellFormed
  read_write out := by
    simp only [charOut?, (isRecord_charOut out).fields?_eq, List.map_cons, List.map_nil,
      word?_ofNat, faithful_bytes.read_write]

theorem isRecord_map (map : MemoryMap) :
    IsRecord MemoryMap.fieldNames [ofNat map.ramBase.toNat, ofNat map.charOutBase.toNat]
      map.toJson where
  areFieldNames := by decide
  length_eq := rfl
  wellFormed_values := by simp [wellFormed_ofNat]
  eq_object := rfl

theorem baseOr_ofNat
    (standard base : UInt16) :
    MemoryMap.baseOr standard (some (ofNat base.toNat)) = some base :=
  word?_ofNat base

theorem faithful_map : Faithful MemoryMap.toJson MemoryMap.ofJson? where
  wellFormed map := (isRecord_map map).wellFormed
  read_write map := by
    simp only [MemoryMap.ofJson?, (isRecord_map map).fields?_eq, List.map_cons, List.map_nil,
      baseOr_ofNat]

end Records

section Restoring

/-- A machine whose processor is read from a snapshot, if it can be read. -/
def restored?
    (m : Machine)
    (text : String) :
    Option Machine :=
  (parse? cpu? text).map fun cpu => { m with board := { m.board with cpu } }

/-- A machine is the same with its processor read from its own snapshot. -/
theorem restored?_eq (m : Machine) : restored? m (ofCpu m.cpu).compact = some m := by
  rw [restored?, (faithful_cpu.readsBack m.cpu).1]
  rfl

/-- A map that is written is read again, and refused if its bases are the same. -/
theorem ofText_text (map : MemoryMap) :
    MemoryMap.ofText map.text =
      if map.ramBase = map.charOutBase then .error (.overlap map.ramBase) else .ok map := by
  have hread : (ofText? map.text).bind MemoryMap.ofJson? = some map :=
    faithful_map.parse?_pretty map
  rw [MemoryMap.ofText, hread]
  by_cases hbases : map.ramBase = map.charOutBase
  · simp only [MemoryMap.overlap?, if_pos hbases]
  · simp only [MemoryMap.overlap?, if_neg hbases]

end Restoring

/-- **Snapshots.** Every value with a JSON form is read back from its text, and a processor goes on
as if nothing had happened. -/
theorem snapshots_readBack :
    ReadsBack ofRegisters registers? ∧
    ReadsBack ofInstruction instruction? ∧
    ReadsBack ofRunState runState? ∧
    ReadsBack ofCpu cpu? ∧
    ReadsBack ofRam ram? ∧
    ReadsBack ofCharOut charOut? ∧
    ReadsBack MemoryMap.toJson MemoryMap.ofJson? ∧
    (∀ (cpu : Cpu) (bus : Bus),
      ∃ again, parse? cpu? (ofCpu cpu).compact = some again ∧
        (∀ count, Board.run count { cpu := again, bus } = Board.run count { cpu, bus }) ∧
        Board.step { cpu := again, bus } = Board.step { cpu, bus }) ∧
    (∀ (m : Machine) (before after : List Machine.Operation),
      (restored? (m.performAll before) (ofCpu (m.performAll before).cpu).compact).map
          (fun again => again.performAll after) =
        some (m.performAll (before ++ after))) ∧
    ∀ map : MemoryMap,
      MemoryMap.ofText map.text =
        if map.ramBase = map.charOutBase then .error (.overlap map.ramBase) else .ok map := by
  refine ⟨faithful_registers.readsBack, faithful_instruction.readsBack,
    faithful_runState.readsBack, faithful_cpu.readsBack, faithful_ram.readsBack,
    faithful_charOut.readsBack, faithful_map.readsBack, ?_, ?_, ofText_text⟩
  · intro cpu bus
    exact ⟨cpu, (faithful_cpu.readsBack cpu).1, fun _ => rfl, rfl⟩
  · intro m before after
    rw [restored?_eq, Option.map_some, Machine.performAll_append]

end Snapshot
end Microcomputer
