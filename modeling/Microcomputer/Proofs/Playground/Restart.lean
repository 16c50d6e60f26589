import Microcomputer.Playground
import Microcomputer.Proofs.Debugger.Operations

/-!
# Restarts

What a debugger and a playground keep of their past over a restart: the program, and nothing else
of the machine.

**Loading a source.**  `Playground.loadingSource` makes its changes one by one in place, after the
source has been assembled.  `loadInPlace_eq`: a source that does not assemble changes nothing.

**Operations.**  `Playground.Operation` lists what can be done to a playground, and
`Playground.lastImage` tells which image was loaded last in the course of several operations.

**Invariant.**  `Holding.perform`: the playground keeps a machine wired by the standard map, and the
image that was loaded last.

**Result.**  `restart_erases_history`.
-/

namespace Microcomputer
namespace Playground

section Loading

/-- Load a source in place.  What is done before an error stays done. -/
def loadingSource (source : String) : ExceptT AssemblyError (StateM Playground) Nat := do
  match assemble source with
  | .error e => throw e
  | .ok image =>
      modify fun p => { p with program := image }
      modify fun p => { p with machine := p.machine.reset }
      modify fun p => { p with machine := p.machine.load p.program }
      return image.size

/-- What loading a source gives, and the playground that it leaves behind. -/
def loadInPlace
    (p : Playground)
    (source : String) :
    Except AssemblyError Nat × Playground :=
  (loadingSource source).run.run p

/-- A source that does not assemble leaves the playground as it is. -/
theorem loadInPlace_eq
    (p : Playground)
    (source : String) :
    p.loadInPlace source =
      match p.loadSource source with
      | .ok next => (.ok next.program.size, next)
      | .error e => (.error e, p) := by
  unfold loadInPlace loadingSource loadSource
  cases assemble source with
  | error e => rfl
  | ok image => rfl

end Loading

/-- What can be done to a playground. -/
inductive Operation
  | loadSource (source : String)
  | loadImage (image : Image)
  | tick
  | step
  | run (count : Nat)
  | reset
  deriving DecidableEq

/-- Do one thing to a playground. -/
def perform (p : Playground) : Operation → Playground
  | .loadSource source => (p.loadInPlace source).2
  | .loadImage image => p.loadImage image
  | .tick => p.tick.2
  | .step => p.step.2
  | .run count => (p.run count).2
  | .reset => p.reset

/-- Do several things to a playground, one after the other. -/
def performAll
    (p : Playground)
    (operations : List Operation) :
    Playground :=
  operations.foldl perform p

/-- The image that an operation loads; a source that does not assemble loads none. -/
def Operation.image? : Operation → Option Image
  | .loadSource source => (assemble source).toOption
  | .loadImage image => some image
  | _ => none

/-- The image that was loaded last; no bytes before the first one. -/
def lastImage (operations : List Operation) : Image :=
  ((operations.filterMap Operation.image?).getLast?).getD #[]

/-- The playground has the image to load again, and a machine that is wired by its map. -/
structure Holding
    (program : Image)
    (map : MemoryMap)
    (p : Playground) :
    Prop where
  program_eq : p.program = program
  wired : p.machine.Wired map

section History

variable {program : Image} {map : MemoryMap} {p : Playground}

theorem Holding.loadImage
    (h : p.Holding program map)
    (image : Image) :
    p.loadImage image = { machine := map.loaded image, program := image } := by
  rw [Playground.loadImage, h.wired.restarted]

theorem Holding.perform
    (h : p.Holding program map)
    (operation : Operation) :
    (p.perform operation).Holding (operation.image?.getD program) map := by
  have hloaded : ∀ image, (p.loadImage image).Holding image map := fun image =>
    ⟨rfl, h.wired.reset.load image⟩
  cases operation with
  | loadImage image => exact hloaded image
  | reset => exact ⟨h.program_eq, h.wired.reset.load p.program⟩
  | tick => exact ⟨h.program_eq, h.wired.tick⟩
  | step => exact ⟨h.program_eq, h.wired.step⟩
  | run count => exact ⟨h.program_eq, h.wired.run count⟩
  | loadSource source =>
      rw [Playground.perform, loadInPlace_eq, loadSource, Operation.image?]
      cases assemble source with
      | error e => exact h
      | ok image => exact hloaded image

theorem Holding.performAll
    (h : p.Holding program map)
    (operations : List Operation) :
    (p.performAll operations).Holding
      (((operations.filterMap Operation.image?).getLast?).getD program) map := by
  induction operations generalizing p program with
  | nil => exact h
  | cons operation others ih =>
      have hothers := ih (h.perform operation)
      change ((p.perform operation).performAll others).Holding _ map
      cases himage : operation.image? with
      | none =>
          rw [List.filterMap_cons_none himage]
          simpa [himage] using hothers
      | some image =>
          rw [List.filterMap_cons_some himage, List.getLast?_cons, Option.getD_some]
          simpa [himage] using hothers

end History

end Playground

/-- **Restarts.** After a reset a debugger goes on like a new one, but for its breakpoints, and so
does a playground with an image. -/
theorem restart_erases_history :
    (∀ (program : Image) (map : MemoryMap) (fresh : Debugger),
      Debugger.start program map = .ok fresh →
      ∀ history later : List Debugger.Operation, (∀ o ∈ later, o ≠ .update) →
        let restarted := (fresh.performAll history).reset
        restarted.machine = fresh.machine ∧
        (restarted.performAll later).machine = (fresh.performAll later).machine) ∧
    (∃ fresh : Playground, Playground.start = .ok fresh ∧
      ∀ history : List Playground.Operation,
        let reached := fresh.performAll history
        (∀ image : Image, reached.loadImage image = fresh.loadImage image) ∧
        reached.reset = fresh.loadImage (Playground.lastImage history) ∧
        ∀ (source : String) (e : AssemblyError),
          assemble source = .error e → reached.loadInPlace source = (.error e, reached)) := by
  refine ⟨?_, ?_⟩
  · intro program map fresh hfresh history later hlater restarted
    obtain ⟨hmachine, hholding⟩ := Debugger.machine_of_start hfresh
    have hhistory := hholding.performAll history
    have hrestarted : restarted.machine = fresh.machine := hhistory.reset.trans hmachine.symm
    have hprogram : restarted.program = fresh.program :=
      hhistory.program_eq.trans hholding.program_eq.symm
    exact ⟨hrestarted, Debugger.performAll_machine hrestarted hprogram hlater⟩
  · have hvalid : ({} : MemoryMap).overlap? = none := by decide
    have hbuilt := MemoryMap.ofMap_of_valid hvalid
    refine ⟨_, by rw [Playground.start, hbuilt]; rfl, ?_⟩
    intro history reached
    have hnew : Playground.Holding #[] {}
        { machine := { board := { bus := MemoryMap.wired {} #[] #[] }, map := {} } } :=
      ⟨rfl, Machine.wired_of_ofMap hbuilt⟩
    have hhistory : reached.Holding (Playground.lastImage history) {} := hnew.performAll history
    refine ⟨?_, ?_, ?_⟩
    · intro image
      rw [hhistory.loadImage, hnew.loadImage]
    · rw [Playground.reset, hhistory.loadImage, hnew.loadImage, hhistory.program_eq]
    · intro source e herror
      rw [Playground.loadInPlace_eq, Playground.loadSource, herror]
      rfl

/-- A debugger with a program that overwrites its first byte. -/
def overwriting : Debugger where
  machine := MemoryMap.loaded {} #[2, 0, 0]
  program := #[2, 0, 0]

/-- The program has changed and the processor has stopped behind it, but a restart brings both
back. -/
theorem restart_erases_overwriting :
    let history : List Debugger.Operation := [.setRegisters { acc := 7 }, .run, .update, .step]
    let later : List Debugger.Operation := [.tick, .step]
    let reached := overwriting.performAll history
    Debugger.start #[2, 0, 0] {} = .ok overwriting ∧
    (∀ o ∈ later, o ≠ .update) ∧
    reached.machine.memory = #[7, 0, 0] ∧
    reached.machine.cpu.state = .faulted ∧
    reached.reset.machine = overwriting.machine ∧
    (reached.reset.performAll later).machine = (overwriting.performAll later).machine := by
  intro history later reached
  have hstart : Debugger.start #[2, 0, 0] {} = .ok overwriting := by decide +kernel
  have hlater : ∀ o ∈ later, o ≠ .update := by decide
  have hmemory : reached.machine.memory = #[7, 0, 0] := by decide +kernel
  have hstate : reached.machine.cpu.state = .faulted := by decide +kernel
  exact ⟨hstart, hlater, hmemory, hstate,
    restart_erases_history.1 #[2, 0, 0] {} overwriting hstart history later hlater⟩

end Microcomputer
