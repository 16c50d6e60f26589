import Microcomputer.Journal.Filter
import Microcomputer.Proofs.Processor.Reports
import Microcomputer.Proofs.Text.Pieces

/-!
# Entries of the journal

The entries that events have in the journal, one each.

**Kinds.**  `starting words entries` counts the entries that start with some words.  For the words
of a kind these are the events of that kind (`starting_map_line`).

**Lines.**  An entry is a line of its own.  Only a path can hold a line feed (`isLine_line`).

**Filter.**  `Filter.everything_wants`: an event that is traced is never left out.
-/

namespace Microcomputer

section Kinds

/-- How many entries start with some words. -/
def starting
    (words : String)
    (entries : List String) :
    Nat :=
  entries.countP fun entry => words.toList.isPrefixOf entry.toList

/-- The kinds of event that a tick can have. -/
inductive EventKind
  | tick
  | fetch
  | completion
  | fault

namespace EventKind

/-- What happened. -/
def title : EventKind → String
  | tick => "tick"
  | fetch => "fetch"
  | completion => "complete"
  | fault => "CPU faulted"

/-- How the entries of a kind start. -/
def words : EventKind → String
  | tick => "TRACE tick "
  | fetch => "DEBUG fetch "
  | completion => "DEBUG complete "
  | fault => "WARN CPU faulted "

end EventKind

theorem isPrefixOf_line
    (kind : EventKind)
    (event : Event) :
    kind.words.toList.isPrefixOf event.line.toList = (event.title == kind.title) := by
  cases kind
  all_goals
    cases event <;>
      simp [EventKind.words, EventKind.title, Event.line, Event.level, Level.name, Event.text,
        Event.title, Event.fields, List.isPrefixOf]

theorem starting_map_line
    (kind : EventKind)
    (events : List Event) :
    starting kind.words (events.map Event.line) = titled kind.title events := by
  rw [starting, titled, List.countP_map]
  exact List.countP_congr fun event _ => by simp [isPrefixOf_line]

theorem starting_append
    (words : String)
    (first second : List String) :
    starting words (first ++ second) = starting words first + starting words second :=
  List.countP_append

end Kinds

section Lines

open Text (InLine IsLine)

theorem inLine_busMessage (e : BusError) : InLine e.message.toList := by
  unfold BusError.message
  cases e <;> simp [Device.charOutName, Device.ramName]

theorem inLine_mnemonic (i : Instruction) : InLine i.mnemonic.toList := by
  cases i <;> simp [Instruction.mnemonic]

theorem inLine_cpuMessage (e : CpuError) : InLine e.message.toList := by
  unfold CpuError.message
  cases e <;> simp [inLine_busMessage, inLine_mnemonic]

theorem inLine_machineMessage (e : MachineError) : InLine e.message.toList := by
  unfold MachineError.message MemoryMap.Error.message
  cases e <;> simp [inLine_busMessage, inLine_cpuMessage]

theorem inLine_busSummary (bus : Bus) : InLine bus.summary.toList := by
  have hentries : InLine (", ".intercalate (bus.devices.map fun d =>
      "\"" ++ d.name ++ "@" ++ Text.hexLiteral 4 d.base.toNat ++ "\"")).toList := by
    rw [String.toList_intercalate]
    refine Text.inLine_intercalate (by simp) fun entry hentry => ?_
    simp only [List.mem_map] at hentry
    obtain ⟨_, ⟨d, -, rfl⟩, rfl⟩ := hentry
    cases d <;> simp [Device.name, Device.charOutName, Device.ramName]
  unfold Bus.summary
  simp [-String.toList_intercalate, hentries]

/-- Every event is written in a line, if it names no path with a line feed. -/
theorem isLine_line
    {event : Event}
    (h : ∀ path size, event = .imageRead path size → '\n' ∉ path.toList) :
    IsLine event.line.toList := by
  cases event with
  | imageRead path size =>
      -- A carriage return in the path is no harm, because the line ends with a number.
      have hline : (Event.imageRead path size).line.toList =
          "DEBUG loaded image path=".toList ++ path.toList ++
            (" bytes=".toList ++ (Text.decimal size).toList) := by
        simp [Event.line, Event.level, Level.name, Event.text, Event.title, Event.fields]
      rw [hline]
      exact Text.isLine_append (by simp [h path size rfl]) (by simp) (by simp)
  | mapped bus =>
      refine InLine.isLine ?_
      simp [Event.line, Event.level, Level.name, Event.text, Event.title, Event.fields,
        inLine_busSummary]
  | faulted pc e =>
      refine InLine.isLine ?_
      simp [Event.line, Event.level, Level.name, Event.text, Event.title, Event.fields,
        inLine_cpuMessage]
  | _ =>
      refine InLine.isLine ?_
      simp [Event.line, Event.level, Level.name, Event.text, Event.title, Event.fields,
        inLine_mnemonic]

end Lines

theorem Filter.everything_wants (event : Event) : Filter.everything.wants event = true := by
  have horigin : event.origin.startsWith "micro0" = true := by cases event <;> simp [Event.origin]
  have hconcerns : Filter.everything.directives.filter (·.concerns event) =
      [{ scope := some "micro0" }] := by
    simp [Filter.everything, Directive.concerns, horigin]
  have hrank : event.level.rank ≤ Level.trace.rank := by cases event.level <;> decide
  simpa [Filter.wants, hconcerns, Directive.narrower] using hrank

end Microcomputer
