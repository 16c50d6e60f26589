import Microcomputer.Proofs.CommandLine.Assembled
import Microcomputer.Proofs.Journal.Entries
import Microcomputer.Proofs.MemoryMap.Reading

/-!
# Traced runs

The journal of a run that is traced, and the report at the end of the run.

**Ticks.**  The number of ticks that a run is given fits into a word, so the counters of the
processor do not wrap (`count_lt_of_ofArguments?`).

**Ending.**  `runImage_of_valid`: what a run does that gets to its machine.  It ends at the first
tick that fails, and otherwise after its last one (`Machine.run_loaded_ends`, `ending_of_traced`).

**Entries.**  A traced run writes all of its events, whatever the filter (`outcome_of_traced`).
What stands before the ticks, and the lines about a failure, start differently from every entry
that a tick has (`starting_entries`).

**Result.**  `trace_agrees_with_report`.
-/

namespace Microcomputer

namespace Machine

/-- A run of a loaded image does all of its ticks, or stops at the first that fails. -/
theorem run_loaded_ends
    (map : MemoryMap)
    (image : Image)
    {count : Nat}
    (hfits : count < 2 ^ 64) :
    let start := map.loaded image
    let cpu := (start.run count).2.cpu
    ((start.run count).1 = .ok () ∧
      (∀ k < count, (start.run k).2.tick.1 = .ok ()) ∧
      cpu.state = .running ∧
      cpu.cycles.toNat = count) ∨
    ∃ e,
      cpu.cycles.toNat < count ∧
      (start.run count).1 = .error e ∧
      (∀ k < cpu.cycles.toNat, (start.run k).2.tick.1 = .ok ()) ∧
      (start.run cpu.cycles.toNat).2.tick.1 = .error e ∧
      cpu.state = .faulted := by
  intro start cpu
  have hticks : ∀ k, (start.run k).2.tick.1 = (start.board.run k).2.tick.1.mapError .cpu :=
    fun _ => rfl
  have hrun : (start.run count).1 = (start.board.run count).1.mapError .cpu := rfl
  rcases Board.run_ends (b := start.board) rfl hfits with
    ⟨hok, hbefore, hstate, hcycles⟩ | ⟨t, e, ht, herror, hbefore, hfault, hstate, hcycles⟩
  · refine Or.inl ⟨?_, fun k hk => ?_, hstate, hcycles⟩
    · rw [hrun, hok]
      rfl
    · rw [hticks, hbefore k hk]
      rfl
  · have hcycles' : cpu.cycles.toNat = t := hcycles
    refine Or.inr ⟨.cpu e, ?_⟩
    rw [hcycles']
    refine ⟨ht, ?_, fun k hk => ?_, ?_, hstate⟩
    · rw [hrun, herror]
      rfl
    · rw [hticks, hbefore k hk]
      rfl
    · rw [hticks, hfault]
      rfl

end Machine

namespace CommandLine

section Arguments

open Command

theorem exists_of_withSubject
    {options : List Switch}
    {command : String → Given → Command}
    {arguments : List String}
    {c : Command}
    (h : withSubject options command arguments = .ok c) :
    ∃ subject given, c = command subject given := by
  unfold withSubject at h
  split at h
  · cases h
  · next given _ =>
      split at h
      · next subject _ =>
          cases h
          exact ⟨subject, given, rfl⟩
      · cases h

theorem valueOr_cycles_lt (given : Given) :
    valueOr given cyclesOption standardCycles count? < 2 ^ 64 := by
  unfold valueOr
  cases hread : (given.value? cyclesOption.name).bind count? with
  | none => simp [standardCycles]
  | some n =>
      obtain ⟨text, -, hcount⟩ := Option.bind_eq_some_iff.1 hread
      exact Text.lt_of_numberBelow? hcount

variable
    {name path : String}
    {arguments : List String}
    {count : Nat}
    {config : Option String}
    {trace : Bool}

theorem count_lt_of_named (h : named name arguments = .ok (.run path count config trace)) :
    count < 2 ^ 64 := by
  unfold named at h
  split at h
  · obtain ⟨_, given, hrun⟩ := exists_of_withSubject h
    cases hrun
    exact valueOr_cycles_lt given
  -- No other command is a run.
  split at h
  · obtain ⟨_, _, hother⟩ := exists_of_withSubject h
    cases hother
  split at h
  · obtain ⟨_, _, hother⟩ := exists_of_withSubject h
    cases hother
  split at h
  · obtain ⟨_, _, hother⟩ := exists_of_withSubject h
    cases hother
  split at h
  · unfold ofHelpArguments at h
    split at h
    · cases h
    · split at h <;> cases h
    · cases h
  · cases h

theorem count_lt_of_ofArguments?
    (h : ofArguments? arguments = some (.run path count config trace)) :
    count < 2 ^ 64 := by
  unfold ofArguments? at h
  split at h
  · cases h
  · cases h
  split at h
  · cases h
  split at h
  · cases h
  split at h
  · next hnamed =>
      cases h
      exact count_lt_of_named hnamed
  · cases h
  · cases h

end Arguments

section Entries

theorem entryLines_append
    (first second : List String) :
    entryLines (first ++ second) = entryLines first ++ entryLines second := by
  simp [entryLines]

theorem entryLines_of_isLine
    {entries : List String}
    (h : ∀ entry ∈ entries, Text.IsLine entry.toList) :
    entryLines entries = entries := by
  have hone : ∀ entry ∈ entries, Text.lines (entry ++ "\n") = [entry.toList] := by
    intro entry hentry
    have hline : ∀ line ∈ [entry.toList], Text.IsLine line := by simpa using h entry hentry
    simpa using Text.lines_of_isLine hline
  calc
    entryLines entries = (entries.flatMap fun entry => [entry.toList]).map String.ofList := by
      rw [entryLines, List.flatMap_congr hone]
    _ = entries := by
      rw [← List.map_eq_flatMap]
      simp

end Entries

section Runs

variable
    {dir : Directory}
    {path : String}
    {program : Program}
    {config : Option String}
    {map : MemoryMap}

theorem events_of_loadProgram (h : loadProgram dir path = .ok program) :
    program.events = [] ∨ ∃ size, program.events = [.imageRead path size] := by
  unfold loadProgram at h
  split at h
  · cases hassemble : assembleFile dir path with
    | error failure =>
        rw [hassemble] at h
        cases h
    | ok image =>
        rw [hassemble] at h
        cases h
        exact Or.inl rfl
  · split at h
    · cases h
    · cases h
      exact Or.inr ⟨_, rfl⟩

theorem overlap?_of_loadMap (h : loadMap dir config = .ok map) : map.overlap? = none := by
  unfold loadMap at h
  split at h
  · cases h
    rfl
  split at h
  · cases h
  unfold MemoryMap.ofText at h
  split at h
  · cases h
  split at h
  · cases h
  · next hvalid =>
      cases h
      exact hvalid

/-- The failure that a run ends with. -/
def endingFailure : Except MachineError Unit × Machine → Option Failure
  | (.ok _, _) => none
  | (.error e, stopped) => some (.fault stopped.cpu.cycles e)

theorem runImage_of_valid
    (wanted : Event → Bool)
    (hvalid : map.overlap? = none)
    {image : Image}
    (hne : image ≠ #[])
    (count : Nat) :
    let start := map.loaded image
    runImage wanted (.ok map) image count =
      { printed := report (start.run count).2
        events :=
          [.mapped (map.wired #[] #[]), .loaded image.size, .runStarted count 0] ++
            (start.board.reports count).filter wanted
        failure := endingFailure (start.run count) } := by
  intro start
  have hempty : ¬ image.isEmpty = true := by simpa using hne
  have hbuilt := MemoryMap.ofMap_of_valid hvalid
  have hload := Machine.load_of_ofMap hbuilt image
  rw [runImage, if_neg hempty]
  simp only [hbuilt, execute, hload, Board.toList_runEvents]
  rw [List.nil_append, List.nil_append, String.empty_append]
  cases start.run count with
  | mk outcome stopped =>
      cases outcome with
      | ok _ => rfl
      | error e => rfl

theorem report_eq (m : Machine) :
    ∃ registers : String,
      report m =
        "\n━━━ Output ━━━\n" ++ m.outputText ++ "\n"
          ++ "\n━━━ Result ━━━\n"
          ++ "Ticks:        " ++ Text.decimal m.cpu.cycles.toNat ++ "\n"
          ++ "Instructions: " ++ Text.decimal m.cpu.retired.toNat ++ "\n"
          ++ "State:        " ++ m.cpu.state.name ++ " (" ++ m.cpu.phase.name ++ ")\n"
          ++ registers := by
  refine ⟨"PC:           " ++ Text.hex 4 m.cpu.regs.pc.toNat ++ "\n"
    ++ "ACC:          " ++ Text.hex 2 m.cpu.regs.acc.toNat
      ++ " (" ++ Text.decimal m.cpu.regs.acc.toNat ++ ")\n"
    ++ "INDEX:        " ++ Text.hex 4 m.cpu.regs.index.toNat ++ "\n"
    ++ "BUFFER:       " ++ Text.hex 2 m.cpu.regs.buffer.toNat ++ "\n", ?_⟩
  unfold report
  simp only [String.append_assoc]

/-- The entries about the failure that a run ends with. -/
def endingEntries (ran : Except MachineError Unit × Machine) : List String :=
  ((endingFailure ran).map Failure.lines).getD []

theorem isLine_of_mem_endingEntries
    {ran : Except MachineError Unit × Machine}
    {entry : String}
    (h : entry ∈ endingEntries ran) :
    Text.IsLine entry.toList := by
  obtain ⟨e | _, stopped⟩ := ran
  · have hmem : entry ∈ ["", "❌ CPU fault after " ++ Text.decimal stopped.cpu.cycles.toNat
        ++ " ticks: " ++ e.message] := h
    refine Text.InLine.isLine ?_
    rcases List.mem_cons.1 hmem with rfl | hmem
    · exact Text.inLine_nil
    · rw [List.mem_singleton.1 hmem]
      simp [inLine_machineMessage]
  · cases h

theorem ending_of_traced
    (map : MemoryMap)
    (image : Image)
    {count : Nat}
    (hfits : count < 2 ^ 64)
    {code : Nat}
    (hcode : code = if (endingFailure ((map.loaded image).run count)).isSome then 1 else 0) :
    let start := map.loaded image
    let ran := start.run count
    let ticks := ran.2.cpu.cycles.toNat
    code = (if ran.2.cpu.state = .faulted then 1 else 0) ∧
    (code = 0 ↔ ∀ k < count, (start.run k).2.tick.1 = .ok ()) ∧
    (code = 0 → ticks = count ∧ endingEntries ran = []) ∧
    (code ≠ 0 →
      ∃ e,
        ticks < count ∧
        (∀ k < ticks, (start.run k).2.tick.1 = .ok ()) ∧
        (start.run ticks).2.tick.1 = .error e ∧
        endingEntries ran =
          ["", "❌ CPU fault after " ++ Text.decimal ticks ++ " ticks: " ++ e.message]) := by
  intro start ran ticks
  rcases Machine.run_loaded_ends map image hfits with
    ⟨hok, hbefore, hrunning, hcount⟩ | ⟨e, hlt, herror, hbefore, hfault, hfaulted⟩
  · have hnone : endingFailure ran = none := by
      change endingFailure (ran.1, ran.2) = none
      rw [show ran.1 = .ok () from hok]
      rfl
    have hzero : code = 0 := by
      rw [hcode, show endingFailure ((map.loaded image).run count) = none from hnone]
      rfl
    have hstate : ran.2.cpu.state = .running := hrunning
    refine ⟨by simp [hzero, hstate], ⟨fun _ => hbefore, fun _ => hzero⟩, fun _ => ⟨hcount, ?_⟩,
      absurd hzero⟩
    rw [endingEntries, hnone]
    rfl
  · have hsome : endingFailure ran = some (.fault ran.2.cpu.cycles e) := by
      change endingFailure (ran.1, ran.2) = _
      rw [show ran.1 = .error e from herror]
      rfl
    have hone : code = 1 := by
      rw [hcode, show endingFailure ((map.loaded image).run count) = some _ from hsome]
      rfl
    have hstate : ran.2.cpu.state = .faulted := hfaulted
    refine ⟨by simp [hone, hstate], ?_, ?_, fun _ => ⟨e, hlt, hbefore, hfault, ?_⟩⟩
    · simp only [hone, Nat.one_ne_zero, false_iff]
      intro hall
      have hclash := hfault.symm.trans (hall ticks hlt)
      cases hclash
    · simp [hone]
    · rw [endingEntries, hsome]
      rfl

/-- No entry of a failure starts like that of a tick. -/
theorem starting_endingEntries
    (kind : EventKind)
    (ran : Except MachineError Unit × Machine) :
    starting kind.words (endingEntries ran) = 0 := by
  unfold endingEntries
  cases endingFailure ran with
  | none => rfl
  | some failure =>
      rw [Option.map_some, Option.getD_some]
      unfold Failure.lines
      cases kind
      all_goals cases failure <;> simp [EventKind.words, starting, List.isPrefixOf]

/-- The events of a traced run: those about its program, those about its machine, and those of the
run. -/
def tracedEvents
    (program : Program)
    (map : MemoryMap)
    (count : Nat) :
    List Event :=
  program.events ++ [.mapped (map.wired #[] #[]), .loaded program.image.size]
    ++ (Change.runFor count).told (map.loaded program.image).board

theorem tracedEvents_eq
    (program : Program)
    (map : MemoryMap)
    (count : Nat) :
    tracedEvents program map count =
      program.events
        ++ [.mapped (map.wired #[] #[]), .loaded program.image.size, .runStarted count 0]
        ++ (map.loaded program.image).board.reports count := by
  rw [tracedEvents, Change.told_runFor, List.append_assoc, List.append_assoc]
  rfl

/-- What such a run leaves behind. -/
theorem outcome_of_traced
    (filter : Filter)
    (count : Nat)
    (hprogram : loadProgram dir path = .ok program)
    (hne : program.image ≠ #[])
    (hmap : loadMap dir config = .ok map) :
    let ran := (map.loaded program.image).run count
    let left := (Command.run path count config true).outcome filter dir
    left.code = (if (endingFailure ran).isSome then 1 else 0) ∧
    left.output = "🔧 Running: " ++ path ++ "\n" ++ program.notice ++ report ran.2 ∧
    left.errors =
      entryLines
        ((tracedEvents program map count).map Event.line ++ endingEntries ran) := by
  intro ran left
  obtain ⟨hcode, houtput, herrors⟩ :=
    outcome_run_of_loadProgram count config filter true hprogram
  have hending := runImage_of_valid (filterFor filter (.run path count config true)).wants
    (overlap?_of_loadMap hmap) hne count
  rw [hmap, hending] at hcode houtput herrors
  refine ⟨hcode, houtput, herrors.trans ?_⟩
  have hall : ∀ events : List Event, events.filter Filter.everything.wants = events :=
    fun _ => List.filter_eq_self.2 fun event _ => Filter.everything_wants event
  simp only [filterFor, journalLines, failureLines, hall, entryLines_append, tracedEvents_eq,
    List.append_assoc, endingEntries, ran]

/-- Only the ticks of a traced run have events of these kinds. -/
theorem titled_tracedEvents
    (kind : EventKind)
    (hprogram : loadProgram dir path = .ok program)
    (map : MemoryMap)
    (count : Nat) :
    titled kind.title (tracedEvents program map count) =
      titled kind.title ((map.loaded program.image).board.reports count) := by
  rcases events_of_loadProgram hprogram with hnone | ⟨size, hread⟩
  · cases kind
    all_goals simp [tracedEvents_eq, hnone, EventKind.title, Event.title]
  · cases kind
    all_goals simp [tracedEvents_eq, hread, EventKind.title, Event.title]

theorem starting_entries
    (kind : EventKind)
    (hprogram : loadProgram dir path = .ok program)
    (map : MemoryMap)
    (count : Nat)
    (ran : Except MachineError Unit × Machine) :
    starting kind.words ((tracedEvents program map count).map Event.line ++ endingEntries ran) =
      titled kind.title ((map.loaded program.image).board.reports count) := by
  rw [starting_append, starting_map_line, titled_tracedEvents kind hprogram,
    starting_endingEntries, Nat.add_zero]

theorem path_of_mem_tracedEvents
    {count size : Nat}
    {other : String}
    (hprogram : loadProgram dir path = .ok program)
    (h : .imageRead other size ∈ tracedEvents program map count) :
    other = path := by
  have hmem : Event.imageRead other size ∈ program.events := by
    simpa [tracedEvents_eq, Board.imageRead_notMem_reports] using h
  rcases events_of_loadProgram hprogram with hnone | ⟨_, hread⟩
  · simp [hnone] at hmem
  · rw [hread, List.mem_singleton] at hmem
    cases hmem
    rfl

theorem entryLines_of_traced
    (hprogram : loadProgram dir path = .ok program)
    (hfeed : '\n' ∉ path.toList)
    (map : MemoryMap)
    (count : Nat)
    (ran : Except MachineError Unit × Machine) :
    let entries := (tracedEvents program map count).map Event.line ++ endingEntries ran
    entryLines entries = entries := by
  refine entryLines_of_isLine fun entry hentry => ?_
  rcases List.mem_append.1 hentry with hentry | hentry
  · obtain ⟨event, hevent, rfl⟩ := List.mem_map.1 hentry
    refine isLine_line fun other size hread => ?_
    rw [hread] at hevent
    rwa [path_of_mem_tracedEvents hprogram hevent]
  · exact isLine_of_mem_endingEntries hentry

/-- **Journal and report.** A traced run has one entry for each tick, instruction and fetch that its
report counts, and ends with code zero exactly if no tick fails. -/
theorem trace_agrees_with_report
    {arguments : List String}
    {count : Nat}
    (filter : Filter)
    (harguments : Command.ofArguments? arguments = some (.run path count config true))
    (hprogram : loadProgram dir path = .ok program)
    (hne : program.image ≠ #[])
    (hmap : loadMap dir config = .ok map) :
    let start := map.loaded program.image
    let stopped := (start.run count).2
    let ticks := stopped.cpu.cycles.toNat
    let instructions := stopped.cpu.retired.toNat
    let left := outcome arguments filter dir
    ∃ (ending : List String) (registers : String),
      let entries := (tracedEvents program map count).map Event.line ++ ending
      left.errors = entryLines entries ∧
      ('\n' ∉ path.toList → left.errors = entries) ∧
      left.output =
        "🔧 Running: " ++ path ++ "\n" ++ program.notice
          ++ "\n━━━ Output ━━━\n" ++ stopped.outputText ++ "\n"
          ++ "\n━━━ Result ━━━\n"
          ++ "Ticks:        " ++ Text.decimal ticks ++ "\n"
          ++ "Instructions: " ++ Text.decimal instructions ++ "\n"
          ++ "State:        " ++ stopped.cpu.state.name ++ " (" ++ stopped.cpu.phase.name ++ ")\n"
          ++ registers ∧
      starting "TRACE tick " entries =
        ticks + (if stopped.cpu.state = .faulted then 1 else 0) ∧
      starting "DEBUG complete " entries = instructions ∧
      starting "DEBUG fetch " entries =
        (match stopped.cpu.phase with
          | .execute _ => instructions + 1
          | _ => instructions) ∧
      starting "WARN CPU faulted " entries = (if left.code = 1 then 1 else 0) ∧
      left.code = (if stopped.cpu.state = .faulted then 1 else 0) ∧
      (left.code = 0 ↔ ∀ k < count, (start.run k).2.tick.1 = .ok ()) ∧
      (left.code = 0 → ticks = count ∧ ending = []) ∧
      (left.code ≠ 0 →
        ∃ e,
          ticks < count ∧
          (∀ k < ticks, (start.run k).2.tick.1 = .ok ()) ∧
          (start.run ticks).2.tick.1 = .error e ∧
          ending =
            ["", "❌ CPU fault after " ++ Text.decimal ticks ++ " ticks: " ++ e.message]) := by
  intro start stopped ticks instructions left
  have hfits := count_lt_of_ofArguments? harguments
  let ran := start.run count
  have hleft : left = (Command.run path count config true).outcome filter dir := by
    simp only [left, outcome, harguments]
  obtain ⟨hcode, houtput, herrors⟩ := outcome_of_traced filter count hprogram hne hmap
  rw [← hleft] at hcode houtput herrors
  obtain ⟨hticks, hfetched, hcompleted, hfaulted⟩ :=
    Board.reports_of_new (b := start.board) rfl hfits
  have hentries : ∀ kind : EventKind,
      starting kind.words ((tracedEvents program map count).map Event.line ++ endingEntries ran) =
        titled kind.title (start.board.reports count) :=
    fun kind => starting_entries kind hprogram map count ran
  obtain ⟨registers, hreport⟩ : ∃ registers, report stopped = _ ++ registers := report_eq stopped
  obtain ⟨hstate, hends⟩ := ending_of_traced map program.image hfits hcode
  refine ⟨endingEntries ran, registers, herrors, fun hfeed => ?_, ?_, ?_, ?_, ?_, ?_, hstate,
    hends⟩
  · exact herrors.trans (entryLines_of_traced hprogram hfeed map count ran)
  · have hshown : left.output =
        "🔧 Running: " ++ path ++ "\n" ++ program.notice ++ report stopped := houtput
    rw [hshown, hreport]
    simp only [String.append_assoc, ticks, instructions]
  · exact (hentries .tick).trans hticks
  · exact (hentries .completion).trans hcompleted
  · exact (hentries .fetch).trans (hfetched.trans (stopped.board.match_phase instructions))
  · have hcoded : left.code = if left.code = 1 then 1 else 0 := by
      rw [hstate]
      split <;> rfl
    exact (hentries .fault).trans (hfaulted.trans (hstate.symm.trans hcoded))

/-- A program of two instructions runs past its end: the third fetch fails. -/
theorem trace_agrees_overrunning :
    let arguments := ["run", "p.asm", "-t", "-c", "100", "--config", "m.json"]
    let left := outcome arguments (.ofLevel .error) overrunning
    Command.ofArguments? arguments = some (.run "p.asm" 100 (some "m.json") true) ∧
    ∃ program : Program,
      loadProgram overrunning "p.asm" = .ok program ∧
      program.image ≠ #[] ∧
      loadMap overrunning (some "m.json") = .ok {} ∧
      left.code = 1 ∧
      starting "TRACE tick " left.errors = 12 ∧
      starting "DEBUG complete " left.errors = 2 ∧
      starting "DEBUG fetch " left.errors = 2 ∧
      starting "WARN CPU faulted " left.errors = 1 := by
  intro arguments left
  let program : Program :=
    { image := #[1, 0, 0, 2, 0, 240], notice := "📝 Assembled " ++ Text.decimal 6 ++ " bytes\n" }
  have harguments :
      Command.ofArguments? arguments = some (.run "p.asm" 100 (some "m.json") true) := by
    decide +kernel
  have hassemble : assembleFile overrunning "p.asm" = .ok program.image :=
    Directory.eq_ok_of_toOption_eq_some (by decide +kernel)
  have hprogram : loadProgram overrunning "p.asm" = .ok program := by
    rw [loadProgram, if_pos (by decide +kernel), hassemble]
    rfl
  have hne : program.image ≠ #[] := by simp [program]
  have hmap : loadMap overrunning (some "m.json") = .ok {} :=
    Directory.eq_ok_of_toOption_eq_some (by decide +kernel)
  have hstopped : let stopped := ((MemoryMap.loaded {} program.image).run 100).2
      stopped.cpu.cycles.toNat = 11 ∧
      stopped.cpu.retired.toNat = 2 ∧
      stopped.cpu.state = .faulted ∧
      stopped.cpu.phase = .fetch := by
    decide +kernel
  obtain ⟨hcycles, hretired, hstate, hphase⟩ := hstopped
  obtain ⟨ending, registers, -, herrors, -, hticks, hcompleted, hfetched, hwarned, hcode, -⟩ :=
    trace_agrees_with_report (.ofLevel .error) harguments hprogram hne hmap
  rw [hstate, if_pos rfl] at hcode
  rw [← herrors (by decide)] at hticks hcompleted hfetched hwarned
  rw [hstate, if_pos rfl, hcycles] at hticks
  rw [hphase, hretired] at hfetched
  rw [hcode, if_pos rfl] at hwarned
  exact ⟨harguments, program, hprogram, hne, hmap, hcode, hticks, hcompleted.trans hretired,
    hfetched, hwarned⟩

end Runs

end CommandLine

end Microcomputer
