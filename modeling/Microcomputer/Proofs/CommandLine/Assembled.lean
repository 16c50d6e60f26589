import Microcomputer.CommandLine.Outcome
import Microcomputer.Proofs.Assembly.Image
import Microcomputer.Proofs.CommandLine.Files

/-!
# Running an assembled image

A source can be run at once, or assembled into a file that is then run.  Both ways end alike.

**Parts of a run.**  `runImage` is what a run does once it has its program and its memory map; what
stands before it are the lines about the program (`runProgram_of_loadProgram`).

**Difference.**  The two ways see different directories, since the second one has the image.  Only
the reason for which a memory map cannot be read may depend on that (`loadMap_withFile`).

**Result.**  `run_of_assembled`.
-/

namespace Microcomputer
namespace CommandLine

section Lines

/-- The lines of some entries; an entry can hold more than one. -/
def entryLines (entries : List String) : List String :=
  (entries.flatMap fun entry => Text.lines (entry ++ "\n")).map String.ofList

/-- The lines of the journal about some events. -/
def journalLines
    (filter : Filter)
    (events : List Event) :
    List String :=
  entryLines ((events.filter filter.wants).map Event.line)

/-- The lines about a failure, if there is one. -/
def failureLines (failure : Option Failure) : List String :=
  entryLines ((failure.map Failure.lines).getD [])

theorem errorLines_eq
    (t : Transcript)
    (filter : Filter) :
    t.errorLines filter = journalLines filter t.events ++ failureLines t.failure := by
  simp [Transcript.errorLines, journalLines, failureLines, entryLines]

end Lines

section Runs

/-- A transcript behind what was printed and reported before. -/
def Transcript.behind
    (t : Transcript)
    (printed : String)
    (events : List Event) :
    Transcript :=
  { t with printed := printed ++ t.printed, events := events ++ t.events }

/-- What a run does once it has its program and has looked for its memory map. -/
def runImage
    (wanted : Event → Bool)
    (map : Except MemoryMap.Error MemoryMap)
    (image : Image)
    (cycles : Nat) :
    Transcript :=
  if image.isEmpty then { failure := some .nothingToExecute }
  else
    match map with
    | .error e => { failure := some (.memoryMap e) }
    | .ok map =>
        match Machine.ofMap map with
        | .error e => { failure := some (.machine e) }
        | .ok empty => execute wanted {} empty image cycles

variable
    {wanted : Event → Bool}
    {dir : Directory}
    {path : String}
    (cycles : Nat)
    (map : Option String)

theorem execute_behind
    (wanted : Event → Bool)
    (printed : String)
    (events : List Event)
    (empty : Machine)
    (image : Image)
    (cycles : Nat) :
    execute wanted { printed, events } empty image cycles =
      (execute wanted {} empty image cycles).behind printed events := by
  simp [execute, Transcript.behind]

theorem runProgram_of_loadProgram
    {program : Program}
    (h : loadProgram dir path = .ok program) :
    runProgram wanted dir path cycles map =
      (runImage wanted (loadMap dir map) program.image cycles).behind
        ("🔧 Running: " ++ path ++ "\n" ++ program.notice) program.events := by
  unfold runProgram prepare runImage
  rw [h]
  by_cases hempty : program.image.isEmpty = true
  · simp [hempty, Transcript.behind]
  · simp only [if_neg hempty]
    cases loadMap dir map with
    | error e => simp [Transcript.behind]
    | ok map =>
        cases hbuilt : Machine.ofMap map with
        | error e => simp [Transcript.behind, hbuilt]
        | ok empty =>
            simp only [hbuilt]
            exact execute_behind wanted _ program.events empty program.image cycles

theorem runProgram_of_refused
    {failure : Failure}
    (h : loadProgram dir path = .error failure) :
    runProgram wanted dir path cycles map =
      { printed := "🔧 Running: " ++ path ++ "\n", failure := some failure } := by
  simp only [runProgram, prepare, h]

theorem filterFor_run
    (filter : Filter)
    (path other : String)
    (trace : Bool) :
    filterFor filter (.run path cycles map trace) =
      filterFor filter (.run other cycles map trace) := by
  cases trace with
  | false => rfl
  | true => rfl

theorem outcome_run_of_loadProgram
    {program : Program}
    (filter : Filter)
    (trace : Bool)
    (h : loadProgram dir path = .ok program) :
    let chosen := filterFor filter (.run path cycles map trace)
    let left := (Command.run path cycles map trace).outcome filter dir
    let ending := runImage chosen.wants (loadMap dir map) program.image cycles
    left.code = (if ending.failure.isSome then 1 else 0) ∧
    left.output = "🔧 Running: " ++ path ++ "\n" ++ program.notice ++ ending.printed ∧
    left.errors =
      journalLines chosen (program.events ++ ending.events) ++ failureLines ending.failure := by
  intro chosen left ending
  have hleft : left =
      (ending.behind ("🔧 Running: " ++ path ++ "\n" ++ program.notice) program.events).outcome
        chosen dir := by
    rw [← runProgram_of_loadProgram cycles map h]
    rfl
  rw [hleft]
  exact ⟨rfl, rfl, errorLines_eq _ chosen⟩

theorem outcome_run_of_refused
    {failure : Failure}
    (filter : Filter)
    (trace : Bool)
    (h : loadProgram dir path = .error failure) :
    let left := (Command.run path cycles map trace).outcome filter dir
    left.code = 1 ∧ left.errors = failureLines (some failure) := by
  intro left
  have hleft : left =
      ({ printed := "🔧 Running: " ++ path ++ "\n", failure := some failure } : Transcript).outcome
        (filterFor filter (.run path cycles map trace)) dir := by
    rw [← runProgram_of_refused cycles map h]
    rfl
  rw [hleft]
  exact ⟨rfl, errorLines_eq _ _⟩

end Runs

section Endings

/-- A run that prints and reports the same, and stops for the same reason, but perhaps for the
reason why its map cannot be read. -/
structure Transcript.EndsLike (t u : Transcript) : Prop where
  printed_eq : t.printed = u.printed
  events_eq : t.events = u.events
  failure_eq :
    t.failure = u.failure ∨
    ∃ reason reason' : String,
      t.failure = some (.memoryMap (.unreadable reason)) ∧
      u.failure = some (.memoryMap (.unreadable reason'))

theorem Transcript.EndsLike.refl (t : Transcript) : t.EndsLike t :=
  ⟨rfl, rfl, Or.inl rfl⟩

theorem Transcript.EndsLike.isSome_eq
    {t u : Transcript}
    (h : t.EndsLike u) :
    t.failure.isSome = u.failure.isSome := by
  rcases h.failure_eq with hsame | ⟨reason, reason', ht, hu⟩
  · rw [hsame]
  · rw [ht, hu]
    rfl

theorem printed_runImage
    (wanted : Event → Bool)
    (map : Except MemoryMap.Error MemoryMap)
    (image : Image)
    (cycles : Nat) :
    (runImage wanted map image cycles).printed = "" ∨
    ∃ m : Machine, (runImage wanted map image cycles).printed = report m := by
  unfold runImage
  split
  · exact Or.inl rfl
  split
  · exact Or.inl rfl
  split
  · exact Or.inl rfl
  · exact Or.inr ⟨_, String.empty_append⟩

variable
    {dir : Directory}
    {name : String}
    {map : Option String}

theorem loadMap_withFile
    (hflat : '/' ∉ name.toList)
    (bytes : Image)
    (hmap : ∀ path, map = some path → dir.place path ≠ .ok (.entry name false)) :
    loadMap (dir.withFile name bytes) map = loadMap dir map ∨
    ∃ reason reason' : String,
      loadMap (dir.withFile name bytes) map = .error (.unreadable reason) ∧
      loadMap dir map = .error (.unreadable reason') := by
  cases map with
  | none => exact Or.inl rfl
  | some path =>
      rcases Directory.eq_or_errors_of_toOption_eq
        (Directory.readText_withFile hflat bytes (hmap path rfl)) with
        hsame | ⟨e, e', hafter, hbefore⟩
      · exact Or.inl (by rw [loadMap, loadMap, hsame])
      · exact Or.inr ⟨e.message, e'.message, by simp only [loadMap, hafter],
          by simp only [loadMap, hbefore]⟩

theorem runImage_withFile
    (wanted : Event → Bool)
    (hflat : '/' ∉ name.toList)
    (bytes image : Image)
    (cycles : Nat)
    (hmap : ∀ path, map = some path → dir.place path ≠ .ok (.entry name false)) :
    (runImage wanted (loadMap (dir.withFile name bytes) map) image cycles).EndsLike
      (runImage wanted (loadMap dir map) image cycles) := by
  rcases loadMap_withFile hflat bytes hmap with hsame | ⟨reason, reason', hafter, hbefore⟩
  · rw [hsame]
    exact .refl _
  · rw [hafter, hbefore, runImage, runImage]
    split
    · exact .refl _
    · exact ⟨rfl, rfl, Or.inr ⟨reason, reason', rfl, rfl⟩⟩

end Endings

section Sources

variable
    {dir : Directory}
    {program target name : String}

theorem failure_of_assembleFile
    {failure : Failure}
    (h : assembleFile dir program = .error failure) :
    (∃ e, failure = .unreadableSource e) ∨ ∃ e, failure = .assembly e := by
  unfold assembleFile at h
  split at h
  · next e hread =>
      cases h
      exact Or.inl ⟨e, rfl⟩
  · next source hread =>
      cases hassemble : assemble source with
      | error e =>
          rw [hassemble] at h
          cases h
          exact Or.inr ⟨e, rfl⟩
      | ok image =>
          rw [hassemble] at h
          cases h

theorem size_le_of_assembleFile
    {image : Image}
    (h : assembleFile dir program = .ok image) :
    image.size ≤ maxImageSize := by
  unfold assembleFile at h
  split at h
  · cases h
  · next source hread =>
      cases hassemble : assemble source with
      | error e =>
          rw [hassemble] at h
          cases h
      | ok image =>
          rw [hassemble] at h
          cases h
          exact Assembly.size_le_of_assemble hassemble

theorem outcome_assemble_of_refused
    {failure : Failure}
    (filter : Filter)
    (h : assembleFile dir program = .error failure) :
    let left := (Command.assemble program (some target)).outcome filter dir
    left.code = 1 ∧ left.errors = failureLines (some failure) := by
  intro left
  have hleft : left = (assembleProgram dir program (some target)).outcome filter dir := rfl
  rw [hleft, assembleProgram, h]
  exact ⟨rfl, errorLines_eq _ filter⟩

theorem outcome_assemble_of_saved
    {image : Image}
    {output : Option String}
    {after : Directory}
    (filter : Filter)
    (h : assembleFile dir program = .ok image)
    (hsave : dir.saveImage (output.getD (standardOutput program)) image = .ok after) :
    let left := (Command.assemble program output).outcome filter dir
    left.code = 0 ∧ left.directory = after := by
  intro left
  have hwrite := (Directory.saveImage_eq_ok_iff.1 hsave).2
  have hleft : left = (assembleProgram dir program output).outcome filter dir := rfl
  rw [hleft, assembleProgram, h]
  simp only [hsave, Transcript.outcome, hwrite]
  exact ⟨rfl, rfl⟩

theorem outcome_assemble_of_accepts
    {image : Image}
    (filter : Filter)
    (h : assembleFile dir program = .ok image)
    (haccepts : dir.Accepts target name) :
    let left := (Command.assemble program (some target)).outcome filter dir
    left.code = 0 ∧ left.directory = dir.withFile name image := by
  refine outcome_assemble_of_saved filter h (Directory.saveImage_eq_ok_iff.2 ?_)
  exact ⟨size_le_of_assembleFile h, Directory.write_of_accepts haccepts image⟩

/-- **Running an assembled image.** To run a source at once and to run the image it is assembled to
fail for the same reason, or end alike. -/
theorem run_of_assembled
    {map : Option String}
    (filter : Filter)
    (cycles : Nat)
    (trace : Bool)
    (hsource : isSource program = true)
    (hbinary : isSource target = false)
    (haccepts : dir.Accepts target name)
    (hmap : ∀ path, map = some path → dir.place path ≠ .ok (.entry name false)) :
    let run (path : String) : Command := .run path cycles map trace
    let chosen := filterFor filter (run program)
    let direct := (run program).outcome filter dir
    let assembled := (Command.assemble program (some target)).outcome filter dir
    let indirect := (run target).outcome filter assembled.directory
    (∃ failure : Failure,
      assembleFile dir program = .error failure ∧
      ((∃ e, failure = .unreadableSource e) ∨ ∃ e, failure = .assembly e) ∧
      assembled.code = 1 ∧
      direct.code = 1 ∧
      assembled.errors = failureLines (some failure) ∧
      direct.errors = failureLines (some failure)) ∨
    ∃ (image : Image) (ending ending' : Transcript),
      assembleFile dir program = .ok image ∧
      assembled.code = 0 ∧
      assembled.directory.loadImage target = .ok image ∧
      ending'.EndsLike ending ∧
      (ending.printed = "" ∨ ∃ m : Machine, ending.printed = report m) ∧
      (image = #[] → ending.failure = some .nothingToExecute) ∧
      direct.code = indirect.code ∧
      direct.output =
        "🔧 Running: " ++ program ++ "\n" ++
          ("📝 Assembled " ++ Text.decimal image.size ++ " bytes\n") ++ ending.printed ∧
      indirect.output =
        "🔧 Running: " ++ target ++ "\n" ++
          ("📂 Loaded " ++ Text.decimal image.size ++ " bytes\n") ++ ending'.printed ∧
      direct.errors = journalLines chosen ending.events ++ failureLines ending.failure ∧
      indirect.errors =
        journalLines chosen (.imageRead target image.size :: ending'.events) ++
          failureLines ending'.failure := by
  intro run chosen direct assembled indirect
  cases hassemble : assembleFile dir program with
  | error failure =>
      left
      have hload : loadProgram dir program = .error failure := by
        rw [loadProgram, if_pos hsource, hassemble]
        rfl
      obtain ⟨hcode, herrors⟩ :
          assembled.code = 1 ∧ assembled.errors = failureLines (some failure) :=
        outcome_assemble_of_refused filter hassemble
      obtain ⟨hcode', herrors'⟩ := outcome_run_of_refused cycles map filter trace hload
      exact ⟨failure, rfl, failure_of_assembleFile hassemble, hcode, hcode', herrors, herrors'⟩
  | ok image =>
      right
      obtain ⟨hcode, hdirectory⟩ := outcome_assemble_of_accepts filter hassemble haccepts
      have hread : assembled.directory.loadImage target = .ok image := by
        rw [hdirectory, Directory.loadImage,
          Directory.read_withFile_self haccepts.flat image haccepts.place]
        exact if_pos (size_le_of_assembleFile hassemble)
      -- The program of each run, with its notice.
      have hload : loadProgram dir program =
          .ok ⟨image, "📝 Assembled " ++ Text.decimal image.size ++ " bytes\n", []⟩ := by
        rw [loadProgram, if_pos hsource, hassemble]
        rfl
      have hload' : loadProgram assembled.directory target =
          .ok ⟨image, "📂 Loaded " ++ Text.decimal image.size ++ " bytes\n",
            [.imageRead target image.size]⟩ := by
        rw [loadProgram, hbinary, hread]
        rfl
      obtain ⟨hdcode, hdoutput, hderrors⟩ :=
        outcome_run_of_loadProgram cycles map filter trace hload
      obtain ⟨hicode, hioutput, hierrors⟩ :=
        outcome_run_of_loadProgram cycles map filter trace hload'
      rw [filterFor_run cycles map filter target program trace] at hicode hioutput hierrors
      let ending := runImage chosen.wants (loadMap dir map) image cycles
      let ending' := runImage chosen.wants (loadMap assembled.directory map) image cycles
      have hlike : ending'.EndsLike ending := by
        have h := runImage_withFile chosen.wants haccepts.flat image image cycles hmap
        rwa [← hdirectory] at h
      have hsame : direct.code = indirect.code := by
        calc
          direct.code = if ending.failure.isSome then 1 else 0 := hdcode
          _ = if ending'.failure.isSome then 1 else 0 := by rw [hlike.isSome_eq]
          _ = indirect.code := hicode.symm
      refine ⟨image, ending, ending', rfl, hcode, hread, hlike, printed_runImage _ _ _ _, ?_,
        hsame, hdoutput, hioutput, hderrors, hierrors⟩
      rintro rfl
      rfl

/-- A directory with a source, whose program runs past its end, and a memory map. -/
def overrunning : Directory where
  files :=
    [("p.asm", .ok ".org 0\nload [0]\nstore [0xF000]\n".toUTF8.data),
      ("m.json", .ok "\x7b\"ram_base\": 0\x7d".toUTF8.data)]

/-- The image of the source faults like the source itself, with the same report. -/
theorem run_of_assembled_overrunning :
    let run (path : String) : Command := .run path 100 (some "m.json") false
    let assembled :=
      (Command.assemble "p.asm" (some "q.bin")).outcome .everything overrunning
    let direct := (run "p.asm").outcome .everything overrunning
    let indirect := (run "q.bin").outcome .everything assembled.directory
    isSource "p.asm" = true ∧
    isSource "q.bin" = false ∧
    overrunning.Accepts "q.bin" "q.bin" ∧
    (∀ path, some "m.json" = some path → overrunning.place path ≠ .ok (.entry "q.bin" false)) ∧
    direct.code = 1 ∧
    indirect.code = 1 ∧
    ∃ rest : String,
      direct.output = "🔧 Running: p.asm\n📝 Assembled 6 bytes\n" ++ rest ∧
      indirect.output = "🔧 Running: q.bin\n📂 Loaded 6 bytes\n" ++ rest := by
  intro run assembled direct indirect
  have hsource : isSource "p.asm" = true := by decide +kernel
  have hbinary : isSource "q.bin" = false := by decide +kernel
  have hplain : Directory.Plain "q.bin" ∧ Directory.Plain "m.json" := by
    constructor <;> constructor <;> decide
  have hnew : overrunning.files.lookup "q.bin" = none := by rfl
  have haccepts : overrunning.Accepts "q.bin" "q.bin" :=
    hplain.1.accepts (by decide +kernel) (by simp [hnew])
  have hmap : ∀ path, some "m.json" = some path →
      overrunning.place path ≠ .ok (.entry "q.bin" false) := by
    rintro path ⟨⟩
    rw [hplain.2.place (by decide +kernel)]
    simp
  have hcode : direct.code = 1 := by decide +kernel
  have hassemble : (assembleFile overrunning "p.asm").toOption = some #[1, 0, 0, 2, 0, 240] := by
    decide +kernel
  refine ⟨hsource, hbinary, haccepts, hmap, hcode, ?_⟩
  rcases run_of_assembled .everything 100 false hsource hbinary haccepts hmap with
    ⟨failure, hrefused, -⟩ |
    ⟨image, ending, ending', himage, -, -, hlike, -, -, hsame, hdirect, hindirect, -⟩
  · rw [hrefused] at hassemble
    cases hassemble
  · rw [himage] at hassemble
    cases hassemble
    refine ⟨hsame.symm.trans hcode, ending.printed, ?_, ?_⟩
    · rw [hdirect]
      congr 1
    · rw [hindirect, hlike.printed_eq]
      congr 1

end Sources

end CommandLine
end Microcomputer
