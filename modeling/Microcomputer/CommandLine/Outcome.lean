import Microcomputer.Assembly.Image
import Microcomputer.CommandLine.Command
import Microcomputer.Directory
import Microcomputer.Journal.Filter
import Microcomputer.Listing
import Microcomputer.Text.Characters

/-!
# The outcome of a command

What a command prints, the code it exits with, and the files it leaves behind.  It stops at the
first failure.  The exit code is zero without a failure, one after a failure, and two if the
arguments are refused.
-/

namespace Microcomputer
namespace CommandLine

inductive Failure
  | unreadableSource (error : FileError)
  | assembly (error : AssemblyError)
  | unreadableImage (error : ImageError)
  | nothingToExecute
  | memoryMap (error : MemoryMap.Error)
  | machine (error : MachineError)
  | unwritableImage (error : ImageError)
  /-- The processor faulted after a number of ticks. -/
  | fault (ticks : UInt64) (error : MachineError)
  deriving DecidableEq

def Failure.lines : Failure → List String
  | .unreadableSource error => ["❌ Failed to read file: " ++ error.message]
  | .assembly error => ["❌ Assembly error: " ++ error.message]
  | .unreadableImage error => ["❌ Failed to load image: " ++ error.message]
  | .nothingToExecute => ["❌ Nothing to execute"]
  | .memoryMap error => ["❌ Bad configuration: " ++ error.message]
  | .machine error => ["❌ Failed to build machine: " ++ error.message]
  | .unwritableImage error => ["❌ Failed to save image: " ++ error.message]
  | .fault ticks error =>
      ["", "❌ CPU fault after " ++ Text.decimal ticks.toNat ++ " ticks: " ++ error.message]

/-- What a command has printed and reported, and how it ended. -/
structure Transcript where
  printed : String := ""
  events : List Event := []
  failure : Option Failure := none
  /-- The file that was written, with its contents. -/
  saved : Option (String × Image) := none

structure Outcome where
  code : Nat
  output : String
  errors : List String
  directory : Directory

section Programs

/-- An image to execute, with the line that says where it comes from. -/
structure Program where
  image : Image
  notice : String
  events : List Event := []

def isSource (path : String) : Bool :=
  path.endsWith ".asm"

def assembleFile
    (dir : Directory)
    (path : String) :
    Except Failure Image :=
  match dir.readText path with
  | .error e => .error (.unreadableSource e)
  | .ok source => (assemble source).mapError .assembly

/-- Get the image that a path stands for, assembling it if it is a source. -/
def loadProgram
    (dir : Directory)
    (path : String) :
    Except Failure Program :=
  if isSource path then
    (assembleFile dir path).map fun image =>
      { image, notice := "📝 Assembled " ++ Text.decimal image.size ++ " bytes\n" }
  else
    match dir.loadImage path with
    | .error e => .error (.unreadableImage e)
    | .ok image =>
        .ok
          { image
            notice := "📂 Loaded " ++ Text.decimal image.size ++ " bytes\n"
            events := [.imageRead path image.size] }

/-- The memory map in a file, or the standard one without a file. -/
def loadMap
    (dir : Directory) :
    Option String → Except MemoryMap.Error MemoryMap
  | none => .ok {}
  | some path =>
      match dir.readText path with
      | .error e => .error (.unreadable e.message)
      | .ok text => MemoryMap.ofText text

/-- A program and the memory map for it, after what has been printed. -/
def prepare
    (dir : Directory)
    (printed path : String)
    (map : Option String) :
    Except Transcript (Program × MemoryMap × Transcript) :=
  match loadProgram dir path with
  | .error failure => .error { printed, failure := some failure }
  | .ok program =>
      let so : Transcript := { printed := printed ++ program.notice, events := program.events }
      if program.image.isEmpty then
        .error { so with failure := some .nothingToExecute }
      else
        match loadMap dir map with
        | .error e => .error { so with failure := some (.memoryMap e) }
        | .ok map => .ok (program, map, so)

end Programs

section Runs

def report (m : Machine) : String :=
  let cpu := m.cpu
  let regs := cpu.regs
  "\n━━━ Output ━━━\n" ++ m.outputText ++ "\n"
    ++ "\n━━━ Result ━━━\n"
    ++ "Ticks:        " ++ Text.decimal cpu.cycles.toNat ++ "\n"
    ++ "Instructions: " ++ Text.decimal cpu.retired.toNat ++ "\n"
    ++ "State:        " ++ cpu.state.name ++ " (" ++ cpu.phase.name ++ ")\n"
    ++ "PC:           " ++ Text.hex 4 regs.pc.toNat ++ "\n"
    ++ "ACC:          " ++ Text.hex 2 regs.acc.toNat
      ++ " (" ++ Text.decimal regs.acc.toNat ++ ")\n"
    ++ "INDEX:        " ++ Text.hex 4 regs.index.toNat ++ "\n"
    ++ "BUFFER:       " ++ Text.hex 2 regs.buffer.toNat ++ "\n"

def execute
    (wanted : Event → Bool)
    (so : Transcript)
    (empty : Machine)
    (image : Image)
    (cycles : Nat) :
    Transcript :=
  let m := empty.load image
  let (result, stopped) := m.run cycles
  let events :=
    so.events ++ [.mapped empty.bus, .loaded image.size, .runStarted cycles m.cpu.cycles]
      ++ (m.board.runEvents wanted #[] cycles).toList
  let failure := match result with
    | .ok () => none
    | .error e => some (.fault stopped.cpu.cycles e)
  { so with printed := so.printed ++ report stopped, events, failure }

def runProgram
    (wanted : Event → Bool)
    (dir : Directory)
    (path : String)
    (cycles : Nat)
    (map : Option String) :
    Transcript :=
  match prepare dir ("🔧 Running: " ++ path ++ "\n") path map with
  | .error stopped => stopped
  | .ok (program, map, so) =>
      match Machine.ofMap map with
      | .error e => { so with failure := some (.machine e) }
      | .ok empty => execute wanted so empty program.image cycles

def debugProgram
    (dir : Directory)
    (path : String)
    (map : Option String) :
    Transcript :=
  match prepare dir ("🔍 Loading: " ++ path ++ "\n") path map with
  | .error stopped => stopped
  | .ok (_, _, so) => { so with printed := so.printed ++ "🚀 Launching debugger...\n\n" }

end Runs

section Files

def standardOutput (source : String) : String :=
  source.replace ".asm" ".bin"

def assembleProgram
    (dir : Directory)
    (source : String)
    (output : Option String) :
    Transcript :=
  let target := output.getD (standardOutput source)
  let printed := "📝 Assembling: " ++ source ++ " → " ++ target ++ "\n"
  match assembleFile dir source with
  | .error failure => { printed, failure := some failure }
  | .ok image =>
      let printed := printed ++ "✓ Assembled " ++ Text.decimal image.size ++ " bytes\n"
      match dir.saveImage target image with
      | .error e => { printed, failure := some (.unwritableImage e) }
      | .ok _ =>
          { printed := printed ++ "✓ Saved to " ++ target ++ "\n"
            saved := some (target, image) }

def listImage
    (dir : Directory)
    (path : String)
    (origin : UInt16) :
    Transcript :=
  match dir.loadImage path with
  | .error e => { failure := some (.unreadableImage e) }
  | .ok image =>
      { printed := Listing.text image origin, events := [.imageRead path image.size] }

end Files

section Commands

def aboutText : String :=
  "micro0 Emulator v0.1.0\nA tick-accurate 8-bit microcomputer emulator\n\n"
    ++ "Use --help for available commands\n"

def versionText : String :=
  "micro0 0.1.0\n"

def helpText : String :=
  "Usage: micro0 [COMMAND]\n\n"
    ++ "run <program> [-c <ticks>] [--config <file>] [-t]\n"
    ++ "debug <program> [--config <file>]\n"
    ++ "asm <source> [-o <file>]\n"
    ++ "disasm <image> [--origin <address>]\n"

def perform
    (wanted : Event → Bool)
    (dir : Directory) :
    Command → Transcript
  | .about => { printed := aboutText }
  | .version => { printed := versionText }
  | .help => { printed := helpText }
  | .run program cycles map _ => runProgram wanted dir program cycles map
  | .debug program map => debugProgram dir program map
  | .assemble source output => assembleProgram dir source output
  | .list image origin => listImage dir image origin

/-- The filter of the journal of a command; a run that is traced wants every event. -/
def filterFor
    (filter : Filter) :
    Command → Filter
  | .run _ _ _ true => .everything
  | _ => filter

/-- The lines that a transcript leaves for errors; an entry can hold more than one. -/
def Transcript.errorLines
    (t : Transcript)
    (filter : Filter) :
    List String :=
  let entries :=
    (t.events.filter filter.wants).map Event.line ++ (t.failure.map Failure.lines).getD []
  (entries.flatMap fun entry => Text.lines (entry ++ "\n")).map String.ofList

def Transcript.outcome
    (t : Transcript)
    (filter : Filter)
    (dir : Directory) :
    Outcome :=
  { code := if t.failure.isSome then 1 else 0
    output := t.printed
    errors := t.errorLines filter
    directory := match t.saved with
      | none => dir
      | some (path, image) => (dir.write path image).toOption.getD dir }

def Command.outcome
    (command : Command)
    (filter : Filter)
    (dir : Directory) :
    Outcome :=
  let filter := filterFor filter command
  (perform filter.wants dir command).outcome filter dir

def outcome
    (arguments : List String)
    (filter : Filter)
    (dir : Directory) :
    Outcome :=
  match Command.ofArguments? arguments with
  | some command => command.outcome filter dir
  | none => { code := 2, output := "", errors := [helpText], directory := dir }

end Commands

end CommandLine
end Microcomputer
