import Microcomputer.CommandLine.Outcome

/-!
# The command line

Reads the files that a command names, carries the command out, and writes the file that it saves.
If the file cannot be written, the command is carried out once more with that fact known.
-/

namespace Microcomputer
namespace CommandLine

def Command.reads : Command → List String
  | .run program _ map _ => program :: map.toList
  | .debug program map => program :: map.toList
  | .assemble source _ => [source]
  | .list image _ => [image]
  | _ => []

def Command.writes : Command → List String
  | .assemble source output => [output.getD (standardOutput source)]
  | _ => []

/-- What an error of the system means for a file. -/
def fileError (e : IO.Error) : FileError :=
  match e with
  | .noFileOrDirectory .. => .notFound
  | .inappropriateType _ 21 _ => .isFolder
  | .inappropriateType .. => .notFolder
  | _ => .refused (toString e)

def readFile (path : String) : IO (String × Except FileError Image) := do
  try
    let bytes ← IO.FS.readBinFile path
    return (path, .ok bytes.data)
  catch e =>
    return (path, .error (fileError e))

def writeFile
    (path : String)
    (image : Image) :
    IO (Option FileError) := do
  try
    IO.FS.writeBinFile path ⟨image⟩
    return none
  catch e =>
    return some (fileError e)

/-- Print what a transcript holds, and give its exit code. -/
def finish
    (t : Transcript)
    (filter : Filter) :
    IO UInt32 := do
  let outcome := t.outcome filter {}
  (← IO.getStdout).putStr outcome.output
  for line in outcome.errors do
    (← IO.getStderr).putStrLn line
  return UInt32.ofNat outcome.code

/-- The places that some steps pass, the last one included. -/
def passed
    (here : List String) :
    List String → List (List String)
  | [] => []
  | step :: rest =>
      let next := if step = ".." then Directory.up here else here ++ [step]
      next :: passed next rest

def passedBy (path : String) : List (List String) :=
  passed (Directory.start path) (Directory.moves path)

/-- A directory in which some paths lead to what the system gives for them. -/
def directoryOf (files : List (String × Except FileError Image)) : Directory :=
  { files := files.filterMap fun file =>
      (passedBy file.1).getLast?.map fun place => (Directory.joined place, file.2)
    folders := files.flatMap fun file => (passedBy file.1).dropLast.map Directory.joined }

def carryOut
    (command : Command)
    (filter : Filter) :
    IO UInt32 := do
  let filter := filterFor filter command
  let files ← command.reads.mapM readFile
  let targets := command.writes.map fun path => (path, Except.ok #[])
  let first := perform filter.wants (directoryOf (files ++ targets)) command
  match first.saved with
  | none => finish first filter
  | some (path, image) =>
      match ← writeFile path image with
      | none => finish first filter
      | some e =>
          let dir := directoryOf (files ++ [(path, .error e)])
          finish (perform filter.wants dir command) filter

end CommandLine
end Microcomputer

open Microcomputer in
def main (arguments : List String) : IO UInt32 := do
  let filter := match ← IO.getEnv "RUST_LOG" with
    | some text => Filter.ofText text
    | none => Filter.ofLevel .warn
  match CommandLine.Command.ofArguments? arguments with
  | some command => CommandLine.carryOut command filter
  | none =>
      (← IO.getStderr).putStr CommandLine.helpText
      return 2
