import Microcomputer.Text.Numeral

/-!
# Commands

What the program can be asked to do, and the arguments that ask for it.

* `run <program>` with `--cycles`, `--config` and `--trace`;
* `debug <program>` with `--config`;
* `asm <source>` with `--output`;
* `disasm <image>` with `--origin`;
* `help`, alone or with the name of a command;
* nothing at all, `--version` or `-V`, and `--help` or `-h`, which each of the commands above takes
  too.

**Options.**  An option is given by its long name or by its letter, and a value follows as the next
argument or in the same one.  After two hyphens alone, every argument is positional.

**Order.**  The first argument that is wrong ends the reading, and so does the first that asks for
help; what stands behind it is not read.
-/

namespace Microcomputer
namespace CommandLine

section Arguments

section Values

def count? (text : String) : Option Nat :=
  Text.numberBelow? UInt64.size 10 Char.isDigit text.toList

/-- An address, in hexadecimal after `0x` or `0X` and in decimal otherwise. -/
def address? (text : String) : Option UInt16 :=
  let hexadecimal (digits : List Char) :=
    Text.numberBelow? UInt16.size 16 Text.isHexDigit digits
  let number := match text.toList with
    | '0' :: 'x' :: digits => hexadecimal digits
    | '0' :: 'X' :: digits => hexadecimal digits
    | digits => Text.numberBelow? UInt16.size 10 Char.isDigit digits
  number.map UInt16.ofNat

inductive ValueKind
  | text
  | count
  | address
  deriving DecidableEq

def ValueKind.accepts
    (kind : ValueKind)
    (value : String) :
    Bool :=
  match kind with
  | .text => true
  | .count => (count? value).isSome
  | .address => (address? value).isSome

end Values

inductive Purpose
  | mark
  | value (kind : ValueKind)
  | help
  deriving DecidableEq

structure Switch where
  name : String
  letter : Option Char := none
  purpose : Purpose
  deriving DecidableEq

def helpOption : Switch := { name := "help", letter := some 'h', purpose := .help }

/-- Why the reading of arguments ends early. -/
inductive Stop
  | refused
  | help
  deriving DecidableEq

/-- What was given: the positional arguments in order, and the options with their values. -/
structure Given where
  positional : Array String := #[]
  options : List (String × String) := []

namespace Given

def value?
    (given : Given)
    (name : String) :
    Option String :=
  given.options.lookup name

def has
    (given : Given)
    (name : String) :
    Bool :=
  (given.value? name).isSome

/-- Add an option, unless it was given before. -/
def add
    (given : Given)
    (o : Switch)
    (value : String) :
    Except Stop Given :=
  if given.has o.name then .error .refused
  else .ok { given with options := (o.name, value) :: given.options }

end Given

structure Reading where
  given : Given := {}
  /-- The option that waits for its value. -/
  waiting : Option Switch := none
  /-- Every further argument is positional. -/
  onlyPositional : Bool := false

namespace Reading

def afterEquals (text : List Char) : String :=
  match text with
  | '=' :: rest => String.ofList rest
  | _ => String.ofList text

def withValue
    (given : Given)
    (o : Switch)
    (value : String) :
    Except Stop Reading :=
  match o.purpose with
  | .value kind =>
      if kind.accepts value then (given.add o value).map fun given => { given }
      else .error .refused
  | _ => .error .refused

def withoutValue
    (given : Given)
    (o : Switch) :
    Except Stop Reading :=
  match o.purpose with
  | .value _ => .ok { given, waiting := some o }
  | .mark => (given.add o "").map fun given => { given }
  | .help => .error .help

/-- Read letters that were run together. -/
def letters
    (options : List Switch)
    (given : Given) :
    List Char → Except Stop Reading
  | [] => .ok { given }
  | c :: rest =>
      match options.find? fun o => o.letter == some c with
      | none => .error .refused
      | some o =>
          match o.purpose, rest with
          | .value _, [] => withoutValue given o
          | .value _, _ :: _ => withValue given o (afterEquals rest)
          | _, _ =>
              match withoutValue given o with
              | .error stop => .error stop
              | .ok reading => letters options reading.given rest

/-- Read an option by its long name. -/
def long
    (options : List Switch)
    (given : Given)
    (name : String)
    (value : Option String) :
    Except Stop Reading :=
  match options.find? fun o => o.name == name with
  | none => .error .refused
  | some o =>
      match value with
      | some value => withValue given o value
      | none => withoutValue given o

def plain
    (positions : Nat)
    (reading : Reading)
    (argument : String) :
    Except Stop Reading :=
  match reading.waiting with
  | some o => withValue reading.given o argument
  | none =>
      if reading.given.positional.size < positions then
        .ok { reading with
          given := { reading.given with
            positional := reading.given.positional.push argument } }
      else
        .error .refused

/-- Read one more argument of a command. -/
def argument
    (options : List Switch)
    (positions : Nat)
    (reading : Reading)
    (argument : String) :
    Except Stop Reading :=
  if reading.onlyPositional then
    plain positions reading argument
  else
    match argument.toList with
    | ['-'] => plain positions reading argument
    | ['-', '-'] =>
        if reading.waiting.isSome then .error .refused
        else .ok { reading with onlyPositional := true }
    | '-' :: '-' :: text =>
        if reading.waiting.isSome then .error .refused
        else
          let name := String.ofList (text.takeWhile (· != '='))
          match text.dropWhile (· != '=') with
          | [] => long options reading.given name none
          | _ :: value => long options reading.given name (some (String.ofList value))
    | '-' :: text =>
        if reading.waiting.isSome then .error .refused else letters options reading.given text
    | _ => plain positions reading argument

/-- What was given, if no option waits and no positional argument is missing. -/
def finish
    (positions : Nat)
    (reading : Reading) :
    Except Stop Given :=
  if reading.waiting.isNone && reading.given.positional.size == positions then
    .ok reading.given
  else
    .error .refused

end Reading

/-- The arguments of a command with some options. -/
def given
    (options : List Switch)
    (positions : Nat)
    (arguments : List String) :
    Except Stop Given :=
  match arguments.foldlM (Reading.argument (helpOption :: options) positions) {} with
  | .error stop => .error stop
  | .ok reading => reading.finish positions

end Arguments

section Commands

inductive Command
  | about
  | version
  | help
  | run (program : String) (cycles : Nat) (map : Option String) (trace : Bool)
  | debug (program : String) (map : Option String)
  | assemble (source : String) (output : Option String)
  | list (image : String) (origin : UInt16)
  deriving DecidableEq

namespace Command

section Options

def cyclesOption : Switch :=
  { name := "cycles", letter := some 'c', purpose := .value .count }

def mapOption : Switch := { name := "config", purpose := .value .text }

def traceOption : Switch := { name := "trace", letter := some 't', purpose := .mark }

def outputOption : Switch :=
  { name := "output", letter := some 'o', purpose := .value .text }

def originOption : Switch := { name := "origin", purpose := .value .address }

/-- Ticks of a run that is not given a number. -/
def standardCycles : Nat := 1000

def valueOr
    {α : Type}
    (given : Given)
    (o : Switch)
    (standard : α)
    (read : String → Option α) :
    α :=
  ((given.value? o.name).bind read).getD standard

end Options

section Commands

/-- Read the arguments of a command with one positional argument. -/
def withSubject
    (options : List Switch)
    (command : String → Given → Command)
    (arguments : List String) :
    Except Stop Command :=
  match given options 1 arguments with
  | .error stop => .error stop
  | .ok given =>
      match given.positional[0]? with
      | some subject => .ok (command subject given)
      | none => .error .refused

def ofRunArguments : List String → Except Stop Command :=
  withSubject [cyclesOption, mapOption, traceOption] fun program given =>
    run program
      (valueOr given cyclesOption standardCycles count?)
      (given.value? mapOption.name)
      (given.has traceOption.name)

def ofDebugArguments : List String → Except Stop Command :=
  withSubject [mapOption] fun program given => debug program (given.value? mapOption.name)

def ofAssembleArguments : List String → Except Stop Command :=
  withSubject [outputOption] fun source given =>
    assemble source (given.value? outputOption.name)

def ofListArguments : List String → Except Stop Command :=
  withSubject [originOption] fun image given =>
    list image (valueOr given originOption 0 address?)

/-- Read the arguments of `help`: at most the name of a command. -/
def ofHelpArguments : List String → Except Stop Command
  | [] => .ok help
  | [name] =>
      if name ∈ ["run", "debug", "asm", "disasm", "help"] then .ok help else .error .refused
  | _ => .error .refused

/-- Read the arguments after the name of a command. -/
def named
    (name : String)
    (arguments : List String) :
    Except Stop Command :=
  if name = "run" then ofRunArguments arguments
  else if name = "debug" then ofDebugArguments arguments
  else if name = "asm" then ofAssembleArguments arguments
  else if name = "disasm" then ofListArguments arguments
  else if name = "help" then ofHelpArguments arguments
  else .error .refused

/-- The command that the arguments ask for; nothing if they are refused. -/
def ofArguments? : List String → Option Command
  | [] => some about
  | ["--"] => some about
  | first :: rest =>
      if first = "--help" ∨ first.startsWith "-h" then some help
      else if first = "--version" ∨ first.startsWith "-V" then some version
      else
        match named first rest with
        | .ok command => some command
        | .error .help => some help
        | .error .refused => none

end Commands

end Command

end Commands

end CommandLine
end Microcomputer
