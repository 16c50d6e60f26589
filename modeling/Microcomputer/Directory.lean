import Microcomputer.Device
import Microcomputer.Text.Utf8

/-!
# Directories

The files that a command sees, by their paths relative to the directory it runs in.

**Paths.**  A full stop alone stays where it is, as does nothing between two slashes; two full stops
go up.  Every other step but the last has to be a folder that exists.  A path that ends in a slash
or in full stops alone is not the path of a file.
-/

namespace Microcomputer

inductive FileError
  | notFound
  | notFolder
  | isFolder
  | nameTooLong
  /-- The path holds a character that no path can hold. -/
  | nulInPath
  /-- The contents are not UTF-8. -/
  | notText
  | refused (reason : String)
  deriving DecidableEq

def FileError.message : FileError → String
  | .notFound => "No such file or directory (os error 2)"
  | .notFolder => "Not a directory (os error 20)"
  | .isFolder => "Is a directory (os error 21)"
  | .nameTooLong => "File name too long (os error 36)"
  | .nulInPath => "file name contained an unexpected NUL byte"
  | .notText => "stream did not contain valid UTF-8"
  | .refused reason => reason

/-- The files in sight; a file that cannot be used is kept with the reason. -/
structure Directory where
  files : List (String × Except FileError Image) := []
  /-- Folders that exist besides those that hold a file. -/
  folders : List String := []

namespace Directory

section Paths

def maxNameBytes : Nat := 255

def maxPathBytes : Nat := 4095

/-- The name for some steps from a starting point. -/
def joined (steps : List String) : String :=
  "/".intercalate steps

/-- One step up; above the directory itself the steps up are kept. -/
def up (here : List String) : List String :=
  match here.getLast? with
  | none => [".."]
  | some last => if last = ".." then here ++ [".."] else here.dropLast

def hasFile
    (dir : Directory)
    (place : List String) :
    Bool :=
  (dir.files.lookup (joined place)).isSome

def hasFolder
    (dir : Directory)
    (place : List String) :
    Bool :=
  dir.folders.contains (joined place)
    || dir.files.any fun file => file.1.startsWith (joined place ++ "/")

def enter
    (dir : Directory)
    (here : List String)
    (step : String) :
    Except FileError (List String) :=
  if step = ".." then .ok (up here)
  else if maxNameBytes < step.utf8ByteSize then .error .nameTooLong
  else
    let next := here ++ [step]
    if dir.hasFolder next then .ok next
    else if dir.hasFile next then .error .notFolder
    else .error .notFound

inductive Place
  | folder
  /-- A name in a folder that exists; whether the path goes on with a slash. -/
  | entry (name : String) (slash : Bool)
  /-- A name with too many bytes, for which there can be no file. -/
  | longName (slash : Bool)
  deriving DecidableEq

/-- The steps of a path; nothing between two slashes is no step. -/
def steps (path : String) : List String :=
  ((path.toList.splitOn '/').map String.ofList).filter (· != "")

/-- The steps of a path that lead somewhere; a full stop alone stays where it is. -/
def moves (path : String) : List String :=
  (steps path).filter (· != ".")

/-- Where a path starts: at the top if it starts with a slash. -/
def start (path : String) : List String :=
  if path.startsWith "/" then [""] else []

/-- Follow a path to where it leads. -/
def place
    (dir : Directory)
    (path : String) :
    Except FileError Place :=
  if path.isEmpty then .error .notFound
  else if path.toList.contains '\x00' then .error .nulInPath
  else if maxPathBytes < path.utf8ByteSize then .error .nameTooLong
  else
    match (steps path).getLast? with
    | none => .ok .folder
    | some last =>
        if last = "." ∨ last = ".." then
          ((moves path).foldlM dir.enter (start path)).map fun _ => .folder
        else
          match (moves path).dropLast.foldlM dir.enter (start path) with
          | .error e => .error e
          | .ok here =>
              if maxNameBytes < last.utf8ByteSize then .ok (.longName (path.endsWith "/"))
              else if dir.hasFolder (here ++ [last]) then .ok .folder
              else .ok (.entry (joined (here ++ [last])) (path.endsWith "/"))

end Paths

section Files

def read
    (dir : Directory)
    (path : String) :
    Except FileError Image :=
  match dir.place path with
  | .error e => .error e
  | .ok .folder => .error .isFolder
  | .ok (.longName _) => .error .nameTooLong
  | .ok (.entry name slash) =>
      match dir.files.lookup name with
      | none => .error .notFound
      | some contents => if slash then .error .notFolder else contents

def readText
    (dir : Directory)
    (path : String) :
    Except FileError String :=
  match dir.read path with
  | .error e => .error e
  | .ok bytes =>
      match Text.ofUtf8? bytes with
      | some text => .ok text
      | none => .error .notText

def put
    (name : String)
    (bytes : Image) :
    List (String × Except FileError Image) → List (String × Except FileError Image)
  | [] => [(name, .ok bytes)]
  | file :: rest =>
      if file.1 = name then (name, .ok bytes) :: rest else file :: put name bytes rest

/-- Write a file, whether or not it exists. -/
def write
    (dir : Directory)
    (path : String)
    (bytes : Image) :
    Except FileError Directory :=
  match dir.place path with
  | .error e => .error e
  | .ok .folder => .error .isFolder
  | .ok (.longName slash) => .error (if slash then .isFolder else .nameTooLong)
  | .ok (.entry _ true) => .error .isFolder
  | .ok (.entry name false) =>
      match dir.files.lookup name with
      | some (.error e) => .error e
      | _ => .ok { dir with files := put name bytes dir.files }

end Files

end Directory

inductive ImageError
  | file (error : FileError)
  | tooLarge (size : Nat)
  deriving DecidableEq

def maxImageSize : Nat := 65536

def ImageError.message : ImageError → String
  | .file error => "I/O error: " ++ error.message
  | .tooLarge size =>
      "image is " ++ Text.decimal size ++ " bytes; the address space holds "
        ++ Text.decimal maxImageSize

namespace Directory

def loadImage
    (dir : Directory)
    (path : String) :
    Except ImageError Image :=
  match dir.read path with
  | .error e => .error (.file e)
  | .ok bytes => if bytes.size ≤ maxImageSize then .ok bytes else .error (.tooLarge bytes.size)

def saveImage
    (dir : Directory)
    (path : String)
    (image : Image) :
    Except ImageError Directory :=
  if image.size ≤ maxImageSize then
    (dir.write path image).mapError .file
  else
    .error (.tooLarge image.size)

end Directory
end Microcomputer
