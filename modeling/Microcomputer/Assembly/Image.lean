import Microcomputer.Device
import Microcomputer.Source.Sections
import Microcomputer.Source.Syntax
import Std.Data.HashMap

/-!
# The image of a program

**Layout.**  Sections are laid out in ascending order of their origins, and those with equal origins
in the order of the source.  The items of a section follow each other from its origin on without
gaps.  `layOut` goes through the program once and reports the first error.

**Image.**  The bytes are written one section after the other, with zeros in the gap before each
origin.  A label as an operand stands for the address where it is defined, before or after its use.

**Errors.**  Those of the tokens come first, then those of the syntax, of the layout, and of the
labels used.
-/

namespace Microcomputer

namespace Assembly

open Source (Location Statement Section Operand)

def addressSpace : Nat := 65536

abbrev Labels := Std.HashMap String UInt16

def inOrder (sections : List Section) : List Section :=
  sections.mergeSort fun s t => s.origin ≤ t.origin

def define
    (labels : Labels)
    (address : Nat)
    (location : Location)
    (name : String) :
    Except AssemblyError Labels :=
  if labels.contains name then
    .error (.duplicateLabel location name)
  else if address < addressSpace then
    .ok (labels.insert name (UInt16.ofNat address))
  else
    .error (.outOfRange location address)

def record
    (labels : Labels)
    (address : Nat)
    (statement : Statement) :
    Except AssemblyError Labels :=
  match statement.item with
  | .label name => define labels address statement.location name
  | _ => .ok labels

def layOutStatements
    (labels : Labels)
    (address : Nat) :
    List Statement → Except AssemblyError Labels
  | [] => .ok labels
  | statement :: rest =>
      match record labels address statement with
      | .error e => .error e
      | .ok labels =>
          if address + statement.item.size ≤ addressSpace then
            layOutStatements labels (address + statement.item.size) rest
          else
            .error (.outOfRange statement.location (address + statement.item.size))

/-- The section that a section overlaps, of the one laid out before it. -/
def overlapped?
    (previous : Option Section)
    (s : Section) :
    Option Section :=
  previous.filter fun p => s.origin.toNat < p.stop

/-- Lay out sections after a previous one. -/
def layOutSections
    (labels : Labels)
    (previous : Option Section) :
    List Section → Except AssemblyError Labels
  | [] => .ok labels
  | s :: rest =>
      match overlapped? previous s with
      | some p => .error (.overlappingSections p.origin s.origin)
      | none =>
          match layOutStatements labels s.origin.toNat s.statements with
          | .error e => .error e
          | .ok labels => layOutSections labels (some s) rest

/-- The labels of a program whose sections are in layout order. -/
def layOut (sections : List Section) : Except AssemblyError Labels :=
  layOutSections {} none sections


section Bytes

def resolve
    (labels : Labels)
    (location : Location) :
    Operand → Except AssemblyError UInt16
  | .address value => .ok value
  | .label name =>
      match labels[name]? with
      | some value => .ok value
      | none => .error (.unresolvedLabel location name)

def addressBytes (address : UInt16) : List UInt8 :=
  [UInt8.ofNat (address.toNat % 256), UInt8.ofNat (address.toNat / 256)]

def bytesOf
    (labels : Labels)
    (statement : Statement) :
    Except AssemblyError (List UInt8) :=
  match statement.item with
  | .label _ => .ok []
  | .byte value => .ok [value]
  | .instruction i operand =>
      match resolve labels statement.location operand with
      | .error e => .error e
      | .ok address => .ok (i.opcode :: addressBytes address)

end Bytes

section Writing

/-- Write statements at the end of an image. -/
def writeStatements
    (labels : Labels)
    (image : Image) :
    List Statement → Except AssemblyError Image
  | [] => .ok image
  | statement :: rest =>
      match bytesOf labels statement with
      | .error e => .error e
      | .ok bytes => writeStatements labels (image.appendList bytes) rest

def fillTo
    (image : Image)
    (address : Nat) :
    Image :=
  image ++ Array.replicate (address - image.size) 0

/-- Write sections, in layout order, at the end of an image. -/
def writeSections
    (labels : Labels)
    (image : Image) :
    List Section → Except AssemblyError Image
  | [] => .ok image
  | s :: rest =>
      match writeStatements labels (fillTo image s.origin.toNat) s.statements with
      | .error e => .error e
      | .ok image => writeSections labels image rest

end Writing

/-- The image of a list of sections, in the order of the source. -/
def ofSections (sections : List Section) : Except AssemblyError Image :=
  match layOut (inOrder sections) with
  | .error e => .error e
  | .ok labels => writeSections labels #[] (inOrder sections)

end Assembly

def assemble (source : String) : Except AssemblyError Image :=
  match Source.tokens source with
  | .error e => .error e
  | .ok [] => .error .empty
  | .ok tokens =>
      match Source.sections tokens with
      | .error e => .error e
      | .ok sections => Assembly.ofSections sections

end Microcomputer
