import Microcomputer.Instruction
import Microcomputer.Text.Numeral

/-!
# The syntax of sources

**Places.**  Lines and columns are counted from one; a column is a count of characters.

**Tokens.**  The words and signs of a source, each with the place where it starts.

**Programs.**  What the tokens say together: sections, each of them an origin and a run of
statements.

**Errors.**  Why a source has no image, and the wording of every message.
-/

namespace Microcomputer
namespace Source

section Places

structure Location where
  line : Nat
  column : Nat
  deriving DecidableEq

namespace Location

def start : Location := ⟨1, 1⟩

/-- The place of no character. -/
def nowhere : Location := ⟨0, 0⟩

def advance
    (place : Location)
    (c : Char) :
    Location :=
  if c = '\n' then ⟨place.line + 1, 1⟩ else ⟨place.line, place.column + 1⟩

def after
    (place : Location)
    (passed : List Char) :
    Location :=
  passed.foldl advance place

def name (place : Location) : String :=
  "line " ++ Text.decimal place.line ++ ", column " ++ Text.decimal place.column

@[simp]
theorem after_nil (place : Location) : place.after [] = place :=
  rfl

@[simp]
theorem after_cons
    (place : Location)
    (c : Char)
    (passed : List Char) :
    place.after (c :: passed) = (place.advance c).after passed :=
  rfl

theorem after_append
    (place : Location)
    (first second : List Char) :
    place.after (first ++ second) = (place.after first).after second := by
  simp [after]

end Location

end Places

section Tokens

inductive TokenKind
  /-- The directive `.org`, which starts a section. -/
  | origin
  /-- A name: a label, a mnemonic or `db`. -/
  | name (text : String)
  | number (value : UInt32)
  | openBracket
  | closeBracket
  | colon
  deriving DecidableEq

def TokenKind.description : TokenKind → String
  | .origin => "`.org`"
  | .name text => "`" ++ text ++ "`"
  | .number value => "number " ++ Text.hexLiteral 1 value.toNat
  | .openBracket => "`[`"
  | .closeBracket => "`]`"
  | .colon => "`:`"

/-- A token and the place of its first character. -/
structure Token where
  kind : TokenKind
  location : Location
  deriving DecidableEq

end Tokens

section Programs

/-- The address of an instruction, as a number or as the label of a statement. -/
inductive Operand
  | address (value : UInt16)
  | label (name : String)
  deriving DecidableEq

inductive Item
  /-- The definition of a label; it takes no room. -/
  | label (name : String)
  | instruction (instruction : Instruction) (operand : Operand)
  | byte (value : UInt8)
  deriving DecidableEq

def Item.size : Item → Nat
  | .label _ => 0
  | .instruction _ _ => Instruction.size
  | .byte _ => 1

/-- An item and the place of its first token. -/
structure Statement where
  item : Item
  location : Location
  deriving DecidableEq

def totalSize (statements : List Statement) : Nat :=
  statements.foldl (fun size s => size + s.item.size) 0

@[simp]
theorem totalSize_nil : totalSize [] = 0 :=
  rfl

@[simp]
theorem totalSize_cons
    (s : Statement)
    (rest : List Statement) :
    totalSize (s :: rest) = s.item.size + totalSize rest := by
  have shift : ∀ (rest : List Statement) (size : Nat),
      rest.foldl (fun size s => size + s.item.size) size =
        size + rest.foldl (fun size s => size + s.item.size) 0 := by
    intro rest
    induction rest with
    | nil => simp
    | cons t rest ih =>
        intro size
        simp only [List.foldl_cons]
        rw [ih (size + t.item.size), ih (0 + t.item.size)]
        omega
  simp only [totalSize, List.foldl_cons]
  rw [shift rest (0 + s.item.size)]
  omega

/-- Statements that follow each other in the image from an origin on. -/
structure Section where
  origin : UInt16
  /-- The place of the `.org` that starts the section. -/
  location : Location
  statements : List Statement
  deriving DecidableEq

namespace Section

def size (s : Section) : Nat :=
  totalSize s.statements

/-- The address after the last byte of a section. -/
def stop (s : Section) : Nat :=
  s.origin.toNat + s.size

end Section

end Programs

section Faults

/-- Where in a statement a token is wanted. -/
inductive Context
  | sectionStart
  | afterOrigin
  | afterByte
  | afterMnemonic (instruction : Instruction)
  | afterAddress
  deriving DecidableEq

def Context.description : Context → String
  | .sectionStart => "to start a section"
  | .afterOrigin => "after `.org`"
  | .afterByte => "after `db`"
  | .afterMnemonic instruction => "after `" ++ instruction.mnemonic ++ "`"
  | .afterAddress => "to close the address"

inductive SyntaxFault
  | unterminatedComment
  /-- A full stop before a name other than `org`. -/
  | unknownDirective (name : String)
  /-- A number without digits, or with a letter or an underscore at its end. -/
  | malformedNumber
  /-- A number of more than 32 bits. -/
  | numberTooLarge
  | unexpectedCharacter (c : Char)
  /-- Another token than the wanted one, or the end of the source. -/
  | expectedToken (wanted : TokenKind) (context : Context) (found : Option TokenKind)
  | expectedNumber (context : Context) (found : Option TokenKind)
  /-- Another token than a name where a statement starts. -/
  | expectedStatement (found : TokenKind)
  | unknownMnemonic (name : String)
  /-- Neither a number nor a name inside the brackets of an address. -/
  | expectedAddress (found : Option TokenKind)
  | emptySection
  deriving DecidableEq

def foundDescription : Option TokenKind → String
  | some kind => ", found " ++ kind.description
  | none => ", found end of input"

def SyntaxFault.message : SyntaxFault → String
  | .unterminatedComment => "unterminated block comment"
  | .unknownDirective name => "unknown directive `." ++ name ++ "`"
  | .malformedNumber => "malformed number literal"
  | .numberTooLarge => "number literal too large"
  | .unexpectedCharacter c => "unexpected character `" ++ String.singleton c ++ "`"
  | .expectedToken wanted context found =>
      "expected " ++ wanted.description ++ " " ++ context.description ++ foundDescription found
  | .expectedNumber context found =>
      "expected number " ++ context.description ++ foundDescription found
  | .expectedStatement found => "expected label or mnemonic, found " ++ found.description
  | .unknownMnemonic name => "unknown mnemonic `" ++ name ++ "`"
  | .expectedAddress (some found) => "expected address or label, found " ++ found.description
  | .expectedAddress none => "expected address or label"
  | .emptySection => "section contains no instructions"

end Faults

end Source

section Errors

inductive AssemblyError
  | malformed (location : Source.Location) (fault : Source.SyntaxFault)
  | unresolvedLabel (location : Source.Location) (label : String)
  | duplicateLabel (location : Source.Location) (label : String)
  /-- A number does not fit where it stands, or the section runs out of the address space. -/
  | outOfRange (location : Source.Location) (value : Nat)
  | overlappingSections (first second : UInt16)
  | empty
  deriving DecidableEq

def AssemblyError.message : AssemblyError → String
  | .malformed location fault =>
      "syntax error at " ++ location.name ++ ": " ++ fault.message
  | .unresolvedLabel location label =>
      "unresolved symbol `" ++ label ++ "` at " ++ location.name
  | .duplicateLabel location label =>
      "label `" ++ label ++ "` defined twice (second definition at " ++ location.name ++ ")"
  | .outOfRange location value =>
      "value " ++ Text.hexLiteral 1 value ++ " out of range at " ++ location.name
  | .overlappingSections first second =>
      "section at " ++ Text.hexLiteral 4 second.toNat
        ++ " overlaps section at " ++ Text.hexLiteral 4 first.toNat
  | .empty => "source contains no sections"

/-- The place that an assembly error points at, if it has one. -/
def AssemblyError.location? : AssemblyError → Option Source.Location
  | .malformed location _ => some location
  | .unresolvedLabel location _ => some location
  | .duplicateLabel location _ => some location
  | .outOfRange location _ => some location
  | .overlappingSections _ _ => none
  | .empty => none

end Errors

end Microcomputer
