import Microcomputer.Source.Syntax
import Microcomputer.Source.Tokens

/-!
# The sections of a source

    program = section*
    section = origin number item+                       number at most 65535
    item    = name colon                                any name
            | name number                               `db`, number at most 255
            | name openBracket operand closeBracket     a mnemonic
    operand = number | name                             number at most 65535

A token out of place is reported where it starts.  Where a token is missing at the end of the
source, the last token is reported; every function here is told its place, `last`.
-/

namespace Microcomputer
namespace Source

section Parts

/-- A breach of the syntax at the next token, or at the last one. -/
def misplaced
    (last : Location)
    (rest : List Token)
    (fault : Option TokenKind → SyntaxFault) :
    AssemblyError :=
  match rest with
  | token :: _ => .malformed token.location (fault (some token.kind))
  | [] => .malformed last (fault none)

/-- Read a token that must be of a given kind, and tell its place. -/
def expect
    (last : Location)
    (wanted : TokenKind)
    (context : Context) :
    List Token → Except AssemblyError (Location × List Token)
  | token :: rest =>
      if token.kind = wanted then .ok (token.location, rest)
      else .error (misplaced last (token :: rest) (.expectedToken wanted context))
  | [] => .error (misplaced last [] (.expectedToken wanted context))

/-- Read a number that must not be above `bound`. -/
def readNumber
    (last : Location)
    (context : Context)
    (bound : Nat) :
    List Token → Except AssemblyError (Nat × List Token)
  | ⟨.number value, location⟩ :: rest =>
      if value.toNat ≤ bound then .ok (value.toNat, rest)
      else .error (.outOfRange location value.toNat)
  | rest => .error (misplaced last rest (.expectedNumber context))

/-- Read what stands between the brackets of an address. -/
def readOperand (last : Location) : List Token → Except AssemblyError (Operand × List Token)
  | ⟨.number value, location⟩ :: rest =>
      if value.toNat < 65536 then .ok (.address (UInt16.ofNat value.toNat), rest)
      else .error (.outOfRange location value.toNat)
  | ⟨.name label, _⟩ :: rest => .ok (.label label, rest)
  | rest => .error (misplaced last rest .expectedAddress)

def readAddress
    (last : Location)
    (instruction : Instruction)
    (text : List Token) :
    Except AssemblyError (Operand × List Token) :=
  match expect last .openBracket (.afterMnemonic instruction) text with
  | .error e => .error e
  | .ok (_, inner) =>
      match readOperand last inner with
      | .error e => .error e
      | .ok (operand, tail) =>
          match expect last .closeBracket .afterAddress tail with
          | .error e => .error e
          | .ok (_, rest) => .ok (operand, rest)

/-- Read the rest of an item that starts with a name and is not a label. -/
def readNamed
    (last : Location)
    (name : String)
    (location : Location)
    (text : List Token) :
    Except AssemblyError (Item × List Token) :=
  if Text.sameWord name "db" then
    match readNumber last .afterByte 255 text with
    | .error e => .error e
    | .ok (value, rest) => .ok (.byte (UInt8.ofNat value), rest)
  else
    match Instruction.ofMnemonic? name with
    | none => .error (.malformed location (.unknownMnemonic name))
    | some instruction =>
        match readAddress last instruction text with
        | .error e => .error e
        | .ok (operand, rest) => .ok (.instruction instruction operand, rest)

def readItem
    (last : Location)
    (token : Token)
    (text : List Token) :
    Except AssemblyError (Item × List Token) :=
  match token.kind, text with
  | .name name, ⟨.colon, _⟩ :: rest => .ok (.label name, rest)
  | .name name, text => readNamed last name token.location text
  | other, _ => .error (.malformed token.location (.expectedStatement other))

end Parts

section Lengths

theorem expect_length
    {last place : Location}
    {wanted : TokenKind}
    {context : Context}
    {text rest : List Token}
    (h : expect last wanted context text = .ok (place, rest)) :
    text.length = rest.length + 1 := by
  unfold expect at h
  split at h
  · split at h
    · cases h; rfl
    · cases h
  · cases h

theorem readNumber_length
    {last : Location}
    {context : Context}
    {bound value : Nat}
    {text rest : List Token}
    (h : readNumber last context bound text = .ok (value, rest)) :
    text.length = rest.length + 1 := by
  unfold readNumber at h
  split at h
  · split at h
    · cases h; rfl
    · cases h
  · cases h

theorem readOperand_length
    {last : Location}
    {operand : Operand}
    {text rest : List Token}
    (h : readOperand last text = .ok (operand, rest)) :
    text.length = rest.length + 1 := by
  unfold readOperand at h
  split at h
  · split at h
    · cases h; rfl
    · cases h
  · cases h; rfl
  · cases h

theorem readAddress_length
    {last : Location}
    {instruction : Instruction}
    {operand : Operand}
    {text rest : List Token}
    (h : readAddress last instruction text = .ok (operand, rest)) :
    text.length = rest.length + 3 := by
  unfold readAddress at h
  split at h
  · cases h
  · next h1 =>
      split at h
      · cases h
      · next h2 =>
          split at h
          · cases h
          · next h3 =>
              cases h
              have := expect_length h1
              have := readOperand_length h2
              have := expect_length h3
              omega

theorem readNamed_length
    {last location : Location}
    {name : String}
    {item : Item}
    {text rest : List Token}
    (h : readNamed last name location text = .ok (item, rest)) :
    rest.length < text.length := by
  unfold readNamed at h
  split at h
  · split at h
    · cases h
    · next hn =>
        cases h
        have := readNumber_length hn
        omega
  · split at h
    · cases h
    · split at h
      · cases h
      · next ha =>
          cases h
          have := readAddress_length ha
          omega

theorem readItem_length_lt
    {last : Location}
    {token : Token}
    {item : Item}
    {text rest : List Token}
    (h : readItem last token text = .ok (item, rest)) :
    rest.length < text.length := by
  unfold readItem at h
  split at h
  · cases h
    simp
  · exact readNamed_length h
  · cases h

end Lengths

section Whole

/-- The statements up to the next `.org` or the end, after those in `done`. -/
def readStatements
    (last : Location)
    (done : Array Statement) :
    List Token → Except AssemblyError (List Statement × List Token)
  | [] => .ok (done.toList, [])
  | token :: text =>
      if token.kind = .origin then
        .ok (done.toList, token :: text)
      else
        match _read : readItem last token text with
        | .error e => .error e
        | .ok (item, rest) => readStatements last (done.push ⟨item, token.location⟩) rest
termination_by text => text.length
decreasing_by
  have := readItem_length_lt _read
  simp
  omega

theorem readStatements_length_le
    {last : Location}
    {done : Array Statement}
    {text rest : List Token}
    {statements : List Statement}
    (h : readStatements last done text = .ok (statements, rest)) :
    rest.length ≤ text.length := by
  fun_induction readStatements last done text with
  | case1 => cases h; simp
  | case2 => cases h; simp
  | case3 => cases h
  | case4 done token text _ item rest' hr ih =>
      have := readItem_length_lt hr
      have := ih h
      simp
      omega

def readSection
    (last : Location)
    (text : List Token) :
    Except AssemblyError (Section × List Token) :=
  match expect last .origin .sectionStart text with
  | .error e => .error e
  | .ok (location, afterOrigin) =>
      match readNumber last .afterOrigin 65535 afterOrigin with
      | .error e => .error e
      | .ok (origin, body) =>
          match readStatements last #[] body with
          | .error e => .error e
          | .ok ([], _) => .error (.malformed location .emptySection)
          | .ok (first :: others, rest) =>
              .ok (⟨UInt16.ofNat origin, location, first :: others⟩, rest)

theorem readSection_length_lt
    {last : Location}
    {text rest : List Token}
    {found : Section}
    (h : readSection last text = .ok (found, rest)) :
    rest.length < text.length := by
  unfold readSection at h
  split at h
  · cases h
  · next h1 =>
      split at h
      · cases h
      · next h2 =>
          split at h
          · cases h
          · cases h
          · next h3 =>
              cases h
              have := expect_length h1
              have := readNumber_length h2
              have := readStatements_length_le h3
              omega

/-- The sections of the tokens, after those in `done`. -/
def readSections
    (last : Location)
    (done : Array Section)
    (text : List Token) :
    Except AssemblyError (List Section) :=
  if text.isEmpty then
    .ok done.toList
  else
    match _read : readSection last text with
    | .error e => .error e
    | .ok (found, rest) => readSections last (done.push found) rest
termination_by text.length
decreasing_by exact readSection_length_lt _read

def lastLocation (text : List Token) : Location :=
  (text.getLast?.map (·.location)).getD .nowhere

/-- The sections that the tokens of a source make up, in the order of the source. -/
def sections (text : List Token) : Except AssemblyError (List Section) :=
  readSections (lastLocation text) #[] text

end Whole
end Source
end Microcomputer
