import Microcomputer.Text.Characters
import Microcomputer.Text.Numeral

/-!
# Patterns

Regular expressions as a condition on the value of a field writes them.  What counts here is only
whether a text is a pattern at all.

**Syntax.**  Alternatives divided by bars, each a sequence of parts, and after a part any number of
`*`, `+` and `?`.  A part is a character, a full stop, an anchor, an escape, a set in brackets, or
a group in parentheses, which can have a name or set modes.  Counts in braces are not part of the
syntax, because a brace ends the condition.

**Modes.**  A letter sets a mode from its place on; the same letter after a hyphen takes it back.
Where patterns are spaced out, blanks and remarks stand for nothing.

**Limits.**  A pattern of characters that needs classes beyond ASCII or the cases of its characters
is refused; so is a pattern of bytes that can hold half a character, and a pattern whose parts
stand too deep inside one another.  A group, a set, a repetition, an operator of sets and parts
side by side each add one to the depth of what they hold.
-/

namespace Microcomputer
namespace Pattern

section Modes

structure Modes where
  ignoreCase : Bool := false
  /-- The pattern is one of bytes and not of characters. -/
  bytes : Bool := false
  /-- Blanks and remarks stand for nothing. -/
  spaced : Bool := false

/-- The rest of a text after blanks and remarks, perhaps inside a remark. -/
def afterGap (inRemark : Bool) : List Char → List Char
  | [] => []
  | c :: rest =>
      if inRemark then afterGap (c != '\n') rest
      else if Text.isBlank c then afterGap false rest
      else if c == '#' then afterGap true rest
      else c :: rest

namespace Modes

/-- Set a mode by its letter, or take it back. -/
def change?
    (modes : Modes)
    (taken : Bool) :
    Char → Option Modes
  | 'i' => some { modes with ignoreCase := !taken }
  | 'u' => some { modes with bytes := taken }
  | 'x' => some { modes with spaced := !taken }
  | c => if c ∈ ['m', 's', 'U', 'R'] then some modes else none

/-- Whether the case of characters is ignored; that of bytes is a matter of ASCII alone. -/
def foldsCharacters (modes : Modes) : Bool :=
  modes.ignoreCase && !modes.bytes

/-- Go to the next character that stands for something. -/
def skip
    (modes : Modes)
    (text : List Char) :
    List Char :=
  if modes.spaced then afterGap false text else text

/-- The next character after a hyphen; no more than the number sign of a remark is passed. -/
def glance?
    (modes : Modes)
    (text : List Char) :
    Option Char :=
  if modes.spaced then
    match text.dropWhile Text.isBlank with
    | '#' :: rest => (rest.dropWhile Text.isBlank).head?
    | rest => rest.head?
  else text.head?

end Modes

end Modes

section Nesting

def maxDepth : Nat := 250

def sideBySide : List Nat → Nat
  | [] => 0
  | [depth] => depth
  | depths => depths.foldl Nat.max 0 + 1

/-- What has been read of the inside of a group, or of a pattern. -/
structure Body where
  /-- The depths of the parts of the last alternative, the last part first. -/
  parts : List Nat := []
  before : List Nat := []
  /-- A part stands last that can be repeated. -/
  repeatable : Bool := false

namespace Body

def depth (body : Body) : Nat :=
  sideBySide (sideBySide body.parts :: body.before)

/-- Go on after a part that can be repeated. -/
def add
    (body : Body)
    (depth : Nat) :
    Body :=
  { body with parts := depth :: body.parts, repeatable := true }

/-- Go on after a change of modes, which cannot be repeated. -/
def mark (body : Body) : Body :=
  { body with parts := 0 :: body.parts, repeatable := false }

/-- Repeat the last part, if it can be repeated. -/
def repeated? (body : Body) : Option Body :=
  match body.repeatable, body.parts with
  | true, depth :: parts => some { body with parts := (depth + 1) :: parts }
  | _, _ => none

def alternative (body : Body) : Body :=
  { before := sideBySide body.parts :: body.before }

end Body

structure Members where
  /-- The depths of the members since the last operator, the last one first. -/
  depths : List Nat := []
  operand : Option Nat := none
  /-- Nothing but hyphens has been read. -/
  starting : Bool := true

namespace Members

def depth (members : Members) : Nat :=
  match members.operand with
  | none => sideBySide members.depths
  | some depth => Nat.max depth (sideBySide members.depths) + 1

def add
    (members : Members)
    (depth : Nat) :
    Members :=
  { members with depths := depth :: members.depths, starting := false }

def operator (members : Members) : Members :=
  { operand := some members.depth, starting := false }

def hyphen (members : Members) : Members :=
  { members with depths := 0 :: members.depths }

def isEmpty (members : Members) : Bool :=
  members.starting && members.depths.isEmpty

end Members

end Nesting

section Groups

inductive Opening
  | modes (modes : Modes)
  | group (modes : Modes)
  | named (name : List Char)

/-- Read letters of modes, after those already seen, the last one first. -/
def modes?
    (modes : Modes)
    (seen : List Char) :
    List Char → Option (Opening × List Char)
  | [] => none
  | ':' :: rest => if seen.head? = some '-' then none else some (.group modes, rest)
  | ')' :: rest =>
      if seen.isEmpty ∨ seen.head? = some '-' then none else some (.modes modes, rest)
  | c :: rest =>
      if c ∈ seen then none
      else if c = '-' then modes? modes (c :: seen) rest
      else
        match modes.change? (seen.contains '-') c with
        | some modes => modes? modes (c :: seen) rest
        | none => none

def isGroupName : List Char → Bool
  | [] => false
  | c :: rest =>
      (c == '_' || Text.isAlphabetic c)
        && rest.all fun c => Text.isAlphanumeric c || c ∈ ['_', '.', '[', ']']

def groupName? (text : List Char) : Option (Opening × List Char) :=
  let name := text.takeWhile (· != '>')
  match text.dropWhile (· != '>') with
  | [] => none
  | _ :: rest => if isGroupName name then some (.named name, rest) else none

def opening?
    (modes : Modes)
    (text : List Char) :
    Option (Opening × List Char) :=
  match modes.skip text with
  | '?' :: 'P' :: '<' :: rest => groupName? rest
  | '?' :: '<' :: rest => groupName? rest
  | '?' :: rest => modes? modes [] rest
  | rest => some (.group modes, rest)

end Groups

section Atoms

/-- What an escape or a character stands for. -/
inductive Atom
  | letter (c : Char)
  | set
  | anchor

def marks : List Char :=
  "\\.+*?()|[]\x7b\x7d^$#&-~".toList

def control? (c : Char) : Option Char :=
  [('a', '\x07'), ('f', '\x0c'), ('t', '\t'), ('n', '\n'), ('r', '\r'), ('v', '\x0b')].lookup c

/-- Read so many hexadecimal digits, perhaps with gaps before them. -/
def digits?
    (modes : Modes) :
    Nat → List Char → Option (List Char × List Char)
  | 0, text => some ([], text)
  | width + 1, text =>
      match modes.skip text with
      | [] => none
      | c :: rest =>
          if Text.isHexDigit c then
            (digits? modes width rest).map fun (digits, rest) => (c :: digits, rest)
          else none

/-- Read a character given by so many hexadecimal digits; two digits can give a byte instead. -/
def code?
    (modes : Modes)
    (width : Nat)
    (text : List Char) :
    Option (Atom × List Char) :=
  match digits? modes width text with
  | none => none
  | some (digits, rest) =>
      let value := Text.numeralValue 16 digits
      if modes.bytes && width == 2 && 0x7F < value then none
      else if h : value.isValidChar then some (.letter (Char.ofNatAux value h), rest)
      else none

def escape?
    (modes : Modes) :
    List Char → Option (Atom × List Char)
  | [] => none
  | 'x' :: rest => code? modes 2 rest
  | 'u' :: rest => code? modes 4 rest
  | 'U' :: rest => code? modes 8 rest
  | c :: rest =>
      if c ∈ ['d', 's', 'w'] then if modes.bytes then some (.set, rest) else none
      else if c ∈ ['A', 'z'] then some (.anchor, rest)
      else if c ∈ ['b', 'B', '<', '>'] then if modes.bytes then some (.anchor, rest) else none
      else
        match control? c with
        | some special => some (.letter special, rest)
        | none =>
            if c ∈ marks then some (.letter c, rest)
            else if c.isAlphanum || 0x7F < c.toNat then none
            else some (.letter c, rest)

def atom?
    (modes : Modes) :
    List Char → Option (Atom × List Char)
  | [] => none
  | '\\' :: rest => escape? modes rest
  | c :: rest => some (.letter c, rest)

def Atom.inSet
    (modes : Modes) :
    Atom → Bool
  | .letter c => !modes.bytes || c.toNat ≤ 0x7F
  | .set => true
  | .anchor => false

end Atoms

section Sets

def classNames : List String :=
  ["alnum", "alpha", "ascii", "blank", "cntrl", "digit", "graph", "lower", "print", "punct",
    "space", "upper", "word", "xdigit"]

/-- Read a class of ASCII after its first bracket, and whether it is turned round. -/
def namedClass? : List Char → Option (Bool × List Char)
  | ':' :: rest =>
      let (turned, rest) := match rest with
        | '^' :: rest => (true, rest)
        | _ => (false, rest)
      match rest.dropWhile (· != ':') with
      | ':' :: ']' :: after =>
          let name := String.ofList (rest.takeWhile (· != ':'))
          if name ∈ classNames then some (turned, after) else none
      | _ => none
  | _ => none

def setStart?
    (modes : Modes)
    (text : List Char) :
    Option (List Char) :=
  match modes.skip text with
  | '^' :: rest => if modes.bytes then none else some rest
  | rest => some rest

/-- Read a member of a set: an atom, or two with a hyphen between them. -/
def member?
    (modes : Modes)
    (text : List Char) :
    Option (List Char) :=
  match atom? modes text with
  | none => none
  | some (first, rest) =>
      if !first.inSet modes then none
      else
        match modes.skip rest with
        | '-' :: more =>
            if modes.glance? more ∈ [some ']', some '-'] then some ('-' :: more)
            else
              match first, atom? modes (modes.skip more) with
              | .letter low, some (.letter high, rest) =>
                  if low.toNat ≤ high.toNat && (Atom.letter high).inSet modes then some rest
                  else none
              | _, _ => none
        | rest => some rest

/-- What has been read of a set and of the sets around it, the innermost first. -/
structure Sets where
  members : Members := {}
  around : List Members := []

namespace Sets

/-- Go on after a member that is not a set. -/
def member
    (sets : Sets)
    (modes : Modes)
    (rest : List Char) :
    Option (Sets × List Char) :=
  if modes.foldsCharacters then none
  else some ({ sets with members := sets.members.add 0 }, rest)

/-- Read a class of ASCII or the beginning of a set, after its first bracket. -/
def opened?
    (sets : Sets)
    (modes : Modes)
    (text : List Char) :
    Option (Sets × List Char) :=
  match namedClass? text with
  | some (turned, rest) => if turned && modes.bytes then none else sets.member modes rest
  | none => (setStart? modes text).map fun rest => ({ around := sets.members :: sets.around }, rest)

/-- Read the next part of a set that goes on. -/
def next?
    (sets : Sets)
    (modes : Modes) :
    List Char → Option (Sets × List Char)
  | '[' :: rest => sets.opened? modes rest
  | '&' :: '&' :: rest => some ({ sets with members := sets.members.operator }, rest)
  | '~' :: '~' :: rest => some ({ sets with members := sets.members.operator }, rest)
  | '-' :: rest =>
      if sets.members.starting then
        if modes.foldsCharacters then none
        else some ({ sets with members := sets.members.hyphen }, rest)
      else
        match rest with
        | '-' :: rest => some ({ sets with members := sets.members.operator }, rest)
        | _ => (member? modes ('-' :: rest)).bind (sets.member modes)
  | text => (member? modes text).bind (sets.member modes)

/-- Read the rest of a set, and find how deep it is. -/
def rest?
    (modes : Modes) :
    Sets → Nat → List Char → Option (Nat × List Char)
  | _, 0, _ => none
  | sets, steps + 1, text =>
      match modes.skip text with
      | ']' :: rest =>
          if sets.members.isEmpty then
            match sets.member modes rest with
            | some (sets, rest) => rest? modes sets steps rest
            | none => none
          else
            let depth := sets.members.depth + 1
            match sets.around with
            | [] => some (depth, rest)
            | members :: around => rest? modes { members := members.add depth, around } steps rest
      | text =>
          match sets.next? modes text with
          | some (sets, rest) => rest? modes sets steps rest
          | none => none

end Sets

/-- Read a set after its first bracket, and find how deep it is. -/
def set?
    (modes : Modes)
    (text : List Char) :
    Option (Nat × List Char) :=
  match setStart? modes text with
  | some rest => Sets.rest? modes {} (text.length + 1) rest
  | none => none

end Sets

section Patterns

structure Progress where
  modes : Modes := {}
  body : Body := {}
  /-- What had been read, and the modes, outside the groups that are open, the innermost first. -/
  groups : List (Body × Modes) := []
  names : List (List Char) := []

namespace Progress

/-- Go on after a part that can be repeated. -/
def after
    (p : Progress)
    (depth : Nat) :
    Progress :=
  { p with body := p.body.add depth }

def inside
    (p : Progress)
    (modes : Modes) :
    Progress :=
  { p with modes, body := {}, groups := (p.body, p.modes) :: p.groups }

/-- Read how a group begins. -/
def opened?
    (p : Progress)
    (text : List Char) :
    Option (Progress × List Char) :=
  match opening? p.modes text with
  | none => none
  | some (.modes modes, rest) => some ({ p with modes, body := p.body.mark }, rest)
  | some (.group modes, rest) => some (p.inside modes, rest)
  | some (.named name, rest) =>
      if name ∈ p.names then none
      else some ({ p.inside p.modes with names := name :: p.names }, rest)

def closed? (p : Progress) : Option Progress :=
  match p.groups with
  | [] => none
  | (body, modes) :: groups => some { p with modes, body := body.add (p.body.depth + 1), groups }

/-- Repeat what has been read last; a question mark right behind changes nothing. -/
def repeated?
    (p : Progress)
    (text : List Char) :
    Option (Progress × List Char) :=
  let rest := match text with
    | '?' :: rest => rest
    | _ => text
  p.body.repeated?.map fun body => ({ p with body }, rest)

def letter?
    (p : Progress)
    (text : List Char) :
    Option (Progress × List Char) :=
  match atom? p.modes text with
  | some (.letter _, rest) => if p.modes.foldsCharacters then none else some (p.after 0, rest)
  | some (_, rest) => some (p.after 0, rest)
  | none => none

/-- Read the next part of a pattern that goes on. -/
def next?
    (p : Progress) :
    List Char → Option (Progress × List Char)
  | '(' :: rest => p.opened? rest
  | ')' :: rest => p.closed?.map fun p => (p, rest)
  | '|' :: rest => some ({ p with body := p.body.alternative }, rest)
  | '[' :: rest => (set? p.modes rest).map fun (depth, rest) => (p.after depth, rest)
  | '.' :: rest => if p.modes.bytes then none else some (p.after 0, rest)
  | '^' :: rest => some (p.after 0, rest)
  | '$' :: rest => some (p.after 0, rest)
  | '*' :: rest => p.repeated? rest
  | '+' :: rest => p.repeated? rest
  | '?' :: rest => p.repeated? rest
  | '\x7b' :: _ => none
  | text => p.letter? text

/-- Whether what has been read is a pattern by itself. -/
def isWhole (p : Progress) : Bool :=
  p.groups.isEmpty && p.body.depth ≤ maxDepth

/-- Whether the rest of a pattern can follow, read in so many steps at most. -/
def accepts
    (p : Progress) :
    Nat → List Char → Bool
  | 0, _ => false
  | steps + 1, text =>
      match p.modes.skip text with
      | [] => p.isWhole
      | text =>
          match p.next? text with
          | some (p, rest) => accepts p steps rest
          | none => false

end Progress

def isPattern (text : List Char) : Bool :=
  Progress.accepts {} (text.length + 1) text

end Patterns

end Pattern
end Microcomputer
