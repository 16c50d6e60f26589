import Microcomputer.Journal.Event
import Microcomputer.Journal.Pattern
import Microcomputer.Text.Characters

/-!
# Filters

Which events are wanted in the journal.

**Directives.**  A filter is a list of directives: a level alone, or a scope, a selector in brackets
and a level, each of which may be left out but not all.  A scope is how the origin of an event has
to start.  A selector holds the name of a span and, in braces, a field that the event must have.

**Decision.**  Of the directives that are about an event the narrowest decides, or the later of two
that are alike.  Events of this program lie in no span, so a directive with a span or a value is
about none of them.
-/

namespace Microcomputer

section Numbers

def specialNumbers : List String :=
  ["inf", "infinity", "nan"]

def isExponent : List Char → Bool
  | [] => true
  | mark :: rest =>
      let digits := match rest with
        | '+' :: digits => digits
        | '-' :: digits => digits
        | _ => rest
      (mark == 'e' || mark == 'E') && !digits.isEmpty && digits.all Char.isDigit

/-- Whether a text is a number: digits with at most one point, perhaps a sign and an exponent. -/
def isNumber (text : List Char) : Bool :=
  let unsigned := match text with
    | '+' :: rest => rest
    | '-' :: rest => rest
    | _ => text
  let whole := unsigned.takeWhile Char.isDigit
  let rest := unsigned.dropWhile Char.isDigit
  let (fraction, rest) := match rest with
    | '.' :: rest => (rest.takeWhile Char.isDigit, rest.dropWhile Char.isDigit)
    | _ => ([], rest)
  specialNumbers.any (Text.sameWord (String.ofList unsigned))
    || (!(whole.isEmpty && fraction.isEmpty) && isExponent rest)

end Numbers

/-- What a selector asks of a field: that it is there, and perhaps its value. -/
structure Condition where
  name : String
  value : Option String
  deriving DecidableEq

/-- Which of the events that it is about a directive wants: those up to a rank. -/
structure Directive where
  scope : Option String := none
  span : Option String := none
  field : Option Condition := none
  limit : Nat := Level.trace.rank
  deriving DecidableEq

namespace Condition

/-- The condition that a text stands for: the value is a number or a pattern. -/
def ofText? (text : String) : Option Condition :=
  match text.splitOn "=" with
  | name :: value :: _ =>
      if isNumber value.toList || Pattern.isPattern value.toList then
        some { name, value := some value }
      else none
  | [name] => some { name, value := none }
  | [] => none

end Condition

namespace Directive

section Decision

def concerns
    (d : Directive)
    (event : Event) :
    Bool :=
  d.span.isNone
    && d.scope.all (fun scope => event.origin.startsWith scope)
    && d.field.all fun field => field.value.isNone && event.hasField field.name

/-- How much of an origin a directive fixes; a scope fixes more than none. -/
def width (d : Directive) : Nat :=
  match d.scope with
  | none => 0
  | some scope => scope.length + 1

/-- Whether the field of one directive is at least as narrow as that of another. -/
def fieldReaches
    (narrow wide : Option Condition) :
    Bool :=
  match wide, narrow with
  | none, _ => true
  | some _, none => false
  | some wide, some narrow => wide.name ≤ narrow.name

/-- Whether a directive is at least as narrow as another. -/
def reaches (narrow wide : Directive) : Bool :=
  wide.width < narrow.width
    || (wide.width == narrow.width && fieldReaches narrow.field wide.field)

def narrower
    (best : Option Directive)
    (d : Directive) :
    Option Directive :=
  match best with
  | none => some d
  | some b => if d.reaches b then some d else some b

end Decision

section Reading

/-- The limit that a word stands for: a level, its rank, or none at all. -/
def limit? (word : String) : Option Nat :=
  match Text.numberBelow? (Level.all.length + 1) 10 Char.isDigit word.toList with
  | some rank => some rank
  | none =>
      if Text.sameWord word "off" then some 0
      else (Level.all.find? fun l => Text.sameWord word l.name).map Level.rank

def textFrom : Nat → List Char → List Char
  | 0, text => text
  | _, [] => []
  | bytes, c :: rest => textFrom (bytes - c.utf8Size) rest

def textUpTo : Nat → List Char → List Char
  | 0, _ => []
  | _, [] => []
  | bytes, c :: rest => c :: textUpTo (bytes - c.utf8Size) rest

def bytesOf (text : List Char) : Nat :=
  text.foldl (fun bytes c => bytes + c.utf8Size) 0

def cut
    (text : List Char)
    (first last : Nat) :
    String :=
  String.ofList (textUpTo (last - first) (textFrom first text))

/-- The level of a directive, at a place in its text. -/
def withLevel?
    (d : Directive)
    (text : List Char)
    (place : Nat) :
    Option Directive :=
  match textFrom place text with
  | [] => some d
  | word => (limit? (String.ofList word)).map fun limit => { d with limit }

/-- What may follow a selector: a level, or nothing. -/
def afterSelector?
    (d : Directive)
    (text : List Char)
    (place : Nat) :
    List Char → Option Directive
  | [] => some d
  | '=' :: _ => d.withLevel? text (place + 1)
  | _ => none

def withField?
    (d : Directive)
    (text : List Char)
    (place : Nat)
    (rest : List Char) :
    Option Directive :=
  let field := rest.takeWhile (· != '\x7d')
  let last := place + bytesOf field
  match rest.dropWhile (· != '\x7d') with
  | _ :: ']' :: rest =>
      let written := cut text place last
      if written.isEmpty then none
      else
        match Condition.ofText? written with
        | some condition =>
            afterSelector? { d with field := some condition } text (last + 2) rest
        | none => none
  | _ => none

/-- A selector and what follows it, at the place behind its first bracket. -/
def withSelector?
    (d : Directive)
    (text : List Char)
    (place : Nat)
    (rest : List Char) :
    Option Directive :=
  let isName (c : Char) := c != ']' && c != '\x7b'
  let last := place + bytesOf (rest.takeWhile isName)
  let span := cut text place last
  match rest.dropWhile isName with
  | ']' :: rest => afterSelector? { d with span := some span } text (last + 1) rest
  | _ :: rest =>
      withField? { d with span := if span.isEmpty then none else some span } text (last + 1) rest
  | [] => none

/-- Whether a directive can start with a character; a bracket starts a selector instead. -/
def startsScope (c : Char) : Bool :=
  Text.isAlphanumeric c || c ∈ ['-', ':', '_']

def trim (text : List Char) : List Char :=
  ((text.dropWhile Text.isBlank).reverse.dropWhile Text.isBlank).reverse

/-- The directive that a text stands for. -/
def ofText? (whole : String) : Option Directive :=
  let text := whole.toList
  -- Parts are found in the trimmed text but cut from the whole, so blanks in front shift them.
  match trim text with
  | [] => none
  | '[' :: rest => withSelector? {} text 1 rest
  | c :: rest =>
      if !startsScope c then none
      else
        let isScope (c : Char) := c != '=' && c != '['
        let last := bytesOf (c :: rest.takeWhile isScope)
        let scope := cut text 0 last
        match rest.dropWhile isScope with
        | [] =>
            match limit? whole with
            | some limit => some { limit }
            | none => some { scope := some whole }
        | '=' :: _ => withLevel? { scope := some scope } text (last + 1)
        | _ :: rest => withSelector? { scope := some scope } text (last + 1) rest

end Reading

end Directive

structure Filter where
  directives : List Directive
  deriving DecidableEq

namespace Filter

def ofLevel (level : Level) : Filter :=
  { directives := [{ limit := level.rank }] }

/-- The filter for every event of this program. -/
def everything : Filter :=
  { directives := [{ scope := some "micro0" }] }

/-- The filter that a text stands for; one that is no filter wants warnings and errors. -/
def ofText (text : String) : Filter :=
  match ((text.splitOn ",").filter (· != "")).mapM Directive.ofText? with
  | some [] => ofLevel .error
  | some directives => { directives }
  | none => ofLevel .warn

def wants
    (filter : Filter)
    (event : Event) :
    Bool :=
  match (filter.directives.filter (·.concerns event)).foldl Directive.narrower none with
  | some d => event.level.rank ≤ d.limit
  | none => false

end Filter

end Microcomputer
