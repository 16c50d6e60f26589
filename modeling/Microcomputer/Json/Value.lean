import Microcomputer.Text.Numeral

/-!
# JSON values

A JSON text without its blanks.  Numbers and strings are kept as they are written: a number as its
literal, a string as the characters between its quotes with the escapes in place.

**Strings.**  `unescape?` gives the text that a written string stands for.  An escaped surrogate
must be the first or the second half of a pair.

**Texts.**  A value has one `compact` text, without any blanks, and one `pretty` text, with every
element and member on a line of its own.
-/

namespace Microcomputer

inductive Json
  | null
  | boolean (value : Bool)
  | number (literal : String)
  | string (written : String)
  | array (elements : List Json)
  | object (members : List (String × Json))

namespace Json

def ofNat (n : Nat) : Json :=
  .number (Text.decimal n)

section Strings

def codeUnit (a b c d : Char) : Nat :=
  Text.numeralValue 16 [a, b, c, d]

def isHighSurrogate (unit : Nat) : Bool :=
  0xD800 ≤ unit && unit ≤ 0xDBFF

def isLowSurrogate (unit : Nat) : Bool :=
  0xDC00 ≤ unit && unit ≤ 0xDFFF

def simpleEscape? : Char → Option Char
  | '"' => some '"'
  | '\\' => some '\\'
  | '/' => some '/'
  | 'b' => some '\x08'
  | 'f' => some '\x0c'
  | 'n' => some '\n'
  | 'r' => some '\r'
  | 't' => some '\t'
  | _ => none

/-- The characters that a written string stands for, after those in `done`, the latest first. -/
def unescapeOnto (done : List Char) : List Char → Option (List Char)
  | [] => some done.reverse
  | '\\' :: 'u' :: a :: b :: c :: d :: rest =>
      let unit := codeUnit a b c d
      if isHighSurrogate unit then
        match rest with
        | '\\' :: 'u' :: e :: f :: g :: h :: after =>
            let second := codeUnit e f g h
            if isLowSurrogate second then
              let point := 0x10000 + (unit - 0xD800) * 0x400 + (second - 0xDC00)
              unescapeOnto (Char.ofNat point :: done) after
            else
              none
        | _ => none
      else if isLowSurrogate unit then
        none
      else
        unescapeOnto (Char.ofNat unit :: done) rest
  | '\\' :: c :: rest =>
      match simpleEscape? c with
      | some meant => unescapeOnto (meant :: done) rest
      | none => none
  | c :: rest => unescapeOnto (c :: done) rest

/-- The text that a written string stands for, if it stands for one. -/
def unescape? (written : String) : Option String :=
  (unescapeOnto [] written.toList).map String.ofList

end Strings

section Views

/-- The number, if the value is a literal of decimal digits alone and below a bound. -/
def naturalBelow?
    (bound : Nat) :
    Json → Option Nat
  | .number literal =>
      if literal.toList.all Char.isDigit then
        Text.numeralBelow? bound 10 literal.toList
      else
        none
  | _ => none

def elements? : Json → Option (List Json)
  | .array elements => some elements
  | _ => none

end Views

section Records

/-- The value of the one member with a name; `none` if there are several. -/
def uniqueMember?
    (members : List (String × Json))
    (name : String) :
    Option (Option Json) :=
  match members.filter fun m => m.1 == name with
  | [] => some none
  | [m] => some (some m.2)
  | _ => none

/-- The fields of a record, from an object with other members or from an array. -/
def fields?
    (names : List String) :
    Json → Option (List (Option Json))
  | .object members =>
      match members.mapM fun m => (unescape? m.1).map fun name => (name, m.2) with
      | none => none
      | some named => names.mapM (uniqueMember? named)
  | .array elements =>
      if elements.length ≤ names.length then
        some (names.mapIdx fun k _ => elements[k]?)
      else
        none
  | _ => none

/-- The name of a case: written as a string, or as the one member of an object, with null. -/
def case? : Json → Option String
  | .string written => unescape? written
  | .object [(written, .null)] => unescape? written
  | _ => none

end Records

section Compact

mutual

/-- Write the compact text of a value after a text. -/
def compactOnto
    (text : String) :
    Json → String
  | .null => text ++ "null"
  | .boolean true => text ++ "true"
  | .boolean false => text ++ "false"
  | .number literal => text ++ literal
  | .string written => text ++ "\"" ++ written ++ "\""
  | .array [] => text ++ "[]"
  | .array (v :: rest) => elementsOnto (compactOnto (text ++ "[") v) rest ++ "]"
  | .object [] => text ++ "\x7b\x7d"
  | .object ((key, v) :: rest) =>
      membersOnto (compactOnto (text ++ "\x7b\"" ++ key ++ "\":") v) rest ++ "\x7d"

def elementsOnto
    (text : String) :
    List Json → String
  | [] => text
  | v :: rest => elementsOnto (compactOnto (text ++ ",") v) rest

def membersOnto
    (text : String) :
    List (String × Json) → String
  | [] => text
  | (key, v) :: rest => membersOnto (compactOnto (text ++ ",\"" ++ key ++ "\":") v) rest

end

def compact (value : Json) : String :=
  compactOnto "" value

end Compact

section Pretty

/-- A line feed and the blanks at the start of a line. -/
def newLine (depth : Nat) : String :=
  String.ofList ('\n' :: List.replicate (2 * depth) ' ')

mutual

/-- Write the text of a value, one part to a line, after a text. -/
def prettyOnto
    (depth : Nat)
    (text : String) :
    Json → String
  | .null => text ++ "null"
  | .boolean true => text ++ "true"
  | .boolean false => text ++ "false"
  | .number literal => text ++ literal
  | .string written => text ++ "\"" ++ written ++ "\""
  | .array [] => text ++ "[]"
  | .array (v :: rest) =>
      prettyElements depth (prettyOnto (depth + 1) (text ++ "[" ++ newLine (depth + 1)) v) rest
        ++ newLine depth ++ "]"
  | .object [] => text ++ "\x7b\x7d"
  | .object ((key, v) :: rest) =>
      prettyMembers depth
          (prettyOnto (depth + 1)
            (text ++ "\x7b" ++ newLine (depth + 1) ++ "\"" ++ key ++ "\": ") v)
          rest
        ++ newLine depth ++ "\x7d"

def prettyElements
    (depth : Nat)
    (text : String) :
    List Json → String
  | [] => text
  | v :: rest =>
      prettyElements depth (prettyOnto (depth + 1) (text ++ "," ++ newLine (depth + 1)) v) rest

def prettyMembers
    (depth : Nat)
    (text : String) :
    List (String × Json) → String
  | [] => text
  | (key, v) :: rest =>
      prettyMembers depth
        (prettyOnto (depth + 1)
          (text ++ "," ++ newLine (depth + 1) ++ "\"" ++ key ++ "\": ") v)
        rest

end

/-- The text of a value with every part on a line of its own. -/
def pretty (value : Json) : String :=
  prettyOnto 0 "" value

end Pretty

end Json
end Microcomputer
