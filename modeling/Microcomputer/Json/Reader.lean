import Microcomputer.Json.Value

/-!
# Reading JSON

**Tokens.**  Signs, words, numbers and strings, with blanks between them.  Numbers have no leading
zeros, and a digit on both sides of the decimal point.  Strings hold no control characters, and
escapes that are one of the eight simple ones or four hexadecimal digits; what the escapes stand for
is not looked at here.

**Values.**  The values that are still open are kept on a stack, so the depth of nesting is not
limited.
-/

namespace Microcomputer
namespace Json

section Tokens

inductive Token
  | openBrace
  | closeBrace
  | openBracket
  | closeBracket
  | comma
  | colon
  | null
  | boolean (value : Bool)
  | number (literal : String)
  | string (written : String)
  deriving DecidableEq

namespace Token

def isBlank (c : Char) : Bool :=
  c == ' ' || c == '\t' || c == '\n' || c == '\r'

section Strings

inductive Within
  | plain
  | escape
  /-- So many more hexadecimal digits, less one. -/
  | digits (more : Nat)

/-- Read a string up to its closing quote; `done` has the characters so far, the latest first. -/
def readString
    (done : List Char) :
    Within → List Char → Option (List Char × List Char)
  | _, [] => none
  | .plain, c :: rest =>
      if c = '"' then some (done.reverse, rest)
      else if c = '\\' then readString (c :: done) .escape rest
      else if c.toNat < 0x20 then none
      else readString (c :: done) .plain rest
  | .escape, c :: rest =>
      if c = 'u' then readString (c :: done) (.digits 3) rest
      else if (simpleEscape? c).isSome then readString (c :: done) .plain rest
      else none
  | .digits more, c :: rest =>
      if Text.isHexDigit c then
        match more with
        | 0 => readString (c :: done) .plain rest
        | n + 1 => readString (c :: done) (.digits n) rest
      else
        none

theorem readString_length_lt
    {done : List Char}
    {within : Within}
    {text written rest : List Char}
    (h : readString done within text = some (written, rest)) :
    rest.length < text.length := by
  fun_induction readString done within text with
  | case1 => cases h
  | case2 => cases h; simp
  | case3 _ _ _ ih => exact Nat.lt_succ_of_lt (ih h)
  | case4 => cases h
  | case5 _ _ _ _ _ _ ih => exact Nat.lt_succ_of_lt (ih h)
  | case6 _ _ ih => exact Nat.lt_succ_of_lt (ih h)
  | case7 _ _ _ _ _ ih => exact Nat.lt_succ_of_lt (ih h)
  | case8 => cases h
  | case9 _ _ _ _ ih => exact Nat.lt_succ_of_lt (ih h)
  | case10 _ _ _ _ _ ih => exact Nat.lt_succ_of_lt (ih h)
  | case11 => cases h

end Strings

section Numbers

def readDigits (text : List Char) : Option (List Char × List Char) :=
  if (text.takeWhile Char.isDigit).isEmpty then
    none
  else
    some (text.takeWhile Char.isDigit, text.dropWhile Char.isDigit)

def readWhole : List Char → Option (List Char × List Char)
  | '0' :: rest => some (['0'], rest)
  | text => readDigits text

/-- Read a decimal point and the digits after it, if there is a point. -/
def readFraction : List Char → Option (List Char × List Char)
  | '.' :: rest => (readDigits rest).map fun (digits, after) => ('.' :: digits, after)
  | text => some ([], text)

def readSign : List Char → List Char × List Char
  | '+' :: rest => (['+'], rest)
  | '-' :: rest => (['-'], rest)
  | text => ([], text)

def readExponent : List Char → Option (List Char × List Char)
  | c :: rest =>
      if c = 'e' ∨ c = 'E' then
        (readDigits (readSign rest).2).map fun (digits, after) =>
          (c :: (readSign rest).1 ++ digits, after)
      else
        some ([], c :: rest)
  | [] => some ([], [])

def readUnsigned (text : List Char) : Option (List Char × List Char) :=
  match readWhole text with
  | none => none
  | some (whole, rest) =>
      match readFraction rest with
      | none => none
      | some (fraction, rest) =>
          match readExponent rest with
          | none => none
          | some (exponent, rest) => some (whole ++ fraction ++ exponent, rest)

def readNumber : List Char → Option (List Char × List Char)
  | '-' :: rest => (readUnsigned rest).map fun (literal, after) => ('-' :: literal, after)
  | text => readUnsigned text

theorem readDigits_length_le
    {text literal rest : List Char}
    (h : readDigits text = some (literal, rest)) :
    literal ++ rest = text ∧ literal ≠ [] := by
  unfold readDigits at h
  split at h
  · cases h
  · next hd =>
      cases h
      exact ⟨List.takeWhile_append_dropWhile, by simpa using hd⟩

theorem readWhole_eq
    {text literal rest : List Char}
    (h : readWhole text = some (literal, rest)) :
    literal ++ rest = text ∧ literal ≠ [] := by
  unfold readWhole at h
  split at h
  · cases h; simp
  · exact readDigits_length_le h

theorem readFraction_eq
    {text literal rest : List Char}
    (h : readFraction text = some (literal, rest)) :
    literal ++ rest = text := by
  unfold readFraction at h
  split at h
  · obtain ⟨⟨digits, after⟩, hd, he⟩ := Option.map_eq_some_iff.1 h
    cases he
    simp [(readDigits_length_le hd).1]
  · cases h; rfl

theorem readSign_eq (text : List Char) : (readSign text).1 ++ (readSign text).2 = text := by
  unfold readSign
  split <;> rfl

theorem readExponent_eq
    {text literal rest : List Char}
    (h : readExponent text = some (literal, rest)) :
    literal ++ rest = text := by
  unfold readExponent at h
  split at h
  · next c inner =>
      split at h
      · obtain ⟨⟨digits, after⟩, hd, he⟩ := Option.map_eq_some_iff.1 h
        cases he
        simp [(readDigits_length_le hd).1, readSign_eq]
      · cases h; rfl
  · cases h; rfl

theorem readUnsigned_eq
    {text literal rest : List Char}
    (h : readUnsigned text = some (literal, rest)) :
    literal ++ rest = text ∧ literal ≠ [] := by
  unfold readUnsigned at h
  split at h
  · cases h
  · next hw =>
      split at h
      · cases h
      · next hf =>
          split at h
          · cases h
          · next he =>
              cases h
              have h1 := readWhole_eq hw
              have h2 := readFraction_eq hf
              have h3 := readExponent_eq he
              refine ⟨by rw [← h1.1, ← h2, ← h3]; simp, by simp [h1.2]⟩

/-- The literal of a number and the rest after it are the text it was read from. -/
theorem readNumber_eq
    {text literal rest : List Char}
    (h : readNumber text = some (literal, rest)) :
    literal ++ rest = text ∧ literal ≠ [] := by
  unfold readNumber at h
  split at h
  · obtain ⟨⟨digits, after⟩, hd, he⟩ := Option.map_eq_some_iff.1 h
    cases he
    simp [(readUnsigned_eq hd).1]
  · exact readUnsigned_eq h

end Numbers

section Tokens

def readWord : List Char → List Char → Option (List Char)
  | [], text => some text
  | _ :: _, [] => none
  | w :: word, c :: text => if w = c then readWord word text else none

theorem readWord_eq
    {word text rest : List Char}
    (h : readWord word text = some rest) :
    text = word ++ rest := by
  fun_induction readWord word text <;> simp_all

/-- The token that starts with the character `c`, with `text` after it. -/
def read
    (c : Char)
    (text : List Char) :
    Option (Token × List Char) :=
  if c = '\x7b' then some (.openBrace, text)
  else if c = '\x7d' then some (.closeBrace, text)
  else if c = '[' then some (.openBracket, text)
  else if c = ']' then some (.closeBracket, text)
  else if c = ',' then some (.comma, text)
  else if c = ':' then some (.colon, text)
  else if c = 'n' then (readWord "ull".toList text).map fun rest => (.null, rest)
  else if c = 't' then (readWord "rue".toList text).map fun rest => (.boolean true, rest)
  else if c = 'f' then (readWord "alse".toList text).map fun rest => (.boolean false, rest)
  else if c = '"' then
    (readString [] .plain text).map fun (written, rest) => (.string (String.ofList written), rest)
  else
    (readNumber (c :: text)).map fun (literal, rest) => (.number (String.ofList literal), rest)

theorem read_length_lt
    {c : Char}
    {text rest : List Char}
    {token : Token}
    (h : read c text = some (token, rest)) :
    rest.length < (c :: text).length := by
  have word : ∀ {w : List Char} {t : Token},
      (readWord w text).map (fun r => (t, r)) = some (token, rest) →
        rest.length < (c :: text).length := by
    intro w t hw
    obtain ⟨r, hr, he⟩ := Option.map_eq_some_iff.1 hw
    cases he
    have hlen := congrArg List.length (readWord_eq hr)
    simp only [List.length_append] at hlen
    simp only [List.length_cons]
    omega
  unfold read at h
  split at h
  · cases h; simp
  split at h
  · cases h; simp
  split at h
  · cases h; simp
  split at h
  · cases h; simp
  split at h
  · cases h; simp
  split at h
  · cases h; simp
  split at h
  · exact word h
  split at h
  · exact word h
  split at h
  · exact word h
  split at h
  · obtain ⟨⟨written, after⟩, hs, he⟩ := Option.map_eq_some_iff.1 h
    cases he
    have := readString_length_lt hs
    simp only [List.length_cons]
    omega
  · obtain ⟨⟨literal, after⟩, hn, he⟩ := Option.map_eq_some_iff.1 h
    cases he
    obtain ⟨heq, hne⟩ := readNumber_eq hn
    rw [← heq, List.length_append]
    have := List.length_pos_iff.2 hne
    omega

/-- The tokens of a text, after those in `done`. -/
def readAll
    (done : Array Token) :
    List Char → Option (List Token)
  | [] => some done.toList
  | c :: text =>
      if isBlank c then
        readAll done text
      else
        match _read : read c text with
        | none => none
        | some (token, rest) => readAll (done.push token) rest
termination_by text => text.length
decreasing_by
  · simp
  · exact read_length_lt _read

end Tokens

end Token

end Tokens

section Values

/-- A value that is still open; its finished parts are kept with the latest first. -/
inductive Frame
  | array (done : List Json)
  /-- An object that waits for the value of the member `name`. -/
  | object (done : List (String × Json)) (name : String)

/-- What has been read and what may come next. -/
inductive State
  | value (first : Bool) (stack : List Frame)
  | key (first : Bool) (done : List (String × Json)) (stack : List Frame)
  | colon (name : String) (done : List (String × Json)) (stack : List Frame)
  | complete (value : Json) (stack : List Frame)

namespace State

def closeArray : List Frame → Option State
  | .array done :: stack => some (.complete (.array done.reverse) stack)
  | _ => none

def readValue
    (first : Bool)
    (stack : List Frame) :
    Token → Option State
  | .null => some (.complete .null stack)
  | .boolean b => some (.complete (.boolean b) stack)
  | .number literal => some (.complete (.number literal) stack)
  | .string written => some (.complete (.string written) stack)
  | .openBracket => some (.value true (.array [] :: stack))
  | .openBrace => some (.key true [] stack)
  | .closeBracket => if first then closeArray stack else none
  | _ => none

def readKey
    (first : Bool)
    (done : List (String × Json))
    (stack : List Frame) :
    Token → Option State
  | .string written => some (.colon written done stack)
  | .closeBrace =>
      if first then some (.complete (.object done.reverse) stack) else none
  | _ => none

/-- Read a token after a value that belongs to an open one. -/
def resume
    (v : Json) :
    List Frame → Token → Option State
  | .array done :: stack, .comma => some (.value false (.array (v :: done) :: stack))
  | .array done :: stack, .closeBracket => some (.complete (.array (v :: done).reverse) stack)
  | .object done name :: stack, .comma => some (.key false ((name, v) :: done) stack)
  | .object done name :: stack, .closeBrace =>
      some (.complete (.object ((name, v) :: done).reverse) stack)
  | _, _ => none

def read : State → Token → Option State
  | .value first stack, token => readValue first stack token
  | .key first done stack, token => readKey first done stack token
  | .colon name done stack, .colon => some (.value false (.object done name :: stack))
  | .colon _ _ _, _ => none
  | .complete v stack, token => resume v stack token

def readAll (state : State) : List Token → Option State
  | [] => some state
  | token :: rest =>
      match state.read token with
      | some next => next.readAll rest
      | none => none

def result? : State → Option Json
  | .complete v [] => some v
  | _ => none

end State

def ofTokens? (tokens : List Token) : Option Json :=
  ((State.value false []).readAll tokens).bind State.result?

def ofText? (text : String) : Option Json :=
  (Token.readAll #[] text.toList).bind ofTokens?

end Values

end Json
end Microcomputer
