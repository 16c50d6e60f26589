import Microcomputer.Source.Syntax
import Microcomputer.Text.Characters

/-!
# The tokens of a source

**Gaps.**  Between tokens stand blanks, line comments, from a semicolon to the end of the line, and
block comments, from `/*` to the next `*/`.  `skipGap` passes over them.

**Lexemes.**  `lexeme` reads the token that starts with a given character; it takes the longest name
or number that it can.
-/

namespace Microcomputer
namespace Source

section Gaps

/-- What part of a gap is being passed over. -/
inductive Gap
  | between
  | lineComment
  /-- After the slash, and before the star, of the block comment that opens at a place. -/
  | opening (opened : Location)
  /-- Inside the block comment that opened at a place, perhaps right after a star. -/
  | blockComment (opened : Location) (afterStar : Bool)
  deriving DecidableEq

/-- Pass over a gap, and give the place and the text after it. -/
def skipGap : Gap → Location → List Char → Except AssemblyError (Location × List Char)
  | .between, place, [] => .ok (place, [])
  | .between, place, c :: rest =>
      if Text.isBlank c then
        skipGap .between (place.advance c) rest
      else if c = ';' then
        skipGap .lineComment (place.advance c) rest
      else if c = '/' ∧ rest.head? = some '*' then
        skipGap (.opening place) (place.advance c) rest
      else
        .ok (place, c :: rest)
  | .lineComment, place, [] => .ok (place, [])
  | .lineComment, place, c :: rest =>
      if c = '\n' then
        skipGap .between (place.advance c) rest
      else
        skipGap .lineComment (place.advance c) rest
  | .opening opened, _, [] => .error (.malformed opened .unterminatedComment)
  | .opening opened, place, c :: rest =>
      skipGap (.blockComment opened false) (place.advance c) rest
  | .blockComment opened _, _, [] => .error (.malformed opened .unterminatedComment)
  | .blockComment opened afterStar, place, c :: rest =>
      if afterStar = true ∧ c = '/' then
        skipGap .between (place.advance c) rest
      else
        skipGap (.blockComment opened (c == '*')) (place.advance c) rest

theorem skipGap_length_le
    {gap : Gap}
    {place place' : Location}
    {text rest : List Char}
    (h : skipGap gap place text = .ok (place', rest)) :
    rest.length ≤ text.length := by
  fun_induction skipGap gap place text <;> grind

end Gaps

section Lexemes

/-- A number, its digits being given, where `rest` follows them. -/
def numberKind
    (place : Location)
    (radix : Nat)
    (digits rest : List Char) :
    Except AssemblyError TokenKind :=
  if digits.isEmpty || rest.head?.any Text.continuesName then
    .error (.malformed place .malformedNumber)
  else
    match Text.numeralBelow? UInt32.size radix digits with
    | some value => .ok (.number (UInt32.ofNat value))
    | none => .error (.malformed place .numberTooLarge)

/-- A token, the characters that spell it, and the text after it. -/
structure Lexeme where
  kind : TokenKind
  spelling : List Char
  rest : List Char
  deriving DecidableEq

def numberLexeme
    (place : Location)
    (radix : Nat)
    (isDigit : Char → Bool)
    (lead text : List Char) :
    Except AssemblyError Lexeme :=
  match numberKind place radix (text.takeWhile isDigit) (text.dropWhile isDigit) with
  | .ok kind => .ok ⟨kind, lead ++ text.takeWhile isDigit, text.dropWhile isDigit⟩
  | .error e => .error e

def directiveLexeme
    (place : Location)
    (text : List Char) :
    Except AssemblyError Lexeme :=
  let name := text.takeWhile Text.continuesName
  if Text.sameWord (String.ofList name) "org" then
    .ok ⟨.origin, '.' :: name, text.dropWhile Text.continuesName⟩
  else
    .error (.malformed place (.unknownDirective (String.ofList name)))

def nameLexeme (text : List Char) : Lexeme :=
  let name := text.takeWhile Text.continuesName
  ⟨.name (String.ofList name), name, text.dropWhile Text.continuesName⟩

/-- The number that starts with the digit `c`, in hexadecimal after `0x` or `0X`. -/
def literalLexeme
    (place : Location)
    (c : Char)
    (text : List Char) :
    Except AssemblyError Lexeme :=
  match text with
  | x :: digits =>
      if c = '0' ∧ (x = 'x' ∨ x = 'X') then
        numberLexeme place 16 Text.isHexDigit [c, x] digits
      else
        numberLexeme place 10 Char.isDigit [] (c :: text)
  | [] => numberLexeme place 10 Char.isDigit [] [c]

/-- The token that starts with the character `c`, with `text` after it. -/
def lexeme
    (place : Location)
    (c : Char)
    (text : List Char) :
    Except AssemblyError Lexeme :=
  if c = '[' then .ok ⟨.openBracket, [c], text⟩
  else if c = ']' then .ok ⟨.closeBracket, [c], text⟩
  else if c = ':' then .ok ⟨.colon, [c], text⟩
  else if c = '.' then directiveLexeme place text
  else if c.isDigit then literalLexeme place c text
  else if Text.startsName c then .ok (nameLexeme (c :: text))
  else .error (.malformed place (.unexpectedCharacter c))

theorem numberLexeme_spelling
    {place : Location}
    {radix : Nat}
    {isDigit : Char → Bool}
    {lead text : List Char}
    {found : Lexeme}
    (h : numberLexeme place radix isDigit lead text = .ok found) :
    found.spelling ++ found.rest = lead ++ text ∧ found.spelling ≠ [] := by
  unfold numberLexeme at h
  split at h
  · next hk =>
      cases h
      refine ⟨by simp, fun hnil => ?_⟩
      have hd : text.takeWhile isDigit = [] := (List.append_eq_nil_iff.1 hnil).2
      simp [numberKind, hd] at hk
  · cases h

theorem literalLexeme_spelling
    {place : Location}
    {c : Char}
    {text : List Char}
    {found : Lexeme}
    (h : literalLexeme place c text = .ok found) :
    found.spelling ++ found.rest = c :: text ∧ found.spelling ≠ [] := by
  unfold literalLexeme at h
  split at h
  · split at h <;> simpa using numberLexeme_spelling h
  · simpa using numberLexeme_spelling h

/-- A lexeme and the rest after it are the text, and it is never empty. -/
theorem lexeme_spelling
    {place : Location}
    {c : Char}
    {text : List Char}
    {found : Lexeme}
    (h : lexeme place c text = .ok found) :
    found.spelling ++ found.rest = c :: text ∧ found.spelling ≠ [] := by
  unfold lexeme at h
  split at h
  · cases h; simp
  split at h
  · cases h; simp
  split at h
  · cases h; simp
  split at h
  · next hc =>
      simp only [directiveLexeme] at h
      split at h
      · cases h; simp [hc]
      · cases h
  split at h
  · exact literalLexeme_spelling h
  split at h
  · next hs =>
      cases h
      simp [nameLexeme, Text.continuesName_of_startsName hs]
  · cases h

theorem lexeme_length_lt
    {place : Location}
    {c : Char}
    {text : List Char}
    {found : Lexeme}
    (h : lexeme place c text = .ok found) :
    found.rest.length < (c :: text).length := by
  rw [← (lexeme_spelling h).1, List.length_append]
  have := List.length_pos_iff.2 (lexeme_spelling h).2
  omega

end Lexemes

section Tokens

/-- The tokens of the text from `place` on, after the tokens in `done`. -/
def tokensFrom
    (done : Array Token)
    (place : Location)
    (text : List Char) :
    Except AssemblyError (Array Token) :=
  match _skipped : skipGap .between place text with
  | .error e => .error e
  | .ok (_, []) => .ok done
  | .ok (here, c :: rest) =>
      match _read : lexeme here c rest with
      | .error e => .error e
      | .ok found =>
          tokensFrom (done.push ⟨found.kind, here⟩) (here.after found.spelling) found.rest
termination_by text.length
decreasing_by
  have h1 := skipGap_length_le _skipped
  have h2 := lexeme_length_lt _read
  omega

def tokens (source : String) : Except AssemblyError (List Token) :=
  (tokensFrom #[] .start source.toList).map (·.toList)

end Tokens

end Source
end Microcomputer
