import Microcomputer.Json.Reader

/-!
# How the tokens of a JSON text are spelled

**Numbers.**  `IsNumber literal`: a sign, digits of which the first is zero only if it stands alone,
a fraction and an exponent; all but the digits may be missing.  Such a literal is read as a whole
if the text behind it cannot go on with it (`readNumber_append`).

**Strings.**  `IsWritten written`: characters as they may stand between quotes, with whole escapes.
Such a string is read up to its closing quote (`readString_append`).

**Tokens.**  A token has one spelling, `Token.spelling`.  `Token.read_spelling`: a well-formed token
is read from it.
-/

namespace Microcomputer
namespace Json

section Numbers

/-- Digits, at least one. -/
structure IsDigits (digits : List Char) : Prop where
  ne_nil : digits ≠ []
  isDigit : ∀ c ∈ digits, c.isDigit = true

/-- The digits before a decimal point. -/
inductive IsWhole : List Char → Prop
  | zero : IsWhole ['0']
  | digits
      {digits : List Char}
      (h : IsDigits digits)
      (hzero : digits.head? ≠ some '0') :
      IsWhole digits

/-- A decimal point and the digits after it, or nothing. -/
inductive IsFraction : List Char → Prop
  | absent : IsFraction []
  | point
      {digits : List Char}
      (h : IsDigits digits) :
      IsFraction ('.' :: digits)

inductive IsSign : List Char → Prop
  | absent : IsSign []
  | plus : IsSign ['+']
  | minus : IsSign ['-']

/-- An exponent, or nothing. -/
inductive IsExponent : List Char → Prop
  | absent : IsExponent []
  | letter
      {c : Char}
      {sign digits : List Char}
      (hc : c = 'e' ∨ c = 'E')
      (hsign : IsSign sign)
      (h : IsDigits digits) :
      IsExponent (c :: (sign ++ digits))

inductive IsUnsigned : List Char → Prop
  | parts
      {whole fraction exponent : List Char}
      (hwhole : IsWhole whole)
      (hfraction : IsFraction fraction)
      (hexponent : IsExponent exponent) :
      IsUnsigned (whole ++ fraction ++ exponent)

/-- The literals of numbers. -/
inductive IsNumber : List Char → Prop
  | plain
      {literal : List Char}
      (h : IsUnsigned literal) :
      IsNumber literal
  | minus
      {literal : List Char}
      (h : IsUnsigned literal) :
      IsNumber ('-' :: literal)

/-- The text does not start with a digit. -/
def NoDigit (text : List Char) : Prop :=
  ∀ c ∈ text.head?, c.isDigit = false

/-- The text starts neither with a digit nor with a decimal point. -/
def NoFraction (text : List Char) : Prop :=
  ∀ c ∈ text.head?, c.isDigit = false ∧ c ≠ '.'

/-- The text cannot go on with a number. -/
def EndsNumber (text : List Char) : Prop :=
  ∀ c ∈ text.head?, c.isDigit = false ∧ c ≠ '.' ∧ c ≠ 'e' ∧ c ≠ 'E'

variable {literal rest : List Char}

theorem IsDigits.exists_cons (h : IsDigits literal) :
    ∃ c more, literal = c :: more ∧ c.isDigit = true := by
  cases literal with
  | nil => exact absurd rfl h.ne_nil
  | cons c more => exact ⟨c, more, rfl, h.isDigit c List.mem_cons_self⟩

theorem ne_of_isDigit
    {c other : Char}
    (h : c.isDigit = true)
    (hother : other.isDigit = false) :
    c ≠ other := by
  rintro rfl
  rw [h] at hother
  cases hother

theorem readDigits_append
    (h : IsDigits literal)
    (hrest : NoDigit rest) :
    Token.readDigits (literal ++ rest) = some (literal, rest) := by
  have htake : rest.takeWhile Char.isDigit = [] ∧ rest.dropWhile Char.isDigit = rest := by
    cases rest with
    | nil => exact ⟨rfl, rfl⟩
    | cons c more =>
        have hc : c.isDigit = false := hrest c rfl
        exact ⟨by simp [hc], by simp [hc]⟩
  rw [Token.readDigits, List.takeWhile_append_of_pos h.isDigit,
    List.dropWhile_append_of_pos h.isDigit, htake.1, htake.2, List.append_nil]
  simp [h.ne_nil]

theorem readSign_append
    {digits : List Char}
    (h : IsSign literal)
    (hdigits : IsDigits digits) :
    Token.readSign (literal ++ digits ++ rest) = (literal, digits ++ rest) := by
  cases h with
  | absent =>
      obtain ⟨c, more, rfl, hc⟩ := hdigits.exists_cons
      rw [List.nil_append, List.cons_append, Token.readSign]
      · exact fun _ heq => ne_of_isDigit hc (by decide) (List.cons.inj heq).1
      · exact fun _ heq => ne_of_isDigit hc (by decide) (List.cons.inj heq).1
  | plus => rfl
  | minus => rfl

theorem readExponent_append
    (h : IsExponent literal)
    (hrest : EndsNumber rest) :
    Token.readExponent (literal ++ rest) = some (literal, rest) := by
  cases h with
  | absent =>
      cases rest with
      | nil => rfl
      | cons c more =>
          have hc := hrest c rfl
          simp [Token.readExponent, hc.2.2]
  | letter hc hsign hdigits =>
      have hno : NoDigit rest := fun c hc => (hrest c hc).1
      simp only [List.cons_append, Token.readExponent, if_pos hc,
        readSign_append hsign hdigits, readDigits_append hdigits hno, Option.map_some]

theorem IsExponent.noFraction
    (h : IsExponent literal)
    (hrest : EndsNumber rest) :
    NoFraction (literal ++ rest) := by
  cases h with
  | absent => exact fun c hc => ⟨(hrest c hc).1, (hrest c hc).2.1⟩
  | letter hc =>
      rintro _ ⟨⟩
      rcases hc with rfl | rfl <;> decide

theorem readFraction_append
    (h : IsFraction literal)
    (hrest : NoFraction rest) :
    Token.readFraction (literal ++ rest) = some (literal, rest) := by
  cases h with
  | absent =>
      rw [List.nil_append, Token.readFraction]
      rintro more rfl
      exact (hrest '.' rfl).2 rfl
  | point h =>
      have hno : NoDigit rest := fun c hc => (hrest c hc).1
      simp only [List.cons_append, Token.readFraction, readDigits_append h hno, Option.map_some]

theorem IsFraction.noDigit
    (h : IsFraction literal)
    (hrest : NoFraction rest) :
    NoDigit (literal ++ rest) := by
  cases h with
  | absent => exact fun c hc => (hrest c hc).1
  | point =>
      rintro _ ⟨⟩
      decide

theorem readWhole_append
    (h : IsWhole literal)
    (hrest : NoDigit rest) :
    Token.readWhole (literal ++ rest) = some (literal, rest) := by
  cases h with
  | zero => rfl
  | digits h hzero =>
      rw [Token.readWhole]
      · exact readDigits_append h hrest
      · intro more heq
        obtain ⟨c, others, rfl, -⟩ := h.exists_cons
        exact hzero (congrArg some (List.cons.inj heq).1)

theorem readUnsigned_append
    (h : IsUnsigned literal)
    (hrest : EndsNumber rest) :
    Token.readUnsigned (literal ++ rest) = some (literal, rest) := by
  obtain ⟨hwhole, hfraction, hexponent⟩ := h
  have hno := hexponent.noFraction hrest
  simp only [List.append_assoc, Token.readUnsigned,
    readWhole_append hwhole (hfraction.noDigit hno), readFraction_append hfraction hno,
    readExponent_append hexponent hrest]

theorem IsUnsigned.exists_cons (h : IsUnsigned literal) :
    ∃ c more, literal = c :: more ∧ c.isDigit = true := by
  obtain ⟨hwhole, -, -⟩ := h
  cases hwhole with
  | zero => exact ⟨'0', _, rfl, by decide⟩
  | digits h =>
      obtain ⟨c, more, rfl, hc⟩ := h.exists_cons
      exact ⟨c, _, rfl, hc⟩

/-- A literal is read as a whole, if the text behind it cannot go on with it. -/
theorem readNumber_append
    (h : IsNumber literal)
    (hrest : EndsNumber rest) :
    Token.readNumber (literal ++ rest) = some (literal, rest) := by
  cases h with
  | plain h =>
      rw [Token.readNumber]
      · exact readUnsigned_append h hrest
      · obtain ⟨c, more, rfl, hc⟩ := h.exists_cons
        exact fun _ heq => ne_of_isDigit hc (by decide) (List.cons.inj heq).1
  | minus h =>
      simp only [List.cons_append, Token.readNumber, readUnsigned_append h hrest, Option.map_some]

theorem IsNumber.exists_cons (h : IsNumber literal) :
    ∃ c more, literal = c :: more ∧ (c.isDigit = true ∨ c = '-') := by
  cases h with
  | plain h =>
      obtain ⟨c, more, rfl, hc⟩ := h.exists_cons
      exact ⟨c, more, rfl, Or.inl hc⟩
  | minus h => exact ⟨'-', _, rfl, Or.inr rfl⟩

end Numbers

section Strings

/-- The characters of a string as they may stand between its quotes. -/
inductive IsWritten : List Char → Prop
  | nil : IsWritten []
  | plain
      {c : Char}
      {rest : List Char}
      (hquote : c ≠ '"')
      (hescape : c ≠ '\\')
      (hcontrol : 0x20 ≤ c.toNat)
      (h : IsWritten rest) :
      IsWritten (c :: rest)
  | simple
      {c : Char}
      {rest : List Char}
      (hc : (simpleEscape? c).isSome = true)
      (h : IsWritten rest) :
      IsWritten ('\\' :: c :: rest)
  | unit
      {a b c d : Char}
      {rest : List Char}
      (hdigits : ∀ x ∈ [a, b, c, d], Text.isHexDigit x = true)
      (h : IsWritten rest) :
      IsWritten ('\\' :: 'u' :: a :: b :: c :: d :: rest)

theorem readString_append
    {written : List Char}
    (h : IsWritten written)
    (done rest : List Char) :
    Token.readString done .plain (written ++ '"' :: rest) =
      some (done.reverse ++ written, rest) := by
  induction h generalizing done with
  | nil => simp [Token.readString]
  | plain hquote hescape hcontrol _ ih =>
      rw [List.cons_append, Token.readString, if_neg hquote, if_neg hescape,
        if_neg (Nat.not_lt.2 hcontrol), ih]
      simp
  | @simple c more hc _ ih =>
      have hu : c ≠ 'u' := by
        rintro rfl
        cases hc
      rw [List.cons_append, List.cons_append, Token.readString, if_neg (by decide),
        if_pos rfl, Token.readString, if_neg hu, if_pos hc, ih]
      simp
  | unit hdigits _ ih =>
      simp only [List.mem_cons, List.not_mem_nil, or_false, forall_eq_or_imp, forall_eq] at hdigits
      obtain ⟨ha, hb, hc, hd⟩ := hdigits
      simp only [List.cons_append, Token.readString, reduceIte, Char.reduceEq,
        ha, hb, hc, hd, ih]
      simp

end Strings

namespace Token

/-- The characters of a token. -/
def spelling : Token → List Char
  | .openBrace => ['\x7b']
  | .closeBrace => ['\x7d']
  | .openBracket => ['[']
  | .closeBracket => [']']
  | .comma => [',']
  | .colon => [':']
  | .null => "null".toList
  | .boolean true => "true".toList
  | .boolean false => "false".toList
  | .number literal => literal.toList
  | .string written => '"' :: (written.toList ++ ['"'])

/-- A number is a literal, and a string is written as a string must be. -/
def WellFormed : Token → Prop
  | .number literal => IsNumber literal.toList
  | .string written => IsWritten written.toList
  | _ => True

/-- The token ends where the text begins. -/
def EndsBefore
    (text : List Char) :
    Token → Prop
  | .number _ => EndsNumber text
  | _ => True

variable {token : Token}

theorem exists_spelling (h : token.WellFormed) :
    ∃ c more, token.spelling = c :: more ∧ isBlank c = false := by
  cases token with
  | number literal =>
      obtain ⟨c, more, heq, hc⟩ := IsNumber.exists_cons h
      refine ⟨c, more, heq, ?_⟩
      rcases hc with hc | rfl
      · have hno : ∀ other : Char, other.isDigit = false → (c == other) = false :=
          fun other hother => beq_false_of_ne (ne_of_isDigit hc hother)
        rw [isBlank, hno ' ' (by decide), hno '\t' (by decide), hno '\n' (by decide),
          hno '\r' (by decide)]
        rfl
      · decide
  | string written => exact ⟨'"', _, rfl, by decide⟩
  | boolean value => cases value <;> exact ⟨_, _, rfl, by decide⟩
  | _ => exact ⟨_, _, rfl, by decide⟩

/-- The characters that a token can start with, but for numbers. -/
def starts : List Char :=
  ['\x7b', '\x7d', '[', ']', ',', ':', 'n', 't', 'f', '"']

theorem ne_of_mem_starts
    {c other : Char}
    (hc : c.isDigit = true ∨ c = '-')
    (hother : other ∈ starts) :
    c ≠ other := by
  have hall : starts.all (fun start => !start.isDigit && start != '-') = true := by decide
  have hstart := List.all_eq_true.1 hall other hother
  simp only [Bool.and_eq_true, Bool.not_eq_true', bne_iff_ne] at hstart
  rcases hc with hc | rfl
  · exact ne_of_isDigit hc hstart.1
  · exact hstart.2.symm

theorem read_number
    {c : Char}
    (hc : c.isDigit = true ∨ c = '-')
    (text : List Char) :
    read c text =
      (readNumber (c :: text)).map fun (literal, rest) =>
        (.number (String.ofList literal), rest) := by
  have hno : ∀ other ∈ starts, c ≠ other := fun _ hother => ne_of_mem_starts hc hother
  simp only [starts, List.forall_mem_cons] at hno
  simp [read, hno]

/-- A token is read from its spelling. -/
theorem read_spelling
    {c : Char}
    {more rest : List Char}
    (h : token.WellFormed)
    (hspelling : token.spelling = c :: more)
    (hrest : token.EndsBefore rest) :
    read c (more ++ rest) = some (token, rest) := by
  cases token with
  | number literal =>
      have hliteral : literal.toList = c :: more := hspelling
      have hread : readNumber (c :: (more ++ rest)) = some (literal.toList, rest) := by
        rw [← List.cons_append, ← hliteral]
        exact readNumber_append h hrest
      have hc : c.isDigit = true ∨ c = '-' := by
        obtain ⟨first, others, heq, hfirst⟩ := IsNumber.exists_cons h
        cases hliteral.symm.trans heq
        exact hfirst
      simp [read_number hc, hread]
  | string written =>
      cases hspelling
      have hread : readString [] .plain (written.toList ++ '"' :: rest) =
          some (written.toList, rest) :=
        readString_append h [] rest
      simp [read, hread]
  | boolean value =>
      cases value with
      | false => cases hspelling; rfl
      | true => cases hspelling; rfl
  | _ =>
      cases hspelling
      rfl

end Token

end Json
end Microcomputer
