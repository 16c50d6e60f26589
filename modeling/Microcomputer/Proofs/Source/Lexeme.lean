import Microcomputer.Proofs.Source.Gap
import Microcomputer.Proofs.Text.Numeral

/-!
# Spellings of a token

What a token may look like, apart from how it is read.

**Spellings.**  `Spelled kind spelling` lists the ways to write a token: the directive with
letters of either case, a name by itself, a number by its digits in one of two radixes,
and the signs.

**Ends.**  The directive, a name and a number end at the first character that no name goes
on with (`EndsName`); a bracket or a colon is a token whatever comes after it.

**Results.**  `spelled_of_lexeme` and `lexeme_of_spelled`: a lexeme is read from a text if
and only if the text starts with a spelling that ends there.
-/

namespace Microcomputer
namespace Source

section Characters

variable {rest : List Char}

/-- The text starts with a character that ends every name and number. -/
def EndsName (text : List Char) : Prop :=
  ∀ c ∈ text.head?, Text.continuesName c = false

theorem EndsName.of_cons
    {c : Char}
    (h : Text.continuesName c = false) :
    EndsName (c :: rest) := by
  intro d hd
  cases hd
  exact h

theorem endsName_iff : EndsName rest ↔ rest.head?.any Text.continuesName = false := by
  cases rest <;> simp [EndsName]

theorem endsName_dropWhile (text : List Char) : EndsName (text.dropWhile Text.continuesName) := by
  intro c hc
  have hnot := List.head?_dropWhile_not Text.continuesName text
  rw [Option.mem_def.1 hc] at hnot
  simpa using hnot

theorem EndsName.not_isHexDigit
    (h : EndsName rest) :
    ∀ c ∈ rest.head?, Text.isHexDigit c = false := by
  intro c hc
  have hname := h c hc
  cases hdigit : Text.isHexDigit c with
  | false => rfl
  | true => rw [Text.continuesName_of_isHexDigit hdigit] at hname; cases hname

theorem EndsName.not_isDigit
    (h : EndsName rest) :
    ∀ c ∈ rest.head?, c.isDigit = false := by
  intro c hc
  have hhex := h.not_isHexDigit c hc
  simp only [Text.isHexDigit, Bool.or_eq_false_iff] at hhex
  exact hhex.1.1

/-- A run of characters of a class goes up to the first character that is not in it. -/
theorem span_of_ends
    {isPart : Char → Bool}
    {word : List Char}
    (hword : ∀ c ∈ word, isPart c = true)
    (hend : ∀ c ∈ rest.head?, isPart c = false) :
    (word ++ rest).takeWhile isPart = word ∧ (word ++ rest).dropWhile isPart = rest := by
  rw [List.takeWhile_append_of_pos hword, List.dropWhile_append_of_pos hword]
  cases rest with
  | nil => simp
  | cons c rest =>
      have hc : isPart c = false := hend c rfl
      simp [hc]

theorem isDigit_of_startsName
    {c : Char}
    (h : Text.startsName c = true) :
    c.isDigit = false := by
  rw [Bool.eq_false_iff, ne_eq, Text.isDigit_iff]
  rw [Text.startsName_iff] at h
  omega

theorem startsToken_of_continuesName
    {c : Char}
    (h : Text.continuesName c = true) :
    StartsToken c := by
  have hrange := Text.continuesName_iff.1 h
  rw [Text.startsName_iff] at hrange
  refine ⟨?_, ?_, ?_⟩
  · rw [Bool.eq_false_iff]
    intro hblank
    simp only [Text.isBlank, Bool.or_eq_true, Bool.and_eq_true, decide_eq_true_eq,
      beq_iff_eq] at hblank
    omega
  · rintro rfl
    exact absurd h (by decide)
  · rintro rfl
    exact absurd h (by decide)

theorem startsToken_of_startsName
    {c : Char}
    (h : Text.startsName c = true) :
    StartsToken c :=
  startsToken_of_continuesName (Text.continuesName_of_startsName h)

end Characters

section Spellings

/-- The word is made as a name is. -/
structure IsName (word : String) : Prop where
  starts : word.toList.head?.any Text.startsName = true
  continues : word.toList.all Text.continuesName = true

instance (word : String) : Decidable (IsName word) :=
  decidable_of_iff
    (word.toList.head?.any Text.startsName = true ∧ word.toList.all Text.continuesName = true)
    ⟨fun h => ⟨h.1, h.2⟩, fun h => ⟨h.1, h.2⟩⟩

/-- The ways to write a token. -/
inductive Spelled : TokenKind → List Char → Prop
  | origin
      {word : List Char}
      (hword : Text.sameWord (String.ofList word) "org" = true) :
      Spelled .origin ('.' :: word)
  | name
      {word : String}
      (hword : IsName word) :
      Spelled (.name word) word.toList
  | decimal
      {value : UInt32}
      {digits : List Char}
      (hne : digits ≠ [])
      (hdigits : ∀ c ∈ digits, c.isDigit = true)
      (hvalue : Text.numeralValue 10 digits = value.toNat) :
      Spelled (.number value) digits
  | hexadecimal
      {value : UInt32}
      {x : Char}
      {digits : List Char}
      (hx : x = 'x' ∨ x = 'X')
      (hne : digits ≠ [])
      (hdigits : ∀ c ∈ digits, Text.isHexDigit c = true)
      (hvalue : Text.numeralValue 16 digits = value.toNat) :
      Spelled (.number value) ('0' :: x :: digits)
  | openBracket : Spelled .openBracket ['[']
  | closeBracket : Spelled .closeBracket [']']
  | colon : Spelled .colon [':']

/-- The directive, a name or a number: what ends only at a character that ends names. -/
def TokenKind.isWord : TokenKind → Bool
  | .origin => true
  | .name _ => true
  | .number _ => true
  | _ => false

end Spellings

section Reading

variable {place : Location} {c : Char} {text rest : List Char} {found : Lexeme}

theorem numberKind_eq_ok_iff
    {radix : Nat}
    (hradix : 0 < radix)
    {digits : List Char}
    {kind : TokenKind} :
    numberKind place radix digits rest = .ok kind ↔
      digits ≠ [] ∧ EndsName rest ∧
        ∃ value : UInt32, kind = .number value ∧ Text.numeralValue radix digits = value.toNat := by
  rw [endsName_iff]
  by_cases hne : digits = []
  · simp [numberKind, hne]
  cases hend : rest.head?.any Text.continuesName with
  | true => simp [numberKind, hend]
  | false =>
      simp only [numberKind, hend, Text.numeralBelow?_eq UInt32.size radix digits hradix]
      by_cases hvalue : Text.numeralValue radix digits < UInt32.size
      · simp [hne, hvalue]
        constructor
        · rintro rfl
          exact ⟨_, rfl, (UInt32.toNat_ofNat_of_lt hvalue).symm⟩
        · rintro ⟨value, rfl, hsame⟩
          rw [hsame, UInt32.ofNat_toNat]
      · simp [hne, hvalue]
        rintro value - hsame
        exact hvalue (hsame ▸ value.toNat_lt)

theorem numberKind_of_numberLexeme
    {radix : Nat}
    {isDigit : Char → Bool}
    {lead : List Char}
    (h : numberLexeme place radix isDigit lead text = .ok found) :
    found.spelling = lead ++ text.takeWhile isDigit ∧
      numberKind place radix (text.takeWhile isDigit) found.rest = .ok found.kind := by
  unfold numberLexeme at h
  split at h
  · next hkind =>
      cases h
      exact ⟨rfl, hkind⟩
  · simp at h

theorem spelled_of_literalLexeme
    (h : literalLexeme place c text = .ok found) :
    Spelled found.kind found.spelling ∧ EndsName found.rest := by
  have hdecimal : ∀ {digits : List Char},
      numberLexeme place 10 Char.isDigit [] digits = .ok found →
        Spelled found.kind found.spelling ∧ EndsName found.rest := by
    intro digits hread
    obtain ⟨hspelling, hkind⟩ := numberKind_of_numberLexeme hread
    obtain ⟨hne, hend, value, hnumber, hvalue⟩ := (numberKind_eq_ok_iff (by decide)).1 hkind
    rw [hnumber, hspelling]
    exact ⟨.decimal hne (List.all_eq_true.1 List.all_takeWhile) hvalue, hend⟩
  unfold literalLexeme at h
  split at h
  · next x digits =>
      split at h
      · next hx =>
          obtain ⟨hspelling, hkind⟩ := numberKind_of_numberLexeme h
          obtain ⟨hne, hend, value, hnumber, hvalue⟩ := (numberKind_eq_ok_iff (by decide)).1 hkind
          rw [hnumber, hspelling, hx.1]
          exact ⟨.hexadecimal hx.2 hne (List.all_eq_true.1 List.all_takeWhile) hvalue, hend⟩
      · exact hdecimal h
  · exact hdecimal h

theorem spelled_of_lexeme
    (h : lexeme place c text = .ok found) :
    Spelled found.kind found.spelling ∧ (found.kind.isWord = true → EndsName found.rest) := by
  unfold lexeme at h
  split at h
  · next hc =>
      cases h
      exact ⟨hc ▸ .openBracket, by simp [TokenKind.isWord]⟩
  split at h
  · next hc =>
      cases h
      exact ⟨hc ▸ .closeBracket, by simp [TokenKind.isWord]⟩
  split at h
  · next hc =>
      cases h
      exact ⟨hc ▸ .colon, by simp [TokenKind.isWord]⟩
  split at h
  · simp only [directiveLexeme] at h
    split at h
    · next hword =>
        cases h
        exact ⟨.origin hword, fun _ => endsName_dropWhile text⟩
    · simp at h
  split at h
  · obtain ⟨hspelled, hend⟩ := spelled_of_literalLexeme h
    exact ⟨hspelled, fun _ => hend⟩
  split at h
  · next hstart =>
      cases h
      have hword : IsName (String.ofList ((c :: text).takeWhile Text.continuesName)) := by
        constructor
        · simp [Text.continuesName_of_startsName hstart, hstart]
        · simp
      refine ⟨?_, fun _ => endsName_dropWhile (c :: text)⟩
      simpa [nameLexeme] using Spelled.name hword
  · simp at h

theorem lexeme_of_startsName
    (h : Text.startsName c = true) :
    lexeme place c text = .ok (nameLexeme (c :: text)) := by
  have hsign : c ≠ '[' ∧ c ≠ ']' ∧ c ≠ ':' ∧ c ≠ '.' := by
    refine ⟨?_, ?_, ?_, ?_⟩ <;> (rintro rfl; exact absurd h (by decide))
  obtain ⟨hopen, hclose, hcolon, hstop⟩ := hsign
  rw [lexeme, if_neg hopen, if_neg hclose, if_neg hcolon, if_neg hstop,
    isDigit_of_startsName h, h]
  rfl

theorem lexeme_of_isDigit
    (h : c.isDigit = true) :
    lexeme place c text = literalLexeme place c text := by
  have hsign : c ≠ '[' ∧ c ≠ ']' ∧ c ≠ ':' ∧ c ≠ '.' := by
    refine ⟨?_, ?_, ?_, ?_⟩ <;> (rintro rfl; exact absurd h (by decide))
  obtain ⟨hopen, hclose, hcolon, hstop⟩ := hsign
  rw [lexeme, if_neg hopen, if_neg hclose, if_neg hcolon, if_neg hstop, if_pos h]

theorem numberLexeme_of_digits
    {radix : Nat}
    (hradix : 0 < radix)
    {isDigit : Char → Bool}
    {lead digits : List Char}
    {value : UInt32}
    (hne : digits ≠ [])
    (hdigits : ∀ d ∈ digits, isDigit d = true)
    (hvalue : Text.numeralValue radix digits = value.toNat)
    (hname : EndsName rest)
    (hend : ∀ d ∈ rest.head?, isDigit d = false) :
    numberLexeme place radix isDigit lead (digits ++ rest) =
      .ok ⟨.number value, lead ++ digits, rest⟩ := by
  obtain ⟨htake, hdrop⟩ := span_of_ends hdigits hend
  have hkind : numberKind place radix digits rest = .ok (.number value) :=
    (numberKind_eq_ok_iff hradix).2 ⟨hne, hname, value, rfl, hvalue⟩
  rw [numberLexeme, htake, hdrop, hkind]

/-- A text that starts with decimal digits is not read as hexadecimal. -/
theorem literalLexeme_of_digits
    {others : List Char}
    (hdigits : ∀ d ∈ others, d.isDigit = true)
    (hend : EndsName rest) :
    literalLexeme place c (others ++ rest) =
      numberLexeme place 10 Char.isDigit [] (c :: (others ++ rest)) := by
  cases htail : others ++ rest with
  | nil => rfl
  | cons x tail =>
      have hx : x.isDigit = true ∨ Text.continuesName x = false := by
        cases others with
        | nil => exact Or.inr (hend x (by simp at htail; simp [htail]))
        | cons d others =>
            simp at htail
            exact Or.inl (hdigits x (by simp [htail.1]))
      have hdecimal : ¬ (c = '0' ∧ (x = 'x' ∨ x = 'X')) := by
        rintro ⟨-, rfl | rfl⟩ <;> exact absurd hx (by decide)
      rw [literalLexeme, if_neg hdecimal]

/-- A spelling that ends where it must is read as a whole, after the gap before it. -/
theorem lexeme_of_spelled
    {kind : TokenKind}
    {spelling : List Char}
    (h : Spelled kind spelling)
    (hend : kind.isWord = true → EndsName rest) :
    ∃ (c : Char) (others : List Char),
      spelling = c :: others ∧ StartsToken c ∧
        ∀ place, lexeme place c (others ++ rest) = .ok ⟨kind, spelling, rest⟩ := by
  cases h with
  | @origin word hword =>
      have hletters : ∀ d ∈ word, Text.continuesName d = true := by
        intro d hd
        have hfold : word.map Char.toLower = ['o', 'r', 'g'] := by
          simpa [Text.sameWord, Text.foldCase] using hword
        have hmem : d.toLower ∈ ['o', 'r', 'g'] := hfold ▸ List.mem_map_of_mem hd
        have hall : ['o', 'r', 'g'].all Text.continuesName = true := by decide
        exact Text.continuesName_of_toLower (List.all_eq_true.1 hall _ hmem)
      obtain ⟨htake, hdrop⟩ := span_of_ends hletters (hend rfl)
      refine ⟨'.', word, rfl, by decide, fun place => ?_⟩
      simp [lexeme, directiveLexeme, htake, hdrop, hword]
  | @name word hword =>
      obtain ⟨htake, hdrop⟩ := span_of_ends (List.all_eq_true.1 hword.continues) (hend rfl)
      obtain ⟨c, hc, hstart⟩ := (Option.any_eq_true _ _).1 hword.starts
      obtain ⟨others, hothers⟩ := List.head?_eq_some_iff.1 hc
      refine ⟨c, others, hothers, startsToken_of_startsName hstart, fun place => ?_⟩
      rw [lexeme_of_startsName hstart, nameLexeme, ← List.cons_append, ← hothers, htake, hdrop,
        String.ofList_toList]
  | @decimal value digits hne hdigits hvalue =>
      obtain ⟨c, others, rfl⟩ := List.exists_cons_of_ne_nil hne
      have hname : EndsName rest := hend rfl
      simp at hdigits
      refine ⟨c, others, rfl,
        startsToken_of_continuesName (Text.continuesName_of_isDigit hdigits.1), fun place => ?_⟩
      rw [lexeme_of_isDigit hdigits.1, literalLexeme_of_digits hdigits.2 hname,
        ← List.cons_append,
        numberLexeme_of_digits (by decide) hne (by simpa) hvalue hname hname.not_isDigit]
      rfl
  | @hexadecimal value x digits hx hne hdigits hvalue =>
      have hname : EndsName rest := hend rfl
      refine ⟨'0', x :: digits, rfl, by decide, fun place => ?_⟩
      rw [lexeme_of_isDigit (by decide), List.cons_append, literalLexeme, if_pos ⟨rfl, hx⟩,
        numberLexeme_of_digits (by decide) hne hdigits hvalue hname hname.not_isHexDigit]
      rfl
  | openBracket => exact ⟨'[', [], rfl, by decide, fun place => by simp [lexeme]⟩
  | closeBracket => exact ⟨']', [], rfl, by decide, fun place => by simp [lexeme]⟩
  | colon => exact ⟨':', [], rfl, by decide, fun place => by simp [lexeme]⟩

end Reading

end Source
end Microcomputer
