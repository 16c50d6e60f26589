import Mathlib.Data.List.Chain
import Microcomputer.Proofs.Source.Spelling

/-!
# Tokens written one after another

Any tokens, spelled in any way and kept apart by any separators, are read back.

**Written tokens.**  `WrittenToken` is a token as it stands in a source: its kind, its
spelling and the separator behind it.

**Separation.**  `MustSeparate` tells the pairs of tokens that have to be kept apart: a
directive, a name or a number before a name or a number.

**Result.**  `tokens_of_written`: the text of well-separated tokens consists of tokens of
their kinds.
-/

namespace Microcomputer
namespace Source

/-- A token as it stands in a source, with the separator behind it. -/
structure WrittenToken where
  kind : TokenKind
  spelling : List Char
  separator : List Char

/-- The characters of a written token and of the separator behind it. -/
def WrittenToken.text (written : WrittenToken) : List Char :=
  written.spelling ++ written.separator

/-- The kind of token is spelled with characters of a name from its first on. -/
def TokenKind.goesOnWord : TokenKind → Bool
  | .name _ => true
  | .number _ => true
  | _ => false

/-- Written right after each other, the two tokens would run together. -/
def MustSeparate (before after : TokenKind) : Prop :=
  before.isWord = true ∧ after.goesOnWord = true

/-- The written tokens are spelled right and kept apart where they have to be. -/
structure WellWritten (written : List WrittenToken) : Prop where
  spelled : ∀ w ∈ written, Spelled w.kind w.spelling
  separated : ∀ w ∈ written, Separator w.separator
  apart : written.IsChain fun before after =>
    MustSeparate before.kind after.kind → before.separator ≠ []

section Ends

variable {rest : List Char}

theorem Separator.endsName
    {gap : List Char}
    (h : Separator gap)
    (hne : gap ≠ []) :
    EndsName (gap ++ rest) := by
  cases h with
  | nil => contradiction
  | @blank c gap hblank _ =>
      refine .of_cons ?_
      rw [Bool.eq_false_iff]
      intro hname
      simp [(startsToken_of_continuesName hname).1] at hblank
  | line => exact .of_cons (by decide)
  | block => exact .of_cons (by decide)

theorem Spelled.endsName
    {kind : TokenKind}
    {spelling : List Char}
    (h : Spelled kind spelling)
    (hkind : kind.goesOnWord = false) :
    EndsName (spelling ++ rest) := by
  cases h with
  | origin => exact .of_cons (by decide)
  | name => simp [TokenKind.goesOnWord] at hkind
  | decimal => simp [TokenKind.goesOnWord] at hkind
  | hexadecimal => simp [TokenKind.goesOnWord] at hkind
  | openBracket => exact .of_cons (by decide)
  | closeBracket => exact .of_cons (by decide)
  | colon => exact .of_cons (by decide)

end Ends

section Texts

theorem WellWritten.tail
    {w : WrittenToken}
    {others : List WrittenToken}
    (h : WellWritten (w :: others)) :
    WellWritten others where
  spelled := fun v hv => h.spelled v (by simp [hv])
  separated := fun v hv => h.separated v (by simp [hv])
  apart := h.apart.tail

theorem WellWritten.endsName
    {w : WrittenToken}
    {others : List WrittenToken}
    (h : WellWritten (w :: others))
    (hword : w.kind.isWord = true) :
    EndsName (w.separator ++ others.flatMap WrittenToken.text) := by
  by_cases hne : w.separator = []
  · rw [hne, List.nil_append]
    cases others with
    | nil => simp [EndsName]
    | cons v others =>
        have hv : v.kind.goesOnWord = false := by
          rw [Bool.eq_false_iff]
          intro hnext
          exact (List.isChain_cons_cons.1 h.apart).1 ⟨hword, hnext⟩ hne
        simpa [WrittenToken.text] using (h.spelled v (by simp)).endsName hv
  · exact (h.separated w (by simp)).endsName hne

theorem WellWritten.spells
    {written : List WrittenToken}
    (h : WellWritten written) :
    Spells (written.flatMap WrittenToken.text) (written.map WrittenToken.kind) := by
  induction written with
  | nil => exact spells_nil
  | cons w others ih =>
      have hgap := (h.separated w (by simp)).gapBefore (others.flatMap WrittenToken.text)
      have hrest := (ih h.tail).gap hgap
      have hspells := hrest.spelled (h.spelled w (by simp)) h.endsName
      simpa [WrittenToken.text] using hspells

end Texts

/-- **Separation.** Tokens in any spelling, with separators where they would run together, are read
as they were written. -/
theorem tokens_of_written
    {lead : List Char}
    {written : List WrittenToken}
    (hlead : Separator lead)
    (hwritten : WellWritten written) :
    ∃ found : List Token,
      tokens (String.ofList (lead ++ written.flatMap WrittenToken.text)) = .ok found ∧
      found.map Token.kind = written.map WrittenToken.kind := by
  have hspells := hwritten.spells.gap (hlead.gapBefore _)
  exact Spells.tokens (by simpa using hspells)

/-- The tokens of the text `.oRG;[` and, on the next line, `0X0b:_1/*;/**/007`. -/
def crowded : List WrittenToken :=
  [ ⟨.origin, ['.', 'o', 'R', 'G'], [';', '[', '\n']⟩,
    ⟨.number 11, ['0', 'X', '0', 'b'], []⟩,
    ⟨.colon, [':'], []⟩,
    ⟨.name "_1", ['_', '1'], ['/', '*', ';', '/', '*', '*', '/']⟩,
    ⟨.number 7, ['0', '0', '7'], []⟩ ]

theorem crowded_wellWritten : WellWritten crowded where
  spelled := by
    simp only [crowded, List.forall_mem_cons]
    refine ⟨.origin (by decide), ?_, .colon,
      .name (by decide), ?_, by simp⟩
    · exact .hexadecimal (Or.inr rfl) (by decide) (List.all_eq_true.1 (by decide)) (by decide)
    · exact .decimal (by decide) (List.all_eq_true.1 (by decide)) (by decide)
  separated := by
    simp only [crowded, List.forall_mem_cons]
    refine ⟨@Separator.line ['['] [] (by decide) .nil, .nil, .nil, ?_, .nil, by simp⟩
    exact @Separator.block [';', '/', '*'] [] (by simp [staysOpen_cons]) .nil
  apart := by
    simp [crowded, MustSeparate, TokenKind.isWord, TokenKind.goesOnWord]

theorem crowded_tokens :
    Separator [' '] ∧ WellWritten crowded ∧
      ∃ found : List Token,
        tokens (String.ofList ([' '] ++ crowded.flatMap WrittenToken.text)) = .ok found ∧
        found.map Token.kind = [.origin, .number 11, .colon, .name "_1", .number 7] := by
  have hlead : Separator [' '] := .blank (by decide) .nil
  exact ⟨hlead, crowded_wellWritten, tokens_of_written hlead crowded_wellWritten⟩

end Source
end Microcomputer
