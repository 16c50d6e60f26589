import Microcomputer.Proofs.Source.Lexeme

/-!
# Spellings

Texts that are known to consist of certain tokens.

**Tokens of a text.**  `Spells text kinds` says that the text consists of tokens of
these kinds, wherever it stands.  A gap before a text changes nothing (`Spells.gap`);
the spelling of a token before it adds a token, if the token ends there
(`Spells.spelled`).
-/

namespace Microcomputer
namespace Source

/-- The text consists of tokens of the given kinds, wherever it stands. -/
def Spells (text : List Char) (kinds : List TokenKind) : Prop :=
  ∀ (done : Array Token) (place : Location), ∃ out : Array Token,
    tokensFrom done place text = .ok out ∧
    out.toList.map Token.kind = done.toList.map Token.kind ++ kinds

section Steps

variable {text rest : List Char} {kinds : List TokenKind}

theorem tokensFrom_of_end
    {done : Array Token}
    {place here : Location}
    (h : skipGap .between place text = .ok (here, [])) :
    tokensFrom done place text = .ok done := by
  unfold tokensFrom
  split
  · simp_all
  · rfl
  · simp_all

theorem tokensFrom_of_lexeme
    {done : Array Token}
    {place here : Location}
    {c : Char}
    {found : Lexeme}
    (hgap : skipGap .between place text = .ok (here, c :: rest))
    (hlexeme : lexeme here c rest = .ok found) :
    tokensFrom done place text =
      tokensFrom (done.push ⟨found.kind, here⟩) (here.after found.spelling) found.rest := by
  rw [tokensFrom]
  split
  · simp_all
  · simp_all
  · next here' c' rest' hgap' =>
      rw [hgap] at hgap'
      cases hgap'
      split
      · simp_all
      · simp_all

theorem tokensFrom_of_gap_error
    {done : Array Token}
    {place : Location}
    {e : AssemblyError}
    (h : skipGap .between place text = .error e) :
    tokensFrom done place text = .error e := by
  unfold tokensFrom
  split
  · simp_all
  · simp_all
  · simp_all

theorem tokensFrom_of_lexeme_error
    {done : Array Token}
    {place here : Location}
    {c : Char}
    {e : AssemblyError}
    (hgap : skipGap .between place text = .ok (here, c :: rest))
    (hlexeme : lexeme here c rest = .error e) :
    tokensFrom done place text = .error e := by
  unfold tokensFrom
  split
  · simp_all
  · simp_all
  · next here' c' rest' hgap' =>
      rw [hgap] at hgap'
      cases hgap'
      split
      · simp_all
      · simp_all

theorem tokensFrom_congr
    {done : Array Token}
    {place place' : Location}
    {text' : List Char}
    (h : skipGap .between place text = skipGap .between place' text') :
    tokensFrom done place text = tokensFrom done place' text' := by
  rcases hgap : skipGap .between place' text' with e | ⟨here, _ | ⟨c, rest⟩⟩
  · rw [tokensFrom_of_gap_error hgap, tokensFrom_of_gap_error (h.trans hgap)]
  · rw [tokensFrom_of_end hgap, tokensFrom_of_end (h.trans hgap)]
  · cases hlexeme : lexeme here c rest with
    | error e =>
        rw [tokensFrom_of_lexeme_error hgap hlexeme,
          tokensFrom_of_lexeme_error (h.trans hgap) hlexeme]
    | ok found =>
        rw [tokensFrom_of_lexeme hgap hlexeme, tokensFrom_of_lexeme (h.trans hgap) hlexeme]

theorem spells_nil : Spells [] [] := by
  intro done place
  refine ⟨done, tokensFrom_of_end rfl, ?_⟩
  rw [List.append_nil]

theorem Spells.unique
    {others : List TokenKind}
    (h : Spells text kinds)
    (hothers : Spells text others) :
    kinds = others := by
  obtain ⟨out, hout, hkinds⟩ := h #[] .start
  obtain ⟨out', hout', hkinds'⟩ := hothers #[] .start
  obtain rfl : out = out' := Except.ok.inj (hout.symm.trans hout')
  exact List.append_cancel_left (hkinds.symm.trans hkinds')

/-- A gap before a text changes nothing. -/
theorem Spells.gap
    {gap : List Char}
    (h : Spells text kinds)
    (hgap : GapBefore text gap) :
    Spells (gap ++ text) kinds := by
  intro done place
  rw [tokensFrom_congr (skipGap_of_gapBefore place hgap)]
  exact h done (place.after gap)

theorem Spells.blank
    {c : Char}
    (h : Spells text kinds)
    (hblank : Text.isBlank c = true) :
    Spells (c :: text) kinds :=
  h.gap (.blank hblank .nil)

theorem Spells.token
    {c : Char}
    {kind : TokenKind}
    {spelling : List Char}
    (h : Spells rest kinds)
    (hstart : StartsToken c)
    (hlexeme : ∀ place, lexeme place c text = .ok ⟨kind, spelling, rest⟩) :
    Spells (c :: text) (kind :: kinds) := by
  intro done place
  obtain ⟨out, hout, hkinds⟩ := h (done.push ⟨kind, place⟩) (place.after spelling)
  refine ⟨out, ?_, ?_⟩
  · rw [tokensFrom_of_lexeme (skipGap_of_startsToken hstart) (hlexeme place)]
    exact hout
  · rw [hkinds]
    simp

end Steps

section Lexemes

variable {rest : List Char} {kinds : List TokenKind}

theorem Spells.spelled
    {kind : TokenKind}
    {spelling : List Char}
    (h : Spells rest kinds)
    (hspelled : Spelled kind spelling)
    (hend : kind.isWord = true → EndsName rest) :
    Spells (spelling ++ rest) (kind :: kinds) := by
  obtain ⟨c, others, rfl, hstart, hlexeme⟩ := lexeme_of_spelled hspelled hend
  exact h.token hstart hlexeme

theorem Spells.openBracket
    (h : Spells rest kinds) :
    Spells ('[' :: rest) (.openBracket :: kinds) :=
  h.spelled .openBracket (by simp [TokenKind.isWord])

theorem Spells.closeBracket
    (h : Spells rest kinds) :
    Spells (']' :: rest) (.closeBracket :: kinds) :=
  h.spelled .closeBracket (by simp [TokenKind.isWord])

theorem Spells.name
    {word : String}
    (h : Spells rest kinds)
    (hword : IsName word)
    (hend : EndsName rest) :
    Spells (word.toList ++ rest) (.name word :: kinds) :=
  h.spelled (.name hword) fun _ => hend

/-- The directive that starts a section. -/
theorem Spells.origin
    (h : Spells rest kinds)
    (hend : EndsName rest) :
    Spells ('.' :: 'o' :: 'r' :: 'g' :: rest) (.origin :: kinds) := by
  have horigin : Spelled .origin ['.', 'o', 'r', 'g'] := .origin (by decide)
  exact h.spelled horigin fun _ => hend

theorem spelled_hexLiteral
    (width : Nat)
    {n : Nat}
    (hn : n < UInt32.size) :
    Spelled (.number (UInt32.ofNat n)) (Text.hexLiteral width n).toList := by
  rw [Text.toList_hexLiteral]
  refine .hexadecimal (Or.inl rfl) (Text.hexDigits_ne_nil width n) ?_ ?_
  · intro c hc
    exact Text.isHexDigit_of_mem_hexDigits hc
  · rw [Text.numeralValue_hexDigits, UInt32.toNat_ofNat_of_lt' hn]

theorem Spells.hexLiteral
    (h : Spells rest kinds)
    (width : Nat)
    {n : Nat}
    (hn : n < UInt32.size)
    (hend : EndsName rest) :
    Spells ((Text.hexLiteral width n).toList ++ rest) (.number (UInt32.ofNat n) :: kinds) :=
  h.spelled (spelled_hexLiteral width hn) fun _ => hend

end Lexemes

theorem Spells.tokens
    {source : String}
    {kinds : List TokenKind}
    (h : Spells source.toList kinds) :
    ∃ found : List Token, tokens source = .ok found ∧ found.map Token.kind = kinds := by
  obtain ⟨out, hout, hkinds⟩ := h #[] .start
  refine ⟨out.toList, ?_, hkinds⟩
  rw [Source.tokens, hout]
  rfl

end Source
end Microcomputer
