import Microcomputer.Proofs.Source.Partition

/-!
# Where a source is rejected

A source without tokens is rejected at a place behind the tokens that can be read.

**Reach.**  `Leads rest lead`: the characters `lead` are spellings of tokens with gaps around them,
where `rest` comes after them.  So the characters after `lead` are reached by reading.

**Rejection.**  `Rejected fault text`: the text starts with what the fault says, and no token is
spelled there.

**Results.**  `rejected_of_tokens`: what is rejected, and where.  `Partition.leads`: every token is
reached, and stands where its location says.
-/

namespace Microcomputer
namespace Source

section Reach

/-- The characters are tokens and gaps, where `rest` comes after them. -/
inductive Leads (rest : List Char) : List Char → Prop
  | gap
      {gap : List Char}
      (hgap : GapBefore rest gap) :
      Leads rest gap
  | token
      {gap spelling lead : List Char}
      {kind : TokenKind}
      (hgap : GapBefore (spelling ++ (lead ++ rest)) gap)
      (hspelled : Spelled kind spelling)
      (hend : kind.isWord = true → EndsName (lead ++ rest))
      (hlead : Leads rest lead) :
      Leads rest (gap ++ (spelling ++ lead))

/-- The text starts with a token of a kind, which ends where it must. -/
def StartsWith
    (kind : TokenKind)
    (text : List Char) :
    Prop :=
  ∃ spelling rest,
    text = spelling ++ rest ∧ Spelled kind spelling ∧ (kind.isWord = true → EndsName rest)

/-- The text starts with what a fault says, which is no token. -/
inductive Rejected : SyntaxFault → List Char → Prop
  /-- A block comment that is not closed. -/
  | comment
      {body : List Char}
      (hopen : StaysOpen body) :
      Rejected .unterminatedComment ('/' :: '*' :: body)
  /-- A directive of another name. -/
  | directive
      {word rest : List Char}
      (hword : ∀ c ∈ word, Text.continuesName c = true)
      (hend : EndsName rest)
      (hno : ∀ kind, ¬ StartsWith kind ('.' :: (word ++ rest))) :
      Rejected (.unknownDirective (String.ofList word)) ('.' :: (word ++ rest))
  /-- A literal that is no number. -/
  | literal
      {c : Char}
      {rest : List Char}
      {fault : SyntaxFault}
      (hfault : fault = .malformedNumber ∨ fault = .numberTooLarge)
      (hdigit : c.isDigit = true)
      (hno : ∀ kind, ¬ StartsWith kind (c :: rest)) :
      Rejected fault (c :: rest)
  /-- A character that starts neither a token nor a gap. -/
  | character
      {c : Char}
      {rest : List Char}
      (hgap : Text.isBlank c = false ∧ c ≠ ';' ∧ ¬ (c = '/' ∧ rest.head? = some '*'))
      (hno : ∀ kind, ¬ StartsWith kind (c :: rest)) :
      Rejected (.unexpectedCharacter c) (c :: rest)

variable {text : List Char}

/-- No blank starts a token. -/
theorem StartsWith.exists_cons
    {kind : TokenKind}
    (h : StartsWith kind text) :
    ∃ c rest, text = c :: rest ∧ Text.isBlank c = false := by
  obtain ⟨spelling, rest, rfl, hspelled, hend⟩ := h
  obtain ⟨c, others, rfl, hstart, -⟩ := lexeme_of_spelled hspelled hend
  exact ⟨c, others ++ rest, rfl, hstart.1⟩

theorem Rejected.exists_cons
    {fault : SyntaxFault}
    (h : Rejected fault text) :
    ∃ c rest, text = c :: rest ∧ Text.isBlank c = false := by
  cases h with
  | comment => exact ⟨'/', _, rfl, rfl⟩
  | directive => exact ⟨'.', _, rfl, rfl⟩
  | @literal c rest _ _ hdigit =>
      have hname := Text.continuesName_of_isDigit hdigit
      exact ⟨c, rest, rfl, (startsToken_of_continuesName hname).1⟩
  | @character c rest hgap => exact ⟨c, rest, rfl, hgap.1⟩

theorem Partition.leads
    {passed : List Char}
    {found : List Token}
    {token : Token}
    (h : Partition passed text found)
    (htoken : token ∈ found) :
    ∃ lead rest,
      text = lead ++ rest ∧
      Leads rest lead ∧
      token.location = .behind (passed ++ lead) ∧
      StartsWith token.kind rest := by
  induction h with
  | last => cases htoken
  | @token passed gap spelling tail kind others hgap hspelled hend _ ih =>
      rcases List.mem_cons.1 htoken with rfl | hothers
      · exact ⟨gap, spelling ++ tail, rfl, .gap hgap, rfl, spelling, tail, rfl, hspelled, hend⟩
      · obtain ⟨lead, rest, rfl, hlead, hplace, hstarts⟩ := ih hothers
        refine ⟨gap ++ (spelling ++ lead), rest, ?_, .token hgap hspelled hend hlead, ?_, hstarts⟩
        · simp
        · rw [hplace]
          simp

end Reach

section Gaps

variable {state : Gap} {place here opened : Location} {text rest : List Char} {e : AssemblyError}

/-- The block comment that opened at a place is not closed in the text. -/
def LeftOpen
    (opened : Location)
    (text : List Char) :
    Gap → Prop
  | .opening place => place = opened ∧ ∀ body, text = '*' :: body → StaysOpen body
  | .blockComment place afterStar =>
      place = opened ∧ StaysOpen (if afterStar then '*' :: text else text)
  | _ => False

theorem leftOpen_blockComment_cons
    {c : Char}
    {afterStar : Bool}
    (hc : ¬ (afterStar = true ∧ c = '/'))
    (h : LeftOpen opened text (.blockComment place (c == '*'))) :
    LeftOpen opened (c :: text) (.blockComment place afterStar) := by
  obtain ⟨hplace, hopen⟩ := h
  have hinner : StaysOpen (c :: text) := by
    by_cases hstar : c = '*'
    · subst hstar
      simpa using hopen
    · rw [staysOpen_cons]
      exact ⟨fun hclosed => hstar hclosed.1, by simpa [hstar] using hopen⟩
  refine ⟨hplace, ?_⟩
  cases afterStar with
  | false => exact hinner
  | true =>
      have hhead : ¬ c = '/' := fun hslash => hc ⟨rfl, hslash⟩
      exact staysOpen_cons.2 ⟨by simpa using hhead, hinner⟩

/-- From a state on, a block comment that is not closed is reached, and reported where it starts. -/
def MeetsComment
    (state : Gap)
    (place : Location)
    (text : List Char)
    (e : AssemblyError) :
    Prop :=
  ∃ passed rest,
    text = passed ++ rest ∧
    Passes state passed rest ∧
    e = .malformed (place.after passed) .unterminatedComment ∧
    Rejected .unterminatedComment rest

theorem MeetsComment.cons
    {next : Gap}
    {c : Char}
    (h : MeetsComment next (place.advance c) text e)
    (hstep : ∀ passed rest,
      text = passed ++ rest → Passes next passed rest → Passes state (c :: passed) rest) :
    MeetsComment state place (c :: text) e := by
  obtain ⟨passed, rest, htext, hpasses, rfl, hrejected⟩ := h
  refine ⟨c :: passed, rest, ?_, hstep passed rest htext hpasses, rfl, hrejected⟩
  rw [htext, List.cons_append]

theorem meetsComment_of_skipGap
    (h : skipGap state place text = .error e) :
    MeetsComment state place text e ∨
      ∃ opened, LeftOpen opened text state ∧ e = .malformed opened .unterminatedComment := by
  fun_induction skipGap state place text with
  | case1 => cases h
  | case2 place c text hblank ih =>
      rcases ih h with hmeets | ⟨opened, hopen, -⟩
      · exact Or.inl (hmeets.cons fun _ _ _ hpasses => .blank hblank hpasses)
      · exact hopen.elim
  | case3 place text _ ih =>
      rcases ih h with hmeets | ⟨opened, hopen, -⟩
      · exact Or.inl (hmeets.cons fun _ _ _ hpasses => hpasses)
      · exact hopen.elim
  | case4 place c text _ _ hopening ih =>
      obtain ⟨rfl, hstar⟩ := hopening
      rcases ih h with hmeets | ⟨opened, ⟨rfl, hbody⟩, rfl⟩
      · exact Or.inl (hmeets.cons fun _ _ htext hpasses => hpasses (htext ▸ hstar))
      · -- The comment that opens here is the one that is not closed.
        obtain ⟨body, rfl⟩ := List.head?_eq_some_iff.1 hstar
        exact Or.inl ⟨[], '/' :: '*' :: body, rfl, .nil, rfl, .comment (hbody body rfl)⟩
  | case5 => cases h
  | case6 => cases h
  | case7 place text ih =>
      rcases ih h with hmeets | ⟨opened, hopen, -⟩
      · exact Or.inl (hmeets.cons fun _ _ _ hpasses => passes_lineComment_newline hpasses)
      · exact hopen.elim
  | case8 place c text hc ih =>
      rcases ih h with hmeets | ⟨opened, hopen, -⟩
      · exact Or.inl (hmeets.cons fun _ _ _ hpasses => passes_lineComment_cons hc hpasses)
      · exact hopen.elim
  | case9 opened place =>
      cases h
      exact Or.inr ⟨opened, ⟨rfl, by simp⟩, rfl⟩
  | case10 opened place c text ih =>
      rcases ih h with hmeets | ⟨_, ⟨rfl, hopen⟩, rfl⟩
      · exact Or.inl (hmeets.cons fun _ _ _ hpasses => passes_opening_cons c hpasses)
      · refine Or.inr ⟨_, ⟨rfl, fun body hbody => ?_⟩, rfl⟩
        cases hbody
        exact hopen
  | case11 opened afterStar place =>
      cases h
      refine Or.inr ⟨opened, ⟨rfl, ?_⟩, rfl⟩
      cases afterStar with
      | false => exact staysOpen_nil
      | true => simp [staysOpen_cons]
  | case12 opened afterStar place c text hclosed ih =>
      obtain ⟨rfl, rfl⟩ := hclosed
      rcases ih h with hmeets | ⟨_, hopen, -⟩
      · exact Or.inl (hmeets.cons fun _ _ _ hpasses => passes_blockComment_slash hpasses)
      · exact hopen.elim
  | case13 opened afterStar place c text hc ih =>
      rcases ih h with hmeets | ⟨_, hopen, rfl⟩
      · exact Or.inl (hmeets.cons fun _ _ _ hpasses => passes_blockComment_cons hc hpasses)
      · exact Or.inr ⟨_, leftOpen_blockComment_cons hc hopen, rfl⟩

theorem no_gap_of_skipGap
    {c : Char}
    (h : skipGap state place text = .ok (here, c :: rest)) :
    Text.isBlank c = false ∧ c ≠ ';' ∧ ¬ (c = '/' ∧ rest.head? = some '*') := by
  fun_induction skipGap state place text with
  | case1 => cases h
  | case5 place d text hblank hsemicolon hopening =>
      cases h
      exact ⟨by simpa using hblank, hsemicolon, hopening⟩
  | case6 => cases h
  | case9 => cases h
  | case11 => cases h
  | case2 _ _ _ _ ih => exact ih h
  | case3 _ _ _ ih => exact ih h
  | case4 _ _ _ _ _ _ ih => exact ih h
  | case7 _ _ ih => exact ih h
  | case8 _ _ _ _ ih => exact ih h
  | case10 _ _ _ _ ih => exact ih h
  | case12 _ _ _ _ _ _ ih => exact ih h
  | case13 _ _ _ _ _ _ ih => exact ih h

end Gaps

section Lexemes

variable {place : Location} {c : Char} {text : List Char} {e : AssemblyError}

theorem not_startsWith_of_lexeme
    (h : lexeme place c text = .error e)
    (kind : TokenKind) :
    ¬ StartsWith kind (c :: text) := by
  rintro ⟨spelling, rest, htext, hspelled, hend⟩
  obtain ⟨d, others, rfl, -, hread⟩ := lexeme_of_spelled hspelled hend
  rw [List.cons_append, List.cons.injEq] at htext
  rw [htext.1, htext.2, hread place] at h
  cases h

theorem fault_of_numberLexeme
    {radix : Nat}
    {isDigit : Char → Bool}
    {lead : List Char}
    (h : numberLexeme place radix isDigit lead text = .error e) :
    e = .malformed place .malformedNumber ∨ e = .malformed place .numberTooLarge := by
  unfold numberLexeme at h
  split at h
  · cases h
  · next hkind =>
      cases h
      unfold numberKind at hkind
      split at hkind
      · cases hkind
        exact Or.inl rfl
      · split at hkind
        · cases hkind
        · cases hkind
          exact Or.inr rfl

theorem fault_of_literalLexeme
    (h : literalLexeme place c text = .error e) :
    e = .malformed place .malformedNumber ∨ e = .malformed place .numberTooLarge := by
  unfold literalLexeme at h
  split at h
  · split at h
    · exact fault_of_numberLexeme h
    · exact fault_of_numberLexeme h
  · exact fault_of_numberLexeme h

/-- What is rejected where no gap starts. -/
theorem rejected_of_lexeme
    (hgap : Text.isBlank c = false ∧ c ≠ ';' ∧ ¬ (c = '/' ∧ text.head? = some '*'))
    (h : lexeme place c text = .error e) :
    ∃ fault, e = .malformed place fault ∧ Rejected fault (c :: text) := by
  have hno := not_startsWith_of_lexeme h
  unfold lexeme at h
  split at h
  · cases h
  split at h
  · cases h
  split at h
  · cases h
  split at h
  · next hstop =>
      subst hstop
      simp only [directiveLexeme] at h
      split at h
      · cases h
      · cases h
        refine ⟨_, rfl, ?_⟩
        have hword : ∀ d ∈ text.takeWhile Text.continuesName, Text.continuesName d = true :=
          List.all_eq_true.1 List.all_takeWhile
        have hdirective := @Rejected.directive _ _ hword (endsName_dropWhile text)
        rw [List.takeWhile_append_dropWhile] at hdirective
        exact hdirective hno
  split at h
  · next hdigit =>
      rcases fault_of_literalLexeme h with rfl | rfl
      · exact ⟨_, rfl, .literal (Or.inl rfl) hdigit hno⟩
      · exact ⟨_, rfl, .literal (Or.inr rfl) hdigit hno⟩
  split at h
  · cases h
  · cases h
    exact ⟨_, rfl, .character hgap hno⟩

end Lexemes

section Tokens

variable {passed text : List Char} {e : AssemblyError}

theorem rejected_of_tokensFrom
    {done : Array Token}
    {place : Location}
    (hplace : place = .behind passed)
    (h : tokensFrom done place text = .error e) :
    ∃ lead rest fault,
      text = lead ++ rest ∧
      Leads rest lead ∧
      e = .malformed (.behind (passed ++ lead)) fault ∧
      Rejected fault rest := by
  fun_induction tokensFrom done place text generalizing passed with
  | case1 done place text e hskip =>
      cases h
      rcases meetsComment_of_skipGap hskip with
        ⟨gap, rest, rfl, hgap, rfl, hrejected⟩ | ⟨_, hopen, -⟩
      · refine ⟨gap, rest, _, rfl, .gap hgap, ?_, hrejected⟩
        rw [hplace, behind_after]
      · exact hopen.elim
  | case2 => cases h
  | case3 done place text here c rest hskip e hlexeme =>
      cases h
      obtain ⟨gap, rfl, rfl, hgap⟩ := gapBefore_of_skipGap hskip
      obtain ⟨fault, rfl, hrejected⟩ := rejected_of_lexeme (no_gap_of_skipGap hskip) hlexeme
      refine ⟨gap, c :: rest, fault, rfl, .gap hgap, ?_, hrejected⟩
      rw [hplace, behind_after]
  | case4 done place text here c rest hskip read hlexeme ih =>
      obtain ⟨gap, rfl, rfl, hgap⟩ := gapBefore_of_skipGap hskip
      obtain ⟨hspelled, hend⟩ := spelled_of_lexeme hlexeme
      have hchars : read.spelling ++ read.rest = c :: rest := (lexeme_spelling hlexeme).1
      rw [hplace, behind_after, behind_after] at h ih
      obtain ⟨lead, tail, fault, htail, hlead, rfl, hrejected⟩ := ih rfl h
      rw [← hchars, htail] at hgap ⊢
      rw [htail] at hend
      refine ⟨gap ++ (read.spelling ++ lead), tail, fault, ?_, .token hgap hspelled hend hlead, ?_,
        hrejected⟩
      · simp
      · simp

/-- **Rejection.** A source without tokens is rejected at the place of what cannot be read. -/
theorem rejected_of_tokens
    {source : String}
    (h : tokens source = .error e) :
    ∃ lead rest fault,
      source.toList = lead ++ rest ∧
      Leads rest lead ∧
      e = .malformed (.behind lead) fault ∧
      Rejected fault rest := by
  have hstart : Location.start = .behind [] := rfl
  cases hread : tokensFrom #[] .start source.toList with
  | error e =>
      simp [tokens, hread, Except.map] at h
      subst h
      simpa using rejected_of_tokensFrom hstart hread
  | ok found => simp [tokens, hread, Except.map] at h

end Tokens

end Source
end Microcomputer
