import Microcomputer.Proofs.Source.Partition
import Microcomputer.Proofs.Source.Rejection

/-!
# Sources one above the other

What the tokens of two texts become when a line feed joins them.

**Moving down.**  `below lines` moves a place, a token or an error down by some lines.  Reading does
not depend on where a text stands: from a place further down it finds the same tokens, or fails for
the same reason, further down (`tokensFrom_below`).

**Seam.**  Behind a text that has tokens a line feed ends whatever is open, a comment, a name or a
number, and reading goes on as it starts (`tokensFrom_above`).

**Result.**  `tokens_of_stacked`.
-/

namespace Microcomputer

/-- The place so many lines further down. -/
def Source.Location.below
    (place : Source.Location)
    (lines : Nat) :
    Source.Location :=
  ⟨place.line + lines, place.column⟩

/-- The error at a place so many lines further down. -/
def AssemblyError.below : AssemblyError → Nat → AssemblyError
  | .malformed location fault, lines => .malformed (location.below lines) fault
  | .unresolvedLabel location label, lines => .unresolvedLabel (location.below lines) label
  | .duplicateLabel location label, lines => .duplicateLabel (location.below lines) label
  | .outOfRange location value, lines => .outOfRange (location.below lines) value
  | .overlappingSections first second, _ => .overlappingSections first second
  | .empty, _ => .empty

namespace Source

section Moving

def Token.below
    (token : Token)
    (lines : Nat) :
    Token :=
  ⟨token.kind, token.location.below lines⟩

/-- A gap whose comment opened so many lines further down. -/
def Gap.below : Gap → Nat → Gap
  | .between, _ => .between
  | .lineComment, _ => .lineComment
  | .opening opened, lines => .opening (opened.below lines)
  | .blockComment opened afterStar, lines => .blockComment (opened.below lines) afterStar

variable (lines : Nat)

@[simp]
theorem advance_below
    (place : Location)
    (c : Char) :
    (place.below lines).advance c = (place.advance c).below lines := by
  unfold Location.advance Location.below
  split
  · simp [Nat.add_right_comm]
  · rfl

@[simp]
theorem after_below
    (place : Location)
    (passed : List Char) :
    (place.below lines).after passed = (place.after passed).below lines := by
  induction passed generalizing place with
  | nil => rfl
  | cons c passed ih => rw [Location.after_cons, advance_below, ih, Location.after_cons]

theorem skipGap_below
    (state : Gap)
    (place : Location)
    (text : List Char) :
    skipGap (state.below lines) (place.below lines) text =
      ((skipGap state place text).mapError (·.below lines)).map fun (here, rest) =>
        (here.below lines, rest) := by
  fun_induction skipGap state place text with
  | case1 => rfl
  | case2 place c text hblank ih =>
      simp only [Gap.below] at ih ⊢
      rw [skipGap, if_pos hblank, advance_below, ih]
  | case3 place text hblank ih =>
      simp only [Gap.below] at ih ⊢
      rw [skipGap, if_neg hblank, if_pos rfl, advance_below, ih]
  | case4 place c text hblank hsemicolon hopening ih =>
      simp only [Gap.below] at ih ⊢
      rw [skipGap, if_neg hblank, if_neg hsemicolon, if_pos hopening, advance_below, ih]
  | case5 place c text hblank hsemicolon hopening =>
      simp only [Gap.below]
      rw [skipGap, if_neg hblank, if_neg hsemicolon, if_neg hopening]
      rfl
  | case6 => rfl
  | case7 place text ih =>
      simp only [Gap.below] at ih ⊢
      rw [skipGap, if_pos rfl, advance_below, ih]
  | case8 place c text hc ih =>
      simp only [Gap.below] at ih ⊢
      rw [skipGap, if_neg hc, advance_below, ih]
  | case9 => rfl
  | case10 opened place c text ih =>
      simp only [Gap.below] at ih ⊢
      rw [skipGap, advance_below, ih]
  | case11 => rfl
  | case12 opened afterStar place c text hclosed ih =>
      simp only [Gap.below] at ih ⊢
      rw [skipGap, if_pos hclosed, advance_below, ih]
  | case13 opened afterStar place c text hc ih =>
      simp only [Gap.below] at ih ⊢
      rw [skipGap, if_neg hc, advance_below, ih]

theorem numberKind_below
    (place : Location)
    (radix : Nat)
    (digits rest : List Char) :
    numberKind (place.below lines) radix digits rest =
      (numberKind place radix digits rest).mapError (·.below lines) := by
  unfold numberKind
  split
  · rfl
  · cases Text.numeralBelow? UInt32.size radix digits with
    | none => rfl
    | some value => rfl

theorem numberLexeme_below
    (place : Location)
    (radix : Nat)
    (isDigit : Char → Bool)
    (lead text : List Char) :
    numberLexeme (place.below lines) radix isDigit lead text =
      (numberLexeme place radix isDigit lead text).mapError (·.below lines) := by
  rw [numberLexeme, numberLexeme, numberKind_below]
  cases numberKind place radix (text.takeWhile isDigit) (text.dropWhile isDigit) with
  | error e => rfl
  | ok kind => rfl

theorem lexeme_below
    (place : Location)
    (c : Char)
    (text : List Char) :
    lexeme (place.below lines) c text = (lexeme place c text).mapError (·.below lines) := by
  have hliteral : literalLexeme (place.below lines) c text =
      (literalLexeme place c text).mapError (·.below lines) := by
    unfold literalLexeme
    split
    · split
      · exact numberLexeme_below lines place _ _ _ _
      · exact numberLexeme_below lines place _ _ _ _
    · exact numberLexeme_below lines place _ _ _ _
  have hdirective : directiveLexeme (place.below lines) text =
      (directiveLexeme place text).mapError (·.below lines) := by
    simp only [directiveLexeme]
    split
    · rfl
    · rfl
  unfold lexeme
  split
  · rfl
  split
  · rfl
  split
  · rfl
  split
  · exact hdirective
  split
  · exact hliteral
  split
  · rfl
  · rfl

theorem tokensFrom_below
    (before done : Array Token)
    (place : Location)
    (text : List Char) :
    tokensFrom (before ++ done.map (·.below lines)) (place.below lines) text =
      ((tokensFrom done place text).mapError (·.below lines)).map fun found =>
        before ++ found.map (·.below lines) := by
  fun_induction tokensFrom done place text with
  | case1 done place text e hskip =>
      have hmoved := skipGap_below lines .between place text
      rw [hskip] at hmoved
      exact tokensFrom_of_gap_error hmoved
  | case2 done place text here hskip =>
      have hmoved := skipGap_below lines .between place text
      rw [hskip] at hmoved
      exact tokensFrom_of_end hmoved
  | case3 done place text here c rest hskip e hread =>
      have hmoved := skipGap_below lines .between place text
      have hlexeme := lexeme_below lines here c rest
      rw [hskip] at hmoved
      rw [hread] at hlexeme
      exact tokensFrom_of_lexeme_error hmoved hlexeme
  | case4 done place text here c rest hskip found hread ih =>
      have hmoved := skipGap_below lines .between place text
      have hlexeme := lexeme_below lines here c rest
      rw [hskip] at hmoved
      rw [hread] at hlexeme
      rw [tokensFrom_of_lexeme hmoved hlexeme, after_below, ← ih, Array.map_push, Array.append_push]
      rfl

end Moving

section Seams

variable {passed text : List Char} {found : List Token}

theorem tokensFrom_above
    (h : Partition passed text found)
    (done : Array Token)
    (rest : List Char) :
    tokensFrom done (.behind passed) (text ++ '\n' :: rest) =
      tokensFrom (done ++ found.toArray) (.behind (passed ++ text ++ ['\n'])) rest := by
  induction h generalizing done with
  | @last passed gap hgap =>
      have hfeed : GapBefore rest ['\n'] := .blank rfl .nil
      have hbefore : GapBefore ('\n' :: rest) gap := hgap.newline rest
      have hskip : skipGap .between (.behind passed) (gap ++ '\n' :: rest) =
          skipGap .between (.behind (passed ++ gap ++ ['\n'])) rest := by
        rw [skipGap_of_gapBefore _ hbefore, behind_after]
        exact (skipGap_of_gapBefore _ hfeed).trans (by rw [behind_after])
      rw [tokensFrom_congr hskip]
      simp
  | @token passed gap spelling tail kind others hgap hspelled hend _ ih =>
      have hword : kind.isWord = true → EndsName (tail ++ '\n' :: rest) :=
        fun hkind => (hend hkind).newline rest
      obtain ⟨c, more, rfl, hstart, hlexeme⟩ := lexeme_of_spelled hspelled hword
      have hbefore : GapBefore (c :: more ++ (tail ++ '\n' :: rest)) gap := by
        simpa using hgap.newline rest
      have hskip := skipGap_of_gapBefore (.behind passed) hbefore
      rw [List.cons_append, skipGap_of_startsToken hstart, behind_after] at hskip
      have hread := ih (done.push ⟨kind, .behind (passed ++ gap)⟩)
      rw [List.append_assoc, List.append_assoc, List.cons_append,
        tokensFrom_of_lexeme hskip (hlexeme _), behind_after, hread]
      simp

theorem behind_newline (text : List Char) :
    Location.behind (text ++ ['\n']) = Location.start.below (1 + text.count '\n') := by
  simp [Location.behind, Location.start, Location.below, Nat.add_comm]

theorem tokens_above
    {above : String}
    (h : tokens above = .ok found)
    (text : String) :
    tokens (above ++ "\n" ++ text) =
      ((tokens text).mapError (·.below (1 + above.toList.count '\n'))).map fun others =>
        found ++ others.map (·.below (1 + above.toList.count '\n')) := by
  have hsource : (above ++ "\n" ++ text).toList = above.toList ++ '\n' :: text.toList := by simp
  have hstart : Location.start = .behind [] := rfl
  have hread := tokensFrom_above (partition_of_tokens h) #[] text.toList
  have hmoved := tokensFrom_below (1 + above.toList.count '\n') found.toArray #[] .start text.toList
  rw [List.nil_append, behind_newline, Array.empty_append] at hread
  rw [Array.map_empty, Array.append_empty] at hmoved
  rw [tokens, hsource, hstart, hread, hmoved, tokens]
  cases tokensFrom #[] .start text.toList with
  | error e => rfl
  | ok others => simp [Except.map, Except.mapError]

end Seams

/-- **Stacking.** A text below one that has tokens is read as on its own, with every place moved
down by the lines above. -/
theorem tokens_of_stacked
    {above : String}
    {found : List Token}
    (h : tokens above = .ok found)
    (text : String) :
    let lines := 1 + above.toList.count '\n'
    (∀ others,
      tokens text = .ok others →
        tokens (above ++ "\n" ++ text) = .ok (found ++ others.map (·.below lines))) ∧
    ∀ e,
      tokens text = .error e →
        ∃ place fault,
          e = .malformed place fault ∧
          tokens (above ++ "\n" ++ text) = .error (.malformed (place.below lines) fault) := by
  intro lines
  have hstacked := tokens_above h text
  constructor
  · intro others hothers
    rw [hstacked, hothers]
    rfl
  · intro e he
    obtain ⟨lead, rest, fault, -, -, rfl, -⟩ := rejected_of_tokens he
    refine ⟨.behind lead, fault, rfl, ?_⟩
    rw [hstacked, he]
    rfl

/-- The line feed ends a comment, and the text below is read as it starts. -/
theorem tokens_below_comment :
    let above : List Token := [⟨.name "a", ⟨1, 1⟩⟩, ⟨.name "b", ⟨2, 1⟩⟩]
    tokens "a;[\nb;[" = .ok above ∧
    tokens "c" = .ok [⟨.name "c", ⟨1, 1⟩⟩] ∧
    tokens "\n 0x" = .error (.malformed ⟨2, 2⟩ .malformedNumber) ∧
    tokens ("a;[\nb;[" ++ "\n" ++ "c") = .ok (above ++ [⟨.name "c", ⟨3, 1⟩⟩]) ∧
    tokens ("a;[\nb;[" ++ "\n" ++ "\n 0x") = .error (.malformed ⟨4, 2⟩ .malformedNumber) := by
  intro above
  have habove : tokens "a;[\nb;[" = .ok above := by decide +kernel
  have hread : tokens "c" = .ok [⟨.name "c", ⟨1, 1⟩⟩] := by decide +kernel
  have hrejected : tokens "\n 0x" = .error (.malformed ⟨2, 2⟩ .malformedNumber) := by decide +kernel
  obtain ⟨htokens, -⟩ := tokens_of_stacked habove "c"
  obtain ⟨-, herror⟩ := tokens_of_stacked habove "\n 0x"
  obtain ⟨place, fault, heq, hstacked⟩ := herror _ hrejected
  cases heq
  exact ⟨habove, hread, hrejected, htokens _ hread, hstacked⟩

end Source
end Microcomputer
