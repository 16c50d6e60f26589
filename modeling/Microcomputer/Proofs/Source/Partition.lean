import Mathlib.Data.List.Induction
import Microcomputer.Proofs.Source.Spelling

/-!
# The parts of a source

**Partitions.**  `Partition passed text found`: the text after the characters `passed` is made of
spellings of the tokens `found`, each of them where its location says, with a gap before each of
them and after the last.

**Lines.**  A line that has tokens when it stands alone has the same tokens before any other lines
(`Spells.line`, `Spells.lines`).

**Result.**  `tokens_eq_ok_iff_partition`: a source has exactly the tokens by which it can be
partitioned.
-/

namespace Microcomputer
namespace Source

section Partitions

section Places

/-- The place after some characters from the start of a source. -/
def Location.behind (passed : List Char) : Location :=
  ⟨1 + passed.count '\n', 1 + (passed.reverse.takeWhile (· != '\n')).length⟩

theorem start_after (passed : List Char) : Location.start.after passed = .behind passed := by
  induction passed using List.reverseRecOn with
  | nil => rfl
  | append_singleton passed c ih =>
      rw [Location.after_append, ih]
      by_cases hc : c = '\n'
      · simp [Location.behind, Location.advance, hc, Nat.add_assoc]
      · simp [Location.behind, Location.advance, hc, Nat.add_assoc]

theorem behind_after
    (passed more : List Char) :
    (Location.behind passed).after more = .behind (passed ++ more) := by
  rw [← start_after, ← start_after, Location.after_append]

end Places

/-- The text after the characters `passed` consists of tokens, with gaps around them. -/
inductive Partition : List Char → List Char → List Token → Prop
  /-- After the last token there is nothing but a gap. -/
  | last
      {passed gap : List Char}
      (hgap : GapBefore [] gap) :
      Partition passed gap []
  /-- A gap and a spelling; what is no bracket or colon ends where no name goes on. -/
  | token
      {passed gap spelling rest : List Char}
      {kind : TokenKind}
      {others : List Token}
      (hgap : GapBefore (spelling ++ rest) gap)
      (hspelled : Spelled kind spelling)
      (hend : kind.isWord = true → EndsName rest)
      (hrest : Partition (passed ++ gap ++ spelling) rest others) :
      Partition passed (gap ++ (spelling ++ rest)) (⟨kind, .behind (passed ++ gap)⟩ :: others)

section Reading

variable {passed text : List Char} {found : List Token}

theorem partition_of_tokensFrom
    {done out : Array Token}
    {place : Location}
    (hplace : place = .behind passed)
    (h : tokensFrom done place text = .ok out) :
    ∃ found, out.toList = done.toList ++ found ∧ Partition passed text found := by
  fun_induction tokensFrom done place text generalizing passed with
  | case1 => simp at h
  | case2 done place text here hskip =>
      obtain ⟨gap, rfl, -, hgap⟩ := gapBefore_of_skipGap hskip
      simp at h
      exact ⟨[], by simp [h], by simpa using Partition.last hgap⟩
  | case3 => simp at h
  | case4 done place text here c rest hskip read hlexeme ih =>
      obtain ⟨gap, rfl, rfl, hgap⟩ := gapBefore_of_skipGap hskip
      obtain ⟨hspelled, hend⟩ := spelled_of_lexeme hlexeme
      have hchars : read.spelling ++ read.rest = c :: rest := (lexeme_spelling hlexeme).1
      rw [hplace, behind_after, behind_after] at h ih
      obtain ⟨others, hout, hrest⟩ := ih rfl h
      rw [← hchars] at hgap ⊢
      refine ⟨⟨read.kind, .behind (passed ++ gap)⟩ :: others, ?_, ?_⟩
      · simp [hout]
      · exact .token hgap hspelled hend hrest

theorem partition_of_tokens
    {source : String}
    (h : tokens source = .ok found) :
    Partition [] source.toList found := by
  have hstart : Location.start = .behind [] := rfl
  cases hread : tokensFrom #[] .start source.toList with
  | error e => simp [tokens, hread, Except.map] at h
  | ok out =>
      obtain ⟨others, hout, hpartition⟩ := partition_of_tokensFrom hstart hread
      simp [tokens, hread, Except.map] at h
      simp [h] at hout
      rwa [hout]

theorem tokensFrom_of_partition
    (done : Array Token)
    (h : Partition passed text found) :
    ∃ out, tokensFrom done (.behind passed) text = .ok out ∧
      out.toList = done.toList ++ found := by
  induction h generalizing done with
  | @last passed gap hgap =>
      have hskip : skipGap .between (.behind passed) gap =
          .ok ((Location.behind passed).after gap, []) := by
        simpa [skipGap] using skipGap_of_gapBefore (.behind passed) hgap
      exact ⟨done, tokensFrom_of_end hskip, by simp⟩
  | @token passed gap spelling rest kind others hgap hspelled hend _ ih =>
      obtain ⟨c, tail, rfl, hstart, hlexeme⟩ := lexeme_of_spelled hspelled hend
      have hskip := skipGap_of_gapBefore (.behind passed) hgap
      rw [List.cons_append, skipGap_of_startsToken hstart] at hskip
      obtain ⟨out, hout, hlist⟩ := ih (done.push ⟨kind, .behind (passed ++ gap)⟩)
      refine ⟨out, ?_, ?_⟩
      · rw [List.cons_append, tokensFrom_of_lexeme hskip (hlexeme _), behind_after, behind_after]
        exact hout
      · simp [hlist]

end Reading

/-- **Partition.** A source has tokens exactly if it falls into gaps and their spellings, each at
the place that its location says. -/
theorem tokens_eq_ok_iff_partition
    (source : String)
    (found : List Token) :
    tokens source = .ok found ↔ Partition [] source.toList found := by
  refine ⟨partition_of_tokens, ?_⟩
  intro h
  have hstart : Location.start = .behind [] := rfl
  obtain ⟨out, hread, hout⟩ := tokensFrom_of_partition #[] h
  rw [tokens, hstart, hread]
  simp [Except.map, hout]

end Partitions

section LineByLine

section Seams

variable {rest : List Char}

theorem GapBefore.newline
    {gap : List Char}
    (h : GapBefore rest gap)
    (tail : List Char) :
    GapBefore (rest ++ '\n' :: tail) gap := by
  induction h with
  | nil => exact .nil
  | blank hblank _ ih => exact .blank hblank ih
  | @line body gap hbody hend _ ih =>
      refine .line hbody ?_ ih
      rw [← List.append_assoc]
      -- A line comment that went up to the end of the text goes up to the line feed now.
      cases htext : gap ++ rest with
      | nil => simp
      | cons c text => simpa [htext] using hend
  | block hbody _ ih => exact .block hbody ih

theorem EndsName.newline
    (h : EndsName rest)
    (tail : List Char) :
    EndsName (rest ++ '\n' :: tail) := by
  cases rest with
  | nil => exact .of_cons (by decide)
  | cons c rest => exact .of_cons (h c rfl)

theorem Partition.spells
    {passed text tail : List Char}
    {found : List Token}
    {kinds : List TokenKind}
    (h : Partition passed text found)
    (htail : Spells tail kinds) :
    Spells (text ++ '\n' :: tail) (found.map Token.kind ++ kinds) := by
  induction h with
  | last hgap => exact (htail.blank (by decide)).gap (hgap.newline tail)
  | @token passed gap spelling rest kind others hgap hspelled hend _ ih =>
      have hword : kind.isWord = true → EndsName (rest ++ '\n' :: tail) :=
        fun hkind => (hend hkind).newline tail
      have hbefore : GapBefore (spelling ++ (rest ++ '\n' :: tail)) gap := by
        simpa using hgap.newline tail
      simpa using (ih.spelled hspelled hword).gap hbefore

theorem Partition.spells_last
    {passed text : List Char}
    {found : List Token}
    (h : Partition passed text found) :
    Spells text (found.map Token.kind) := by
  induction h with
  | last hgap => simpa using spells_nil.gap hgap
  | token hgap hspelled hend _ ih => exact (ih.spelled hspelled hend).gap hgap

end Seams

section Lines

/-- The kinds of the tokens of a line that stands alone. -/
def lineKinds? (line : String) : Option (List TokenKind) :=
  (tokens line).toOption.map (List.map Token.kind)

/-- Lines, each with a line feed behind it. -/
def linesText (lines : List String) : List Char :=
  lines.flatMap fun line => line.toList ++ ['\n']

theorem Spells.line
    {line : String}
    {tail : List Char}
    {kinds lineKinds : List TokenKind}
    (htail : Spells tail kinds)
    (hline : lineKinds? line = some lineKinds) :
    Spells (line.toList ++ '\n' :: tail) (lineKinds ++ kinds) := by
  cases htokens : Source.tokens line with
  | error e => simp [lineKinds?, htokens, Except.toOption] at hline
  | ok found =>
      simp [lineKinds?, htokens, Except.toOption] at hline
      rw [← hline]
      exact (partition_of_tokens htokens).spells htail

theorem Spells.lines
    {lines : List String}
    {tail : List Char}
    {kinds : List TokenKind}
    {lineKinds : List (List TokenKind)}
    (htail : Spells tail kinds)
    (hlines : lines.mapM lineKinds? = some lineKinds) :
    Spells (linesText lines ++ tail) (lineKinds.flatten ++ kinds) := by
  induction lines generalizing lineKinds with
  | nil =>
      cases hlines
      exact htail
  | cons line lines ih =>
      simp only [List.mapM_cons, bind, pure, Option.bind_eq_some_iff, Option.some.injEq] at hlines
      obtain ⟨first, hfirst, others, hothers, rfl⟩ := hlines
      simpa [linesText] using (ih hothers).line hfirst

end Lines

end LineByLine

end Source
end Microcomputer
