import Mathlib.Data.List.Forall2
import Mathlib.Data.List.Infix

/-!
# Replacing a word in a text

What a text becomes when every occurrence of a word in it is replaced by another one.

**Rule.**  `Replaced word other text after`: the text is read from the left; where the word stands,
it is passed over and the other one is written, and any other character is kept.

**Results.**  `replaced_toList`: this is what `String.replace` does.  `Replaced.not_occurs_of_eq`: a
text that stays the same does not hold the word, and `Replaced.eq_of_not_occurs` for the other way
round.  `Replaced.splitOn`: replacing can be done piece by piece, if no word holds the separator.
-/

namespace Microcomputer
namespace Text

/-- Every occurrence of a word, from the left, has been replaced by another one. -/
inductive Replaced
    (word other : List Char) :
    List Char → List Char → Prop
  | nil :
      Replaced word other [] []
  | found
      {rest after : List Char}
      (hrest : Replaced word other rest after) :
      Replaced word other (word ++ rest) (other ++ after)
  | kept
      {c : Char}
      {rest after : List Char}
      (hnot : ¬ word <+: c :: rest)
      (hrest : Replaced word other rest after) :
      Replaced word other (c :: rest) (c :: after)

section Search

open String.Slice String.Slice.Pattern

variable {word other : String}

/-- What is kept while no occurrence starts. -/
theorem Replaced.append
    {word other passed rest after : List Char}
    (hnot : ∀ u v, passed = u ++ v → v ≠ [] → ¬ word <+: v ++ rest)
    (h : Replaced word other rest after) :
    Replaced word other (passed ++ rest) (passed ++ after) := by
  induction passed with
  | nil => exact h
  | cons c passed ih =>
      refine .kept (hnot [] (c :: passed) rfl (by simp)) (ih fun u v huv hv => ?_)
      exact hnot (c :: u) v (by rw [huv, List.cons_append]) hv

/-- Write what a step of a search has found, with the other word for an occurrence. -/
def writeStep
    {s : String.Slice}
    (other : String)
    (sofar : String) :
    SearchStep s → String
  | .matched _ _ => sofar ++ other.toSlice
  | .rejected start stop => sofar ++ s.slice! start stop

theorem replaced_of_search
    (other : String)
    {s : String.Slice}
    {pos : s.Pos}
    {found : List (SearchStep s)}
    (h : Model.IsValidSearchFrom word pos found)
    {before behind : String}
    (hpos : pos.Splits before behind)
    (sofar : String) :
    ∃ after : List Char,
      Replaced word.toList other.toList behind.toList after ∧
      (found.foldl (writeStep other) sofar).toList = sofar.toList ++ after := by
  induction h generalizing before behind sofar with
  | endPos =>
      obtain rfl : behind = "" := hpos.eq_endPos_iff.1 rfl
      exact ⟨[], .nil, by simp⟩
  | @matched _ start stop hmatch hrest ih =>
      obtain ⟨u, v, hstart, hstop⟩ :=
        Model.ForwardStringSearcher.isLongestMatchAt_iff_splits.1 hmatch
      obtain rfl : behind = word ++ v := hpos.eq_right hstart
      obtain ⟨after, hafter, hwritten⟩ := ih hstop (sofar ++ other.toSlice)
      refine ⟨other.toList ++ after, ?_, ?_⟩
      · rw [String.toList_append]
        exact .found hafter
      · rw [List.foldl_cons, writeStep, hwritten]
        simp
  | @mismatched _ start stop hlt hnone hrest ih =>
      have hstop := stop.splits
      generalize (s.sliceTo stop).copy = left, (s.sliceFrom stop).copy = later at hstop
      obtain ⟨passed, -, rfl, rfl⟩ := (hpos.lt_iff_exists_eq_append hstop).1 hlt
      obtain ⟨after, hafter, hwritten⟩ := ih hstop (sofar ++ s.slice! start stop)
      refine ⟨passed.toList ++ after, ?_, ?_⟩
      · rw [String.toList_append]
        refine .append (fun u v huv hv hword => ?_) hafter
        -- Between `u` and `v` there is a place at which the search has found nothing.
        obtain ⟨w, hw⟩ := hword
        have hpassed : passed = String.ofList u ++ String.ofList v := by
          simpa [← String.toList_inj] using huv
        have hlater : word ++ String.ofList w = String.ofList v ++ later := by
          simpa [← String.toList_inj] using hw
        have hcopy : s.copy = (before ++ String.ofList u) ++ (word ++ String.ofList w) := by
          rw [hstop.eq_append, hpassed, hlater]
          simp only [String.append_assoc]
        have hplace := Pos.splits_ofEqAppend hcopy
        have hle := (hpos.le_iff_exists_eq_append hplace).2
          ⟨String.ofList u, rfl, by rw [hpassed, hlater, String.append_assoc]⟩
        have hlt := (hplace.lt_iff_exists_eq_append hstop).2
          ⟨String.ofList v, by simpa [← String.toList_inj] using hv,
            by rw [hpassed, String.append_assoc], hlater⟩
        exact hnone _ hle hlt (Model.ForwardStringSearcher.matchesAt_iff_splits.2 ⟨_, _, hplace⟩)
      · have hpassed : (s.slice! start stop).copy = passed := by
          obtain ⟨hordered, hcopy⟩ := copy_slice_eq_iff_splits.2 ⟨before, later, hpos, hstop⟩
          rw [← slice_eq_slice! (h := hordered)]
          exact hcopy
        rw [List.foldl_cons, writeStep, hwritten]
        simp [hpassed]

theorem replaced_toList
    (hword : word ≠ "")
    (s : String) :
    Replaced word.toList other.toList s.toList (s.replace word other).toList := by
  have hsearch :=
    (Model.ForwardStringSearcher.lawfulToForwardSearcherModel hword).isValidSearchFrom_toList
      s.toSlice
  obtain ⟨after, hafter, hwritten⟩ :=
    replaced_of_search other hsearch (splits_startPos s.toSlice) ""
  have hreplace : s.replace word other =
      (ToForwardSearcher.toSearcher word s.toSlice).toList.foldl (writeStep other) "" := by
    rw [Std.Iter.foldl_toList, String.replace, String.Slice.replace]
    congr 1
    funext sofar step
    cases step <;> rfl
  rw [hreplace, hwritten]
  simpa using hafter

end Search

section Occurrences

variable {word other text after : List Char}

theorem Replaced.eq_of_not_occurs
    (h : Replaced word other text after)
    (hnot : ¬ word <:+: text) :
    after = text := by
  induction h with
  | nil => rfl
  | found hrest ih => exact absurd (List.infix_append_left) hnot
  | kept hfirst hrest ih => rw [ih fun hlater => hnot (List.infix_cons hlater)]

theorem Replaced.not_occurs_of_eq
    (hlength : word.length = other.length)
    (hother : word ≠ other)
    (h : Replaced word other text after)
    (hsame : after = text) :
    ¬ word <:+: text := by
  induction h with
  | nil =>
      intro hword
      have hnil : word = [] := List.infix_nil.1 hword
      have hnil' : other = [] := List.eq_nil_of_length_eq_zero (by rw [← hlength, hnil]; rfl)
      exact hother (hnil.trans hnil'.symm)
  | found hrest ih => exact absurd (List.append_inj_left hsame hlength.symm).symm hother
  | kept hfirst hrest ih =>
      rw [List.infix_cons_iff, not_or]
      exact ⟨hfirst, ih (List.cons.inj hsame).2⟩

end Occurrences

section Pieces

variable {word other text after : List Char} {separator : Char}

theorem splitOn_append_of_not_mem
    {first : List Char}
    {others : List (List Char)}
    (hword : separator ∉ word)
    (h : text.splitOn separator = first :: others) :
    (word ++ text).splitOn separator = (word ++ first) :: others := by
  induction word with
  | nil => exact h
  | cons c word ih =>
      rw [List.mem_cons, not_or] at hword
      rw [List.cons_append, List.splitOn_cons_eq_if_modifyHead,
        if_neg (by simpa using Ne.symm hword.1), ih hword.2]
      rfl

theorem prefix_of_splitOn
    {first : List Char}
    {others : List (List Char)}
    (h : text.splitOn separator = first :: others) :
    first <+: text := by
  have htext : [separator].intercalate (text.splitOn separator) = text :=
    List.intercalate_splitOn separator
  rw [h] at htext
  rw [← htext]
  cases others with
  | nil => simp
  | cons second others =>
      rw [List.intercalate_cons_cons, List.append_assoc]
      exact List.prefix_append _ _

theorem Replaced.splitOn
    (hword : separator ∉ word)
    (hother : separator ∉ other)
    (h : Replaced word other text after) :
    List.Forall₂ (Replaced word other) (text.splitOn separator) (after.splitOn separator) := by
  induction h with
  | nil => exact .cons .nil .nil
  | @found rest after hrest ih =>
      obtain ⟨first, others, hpieces⟩ :=
        List.exists_cons_of_ne_nil (List.splitOn_ne_nil separator rest)
      obtain ⟨first', others', hpieces'⟩ :=
        List.exists_cons_of_ne_nil (List.splitOn_ne_nil separator after)
      rw [splitOn_append_of_not_mem hword hpieces, splitOn_append_of_not_mem hother hpieces']
      rw [hpieces, hpieces'] at ih
      obtain ⟨hfirst, hothers⟩ := List.forall₂_cons.1 ih
      exact .cons (.found hfirst) hothers
  | @kept c rest after hnot hrest ih =>
      obtain ⟨first, others, hpieces⟩ :=
        List.exists_cons_of_ne_nil (List.splitOn_ne_nil separator rest)
      obtain ⟨first', others', hpieces'⟩ :=
        List.exists_cons_of_ne_nil (List.splitOn_ne_nil separator after)
      rw [List.splitOn_cons_eq_if_modifyHead, List.splitOn_cons_eq_if_modifyHead]
      by_cases hc : (c == separator) = true
      · rw [if_pos hc, if_pos hc]
        exact .cons .nil ih
      · rw [if_neg hc, if_neg hc, hpieces, hpieces']
        rw [hpieces, hpieces'] at ih
        obtain ⟨hfirst, hothers⟩ := List.forall₂_cons.1 ih
        have hprefix : c :: first <+: c :: rest := by
          rw [List.prefix_cons_inj]
          exact prefix_of_splitOn hpieces
        exact .cons (.kept (fun hword => hnot (hword.trans hprefix)) hfirst) hothers

end Pieces

end Text
end Microcomputer
