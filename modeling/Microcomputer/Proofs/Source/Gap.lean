import Microcomputer.Source.Tokens

/-!
# Gaps

**Gaps.**  `GapBefore rest gap`: where `rest` comes after it, `gap` is made of blanks, line comments
and block comments.  A comment at its end may depend on `rest`; a `Separator` is a gap whatever
comes after it.

**Invariant.**  `Passes state passed rest` is what the characters passed over amount to, from each
state of `skipGap` on.

**Results.**  `gapBefore_of_skipGap` and `skipGap_of_gapBefore`: gaps are what is passed over.
-/

namespace Microcomputer
namespace Source

section Gaps

/-- No comment that is open before the characters is closed inside them. -/
def StaysOpen (body : List Char) : Prop :=
  ¬ ['*', '/'] <:+: body

@[simp]
theorem staysOpen_nil : StaysOpen [] := by
  simp [StaysOpen]

theorem staysOpen_cons
    {c : Char}
    {body : List Char} :
    StaysOpen (c :: body) ↔ ¬ (c = '*' ∧ body.head? = some '/') ∧ StaysOpen body := by
  have hhead : ['*', '/'] <+: c :: body ↔ c = '*' ∧ body.head? = some '/' := by
    cases body with
    | nil => simp
    | cons d body => simp [eq_comm]
  simp [StaysOpen, List.infix_cons_iff, hhead]

/-- The characters of `gap` are a gap, where `rest` comes after them. -/
inductive GapBefore (rest : List Char) : List Char → Prop
  | nil : GapBefore rest []
  | blank
      {c : Char}
      {gap : List Char}
      (hblank : Text.isBlank c = true)
      (hgap : GapBefore rest gap) :
      GapBefore rest (c :: gap)
  /-- A line comment goes up to a line feed, or to the end of the text. -/
  | line
      {body gap : List Char}
      (hbody : '\n' ∉ body)
      (hend : ∀ c ∈ (gap ++ rest).head?, c = '\n')
      (hgap : GapBefore rest gap) :
      GapBefore rest (';' :: (body ++ gap))
  /-- A block comment goes up to the first `*/`. -/
  | block
      {body gap : List Char}
      (hbody : StaysOpen body)
      (hgap : GapBefore rest gap) :
      GapBefore rest ('/' :: '*' :: (body ++ '*' :: '/' :: gap))

/-- A gap that does not depend on what comes after it: every line comment has its line feed. -/
inductive Separator : List Char → Prop
  | nil : Separator []
  | blank
      {c : Char}
      {gap : List Char}
      (hblank : Text.isBlank c = true)
      (hgap : Separator gap) :
      Separator (c :: gap)
  | line
      {body gap : List Char}
      (hbody : '\n' ∉ body)
      (hgap : Separator gap) :
      Separator (';' :: (body ++ '\n' :: gap))
  | block
      {body gap : List Char}
      (hbody : StaysOpen body)
      (hgap : Separator gap) :
      Separator ('/' :: '*' :: (body ++ '*' :: '/' :: gap))

theorem Separator.gapBefore
    {gap : List Char}
    (h : Separator gap)
    (rest : List Char) :
    GapBefore rest gap := by
  induction h with
  | nil => exact .nil
  | blank hblank _ ih => exact .blank hblank ih
  | line hbody _ ih => exact .line hbody (by simp) (.blank (by decide) ih)
  | block hbody _ ih => exact .block hbody ih

end Gaps

section Passing

/-- What the characters `passed` are, from a state on and up to `rest`. -/
def Passes (state : Gap) (passed rest : List Char) : Prop :=
  match state with
  | .between => GapBefore rest passed
  | .lineComment => GapBefore rest (';' :: passed)
  | .opening _ => (passed ++ rest).head? = some '*' → GapBefore rest ('/' :: passed)
  | .blockComment _ afterStar =>
      ∃ body gap,
        (if afterStar then '*' :: passed else passed) = body ++ '*' :: '/' :: gap ∧
        StaysOpen body ∧ GapBefore rest gap

variable {place here opened : Location} {text rest passed : List Char}

/-- A line comment without characters. -/
theorem gapBefore_semicolon
    {gap : List Char}
    (hend : ∀ c ∈ (gap ++ rest).head?, c = '\n')
    (hgap : GapBefore rest gap) :
    GapBefore rest (';' :: gap) := by
  have hbody : '\n' ∉ ([] : List Char) := by simp
  exact GapBefore.line hbody hend hgap

theorem passes_lineComment_newline
    (h : Passes .between passed rest) :
    Passes .lineComment ('\n' :: passed) rest :=
  gapBefore_semicolon (by simp) (.blank rfl h)

theorem passes_lineComment_cons
    {c : Char}
    (hc : c ≠ '\n')
    (h : Passes .lineComment passed rest) :
    Passes .lineComment (c :: passed) rest := by
  simp only [Passes] at h ⊢
  generalize hcomment : ';' :: passed = comment at h
  cases h with
  | nil => simp at hcomment
  | blank hblank =>
      simp at hcomment
      simp [← hcomment.1, Text.isBlank] at hblank
  | @line body gap hbody hend hgap =>
      simp at hcomment
      subst hcomment
      have hline : '\n' ∉ c :: body := by
        simp [hbody, Ne.symm hc]
      exact GapBefore.line hline hend hgap
  | block => simp at hcomment

theorem passes_opening_cons
    (c : Char)
    (h : Passes (.blockComment opened false) passed rest) :
    Passes (.opening opened) (c :: passed) rest := by
  obtain ⟨body, gap, hpassed, hopen, hgap⟩ := h
  intro hstar
  simp at hpassed hstar
  rw [hstar, hpassed]
  exact .block hopen hgap

theorem passes_blockComment_slash
    (h : Passes .between passed rest) :
    Passes (.blockComment opened true) ('/' :: passed) rest :=
  ⟨[], passed, rfl, staysOpen_nil, h⟩

theorem passes_blockComment_cons
    {c : Char}
    {afterStar : Bool}
    (hc : ¬ (afterStar = true ∧ c = '/'))
    (h : Passes (.blockComment opened (c == '*')) passed rest) :
    Passes (.blockComment opened afterStar) (c :: passed) rest := by
  obtain ⟨body, gap, hpassed, hopen, hgap⟩ := h
  -- The characters from `c` on, without the star that may come before it.
  have hinner : ∃ inner,
      c :: passed = inner ++ '*' :: '/' :: gap ∧ StaysOpen inner ∧
        (inner.head? = some '/' → c = '/') := by
    by_cases hstar : c = '*'
    · subst hstar
      simp at hpassed
      refine ⟨body, hpassed, hopen, fun hhead => ?_⟩
      obtain ⟨tail, rfl⟩ := List.head?_eq_some_iff.1 hhead
      simp at hpassed
    · simp [hstar] at hpassed
      refine ⟨c :: body, by simp [hpassed], ?_, by simp⟩
      simp [staysOpen_cons, hstar, hopen]
  obtain ⟨inner, hchars, hstays, hhead⟩ := hinner
  cases afterStar with
  | false => exact ⟨inner, gap, by simpa using hchars, hstays, hgap⟩
  | true =>
      refine ⟨'*' :: inner, gap, by simp [hchars], ?_, hgap⟩
      rw [staysOpen_cons]
      exact ⟨fun hclosed => hc ⟨rfl, hhead hclosed.2⟩, hstays⟩

/-- What is passed over from a state on, and how far that leads. -/
theorem passes_of_skipGap
    {state : Gap}
    (h : skipGap state place text = .ok (here, rest)) :
    ∃ passed, text = passed ++ rest ∧ here = place.after passed ∧ Passes state passed rest := by
  fun_induction skipGap state place text with
  | case1 place =>
      simp at h
      exact ⟨[], by simp [h.2], by simp [h.1], .nil⟩
  | case2 place c text hblank ih =>
      obtain ⟨passed, rfl, rfl, hpasses⟩ := ih h
      exact ⟨c :: passed, rfl, rfl, .blank hblank hpasses⟩
  | case3 place text _ ih =>
      obtain ⟨passed, rfl, rfl, hpasses⟩ := ih h
      exact ⟨';' :: passed, rfl, rfl, hpasses⟩
  | case4 place c text _ _ hopening ih =>
      obtain ⟨passed, rfl, rfl, hpasses⟩ := ih h
      obtain ⟨rfl, hstar⟩ := hopening
      exact ⟨'/' :: passed, rfl, rfl, hpasses hstar⟩
  | case5 place c text =>
      simp at h
      exact ⟨[], by simp [h.2], by simp [h.1], .nil⟩
  | case6 place =>
      simp at h
      obtain ⟨rfl, rfl⟩ := h
      exact ⟨[], rfl, rfl, gapBefore_semicolon (by simp) .nil⟩
  | case7 place text ih =>
      obtain ⟨passed, rfl, rfl, hpasses⟩ := ih h
      exact ⟨'\n' :: passed, rfl, rfl, passes_lineComment_newline hpasses⟩
  | case8 place c text hc ih =>
      obtain ⟨passed, rfl, rfl, hpasses⟩ := ih h
      exact ⟨c :: passed, rfl, rfl, passes_lineComment_cons hc hpasses⟩
  | case9 => simp at h
  | case10 opened place c text ih =>
      obtain ⟨passed, rfl, rfl, hpasses⟩ := ih h
      exact ⟨c :: passed, rfl, rfl, passes_opening_cons c hpasses⟩
  | case11 => simp at h
  | case12 opened afterStar place c text hclosed ih =>
      obtain ⟨passed, rfl, rfl, hpasses⟩ := ih h
      obtain ⟨rfl, rfl⟩ := hclosed
      exact ⟨'/' :: passed, rfl, rfl, passes_blockComment_slash hpasses⟩
  | case13 opened afterStar place c text hc ih =>
      obtain ⟨passed, rfl, rfl, hpasses⟩ := ih h
      exact ⟨c :: passed, rfl, rfl, passes_blockComment_cons hc hpasses⟩

theorem gapBefore_of_skipGap
    (h : skipGap .between place text = .ok (here, rest)) :
    ∃ gap, text = gap ++ rest ∧ here = place.after gap ∧ GapBefore rest gap :=
  passes_of_skipGap h

end Passing

section Skipping

variable {opened : Location} {text rest gap : List Char}

/-- The character starts a token, not a gap. -/
def StartsToken (c : Char) : Prop :=
  Text.isBlank c = false ∧ c ≠ ';' ∧ c ≠ '/'

instance (c : Char) : Decidable (StartsToken c) :=
  inferInstanceAs (Decidable (_ ∧ _))

theorem skipGap_of_startsToken
    {place : Location}
    {c : Char}
    (h : StartsToken c) :
    skipGap .between place (c :: text) = .ok (place, c :: text) := by
  obtain ⟨hblank, hsemicolon, hslash⟩ := h
  simp [skipGap, hblank, hsemicolon, hslash]

theorem skipGap_lineComment_append
    {place : Location}
    {body : List Char}
    (hbody : '\n' ∉ body) :
    skipGap .lineComment place (body ++ text) = skipGap .lineComment (place.after body) text := by
  induction body generalizing place with
  | nil => rfl
  | cons c body ih =>
      simp at hbody
      rw [List.cons_append, skipGap, if_neg (Ne.symm hbody.1), ih hbody.2]
      rfl

theorem skipGap_lineComment_end
    {place : Location}
    (hend : ∀ c ∈ text.head?, c = '\n') :
    skipGap .lineComment place text = skipGap .between place text := by
  cases text with
  | nil => simp [skipGap]
  | cons c text =>
      obtain rfl : c = '\n' := hend c rfl
      simp [skipGap, Text.isBlank]

theorem skipGap_blockComment
    {place : Location}
    {afterStar : Bool}
    {body : List Char}
    (hafter : afterStar = true → body.head? ≠ some '/')
    (hbody : StaysOpen body) :
    skipGap (.blockComment opened afterStar) place (body ++ '*' :: '/' :: text) =
      skipGap .between ((place.after body).after ['*', '/']) text := by
  induction body generalizing place afterStar with
  | nil => simp [skipGap]
  | cons c body ih =>
      rw [staysOpen_cons] at hbody
      have hopen : ¬ (afterStar = true ∧ c = '/') := by
        rintro ⟨hstar, rfl⟩
        exact hafter hstar rfl
      rw [List.cons_append, skipGap, if_neg hopen, ih (by simpa using hbody.1) hbody.2]
      rfl

theorem skipGap_of_gapBefore
    (place : Location)
    (h : GapBefore rest gap) :
    skipGap .between place (gap ++ rest) = skipGap .between (place.after gap) rest := by
  induction h generalizing place with
  | nil => rfl
  | blank hblank _ ih =>
      rw [List.cons_append, skipGap, if_pos hblank, ih]
      rfl
  | @line body gap hbody hend _ ih =>
      have hopening : skipGap .between place (';' :: (body ++ gap) ++ rest) =
          skipGap .lineComment (place.advance ';') (body ++ (gap ++ rest)) := by
        simp [skipGap, Text.isBlank]
      rw [hopening, skipGap_lineComment_append hbody, skipGap_lineComment_end hend, ih,
        Location.after_cons, Location.after_append]
  | @block body gap hbody _ ih =>
      have hopening :
          skipGap .between place ('/' :: '*' :: (body ++ '*' :: '/' :: gap) ++ rest) =
            skipGap (.blockComment place false) (place.after ['/', '*'])
              (body ++ '*' :: '/' :: (gap ++ rest)) := by
        simp [skipGap, Text.isBlank]
      rw [hopening, skipGap_blockComment (by simp) hbody, ih]
      simp [Location.after_append]

end Skipping

end Source
end Microcomputer
