import Microcomputer.Proofs.Assembly.Image
import Microcomputer.Proofs.Source.Recognition
import Microcomputer.Proofs.Source.Rejection

/-!
# Where errors point

The place of an error is one of the source, of something that starts there.

**Reading.**  The functions that read a program are told the place of the last token, and report it
where tokens are missing.  `PartOf` is what they keep: the tokens that are left are some of those of
the source, and the place that they are told is that of one of them.  So whatever reading reports is
the place of a token (`pointsInto_of_sections`).

**Statements.**  A statement and a section have the place of their first token, and the layout and
the labels are reported at statements (`pointsInto_of_ofSections`).

**Result.**  `assemble_error_points_into_source`.
-/

namespace Microcomputer

/-- The error points at one of the tokens, if it has a place. -/
def AssemblyError.PointsInto
    (whole : List Source.Token)
    (e : AssemblyError) :
    Prop :=
  ∀ place ∈ e.location?, place ∈ whole.map Source.Token.location

namespace Source

open AssemblyError (PointsInto)

/-- The tokens that are left of a source, and the place to report where they are missing. -/
structure PartOf
    (whole : List Token)
    (last : Location)
    (text : List Token) :
    Prop where
  subset : text ⊆ whole
  last_mem : last ∈ whole.map Token.location

section Reading

variable {whole text rest : List Token} {last : Location} {e : AssemblyError}

theorem pointsInto_of_mem
    {place : Location}
    (hplace : e.location? = some place)
    (hmem : place ∈ whole.map Token.location) :
    PointsInto whole e := by
  intro other hother
  cases hplace.symm.trans hother
  exact hmem

theorem PartOf.of_append
    {front : List Token}
    (h : PartOf whole last (front ++ rest)) :
    PartOf whole last rest where
  subset := List.Subset.trans (List.subset_append_right front rest) h.subset
  last_mem := h.last_mem

theorem PartOf.tail
    {token : Token}
    (h : PartOf whole last (token :: rest)) :
    PartOf whole last rest :=
  @PartOf.of_append whole rest last [token] h

theorem PartOf.place_mem
    {token : Token}
    (h : PartOf whole last (token :: rest)) :
    token.location ∈ whole.map Token.location :=
  List.mem_map_of_mem (h.subset List.mem_cons_self)

theorem partOf_self (hne : whole ≠ []) : PartOf whole (lastLocation whole) whole where
  subset := List.Subset.refl whole
  last_mem := by
    have hlast : whole.getLast? = some (whole.getLast hne) := List.getLast?_eq_some_getLast hne
    rw [lastLocation, hlast]
    exact List.mem_map_of_mem (List.getLast_mem hne)

theorem pointsInto_misplaced
    (h : PartOf whole last text)
    (fault : Option TokenKind → SyntaxFault) :
    PointsInto whole (misplaced last text fault) := by
  cases text with
  | nil => exact pointsInto_of_mem rfl h.last_mem
  | cons token rest => exact pointsInto_of_mem rfl h.place_mem

theorem pointsInto_of_expect
    {wanted : TokenKind}
    {context : Context}
    (h : PartOf whole last text)
    (herror : expect last wanted context text = .error e) :
    PointsInto whole e := by
  unfold expect at herror
  split at herror
  · split at herror
    · cases herror
    · cases herror
      exact pointsInto_misplaced h _
  · cases herror
    exact pointsInto_misplaced h _

theorem pointsInto_of_readNumber
    {context : Context}
    {bound : Nat}
    (h : PartOf whole last text)
    (herror : readNumber last context bound text = .error e) :
    PointsInto whole e := by
  unfold readNumber at herror
  split at herror
  · split at herror
    · cases herror
    · cases herror
      exact pointsInto_of_mem rfl h.place_mem
  · cases herror
    exact pointsInto_misplaced h _

theorem pointsInto_of_readOperand
    (h : PartOf whole last text)
    (herror : readOperand last text = .error e) :
    PointsInto whole e := by
  unfold readOperand at herror
  split at herror
  · split at herror
    · cases herror
    · cases herror
      exact pointsInto_of_mem rfl h.place_mem
  · cases herror
  · cases herror
    exact pointsInto_misplaced h _

theorem pointsInto_of_readAddress
    {i : Instruction}
    (h : PartOf whole last text)
    (herror : readAddress last i text = .error e) :
    PointsInto whole e := by
  unfold readAddress at herror
  split at herror
  · next hopen =>
      cases herror
      exact pointsInto_of_expect h hopen
  · next opened inner hopen =>
      rw [text_of_expect hopen] at h
      split at herror
      · next hoperand =>
          cases herror
          exact pointsInto_of_readOperand h.tail hoperand
      · next operand tail hoperand =>
          obtain ⟨token, rfl, -⟩ := text_of_readOperand hoperand
          split at herror
          · next hclose =>
              cases herror
              exact pointsInto_of_expect h.tail.tail hclose
          · cases herror

theorem pointsInto_of_readNamed
    {name : String}
    {place : Location}
    (h : PartOf whole last text)
    (hplace : place ∈ whole.map Token.location)
    (herror : readNamed last name place text = .error e) :
    PointsInto whole e := by
  unfold readNamed at herror
  split at herror
  · split at herror
    · next hnumber =>
        cases herror
        exact pointsInto_of_readNumber h hnumber
    · cases herror
  · split at herror
    · cases herror
      exact pointsInto_of_mem rfl hplace
    · split at herror
      · next haddress =>
          cases herror
          exact pointsInto_of_readAddress h haddress
      · cases herror

theorem pointsInto_of_readItem
    {token : Token}
    (h : PartOf whole last (token :: text))
    (herror : readItem last token text = .error e) :
    PointsInto whole e := by
  unfold readItem at herror
  split at herror
  · cases herror
  · exact pointsInto_of_readNamed h.tail h.place_mem herror
  · cases herror
    exact pointsInto_of_mem rfl h.place_mem

theorem pointsInto_of_readStatements
    {done : Array Statement}
    (h : PartOf whole last text)
    (herror : readStatements last done text = .error e) :
    PointsInto whole e := by
  fun_induction readStatements last done text with
  | case1 => cases herror
  | case2 => cases herror
  | case3 done token text _ e' hitem =>
      cases herror
      exact pointsInto_of_readItem h hitem
  | case4 done token text _ item rest hitem ih =>
      obtain ⟨others, rfl, -⟩ := derivesItem_of_readItem hitem
      exact ih h.tail.of_append herror

theorem pointsInto_of_readSection
    (h : PartOf whole last text)
    (herror : readSection last text = .error e) :
    PointsInto whole e := by
  unfold readSection at herror
  split at herror
  · next horigin =>
      cases herror
      exact pointsInto_of_expect h horigin
  · next place afterOrigin horigin =>
      rw [text_of_expect horigin] at h
      split at herror
      · next hnumber =>
          cases herror
          exact pointsInto_of_readNumber h.tail hnumber
      · next value body hnumber =>
          obtain ⟨number, place', rfl, -, -⟩ := text_of_readNumber hnumber
          split at herror
          · next hbody =>
              cases herror
              exact pointsInto_of_readStatements h.tail.tail hbody
          · -- An empty section is reported where its directive stands.
            cases herror
            exact pointsInto_of_mem rfl h.place_mem
          · cases herror

theorem pointsInto_of_readSections
    {done : Array Section}
    (h : PartOf whole last text)
    (herror : readSections last done text = .error e) :
    PointsInto whole e := by
  fun_induction readSections last done text with
  | case1 => cases herror
  | case2 done text _ e' hsection =>
      cases herror
      exact pointsInto_of_readSection h hsection
  | case3 done text _ s rest hsection ih =>
      obtain ⟨body, rfl, -⟩ := derivesSection_of_read hsection
      exact ih h.of_append herror

theorem pointsInto_of_sections
    (hne : whole ≠ [])
    (herror : sections whole = .error e) :
    PointsInto whole e :=
  pointsInto_of_readSections (partOf_self hne) herror

end Reading

section Statements

theorem DerivesStatements.place_mem
    {text : List Token}
    {statements : List Statement}
    {s : Statement}
    (h : DerivesStatements text statements)
    (hs : s ∈ statements) :
    s.location ∈ text.map Token.location := by
  induction h with
  | nil => cases hs
  | cons hitem _ ih =>
      rcases List.mem_cons.1 hs with rfl | hrest
      · simp
      · simpa using Or.inr (Or.inr (by simpa using ih hrest))

theorem DerivesProgram.place_mem
    {text : List Token}
    {found : List Section}
    {s : Section}
    {t : Statement}
    (h : DerivesProgram text found)
    (hs : s ∈ found)
    (ht : t ∈ s.statements) :
    t.location ∈ text.map Token.location := by
  induction h with
  | nil => cases hs
  | @cons body rest first others hsection _ ih =>
      rw [List.map_append, List.mem_append]
      rcases List.mem_cons.1 hs with rfl | hrest
      · cases hsection with
        | mk _ hbody _ =>
            have hplace := hbody.place_mem ht
            exact Or.inl (List.mem_cons_of_mem _ (List.mem_cons_of_mem _ hplace))
      · exact Or.inr (ih hrest)

end Statements

end Source

namespace Assembly

open Source (Location Section StartsWith Token)
open AssemblyError (PointsInto)

section Layout

variable {whole : List Token} {order : List Section} {e : AssemblyError}

theorem Refusal.pointsInto
    {placed new : List Placement}
    (h : Refusal placed new e)
    (hplaces : ∀ p ∈ new, p.statement.location ∈ whole.map Token.location) :
    PointsInto whole e := by
  cases h with
  | duplicate before after d hnew _ _ =>
      have hd : d ∈ new := hnew ▸ List.mem_append_right _ List.mem_cons_self
      exact Source.pointsInto_of_mem rfl (hplaces d hd)
  | labelBeyond hp _ _ => exact Source.pointsInto_of_mem rfl (hplaces _ hp)
  | stopBeyond hp _ => exact Source.pointsInto_of_mem rfl (hplaces _ hp)

theorem Overlap.pointsInto (h : Overlap order e) : PointsInto whole e := by
  obtain ⟨_, _, _, _, _, _, rfl⟩ := h
  rintro _ ⟨⟩

theorem pointsInto_of_ofSections
    {sections : List Section}
    (hplaces : ∀ s ∈ sections, ∀ t ∈ s.statements, t.location ∈ whole.map Token.location)
    (herror : ofSections sections = .error e) :
    PointsInto whole e := by
  have hplaced : ∀ p ∈ placements (inOrder sections),
      p.statement.location ∈ whole.map Token.location := by
    intro p hp
    obtain ⟨s, hs, hmem⟩ := List.mem_flatMap.1 hp
    obtain ⟨before, after, hstatements, -⟩ := mem_place_iff.1 hmem
    refine hplaces s ((inOrder_perm sections).mem_iff.1 hs) p.statement ?_
    simp [hstatements]
  unfold ofSections at herror
  split at herror
  · next hlayout =>
      cases herror
      rcases layOut_error hlayout with hrefusal | hoverlap
      · exact hrefusal.pointsInto hplaced
      · exact hoverlap.pointsInto
  · obtain ⟨p, hp, hbytes⟩ := writeSections_error herror
    obtain ⟨i, name, -, -, rfl⟩ := bytesOf_error hbytes
    exact Source.pointsInto_of_mem rfl (hplaced p hp)

end Layout

section Whole

variable {source : String} {e : AssemblyError}

theorem pointsInto_of_assemble
    {whole : List Token}
    (htokens : Source.tokens source = .ok whole)
    (herror : assemble source = .error e) :
    PointsInto whole e := by
  simp only [assemble, htokens] at herror
  split at herror
  · next hnone => cases hnone
  · cases herror
    rintro _ ⟨⟩
  · next tokens hnil hsome =>
      cases hsome
      have hne : whole ≠ [] := hnil
      split at herror
      · next hsections =>
          cases herror
          exact Source.pointsInto_of_sections hne hsections
      · next sections hsections =>
          have hderives := Source.sections_eq_ok_iff.1 hsections
          exact pointsInto_of_ofSections (fun s hs t ht => hderives.place_mem hs ht) herror

/-- **Where errors point.** The place of an error is that of a character, no blank, at which a token
starts or reading is rejected. -/
theorem assemble_error_points_into_source
    {place : Location}
    (herror : assemble source = .error e)
    (hplace : e.location? = some place) :
    ∃ lead c rest,
      source.toList = lead ++ c :: rest ∧
      Text.isBlank c = false ∧
      place = .behind lead ∧
      place ≠ .nowhere ∧
      Source.Leads (c :: rest) lead ∧
      ((∃ fault, e = .malformed place fault ∧ Source.Rejected fault (c :: rest)) ∨
        ∃ found token,
          Source.tokens source = .ok found ∧
          token ∈ found ∧
          token.location = place ∧
          StartsWith token.kind (c :: rest)) := by
  have hsomewhere : ∀ lead, Location.behind lead ≠ .nowhere := by
    intro lead hnowhere
    have hline : 1 + lead.count '\n' = 0 := congrArg Location.line hnowhere
    omega
  cases htokens : Source.tokens source with
  | error e' =>
      have heq : assemble source = .error e' := by rw [assemble, htokens]
      rw [heq] at herror
      cases herror
      obtain ⟨lead, text, fault, htext, hlead, rfl, hrejected⟩ := Source.rejected_of_tokens htokens
      cases hplace
      obtain ⟨c, rest, rfl, hblank⟩ := hrejected.exists_cons
      exact ⟨lead, c, rest, htext, hblank, rfl, hsomewhere lead, hlead,
        Or.inl ⟨fault, rfl, hrejected⟩⟩
  | ok found =>
      have hmem := pointsInto_of_assemble htokens herror place hplace
      obtain ⟨token, htoken, rfl⟩ := List.mem_map.1 hmem
      obtain ⟨lead, text, htext, hlead, hbehind, hstarts⟩ :=
        (Source.partition_of_tokens htokens).leads htoken
      obtain ⟨c, rest, rfl, hblank⟩ := hstarts.exists_cons
      rw [List.nil_append] at hbehind
      exact ⟨lead, c, rest, htext, hblank, hbehind, hbehind ▸ hsomewhere lead, hlead,
        Or.inr ⟨found, token, rfl, htoken, rfl, hstarts⟩⟩

/-- At the end of the source the last token is reported. -/
theorem assemble_error_points_at_last_token :
    let source := ".org 0\n  load [x"
    let e := AssemblyError.malformed ⟨2, 9⟩ (.expectedToken .closeBracket .afterAddress none)
    assemble source = .error e ∧
      ∃ lead c rest,
        source.toList = lead ++ c :: rest ∧
        Text.isBlank c = false ∧
        (⟨2, 9⟩ : Location) = .behind lead ∧
        (⟨2, 9⟩ : Location) ≠ .nowhere ∧
        Source.Leads (c :: rest) lead ∧
        ((∃ fault, e = .malformed ⟨2, 9⟩ fault ∧ Source.Rejected fault (c :: rest)) ∨
          ∃ found token,
            Source.tokens source = .ok found ∧
            token ∈ found ∧
            token.location = ⟨2, 9⟩ ∧
            StartsWith token.kind (c :: rest)) := by
  intro source e
  have herror : assemble source = .error e := by decide +kernel
  exact ⟨herror, assemble_error_points_into_source herror rfl⟩

end Whole

end Assembly
end Microcomputer
