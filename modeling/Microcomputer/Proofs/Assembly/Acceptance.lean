import Microcomputer.Proofs.Assembly.Image

/-!
# Which programs have an image

**Acceptance.**  Sections have an image if and only if, in layout order, they fit
(`Fits`) and every label that an instruction names is defined.

**Errors.**  `Reported` says what each error means of the program; an error that
is reported is true in that sense.

**Result.**  `ofSections_accepts_iff_and_reports` puts both together for every list of sections.
-/

namespace Microcomputer
namespace Assembly

open Source (Section)

/-- Every label that an instruction names is defined somewhere. -/
def Resolved (order : List Section) : Prop :=
  ∀ p ∈ placements order, ∀ i name, p.statement.item = .instruction i (.label name) →
    name ∈ definedNames (placements order)

/-- What an error says of sections in layout order. -/
def Reported (order : List Section) : AssemblyError → Prop
  | .overlappingSections first second =>
      ∃ (before after : List Section) (p s : Section),
        order = before ++ p :: s :: after ∧
        p.origin = first ∧ s.origin = second ∧
        second.toNat < p.stop
  | .duplicateLabel location name =>
      ∃ (before after : List Placement) (d : Placement),
        placements order = before ++ d :: after ∧
        d.statement = ⟨.label name, location⟩ ∧
        ∃ first ∈ before, first.statement.item = .label name
  | .outOfRange location value =>
      ∃ p ∈ placements order,
        p.statement.location = location ∧
        ((∃ name, p.statement.item = .label name) ∧ p.address = 65536 ∧ value = 65536 ∨
          65536 < p.stop ∧ value = p.stop)
  | .unresolvedLabel location name =>
      (∃ p ∈ placements order, ∃ i, p.statement = ⟨.instruction i (.label name), location⟩) ∧
        (∀ p ∈ placements order, p.statement.item ≠ .label name) ∧
        Fits order
  | .malformed _ _ => False
  | .empty => False

section Reports

variable {order : List Section} {e : AssemblyError}

theorem Refusal.reported (h : Refusal [] (placements order) e) : Reported order e := by
  cases h with
  | duplicate before after d hnew hlabel hearlier =>
      refine ⟨before, after, d, hnew, ?_, mem_definedNames_iff.1 hearlier⟩
      rw [← hlabel]
  | labelBeyond hp hlabel haddress =>
      exact ⟨_, hp, rfl, Or.inl ⟨⟨_, hlabel⟩, haddress, rfl⟩⟩
  | stopBeyond hp hstop =>
      exact ⟨_, hp, rfl, Or.inr ⟨hstop, rfl⟩⟩

theorem Overlap.reported (h : Overlap order e) : Reported order e := by
  obtain ⟨before, after, p, s, horder, hstop, rfl⟩ := h
  exact ⟨before, after, p, s, horder, rfl, rfl, hstop⟩

theorem reported_of_writeSections
    {labels : Labels}
    (hfits : Fits order)
    (hrecords : Records labels (placements order))
    (herror : writeSections labels #[] order = .error e) :
    Reported order e ∧ ¬ Resolved order := by
  obtain ⟨p, hp, hbytes⟩ := writeSections_error herror
  obtain ⟨i, name, hitem, hundefined, rfl⟩ := bytesOf_error hbytes
  have hnowhere : ∀ q ∈ placements order, q.statement.item ≠ .label name := by
    intro q hq hlabel
    apply hundefined
    rw [Std.HashMap.mem_iff_isSome_getElem?, hrecords.lookup q hq name hlabel]
    rfl
  constructor
  · refine ⟨⟨p, hp, i, ?_⟩, hnowhere, hfits⟩
    rw [← hitem]
  · intro hresolved
    obtain ⟨q, hq, hlabel⟩ := mem_definedNames_iff.1 (hresolved p hp i name hitem)
    exact hnowhere q hq hlabel

theorem resolved_of_writeSections
    {labels : Labels}
    {image : Image}
    (hfits : Fits order)
    (hrecords : Records labels (placements order))
    (hok : writeSections labels #[] order = .ok image) :
    Resolved order := by
  intro p hp i name hitem
  obtain ⟨hwritten, _⟩ := written_of_writeSections hfits hok
  obtain ⟨target, low, high, htarget, _⟩ := hwritten.instruction hrecords hp hitem
  cases htarget with
  | @label name d honly =>
      have hd : d ∈ definitions order name := by
        rw [honly]
        exact List.mem_cons_self
      obtain ⟨hmem, hlabel⟩ := List.mem_filter.1 hd
      exact mem_definedNames_iff.2 ⟨d, hmem, of_decide_eq_true hlabel⟩

end Reports

/-- **Acceptance.** Sections have an image exactly if they fit in layout order and every label in
use is defined; an error is true of the program. -/
theorem ofSections_accepts_iff_and_reports (sections : List Section) :
    StablySorted sections (inOrder sections) ∧
      ((∃ image, ofSections sections = .ok image) ↔
        Fits (inOrder sections) ∧ Resolved (inOrder sections)) ∧
      ∀ e, ofSections sections = .error e → Reported (inOrder sections) e := by
  refine ⟨inOrder_stablySorted sections, ?_⟩
  unfold ofSections
  cases hlabels : layOut (inOrder sections) with
  | error e =>
      have hnot : ¬ Fits (inOrder sections) := by
        rw [← layOut_isOk_iff, hlabels]
        rintro ⟨labels, hlabels'⟩
        cases hlabels'
      refine ⟨?_, ?_⟩
      · simp [hnot]
      · intro e' he'
        cases he'
        rcases layOut_error hlabels with hrefusal | hoverlap
        · exact hrefusal.reported
        · exact hoverlap.reported
  | ok labels =>
      obtain ⟨hfits, hrecords⟩ := layOut_ok hlabels
      cases hwrite : writeSections labels #[] (inOrder sections) with
      | error e =>
          obtain ⟨hreported, hunresolved⟩ := reported_of_writeSections hfits hrecords hwrite
          refine ⟨?_, ?_⟩
          · simp [hunresolved, hwrite]
          · intro e' he'
            simp only [hwrite] at he'
            cases he'
            exact hreported
      | ok image =>
          have hresolved := resolved_of_writeSections hfits hrecords hwrite
          refine ⟨?_, ?_⟩
          · simp [hfits, hresolved, hwrite]
          · intro e' he'
            simp only [hwrite] at he'
            cases he'

end Assembly
end Microcomputer
