import Microcomputer.Proofs.Assembly.Acceptance

/-!
# Sections in another order

**Conditions.**  `Compatible` says of sections, in whatever order, that they can lie side by side in
one image.  `LabelsFirst` is the only condition on their order (`exists_image_iff_compatible`).

**Contents.**  `Holds.unique`: an image is determined by the sections that it holds.

**Result.**  `image_of_reordered`.
-/

namespace Microcomputer
namespace Assembly

open Source (Item Operand Section)

section Conditions

/-- The conditions on the sections of a program that do not depend on their order. -/
structure Compatible (sections : List Section) : Prop where
  /-- Of two sections, one lies behind the other. -/
  apart : sections.Pairwise fun s t => s.stop ≤ t.origin.toNat ∨ t.stop ≤ s.origin.toNat
  stop_le : ∀ s ∈ sections, s.stop ≤ 65536
  label_lt : ∀ p ∈ placements sections, ∀ name,
    p.statement.item = .label name → p.address ≤ 65535
  nodup : (definedNames (placements sections)).Nodup
  resolved : Resolved sections

/-- Of two sections with one origin, one with bytes does not stand before one with labels only. -/
def LabelsFirst (sections : List Section) : Prop :=
  sections.Pairwise fun s t => s.origin = t.origin → 0 < s.size → 0 < t.size

variable {sections other : List Section}

theorem definedNames_perm (h : other.Perm sections) :
    (definedNames (placements other)).Perm (definedNames (placements sections)) :=
  (placements_perm h).filterMap Placement.defined?

theorem Compatible.perm
    (h : Compatible sections)
    (hperm : other.Perm sections) :
    Compatible other where
  apart := hperm.symm.pairwise h.apart Or.symm
  stop_le := fun s hs => h.stop_le s (hperm.mem_iff.1 hs)
  label_lt := fun p hp => h.label_lt p ((placements_perm hperm).mem_iff.1 hp)
  nodup := (definedNames_perm hperm).nodup_iff.2 h.nodup
  resolved := by
    intro p hp i name hitem
    have hp' := (placements_perm hperm).mem_iff.1 hp
    exact (definedNames_perm hperm).mem_iff.2 (h.resolved p hp' i name hitem)

theorem Fits.compatible
    (h : Fits sections)
    (hresolved : Resolved sections) :
    Compatible sections :=
  ⟨h.pairwise.imp Or.inl, h.stop_le, h.label_lt, h.nodup, hresolved⟩

/-- Sections with one origin stand in layout order as they stand in the source. -/
theorem pair_sublist_inOrder_iff
    {s t : Section}
    (horigin : s.origin = t.origin) :
    [s, t].Sublist (inOrder sections) ↔ [s, t].Sublist sections := by
  have hpair : [s, t].filter (·.origin = t.origin) = [s, t] := by simp [horigin]
  constructor
  · intro h
    have hfilter := h.filter (·.origin = t.origin)
    rw [hpair, filter_inOrder] at hfilter
    exact hfilter.trans List.filter_sublist
  · intro h
    have hfilter := h.filter (·.origin = t.origin)
    rw [hpair, ← filter_inOrder] at hfilter
    exact hfilter.trans List.filter_sublist

theorem pairwise_inOrder_iff :
    (inOrder sections).Pairwise (fun s t => s.stop ≤ t.origin.toNat) ↔
      sections.Pairwise (fun s t => s.stop ≤ t.origin.toNat ∨ t.stop ≤ s.origin.toNat) ∧
      LabelsFirst sections := by
  have hperm := inOrder_perm sections
  constructor
  · intro h
    refine ⟨hperm.pairwise (h.imp Or.inl) Or.symm, ?_⟩
    refine List.pairwise_iff_forall_sublist.2 ?_
    intro s t hst horigin hs
    have hstop : s.stop ≤ t.origin.toNat :=
      List.pairwise_iff_forall_sublist.1 h ((pair_sublist_inOrder_iff horigin).2 hst)
    rw [Section.stop, horigin] at hstop
    omega
  · rintro ⟨hapart, hfirst⟩
    refine List.pairwise_iff_forall_sublist.2 ?_
    intro s t hst
    have hle : s.origin.toNat ≤ t.origin.toNat :=
      UInt16.le_iff_toNat_le.1
        (List.pairwise_iff_forall_sublist.1 (inOrder_stablySorted sections).ascending hst)
    have hsides : s.stop ≤ t.origin.toNat ∨ t.stop ≤ s.origin.toNat :=
      List.pairwise_iff_forall_sublist.1 (hperm.symm.pairwise hapart Or.symm) hst
    by_cases horigin : s.origin = t.origin
    · have hroom : 0 < s.size → 0 < t.size :=
        List.pairwise_iff_forall_sublist.1 hfirst ((pair_sublist_inOrder_iff horigin).1 hst)
          horigin
      simp only [Section.stop, horigin] at hsides ⊢
      omega
    · have hne : s.origin.toNat ≠ t.origin.toNat := fun h => horigin (UInt16.toNat_inj.1 h)
      simp only [Section.stop] at hsides ⊢
      omega

theorem exists_image_iff_fits :
    (∃ image, ofSections sections = .ok image) ↔
      Fits (inOrder sections) ∧ Resolved (inOrder sections) := by
  constructor
  · rintro ⟨image, himage⟩
    unfold ofSections at himage
    split at himage
    · cases himage
    · next labels hlabels =>
        obtain ⟨hfits, hrecords⟩ := layOut_ok hlabels
        exact ⟨hfits, resolved_of_writeSections hfits hrecords himage⟩
  · rintro ⟨hfits, hresolved⟩
    obtain ⟨labels, hlabels⟩ := layOut_isOk_iff.2 hfits
    cases hwrite : writeSections labels #[] (inOrder sections) with
    | ok image => exact ⟨image, by simp only [ofSections, hlabels, hwrite]⟩
    | error e =>
        have hreport := reported_of_writeSections hfits (layOut_ok hlabels).2 hwrite
        exact absurd hresolved hreport.2

/-- **Acceptance.**  The order of the sections matters by `LabelsFirst` only. -/
theorem exists_image_iff_compatible :
    (∃ image, ofSections sections = .ok image) ↔ Compatible sections ∧ LabelsFirst sections := by
  have hperm := inOrder_perm sections
  rw [exists_image_iff_fits]
  constructor
  · rintro ⟨hfits, hresolved⟩
    exact ⟨(hfits.compatible hresolved).perm hperm.symm,
      (pairwise_inOrder_iff.1 hfits.pairwise).2⟩
  · rintro ⟨hcompatible, hfirst⟩
    have hordered := hcompatible.perm hperm
    have hpairwise := pairwise_inOrder_iff.2 ⟨hcompatible.apart, hfirst⟩
    exact ⟨⟨hpairwise.isChain, hordered.stop_le, hordered.label_lt,
      hordered.nodup⟩, hordered.resolved⟩

/-- Sections that fail because of their order fail at two that stand the wrong way round. -/
theorem error_of_not_labelsFirst
    (h : Compatible sections)
    (hnot : ¬ LabelsFirst sections) :
    ∃ s t, [s, t].Sublist sections ∧ s.origin = t.origin ∧ 0 < s.size ∧ t.size = 0 ∧
      ofSections sections = .error (.overlappingSections s.origin s.origin) := by
  have hordered := h.perm (inOrder_perm sections)
  cases hlabels : layOut (inOrder sections) with
  | ok labels =>
      have hfits := (layOut_ok hlabels).1
      exact absurd (pairwise_inOrder_iff.1 hfits.pairwise).2 hnot
  | error e =>
      rcases layOut_error hlabels with hrefusal | ⟨before, after, s, t, horder, hstop, rfl⟩
      · exact (hrefusal.impossible hordered.stop_le hordered.label_lt hordered.nodup).elim
      · have hst : [s, t].Sublist (inOrder sections) := by
          rw [horder]
          exact (List.sublist_append_left [s, t] after).trans (List.sublist_append_right before _)
        have hle : s.origin.toNat ≤ t.origin.toNat :=
          UInt16.le_iff_toNat_le.1
            (List.pairwise_iff_forall_sublist.1 (inOrder_stablySorted sections).ascending hst)
        have hsides : s.stop ≤ t.origin.toNat ∨ t.stop ≤ s.origin.toNat :=
          List.pairwise_iff_forall_sublist.1 hordered.apart hst
        have horigin : s.origin = t.origin := by
          rw [← UInt16.toNat_inj]
          have := origin_le_stop t
          omega
        simp only [Section.stop, horigin] at hstop hsides
        refine ⟨s, t, (pair_sublist_inOrder_iff horigin).1 hst, horigin, by omega, by omega, ?_⟩
        simp only [ofSections, hlabels, horigin]

end Conditions

section Contents

variable {image image' : Image} {sections other : List Section}

theorem Target.unique
    {operand : Operand}
    {target target' : Nat}
    (h : Target sections operand target)
    (h' : Target sections operand target') :
    target = target' := by
  cases h with
  | address value => cases h' with
    | address => rfl
  | label honly => cases h' with
    | label honly' =>
        rw [honly] at honly'
        cases honly'
        rfl

/-- A statement at one address in two programs, with one target, has the same bytes. -/
theorem Holds.getElem?_eq
    (h : Holds image sections)
    (h' : Holds image' other)
    (htargets : ∀ operand target target',
      Target sections operand target → Target other operand target' → target = target')
    {p : Placement}
    (hp : p ∈ placements sections)
    (hp' : p ∈ placements other)
    {x : Nat}
    (hstart : p.address ≤ x)
    (hstop : x < p.stop) :
    image[x]? = image'[x]? := by
  unfold Placement.stop at hstop
  cases hitem : p.statement.item with
  | label name =>
      simp [hitem, Item.size] at hstop
      omega
  | byte value =>
      simp only [hitem, Item.size] at hstop
      obtain rfl : x = p.address := by omega
      rw [h.byte p hp value hitem, h'.byte p hp' value hitem]
  | instruction i operand =>
      simp only [hitem, Item.size, Instruction.size] at hstop
      obtain ⟨target, low, high, htarget, hbytes, hopcode, hlow, hhigh⟩ :=
        h.instruction p hp i operand hitem
      obtain ⟨target', low', high', htarget', hbytes', hopcode', hlow', hhigh'⟩ :=
        h'.instruction p hp' i operand hitem
      have hsame := htargets operand target target' htarget htarget'
      have hlt := low.toNat_lt
      have hlt' := low'.toNat_lt
      obtain rfl : low = low' := UInt8.toNat_inj.1 (by omega)
      obtain rfl : high = high' := UInt8.toNat_inj.1 (by omega)
      have hcases : x = p.address ∨ x = p.address + 1 ∨ x = p.address + 2 := by omega
      rcases hcases with rfl | rfl | rfl
      · rw [hopcode, hopcode']
      · rw [hlow, hlow']
      · rw [hhigh, hhigh']

theorem Holds.size_eq
    (hperm : other.Perm sections)
    (h : Holds image sections)
    (h' : Holds image' other) :
    image.size = image'.size := by
  obtain ⟨hmem, hle⟩ := List.max?_eq_some_iff.1 h.size
  obtain ⟨hmem', hle'⟩ := List.max?_eq_some_iff.1 h'.size
  have hstops := hperm.map Section.stop
  exact Nat.le_antisymm (hle' _ (hstops.mem_iff.2 hmem)) (hle _ (hstops.mem_iff.1 hmem'))

/-- **Contents.**  The sections, in whatever order, determine the image that holds them. -/
theorem Holds.unique
    (hperm : other.Perm sections)
    (h : Holds image sections)
    (h' : Holds image' other) :
    image = image' := by
  have hplaced := placements_perm hperm
  have hsize := h.size_eq hperm h'
  refine Array.ext_getElem? fun x => ?_
  by_cases hx : x < image.size
  · by_cases hfree : ∀ p ∈ placements sections, ¬ (p.address ≤ x ∧ x < p.stop)
    · rw [h.gap x hx hfree, h'.gap x (hsize ▸ hx) fun p hp => hfree p (hplaced.mem_iff.1 hp)]
    · simp only [not_forall, not_not] at hfree
      obtain ⟨p, hp, hstart, hstop⟩ := hfree
      exact h.getElem?_eq h' (fun _ _ _ ht ht' => ht.unique (ht'.perm hperm)) hp
        (hplaced.mem_iff.2 hp) hstart hstop
  · rw [Array.getElem?_eq_none (by omega), Array.getElem?_eq_none (by omega)]

end Contents

section Orders

variable {sections other : List Section} {image image' : Image}

theorem image_unique
    (hperm : other.Perm sections)
    (h : ofSections sections = .ok image)
    (h' : ofSections other = .ok image') :
    image = image' := by
  by_cases hne : sections = []
  · subst hne
    rw [List.perm_nil.1 hperm, h] at h'
    exact Except.ok.inj h'
  · have hne' : other ≠ [] := by
      rintro rfl
      exact hne (List.nil_perm.1 hperm)
    exact (ofSections_holds hne h).unique hperm (ofSections_holds hne' h')

theorem ofSections_of_perm
    (hperm : other.Perm sections)
    (h : ofSections sections = .ok image)
    (hfirst : LabelsFirst other) :
    ofSections other = .ok image := by
  have hcompatible := (exists_image_iff_compatible.1 ⟨image, h⟩).1
  obtain ⟨image', h'⟩ := exists_image_iff_compatible.2 ⟨hcompatible.perm hperm, hfirst⟩
  rw [h', image_unique hperm h h']

/-- **Reordering.** Sections with an image have it in every order, unless one with bytes stands
before one with labels only at its origin; then they overlap. -/
theorem image_of_reordered
    (hperm : other.Perm sections) :
    (∀ image, ofSections sections = .ok image →
      (LabelsFirst other → ofSections other = .ok image) ∧
      (¬ LabelsFirst other →
        ∃ s t, [s, t].Sublist other ∧ s.origin = t.origin ∧ 0 < s.size ∧ t.size = 0 ∧
          ofSections other = .error (.overlappingSections s.origin s.origin))) ∧
    (LabelsFirst sections → LabelsFirst other →
      (ofSections sections).toOption = (ofSections other).toOption) := by
  refine ⟨?_, ?_⟩
  · intro image himage
    have hcompatible := (exists_image_iff_compatible.1 ⟨image, himage⟩).1
    exact ⟨ofSections_of_perm hperm himage, error_of_not_labelsFirst (hcompatible.perm hperm)⟩
  · intro hfirst hfirst'
    cases himage : ofSections sections with
    | ok image =>
        rw [ofSections_of_perm hperm himage hfirst']
    | error e =>
        cases himage' : ofSections other with
        | error e' => rfl
        | ok image' =>
            rw [ofSections_of_perm hperm.symm himage' hfirst] at himage
            cases himage

/-- The two sections of `backwards`, in the order of their origins. -/
theorem backwards_reordered :
    [backwardsCode, backwardsData].Perm [backwardsData, backwardsCode] ∧
      ofSections [backwardsData, backwardsCode] = .ok #[1, 5, 0, 0, 0, 42] ∧
      ofSections [backwardsCode, backwardsData] = .ok #[1, 5, 0, 0, 0, 42] := by
  have hperm : [backwardsCode, backwardsData].Perm [backwardsData, backwardsCode] := .swap _ _ _
  have hfirst : LabelsFirst [backwardsCode, backwardsData] := by
    unfold LabelsFirst
    decide
  have hreordered := (image_of_reordered hperm).1 _ ofSections_backwards
  exact ⟨hperm, ofSections_backwards, hreordered.1 hfirst⟩

/-- A section that holds a label only. -/
def bareLabel : Section :=
  ⟨0, ⟨1, 1⟩, [⟨.label "x", ⟨2, 1⟩⟩]⟩

/-- A section with one byte and the same origin. -/
def oneByte : Section :=
  ⟨0, ⟨3, 1⟩, [⟨.byte 1, ⟨4, 1⟩⟩]⟩

/-- Sections in an order in which they have an image, and in one in which they have none. -/
theorem order_of_bare_label_matters :
    [oneByte, bareLabel].Perm [bareLabel, oneByte] ∧
      ofSections [bareLabel, oneByte] = .ok #[1] ∧
      ofSections [oneByte, bareLabel] = .error (.overlappingSections 0 0) := by
  have hinOrder : inOrder [bareLabel, oneByte] = [bareLabel, oneByte] ∧
      inOrder [oneByte, bareLabel] = [oneByte, bareLabel] := by
    simp [inOrder, List.mergeSort, List.MergeSort.Internal.splitInTwo, bareLabel, oneByte]
  refine ⟨.swap _ _ _, ?_, ?_⟩
  · rw [ofSections, hinOrder.1]
    simp [layOut, layOutSections, layOutStatements, record, define, overlapped?, addressSpace,
      bareLabel, oneByte, Section.stop, Section.size, Item.size, writeSections, writeStatements,
      bytesOf, fillTo, Option.filter, Source.totalSize]
  · rw [ofSections, hinOrder.2]
    simp [layOut, layOutSections, layOutStatements, record, overlapped?, addressSpace,
      bareLabel, oneByte, Section.stop, Section.size, Item.size, Option.filter, Source.totalSize]

end Orders

end Assembly
end Microcomputer
