import Microcomputer.Proofs.Assembly.Image
import Microcomputer.Proofs.Source.Recognition
import Microcomputer.Proofs.Source.Spelling

/-!
# The image of an outline

Where the statements of a program stand in its source matters for the errors only.

**Places.**  `ofSections_of_outline`: sections with one outline have one image.  Every function of
the assembler has its own lemma to this effect, each for the case that the function succeeds.

**Result.**  `assemble_of_spells`: a source that is written as the tokens of an outline has the
image of the outline.
-/

namespace Microcomputer

open Source (Item Location Section Statement totalSize totalSize_cons)

/-- A section with a given outline, all of whose places are the start of the source. -/
def Source.Section.ofOutline (outline : UInt16 × List Item) : Section :=
  ⟨outline.1, .start, outline.2.map fun item => ⟨item, .start⟩⟩

@[simp]
theorem Source.Section.outline_ofOutline (outline : UInt16 × List Item) :
    (Section.ofOutline outline).outline = outline := by
  simp [Section.ofOutline, Section.outline, Function.comp_def]

namespace Assembly

section Places

theorem totalSize_of_items
    {statements others : List Statement}
    (h : statements.map Statement.item = others.map Statement.item) :
    totalSize statements = totalSize others := by
  induction statements generalizing others with
  | nil =>
      rw [List.map_nil, eq_comm, List.map_eq_nil_iff] at h
      rw [h]
  | cons s statements ih =>
      obtain ⟨t, others, rfl, hitem, hitems⟩ := List.map_eq_cons_iff.1 h.symm
      rw [totalSize_cons, totalSize_cons, hitem, ih hitems.symm]

theorem stop_of_outline
    {s t : Section}
    (h : s.outline = t.outline) :
    s.stop = t.stop := by
  obtain ⟨horigin, hitems⟩ := Prod.mk.inj h
  rw [Section.stop, Section.stop, Section.size, Section.size, horigin, totalSize_of_items hitems]

variable {labels labels' : Labels} {address : Nat}

theorem record_of_item
    {s t : Statement}
    (h : s.item = t.item)
    (hok : record labels address s = .ok labels') :
    record labels address t = .ok labels' := by
  obtain ⟨item, place⟩ := s
  obtain ⟨_, other⟩ := t
  cases h
  cases item with
  | instruction => exact hok
  | byte => exact hok
  | label name =>
      simp only [record, define] at hok ⊢
      split at hok
      · cases hok
      · next hnew =>
          rw [if_neg hnew]
          split at hok
          · next hlt =>
              rw [if_pos hlt]
              exact hok
          · cases hok

theorem layOutStatements_of_items
    {statements others : List Statement}
    (h : statements.map Statement.item = others.map Statement.item)
    (hok : layOutStatements labels address statements = .ok labels') :
    layOutStatements labels address others = .ok labels' := by
  induction statements generalizing others labels address with
  | nil =>
      rw [List.map_nil, eq_comm, List.map_eq_nil_iff] at h
      rwa [h]
  | cons s statements ih =>
      obtain ⟨t, others, rfl, hitem, hitems⟩ := List.map_eq_cons_iff.1 h.symm
      unfold layOutStatements at hok ⊢
      split at hok
      · cases hok
      · next mid hmid =>
          rw [record_of_item hitem.symm hmid, hitem]
          split at hok
          · next hfits =>
              simp only [if_pos hfits]
              exact ih hitems.symm hok
          · cases hok

/-- Only the end of the section before and the origin of the next one decide on an overlap. -/
theorem overlapped?_of_outline
    {previous previous' : Option Section}
    {s t : Section}
    (hprevious : previous.map Section.outline = previous'.map Section.outline)
    (h : s.outline = t.outline)
    (hnone : overlapped? previous s = none) :
    overlapped? previous' t = none := by
  rw [overlapped?_eq_none_iff] at hnone ⊢
  intro p' hp'
  rw [Option.mem_def.1 hp', Option.map_some, Option.map_eq_some_iff] at hprevious
  obtain ⟨p, hp, houtline⟩ := hprevious
  have horigin : s.origin = t.origin := congrArg Prod.fst h
  rw [← stop_of_outline houtline, ← horigin]
  exact hnone p hp

theorem layOutSections_of_outlines
    {previous previous' : Option Section}
    {sections others : List Section}
    (hprevious : previous.map Section.outline = previous'.map Section.outline)
    (h : sections.map Section.outline = others.map Section.outline)
    (hok : layOutSections labels previous sections = .ok labels') :
    layOutSections labels previous' others = .ok labels' := by
  induction sections generalizing others labels previous previous' with
  | nil =>
      rw [List.map_nil, eq_comm, List.map_eq_nil_iff] at h
      rwa [h]
  | cons s sections ih =>
      obtain ⟨t, others, rfl, houtline, houtlines⟩ := List.map_eq_cons_iff.1 h.symm
      obtain ⟨horigin, hitems⟩ := Prod.mk.inj houtline.symm
      unfold layOutSections at hok ⊢
      split at hok
      · cases hok
      · next hnone =>
          rw [overlapped?_of_outline hprevious houtline.symm hnone, ← horigin]
          split at hok
          · cases hok
          · next mid hmid =>
              simp only [layOutStatements_of_items hitems hmid]
              exact ih (by simp [houtline]) houtlines.symm hok

theorem bytesOf_of_item
    {s t : Statement}
    {bytes : List UInt8}
    (h : s.item = t.item)
    (hok : bytesOf labels s = .ok bytes) :
    bytesOf labels t = .ok bytes := by
  obtain ⟨item, place⟩ := s
  obtain ⟨_, other⟩ := t
  cases h
  cases item with
  | label => exact hok
  | byte => exact hok
  | instruction i operand =>
      cases operand with
      | address => exact hok
      | label name => cases hlookup : labels[name]? <;> simp_all [bytesOf, resolve]

theorem writeStatements_of_items
    {image written : Image}
    {statements others : List Statement}
    (h : statements.map Statement.item = others.map Statement.item)
    (hok : writeStatements labels image statements = .ok written) :
    writeStatements labels image others = .ok written := by
  induction statements generalizing others image with
  | nil =>
      rw [List.map_nil, eq_comm, List.map_eq_nil_iff] at h
      rwa [h]
  | cons s statements ih =>
      obtain ⟨t, others, rfl, hitem, hitems⟩ := List.map_eq_cons_iff.1 h.symm
      unfold writeStatements at hok ⊢
      split at hok
      · cases hok
      · next bytes hbytes =>
          rw [bytesOf_of_item hitem.symm hbytes]
          exact ih hitems.symm hok

theorem writeSections_of_outlines
    {image written : Image}
    {sections others : List Section}
    (h : sections.map Section.outline = others.map Section.outline)
    (hok : writeSections labels image sections = .ok written) :
    writeSections labels image others = .ok written := by
  induction sections generalizing others image with
  | nil =>
      rw [List.map_nil, eq_comm, List.map_eq_nil_iff] at h
      rwa [h]
  | cons s sections ih =>
      obtain ⟨t, others, rfl, houtline, houtlines⟩ := List.map_eq_cons_iff.1 h.symm
      obtain ⟨horigin, hitems⟩ := Prod.mk.inj houtline.symm
      unfold writeSections at hok ⊢
      split at hok
      · cases hok
      · next next hnext =>
          rw [← horigin, writeStatements_of_items hitems hnext]
          exact ih houtlines.symm hok

/-- Layout order goes by the origins. -/
theorem map_outline_inOrder (sections : List Section) :
    (inOrder sections).map Section.outline =
      (sections.map Section.outline).mergeSort fun s t => s.1 ≤ t.1 :=
  List.map_mergeSort fun _ _ _ _ => rfl

/-- **Places.**  Sections with the outline of sections that have an image have that image. -/
theorem ofSections_of_outline
    {sections others : List Section}
    {image : Image}
    (h : sections.map Section.outline = others.map Section.outline)
    (hok : ofSections sections = .ok image) :
    ofSections others = .ok image := by
  have horder :
      (inOrder sections).map Section.outline = (inOrder others).map Section.outline := by
    rw [map_outline_inOrder, map_outline_inOrder, h]
  unfold ofSections at hok ⊢
  split at hok
  · cases hok
  · next labels hlabels =>
      have hlaid : layOut (inOrder others) = .ok labels :=
        layOutSections_of_outlines rfl horder hlabels
      simp only [hlaid]
      exact writeSections_of_outlines horder hok

end Places

section Steps

variable {labels : Labels} {address : Nat} {location : Location} {rest : List Statement}

theorem layOutStatements_label
    {name : String}
    (hnew : name ∉ labels)
    (haddress : address < 65536) :
    layOutStatements labels address (⟨.label name, location⟩ :: rest) =
      layOutStatements (labels.insert name (UInt16.ofNat address)) address rest := by
  have hrecord : record labels address ⟨.label name, location⟩ =
      .ok (labels.insert name (UInt16.ofNat address)) := by
    simp [record, define, hnew, addressSpace, haddress]
  have hstop : address + (Item.label name).size ≤ addressSpace := Nat.le_of_lt haddress
  rw [layOutStatements, hrecord]
  exact if_pos hstop

theorem layOutStatements_byte
    {value : UInt8}
    (haddress : address < 65536) :
    layOutStatements labels address (⟨.byte value, location⟩ :: rest) =
      layOutStatements labels (address + 1) rest := by
  have hstop : address + (Item.byte value).size ≤ addressSpace := haddress
  rw [layOutStatements, record]
  exact if_pos hstop

/-- Literal bytes define no labels. -/
theorem layOutStatements_bytes
    (values : List UInt8)
    (haddress : address + values.length ≤ 65536) :
    layOutStatements labels address (values.map (⟨.byte ·, location⟩) ++ rest) =
      layOutStatements labels (address + values.length) rest := by
  induction values generalizing address with
  | nil => rfl
  | cons value values ih =>
      rw [List.length_cons] at haddress
      rw [List.map_cons, List.cons_append, layOutStatements_byte (by omega), ih (by omega),
        List.length_cons, Nat.add_assoc, Nat.add_comm 1]

theorem writeStatements_of_bytesOf
    {statements : List Statement}
    {written : List UInt8}
    {bytes : Statement → List UInt8}
    (h : ∀ s ∈ statements, bytesOf labels s = .ok (bytes s)) :
    writeStatements labels written.toArray statements =
      .ok (written ++ statements.flatMap bytes).toArray := by
  induction statements generalizing written with
  | nil => simp [writeStatements]
  | cons s statements ih =>
      have happend : written.toArray.appendList (bytes s) = (written ++ bytes s).toArray := by
        simp
      rw [writeStatements, h s (by simp)]
      simp only [happend]
      rw [ih fun t ht => h t (by simp [ht]), List.flatMap_cons, List.append_assoc]

end Steps

theorem assemble_of_spells
    {source : String}
    {outline : List (UInt16 × List Item)}
    {image : Image}
    (hspells : Source.Spells source.toList (Source.outlineKinds outline))
    (hne : outline ≠ [])
    (hitems : ∀ s ∈ outline, s.2 ≠ [])
    (himage : ofSections (outline.map Section.ofOutline) = .ok image) :
    assemble source = .ok image := by
  obtain ⟨tokens, htokens, hkinds⟩ := hspells.tokens
  have hderives := Source.derivesOutline_kinds hitems
  rw [← hkinds] at hderives
  obtain ⟨sections, hsections, houtline⟩ := Source.derivesOutline_iff.1 hderives
  have htokens_ne : tokens ≠ [] := by
    rintro rfl
    obtain ⟨s, others, rfl⟩ := List.exists_cons_of_ne_nil hne
    simp [Source.outlineKinds] at hkinds
  rw [assemble_eq_ofSections htokens (Source.sections_of_derives hsections) htokens_ne]
  refine ofSections_of_outline ?_ himage
  simp [houtline, Function.comp_def]

end Assembly
end Microcomputer
