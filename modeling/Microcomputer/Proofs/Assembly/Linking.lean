import Microcomputer.Proofs.Assembly.Outline
import Microcomputer.Proofs.Assembly.Reordering
import Microcomputer.Proofs.Source.Partition

/-!
# Two sources in one

What two sources assemble to that are put together, one behind the other with a line feed between
them.

**Sources.**  `Source.ReadsAs source found` says which sections are read from a source.
`Source.reads_joined`: from two sources in one are read the sections of the first and then those of
the second, at other places only.

**Addresses.**  `Occupied sections x`: the address lies in one of the sections.  By
`occupied_iff_placement` it belongs to a statement of theirs then.

**Parts.**  `Holds.getElem?_of_sublist`: an image that holds a program has, at the addresses of a
part of it that has an image of its own, the bytes of that image.

**Result.**  `assemble_joined`.
-/

namespace Microcomputer
namespace Source

/-- The sections that are read from a source. -/
def ReadsAs
    (source : String)
    (found : List Section) :
    Prop :=
  ∃ text : List Token, tokens source = .ok text ∧ sections text = .ok found

theorem readsAs_iff
    {source : String}
    {found : List Section} :
    ReadsAs source found ↔ ((tokens source).bind sections).toOption = some found := by
  unfold ReadsAs
  cases tokens source with
  | error e => simp [Except.bind, Except.toOption]
  | ok text => cases hfound : sections text <;> simp [Except.bind, Except.toOption, hfound]

theorem DerivesOutline.append
    {kinds kinds' : List TokenKind}
    {outline outline' : List (UInt16 × List Item)}
    (h : DerivesOutline kinds outline)
    (h' : DerivesOutline kinds' outline') :
    DerivesOutline (kinds ++ kinds') (outline ++ outline') := by
  induction h with
  | nil => exact h'
  | cons hvalue hbody hne _ ih => simpa using DerivesOutline.cons hvalue hbody hne ih

/-- **Joined sources.**  A line feed keeps the tokens of two sources apart, and the sections too. -/
theorem reads_joined
    {first second : String}
    {found found' : List Section}
    (h : ReadsAs first found)
    (h' : ReadsAs second found') :
    ∃ joined : List Section,
      ReadsAs (first ++ "\n" ++ second) joined ∧
      joined.map Section.outline = (found ++ found').map Section.outline := by
  obtain ⟨text, htext, hfound⟩ := h
  obtain ⟨text', htext', hfound'⟩ := h'
  have hspells : Spells (first ++ "\n" ++ second).toList
      (text.map Token.kind ++ text'.map Token.kind) := by
    simpa using (partition_of_tokens htext).spells (partition_of_tokens htext').spells_last
  obtain ⟨both, hboth, hkinds⟩ := hspells.tokens
  have hderives := (sections_eq_ok_iff.1 hfound).outline.append
    (sections_eq_ok_iff.1 hfound').outline
  rw [← hkinds, ← List.map_append] at hderives
  obtain ⟨joined, hjoined, houtline⟩ := derivesOutline_iff.1 hderives
  exact ⟨joined, ⟨both, hboth, sections_eq_ok_iff.2 hjoined⟩, houtline⟩

end Source

namespace Assembly

open Source (Item Operand ReadsAs Section Statement totalSize_cons)

section Sources

variable {source : String} {found : List Section} {image : Image}

theorem ofSections_of_assemble
    (hreads : ReadsAs source found)
    (h : assemble source = .ok image) :
    found ≠ [] ∧ ofSections found = .ok image := by
  obtain ⟨text, htext, hfound⟩ := hreads
  have hne : text ≠ [] := by
    rintro rfl
    simp [assemble, htext] at h
  rw [assemble_eq_ofSections htext hfound hne] at h
  exact ⟨ne_nil_of_readSections hfound (Or.inr hne), h⟩

theorem assemble_of_ofSections
    (hreads : ReadsAs source found)
    (hne : found ≠ [])
    (h : ofSections found = .ok image) :
    assemble source = .ok image := by
  obtain ⟨text, htext, hfound⟩ := hreads
  have htext_ne : text ≠ [] := by
    rintro rfl
    simp [Source.sections, Source.readSections] at hfound
    exact hne hfound
  rw [assemble_eq_ofSections htext hfound htext_ne, h]

end Sources

section Addresses

variable {sections : List Section} {image : Image} {x : Nat}

/-- The address lies in one of the sections. -/
def Occupied
    (sections : List Section)
    (x : Nat) :
    Prop :=
  ∃ s ∈ sections, s.origin.toNat ≤ x ∧ x < s.stop

theorem exists_placement_at
    {address : Nat}
    {statements : List Statement}
    (hstart : address ≤ x)
    (hstop : x < address + Source.totalSize statements) :
    ∃ p ∈ place address statements, p.address ≤ x ∧ x < p.stop := by
  induction statements generalizing address with
  | nil =>
      simp at hstop
      omega
  | cons s rest ih =>
      rw [totalSize_cons] at hstop
      by_cases hfirst : x < address + s.item.size
      · exact ⟨⟨address, s⟩, List.mem_cons_self, hstart, hfirst⟩
      · rw [← Nat.add_assoc] at hstop
        obtain ⟨p, hp, hat⟩ := ih (Nat.le_of_not_lt hfirst) hstop
        exact ⟨p, List.mem_cons_of_mem _ hp, hat⟩

/-- The statements of a section leave no gap. -/
theorem occupied_iff_placement :
    Occupied sections x ↔ ∃ p ∈ placements sections, p.address ≤ x ∧ x < p.stop := by
  constructor
  · rintro ⟨s, hs, hstart, hstop⟩
    obtain ⟨p, hp, hat⟩ := exists_placement_at hstart hstop
    exact ⟨p, mem_placements_iff.2 ⟨s, hs, hp⟩, hat⟩
  · rintro ⟨p, hp, hstart, hstop⟩
    obtain ⟨s, hs, hps⟩ := mem_placements_iff.1 hp
    obtain ⟨hlow, hhigh⟩ := bounds_of_mem_place hps
    exact ⟨s, hs, hlow.trans hstart, hstop.trans_le hhigh⟩

theorem Holds.zero_of_not_occupied
    (h : Holds image sections)
    (hx : x < image.size)
    (hfree : ¬ Occupied sections x) :
    image[x]? = some 0 := by
  refine h.gap x hx fun p hp hat => ?_
  exact hfree (occupied_iff_placement.2 ⟨p, hp, hat⟩)

end Addresses

section Parts

variable {part sections : List Section} {image linked : Image}

theorem Target.of_sublist
    (hsub : part.Sublist sections)
    {operand : Operand}
    {target target' : Nat}
    (h : Target part operand target)
    (h' : Target sections operand target') :
    target = target' := by
  cases h with
  | address value => cases h' with
    | address => rfl
  | @label name d honly => cases h' with
    | @label _ d' honly' =>
        have hdefinitions : (definitions part name).Sublist (definitions sections name) :=
          (hsub.flatMap _).filter _
        rw [honly, honly'] at hdefinitions
        obtain rfl : d = d' := by simpa using hdefinitions
        rfl

/-- **Parts.**  Where a part of a program lies, its own image and that of the program agree. -/
theorem Holds.getElem?_of_sublist
    (hsub : part.Sublist sections)
    (h : Holds image part)
    (hlinked : Holds linked sections)
    {x : Nat}
    (hx : Occupied part x) :
    ∃ byte, image[x]? = some byte ∧ linked[x]? = some byte := by
  obtain ⟨p, hp, hstart, hstop⟩ := occupied_iff_placement.1 hx
  have hsame := h.getElem?_eq hlinked (fun _ _ _ ht ht' => ht.of_sublist hsub ht') hp
    ((hsub.flatMap _).subset hp) hstart hstop
  have hinside : x < image.size := hstop.trans_le (h.stop_le p hp)
  exact ⟨image[x], Array.getElem?_eq_getElem hinside, hsame ▸ Array.getElem?_eq_getElem hinside⟩

end Parts

section Linking

variable {sections others : List Section} {image image' linked : Image}

/-- No section without bytes, no question of order. -/
theorem labelsFirst_of_room
    (hroom : ∀ s ∈ sections, 0 < s.size) :
    LabelsFirst sections :=
  List.pairwise_of_forall_mem_list fun _ _ t ht _ _ => hroom t ht

theorem apart_of_not_shared
    {s t : Section}
    (hs : 0 < s.size)
    (ht : 0 < t.size)
    (h : ∀ x, (s.origin.toNat ≤ x ∧ x < s.stop) → ¬ (t.origin.toNat ≤ x ∧ x < t.stop)) :
    s.stop ≤ t.origin.toNat ∨ t.stop ≤ s.origin.toNat := by
  -- The higher one of the two origins belongs to its own section only.
  have hfirst := h s.origin.toNat
  have hsecond := h t.origin.toNat
  unfold Section.stop at *
  omega

theorem Compatible.append
    (h : Compatible sections)
    (h' : Compatible others)
    (hlabels : ∀ name, name ∈ definedNames (placements sections) →
      name ∉ definedNames (placements others))
    (hroom : ∀ s ∈ sections ++ others, 0 < s.size)
    (hapart : ∀ x, Occupied sections x → ¬ Occupied others x) :
    Compatible (sections ++ others) := by
  have hnames : definedNames (placements (sections ++ others)) =
      definedNames (placements sections) ++ definedNames (placements others) := by
    rw [placements_append, definedNames, List.filterMap_append]
    rfl
  refine ⟨?_, ?_, ?_, ?_, ?_⟩
  · refine List.pairwise_append.2 ⟨h.apart, h'.apart, ?_⟩
    intro s hs t ht
    have hsize := hroom s (List.mem_append_left _ hs)
    have hsize' := hroom t (List.mem_append_right _ ht)
    refine apart_of_not_shared hsize hsize' fun x hx hx' => ?_
    exact hapart x ⟨s, hs, hx⟩ ⟨t, ht, hx'⟩
  · intro s hs
    rcases List.mem_append.1 hs with hs | hs
    · exact h.stop_le s hs
    · exact h'.stop_le s hs
  · intro p hp
    rw [placements_append] at hp
    rcases List.mem_append.1 hp with hp | hp
    · exact h.label_lt p hp
    · exact h'.label_lt p hp
  · rw [hnames, List.nodup_append]
    refine ⟨h.nodup, h'.nodup, ?_⟩
    rintro name hname _ hname' rfl
    exact hlabels name hname hname'
  · intro p hp i name hitem
    rw [hnames]
    rw [placements_append] at hp
    rcases List.mem_append.1 hp with hp | hp
    · exact List.mem_append_left _ (h.resolved p hp i name hitem)
    · exact List.mem_append_right _ (h'.resolved p hp i name hitem)

theorem Holds.size_append
    (h : Holds image sections)
    (h' : Holds image' others)
    (hlinked : Holds linked (sections ++ others)) :
    linked.size = max image.size image'.size := by
  obtain ⟨hmem, hle⟩ := List.max?_eq_some_iff.1 h.size
  obtain ⟨hmem', hle'⟩ := List.max?_eq_some_iff.1 h'.size
  obtain ⟨hlinkedMem, hlinkedLe⟩ := List.max?_eq_some_iff.1 hlinked.size
  rw [List.map_append] at hlinkedMem hlinkedLe
  refine Nat.le_antisymm ?_ ?_
  · rcases List.mem_append.1 hlinkedMem with hold | hold
    · exact (hle _ hold).trans (Nat.le_max_left _ _)
    · exact (hle' _ hold).trans (Nat.le_max_right _ _)
  · exact Nat.max_le.2 ⟨hlinkedLe _ (List.mem_append_left _ hmem),
      hlinkedLe _ (List.mem_append_right _ hmem')⟩

/-- **Linking.** Two sources with images, labels of different names and no address in common have an
image together, which holds both. -/
theorem assemble_joined
    {first second : String}
    {found found' : List Section}
    (hreads : ReadsAs first found)
    (hreads' : ReadsAs second found')
    (himage : assemble first = .ok image)
    (himage' : assemble second = .ok image')
    (hlabels : ∀ name, name ∈ definedNames (placements found) →
      name ∉ definedNames (placements found'))
    (hroom : ∀ s ∈ found ++ found', 0 < s.size)
    (hapart : ∀ x, Occupied found x → ¬ Occupied found' x) :
    ∃ linked : Image,
      assemble (first ++ "\n" ++ second) = .ok linked ∧
      linked.size = max image.size image'.size ∧
      (∀ x, Occupied found x → ∃ byte, image[x]? = some byte ∧ linked[x]? = some byte) ∧
      (∀ x, Occupied found' x → ∃ byte, image'[x]? = some byte ∧ linked[x]? = some byte) ∧
      (∀ x, x < linked.size → ¬ Occupied found x → ¬ Occupied found' x →
        linked[x]? = some 0) := by
  obtain ⟨hne, hsections⟩ := ofSections_of_assemble hreads himage
  obtain ⟨hne', hsections'⟩ := ofSections_of_assemble hreads' himage'
  have hcompatible := (exists_image_iff_compatible.1 ⟨image, hsections⟩).1
  have hcompatible' := (exists_image_iff_compatible.1 ⟨image', hsections'⟩).1
  have hboth := hcompatible.append hcompatible' hlabels hroom hapart
  obtain ⟨linked, hlinked⟩ := exists_image_iff_compatible.2 ⟨hboth, labelsFirst_of_room hroom⟩
  obtain ⟨joined, hjoined, houtline⟩ := Source.reads_joined hreads hreads'
  have hjoined_ne : joined ≠ [] := by
    rintro rfl
    simp [hne] at houtline
  have hholds := ofSections_holds hne hsections
  have hholds' := ofSections_holds hne' hsections'
  have hall := ofSections_holds (List.append_ne_nil_of_left_ne_nil hne found') hlinked
  refine ⟨linked, ?_, hholds.size_append hholds' hall, ?_, ?_, ?_⟩
  · exact assemble_of_ofSections hjoined hjoined_ne (ofSections_of_outline houtline.symm hlinked)
  · intro x hx
    exact hholds.getElem?_of_sublist (List.sublist_append_left found found') hall hx
  · intro x hx
    exact hholds'.getElem?_of_sublist (List.sublist_append_right found found') hall hx
  · intro x hlt hfree hfree'
    refine hall.zero_of_not_occupied hlt ?_
    rintro ⟨s, hs, hat⟩
    rcases List.mem_append.1 hs with hs | hs
    · exact hfree ⟨s, hs, hat⟩
    · exact hfree' ⟨s, hs, hat⟩

/-- A source that ends inside a comment. -/
def keystone : String :=
  ".org 3\nstone: db 7 ; between the two sections"

/-- The only section of `keystone`. -/
def keystoneData : Section :=
  ⟨3, ⟨1, 1⟩, [⟨.label "stone", ⟨2, 1⟩⟩, ⟨.byte 7, ⟨2, 8⟩⟩]⟩

/-- The section of `keystone` goes into the gap that the sections of `backwards` leave. -/
theorem keystone_joined :
    ReadsAs keystone [keystoneData] ∧
    ReadsAs backwards [backwardsData, backwardsCode] ∧
    assemble keystone = .ok #[0, 0, 0, 7] ∧
    assemble backwards = .ok #[1, 5, 0, 0, 0, 42] ∧
    ∃ linked : Image,
      assemble (keystone ++ "\n" ++ backwards) = .ok linked ∧
      linked.size = 6 ∧
      linked[0]? = some 1 ∧ linked[3]? = some 7 ∧ linked[4]? = some 0 ∧ linked[5]? = some 42 := by
  have hreads : ReadsAs keystone [keystoneData] := Source.readsAs_iff.2 (by decide +kernel)
  have hreads' : ReadsAs backwards [backwardsData, backwardsCode] :=
    Source.readsAs_iff.2 (by decide +kernel)
  have hstone : ofSections [keystoneData] = .ok #[0, 0, 0, 7] := by
    simp [ofSections, inOrder, layOut, layOutSections, layOutStatements, record, define,
      overlapped?, addressSpace, keystoneData, Item.size, writeSections, writeStatements, bytesOf,
      fillTo, Option.filter]
    rfl
  have himage := assemble_of_ofSections hreads (by simp) hstone
  have himage' := assemble_of_ofSections hreads' (by simp) ofSections_backwards
  have hoccupied : ∀ x, Occupied [keystoneData] x ↔ x = 3 := by
    intro x
    simp [Occupied, keystoneData, Section.stop, Section.size, Item.size]
    omega
  have hoccupied' : ∀ x, Occupied [backwardsData, backwardsCode] x ↔ x = 5 ∨ x < 3 := by
    intro x
    simp [Occupied, backwardsData, backwardsCode, Section.stop, Section.size, Item.size,
      Instruction.size]
    omega
  have hlabels : ∀ name, name ∈ definedNames (placements [keystoneData]) →
      name ∉ definedNames (placements [backwardsData, backwardsCode]) := by
    decide
  have hroom : ∀ s ∈ [keystoneData] ++ [backwardsData, backwardsCode], 0 < s.size := by
    decide
  have hapart : ∀ x, Occupied [keystoneData] x → ¬ Occupied [backwardsData, backwardsCode] x := by
    intro x
    rw [hoccupied, hoccupied']
    omega
  obtain ⟨linked, hlinked, hsize, hfirst, hsecond, hgap⟩ :=
    assemble_joined hreads hreads' himage himage' hlabels hroom hapart
  refine ⟨hreads, hreads', himage, himage', linked, hlinked, hsize, ?_, ?_, ?_, ?_⟩
  · simpa using hsecond 0 ((hoccupied' 0).2 (by omega))
  · simpa using hfirst 3 ((hoccupied 3).2 rfl)
  · refine hgap 4 (by rw [hsize]; decide) ?_ ?_
    · rw [hoccupied]
      omega
    · rw [hoccupied']
      omega
  · simpa using hsecond 5 ((hoccupied' 5).2 (by omega))

end Linking

end Assembly
end Microcomputer
