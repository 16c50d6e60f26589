import Microcomputer.Assembly.Image
import Mathlib.Data.List.Chain
import Mathlib.Data.List.Flatten

/-!
# Where the statements of a program lie

**Placements.**  The statements of a section follow each other from its origin
on; `placements` gives every statement of a program with its address, which is
the origin and the sizes of the statements before it (`mem_place_iff`).

**Layout order.**  `inOrder_stablySorted`: the sections are laid out by ascending
origin, and sections with one origin in the order of the source.

**Room.**  In layout order, sections that start at or behind the end of the one
before keep all their statements apart (`pairwise_placements`).
-/

namespace Microcomputer
namespace Assembly

open Source (Section Statement totalSize totalSize_cons)

/-- A statement at an address. -/
structure Placement where
  address : Nat
  statement : Statement
  deriving DecidableEq

namespace Placement

/-- The address after the last byte of the statement. -/
def stop (p : Placement) : Nat :=
  p.address + p.statement.item.size

/-- The label that the statement defines, if it is a label. -/
def defined? (p : Placement) : Option String :=
  match p.statement.item with
  | .label name => some name
  | _ => none

theorem defined?_eq_some_iff
    {p : Placement}
    {name : String} :
    p.defined? = some name ↔ p.statement.item = .label name := by
  unfold defined?
  split
  · next other h => simp [h]
  · next h =>
      constructor
      · intro hnone
        cases hnone
      · intro hlabel
        exact absurd hlabel (h name)

end Placement

section Placing

/-- Statements one after the other from an address on. -/
def place (address : Nat) : List Statement → List Placement
  | [] => []
  | s :: rest => ⟨address, s⟩ :: place (address + s.item.size) rest

/-- The statements of a program, each at its address. -/
def placements (sections : List Section) : List Placement :=
  sections.flatMap fun s => place s.origin.toNat s.statements

/-- The labels that the statements define, once for each definition. -/
def definedNames (placed : List Placement) : List String :=
  placed.filterMap Placement.defined?

@[simp]
theorem placements_nil : placements [] = [] :=
  rfl

@[simp]
theorem placements_cons
    (s : Section)
    (rest : List Section) :
    placements (s :: rest) = place s.origin.toNat s.statements ++ placements rest :=
  rfl

theorem placements_append
    (first second : List Section) :
    placements (first ++ second) = placements first ++ placements second :=
  List.flatMap_append

theorem placements_concat
    (before : List Section)
    (s : Section) :
    placements (before ++ [s]) = placements before ++ place s.origin.toNat s.statements := by
  rw [placements_append]
  simp

theorem totalSize_append
    (first second : List Statement) :
    totalSize (first ++ second) = totalSize first + totalSize second := by
  induction first with
  | nil => simp
  | cons s first ih =>
      simp only [List.cons_append, totalSize_cons, ih]
      omega

theorem place_append
    (address : Nat)
    (first second : List Statement) :
    place address (first ++ second) =
      place address first ++ place (address + totalSize first) second := by
  induction first generalizing address with
  | nil => simp [place]
  | cons s first ih =>
      simp only [List.cons_append, place, totalSize_cons, ih, Nat.add_assoc]

theorem mem_place_iff
    {address : Nat}
    {statements : List Statement}
    {p : Placement} :
    p ∈ place address statements ↔
      ∃ before after : List Statement,
        statements = before ++ p.statement :: after ∧
        p.address = address + totalSize before := by
  constructor
  · intro h
    induction statements generalizing address with
    | nil => cases h
    | cons s rest ih =>
        rcases List.mem_cons.1 h with rfl | hrest
        · exact ⟨[], rest, rfl, rfl⟩
        · obtain ⟨before, after, rfl, haddress⟩ := ih hrest
          refine ⟨s :: before, after, rfl, ?_⟩
          rw [haddress, totalSize_cons, Nat.add_assoc]
  · rintro ⟨before, after, rfl, haddress⟩
    rw [place_append]
    refine List.mem_append_right _ ?_
    rw [← haddress]
    exact List.mem_cons_self

theorem mem_definedNames_iff
    {placed : List Placement}
    {name : String} :
    name ∈ definedNames placed ↔ ∃ p ∈ placed, p.statement.item = .label name := by
  simp [definedNames, Placement.defined?_eq_some_iff]

theorem bounds_of_mem_place
    {address : Nat}
    {statements : List Statement}
    {p : Placement}
    (h : p ∈ place address statements) :
    address ≤ p.address ∧ p.stop ≤ address + totalSize statements := by
  obtain ⟨before, after, rfl, haddress⟩ := mem_place_iff.1 h
  rw [totalSize_append, totalSize_cons, Placement.stop]
  omega

theorem mem_placements_iff
    {sections : List Section}
    {p : Placement} :
    p ∈ placements sections ↔
      ∃ s ∈ sections, p ∈ place s.origin.toNat s.statements :=
  List.mem_flatMap

theorem pairwise_place
    (address : Nat)
    (statements : List Statement) :
    (place address statements).Pairwise fun p q => p.stop ≤ q.address := by
  induction statements generalizing address with
  | nil => exact List.Pairwise.nil
  | cons s rest ih =>
      refine List.Pairwise.cons ?_ (ih _)
      intro q hq
      exact (bounds_of_mem_place hq).1

theorem pairwise_placements
    {sections : List Section}
    (h : sections.Pairwise fun s t => s.stop ≤ t.origin.toNat) :
    (placements sections).Pairwise fun p q => p.stop ≤ q.address := by
  induction sections with
  | nil => exact List.Pairwise.nil
  | cons s rest ih =>
      obtain ⟨hs, hrest⟩ := List.pairwise_cons.1 h
      refine List.pairwise_append.2 ⟨pairwise_place _ _, ih hrest, ?_⟩
      intro p hp q hq
      obtain ⟨t, ht, hqt⟩ := mem_placements_iff.1 hq
      calc p.stop
          ≤ s.stop := (bounds_of_mem_place hp).2
        _ ≤ t.origin.toNat := hs t ht
        _ ≤ q.address := (bounds_of_mem_place hqt).1

end Placing

section Order

/-- The sections of `sections` by ascending origin, those with one origin in their old order. -/
structure StablySorted (sections order : List Section) : Prop where
  perm : order.Perm sections
  ascending : order.Pairwise fun s t => s.origin ≤ t.origin
  stable : ∀ origin : UInt16,
    order.filter (·.origin = origin) = sections.filter (·.origin = origin)

theorem inOrder_perm (sections : List Section) : (inOrder sections).Perm sections :=
  List.mergeSort_perm _ _

theorem origin_le_trans
    (s t u : Section)
    (hst : decide (s.origin ≤ t.origin) = true)
    (htu : decide (t.origin ≤ u.origin) = true) :
    decide (s.origin ≤ u.origin) = true := by
  rw [decide_eq_true_eq] at *
  exact UInt16.le_trans hst htu

theorem origin_le_total
    (s t : Section) :
    (decide (s.origin ≤ t.origin) || decide (t.origin ≤ s.origin)) = true := by
  rw [Bool.or_eq_true, decide_eq_true_eq, decide_eq_true_eq]
  exact UInt16.le_total s.origin t.origin

/-- The sections of one origin keep their order. -/
theorem filter_inOrder
    (sections : List Section)
    (origin : UInt16) :
    (inOrder sections).filter (·.origin = origin) = sections.filter (·.origin = origin) := by
  have hsorted :
      (sections.filter (·.origin = origin)).Pairwise
        fun s t => decide (s.origin ≤ t.origin) = true := by
    refine List.pairwise_iff_forall_sublist.2 ?_
    intro s t hst
    have hs := (List.mem_filter.1 (hst.subset (List.mem_cons_self))).2
    have ht := (List.mem_filter.1 (hst.subset (List.mem_cons_of_mem _ List.mem_cons_self))).2
    rw [decide_eq_true_eq] at hs ht ⊢
    rw [hs, ht]
    exact UInt16.le_refl origin
  have hsub :
      (sections.filter (·.origin = origin)).Sublist (inOrder sections) :=
    List.sublist_mergeSort origin_le_trans origin_le_total hsorted List.filter_sublist
  have hfilter := hsub.filter (·.origin = origin)
  rw [List.filter_filter] at hfilter
  simp only [Bool.and_self] at hfilter
  have hlength := ((inOrder_perm sections).filter (·.origin = origin)).length_eq
  exact (hfilter.eq_of_length hlength.symm).symm

/-- **Layout order.**  The sections are laid out in stable order of their origins. -/
theorem inOrder_stablySorted
    (sections : List Section) :
    StablySorted sections (inOrder sections) where
  perm := inOrder_perm sections
  ascending :=
    (List.pairwise_mergeSort origin_le_trans origin_le_total sections).imp of_decide_eq_true
  stable := filter_inOrder sections

end Order

end Assembly
end Microcomputer
