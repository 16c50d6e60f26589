import Microcomputer.Proofs.Assembly.Placement
import Mathlib.Data.List.Nodup

/-!
# The layout of a program

What it takes for a program to be laid out, and what the errors of the layout
say.

**Conditions.**  `Fits` holds of sections in layout order that lie one behind the
other inside the address space, with every label at an address of its own name.

**Invariant.**  `Records` says that a table of labels holds exactly the labels of
the statements laid out so far, each with its address.

**Results.**  `layOut_ok` and `layOut_error`: the layout succeeds only for programs that
fit, and a refusal names a statement or two sections that do not (`Refusal`,
`Overlap`).
-/

namespace Microcomputer
namespace Assembly

open Source (Section Statement totalSize totalSize_cons)

/-- The conditions on the layout of sections that are in layout order. -/
structure Fits (order : List Section) : Prop where
  /-- No section starts before the end of the one before it. -/
  apart : order.IsChain fun s t => s.stop ≤ t.origin.toNat
  /-- No section ends beyond the address space. -/
  stop_le : ∀ s ∈ order, s.stop ≤ 65536
  /-- Every label is at an address. -/
  label_lt : ∀ p ∈ placements order, ∀ name, p.statement.item = .label name → p.address ≤ 65535
  /-- No label is defined twice. -/
  nodup : (definedNames (placements order)).Nodup

/-- The labels of the placed statements, each with its address. -/
structure Records (labels : Labels) (placed : List Placement) : Prop where
  nodup : (definedNames placed).Nodup
  defined : ∀ name, name ∈ labels → name ∈ definedNames placed
  address_lt : ∀ p ∈ placed, ∀ name, p.statement.item = .label name → p.address ≤ 65535
  lookup : ∀ p ∈ placed, ∀ name, p.statement.item = .label name →
    labels[name]? = some (UInt16.ofNat p.address)

/-- What an error of the layout says about statements `new` laid out behind `placed`. -/
inductive Refusal (placed new : List Placement) : AssemblyError → Prop
  | duplicate
      (before after : List Placement)
      (d : Placement)
      {name : String}
      (hnew : new = before ++ d :: after)
      (hlabel : d.statement.item = .label name)
      (hearlier : name ∈ definedNames (placed ++ before)) :
      Refusal placed new (.duplicateLabel d.statement.location name)
  | labelBeyond
      {p : Placement}
      {name : String}
      (hp : p ∈ new)
      (hlabel : p.statement.item = .label name)
      (haddress : p.address = 65536) :
      Refusal placed new (.outOfRange p.statement.location 65536)
  | stopBeyond
      {p : Placement}
      (hp : p ∈ new)
      (hstop : 65536 < p.stop) :
      Refusal placed new (.outOfRange p.statement.location p.stop)

/-- Two neighbours of which the second starts before the end of the first. -/
def Overlap (order : List Section) (e : AssemblyError) : Prop :=
  ∃ (before after : List Section) (p s : Section),
    order = before ++ p :: s :: after ∧
    s.origin.toNat < p.stop ∧
    e = .overlappingSections p.origin s.origin

section Refusals

variable {placed first second : List Placement} {e : AssemblyError}

theorem Refusal.append
    (h : Refusal placed first e) :
    Refusal placed (first ++ second) e := by
  cases h with
  | duplicate before after d hnew hlabel hearlier =>
      refine .duplicate before (after ++ second) d ?_ hlabel hearlier
      rw [hnew, List.append_assoc, List.cons_append]
  | labelBeyond hp hlabel haddress =>
      exact .labelBeyond (List.mem_append_left _ hp) hlabel haddress
  | stopBeyond hp hstop => exact .stopBeyond (List.mem_append_left _ hp) hstop

theorem Refusal.of_append
    (h : Refusal (placed ++ first) second e) :
    Refusal placed (first ++ second) e := by
  cases h with
  | duplicate before after d hnew hlabel hearlier =>
      refine .duplicate (first ++ before) after d ?_ hlabel ?_
      · rw [hnew, List.append_assoc]
      · rwa [← List.append_assoc]
  | labelBeyond hp hlabel haddress =>
      exact .labelBeyond (List.mem_append_right _ hp) hlabel haddress
  | stopBeyond hp hstop => exact .stopBeyond (List.mem_append_right _ hp) hstop

end Refusals

section OneStatement

variable {labels labels' : Labels} {placed : List Placement} {address : Nat} {s : Statement}

theorem definedNames_concat
    (placed : List Placement)
    (p : Placement) :
    definedNames (placed ++ [p]) = definedNames placed ++ p.defined?.toList := by
  unfold definedNames
  rw [List.filterMap_append]
  cases h : p.defined? with
  | none => simp [h]
  | some name => simp [h]

theorem records_nil : Records {} [] where
  nodup := List.nodup_nil
  defined := by
    intro name h
    simp at h
  address_lt := by
    intro p hp
    cases hp
  lookup := by
    intro p hp
    cases hp

theorem Records.skip
    (h : Records labels placed)
    {p : Placement}
    (hnone : p.defined? = none) :
    Records labels (placed ++ [p]) := by
  have hnames : definedNames (placed ++ [p]) = definedNames placed := by
    rw [definedNames_concat, hnone]
    simp
  have hlabel : ∀ q ∈ placed ++ [p], ∀ name, q.statement.item = .label name → q ∈ placed := by
    intro q hq name hitem
    rcases List.mem_append.1 hq with hq | hq
    · exact hq
    · rw [List.mem_singleton.1 hq, ← Placement.defined?_eq_some_iff, hnone] at hitem
      cases hitem
  refine ⟨?_, ?_, ?_, ?_⟩
  · rw [hnames]
    exact h.nodup
  · rw [hnames]
    exact h.defined
  · intro q hq name hitem
    exact h.address_lt q (hlabel q hq name hitem) name hitem
  · intro q hq name hitem
    exact h.lookup q (hlabel q hq name hitem) name hitem

theorem Records.insert
    (h : Records labels placed)
    {p : Placement}
    {name : String}
    (hitem : p.statement.item = .label name)
    (hnew : name ∉ labels)
    (haddress : p.address ≤ 65535) :
    Records (labels.insert name (UInt16.ofNat p.address)) (placed ++ [p]) := by
  have hnames : definedNames (placed ++ [p]) = definedNames placed ++ [name] := by
    rw [definedNames_concat, Placement.defined?_eq_some_iff.2 hitem]
    rfl
  have hfresh : name ∉ definedNames placed := by
    intro hmem
    obtain ⟨q, hq, hlabel⟩ := mem_definedNames_iff.1 hmem
    have hlookup := h.lookup q hq name hlabel
    rw [Std.HashMap.getElem?_eq_none hnew] at hlookup
    cases hlookup
  refine ⟨?_, ?_, ?_, ?_⟩
  · rw [hnames, List.nodup_append]
    refine ⟨h.nodup, List.nodup_singleton name, ?_⟩
    rintro a ha b hb rfl
    rw [List.mem_singleton.1 hb] at ha
    exact hfresh ha
  · intro other hother
    rw [hnames]
    rcases Std.HashMap.mem_insert.1 hother with heq | hold
    · rw [← eq_of_beq heq]
      exact List.mem_append_right _ List.mem_cons_self
    · exact List.mem_append_left _ (h.defined other hold)
  · intro q hq other hother
    rcases List.mem_append.1 hq with hq | hq
    · exact h.address_lt q hq other hother
    · rw [List.mem_singleton.1 hq]
      exact haddress
  · intro q hq other hother
    rcases List.mem_append.1 hq with hq | hq
    · have hne : name ≠ other := by
        rintro rfl
        exact hfresh (mem_definedNames_iff.2 ⟨q, hq, hother⟩)
      rw [Std.HashMap.getElem?_insert]
      simp only [beq_iff_eq, hne, if_false]
      exact h.lookup q hq other hother
    · obtain rfl := List.mem_singleton.1 hq
      rw [hitem] at hother
      cases hother
      rw [Std.HashMap.getElem?_insert_self]

theorem record_ok
    (h : Records labels placed)
    (hok : record labels address s = .ok labels') :
    Records labels' (placed ++ [⟨address, s⟩]) := by
  unfold record at hok
  split at hok
  · next name hitem =>
      unfold define at hok
      split at hok
      · cases hok
      · next hnew =>
          split at hok
          · next hlt =>
              cases hok
              have hle : address ≤ 65535 := Nat.le_of_lt_succ hlt
              exact h.insert (p := ⟨address, s⟩) hitem (by simpa using hnew) hle
          · cases hok
  · next hother =>
      cases hok
      refine h.skip (Option.eq_none_iff_forall_ne_some.2 ?_)
      intro name hname
      exact hother name (Placement.defined?_eq_some_iff.1 hname)

theorem record_error
    {e : AssemblyError}
    (h : Records labels placed)
    (haddress : address ≤ 65536)
    (herror : record labels address s = .error e) :
    Refusal placed [⟨address, s⟩] e := by
  unfold record at herror
  split at herror
  · next name hitem =>
      unfold define at herror
      split at herror
      · next hold =>
          cases herror
          refine .duplicate [] [] ⟨address, s⟩ rfl hitem ?_
          rw [List.append_nil]
          exact h.defined name (Std.HashMap.mem_iff_contains.2 hold)
      · split at herror
        · cases herror
        · next hge =>
            cases herror
            obtain rfl : address = 65536 := Nat.le_antisymm haddress (Nat.le_of_not_lt hge)
            exact .labelBeyond (p := ⟨65536, s⟩) List.mem_cons_self hitem rfl
  · cases herror

end OneStatement

section Statements

variable {labels labels' : Labels} {placed : List Placement} {e : AssemblyError}

theorem layOutStatements_ok
    {address : Nat}
    {statements : List Statement}
    (h : Records labels placed)
    (haddress : address ≤ 65536)
    (hok : layOutStatements labels address statements = .ok labels') :
    Records labels' (placed ++ place address statements) ∧
      address + totalSize statements ≤ 65536 := by
  induction statements generalizing labels placed address with
  | nil =>
      cases hok
      simpa [place] using And.intro h haddress
  | cons s rest ih =>
      unfold layOutStatements at hok
      split at hok
      · cases hok
      · next mid hmid =>
          split at hok
          · next hfits =>
              have hrest := ih (record_ok h hmid) hfits hok
              rw [List.append_assoc, List.singleton_append] at hrest
              refine ⟨hrest.1, ?_⟩
              rw [totalSize_cons, ← Nat.add_assoc]
              exact hrest.2
          · cases hok

theorem layOutStatements_error
    {address : Nat}
    {statements : List Statement}
    (h : Records labels placed)
    (haddress : address ≤ 65536)
    (herror : layOutStatements labels address statements = .error e) :
    Refusal placed (place address statements) e := by
  induction statements generalizing labels placed address with
  | nil => cases herror
  | cons s rest ih =>
      unfold layOutStatements at herror
      split at herror
      · next e' hrecord =>
          cases herror
          exact (record_error h haddress hrecord).append
      · next mid hmid =>
          split at herror
          · next hfits => exact (ih (record_ok h hmid) hfits herror).of_append
          · next hlong =>
              cases herror
              exact .stopBeyond (p := ⟨address, s⟩) List.mem_cons_self (Nat.lt_of_not_le hlong)

end Statements

section Sections

variable {labels labels' : Labels} {done rest : List Section} {e : AssemblyError}

theorem fits_nil : Fits [] where
  apart := List.isChain_nil
  stop_le := by
    intro s hs
    cases hs
  label_lt := by
    intro p hp
    cases hp
  nodup := List.nodup_nil

theorem origin_le_stop (s : Section) : s.origin.toNat ≤ s.stop :=
  Nat.le_add_right _ _

/-- A section starts behind the end of all those before it, not only of its neighbour. -/
theorem Fits.pairwise
    {order : List Section}
    (h : Fits order) :
    order.Pairwise fun s t => s.stop ≤ t.origin.toNat := by
  have htrans : IsTrans Section fun s t => s.stop ≤ t.origin.toNat := by
    refine ⟨fun s t u hst htu => ?_⟩
    calc s.stop
        ≤ t.origin.toNat := hst
      _ ≤ t.stop := origin_le_stop t
      _ ≤ u.origin.toNat := htu
  exact List.isChain_iff_pairwise.1 h.apart

theorem overlapped?_eq_none_iff
    {previous : Option Section}
    {s : Section} :
    overlapped? previous s = none ↔ ∀ p ∈ previous, p.stop ≤ s.origin.toNat := by
  simp [overlapped?, Option.filter_eq_none_iff]

theorem Fits.concat
    {s : Section}
    (h : Fits done)
    (hapart : ∀ p ∈ done.getLast?, p.stop ≤ s.origin.toNat)
    (hstop : s.stop ≤ 65536)
    (hrecords : Records labels (placements (done ++ [s]))) :
    Fits (done ++ [s]) where
  apart := by
    refine List.isChain_append.2 ⟨h.apart, List.isChain_singleton s, ?_⟩
    intro p hp t ht
    cases ht
    exact hapart p hp
  stop_le := by
    intro t ht
    rcases List.mem_append.1 ht with ht | ht
    · exact h.stop_le t ht
    · rw [List.mem_singleton.1 ht]
      exact hstop
  label_lt := hrecords.address_lt
  nodup := hrecords.nodup

theorem layOutSections_ok
    (hfits : Fits done)
    (hrecords : Records labels (placements done))
    (hok : layOutSections labels done.getLast? rest = .ok labels') :
    Fits (done ++ rest) ∧ Records labels' (placements (done ++ rest)) := by
  induction rest generalizing labels done with
  | nil =>
      cases hok
      rw [List.append_nil]
      exact ⟨hfits, hrecords⟩
  | cons s rest ih =>
      unfold layOutSections at hok
      split at hok
      · cases hok
      · next hnone =>
          split at hok
          · cases hok
          · next mid hmid =>
              have horigin : s.origin.toNat ≤ 65536 := Nat.le_of_lt s.origin.toNat_lt
              obtain ⟨hmore, hstop⟩ := layOutStatements_ok hrecords horigin hmid
              rw [← placements_concat] at hmore
              have hnext :=
                hfits.concat (overlapped?_eq_none_iff.1 hnone) hstop hmore
              rw [← List.getLast?_concat (l := done)] at hok
              have hall := ih hnext hmore hok
              rwa [List.append_assoc, List.singleton_append] at hall

theorem layOutSections_error
    (hfits : Fits done)
    (hrecords : Records labels (placements done))
    (herror : layOutSections labels done.getLast? rest = .error e) :
    Refusal [] (placements (done ++ rest)) e ∨ Overlap (done ++ rest) e := by
  induction rest generalizing labels done with
  | nil => cases herror
  | cons s rest ih =>
      unfold layOutSections at herror
      split at herror
      · next p hover =>
          cases herror
          obtain ⟨hlast, hstop⟩ := Option.filter_eq_some_iff.1 hover
          obtain ⟨before, rfl⟩ := List.getLast?_eq_some_iff.1 hlast
          refine Or.inr ⟨before, rest, p, s, ?_, of_decide_eq_true hstop, rfl⟩
          rw [List.append_assoc, List.singleton_append]
      · next hnone =>
          have horigin : s.origin.toNat ≤ 65536 := Nat.le_of_lt s.origin.toNat_lt
          split at herror
          · next e' hstatements =>
              cases herror
              have hrefusal :
                  Refusal ([] ++ placements done)
                    (place s.origin.toNat s.statements ++ placements rest) e :=
                (layOutStatements_error hrecords horigin hstatements).append
              left
              rw [placements_append, placements_cons]
              exact hrefusal.of_append
          · next mid hmid =>
              obtain ⟨hmore, hstop⟩ := layOutStatements_ok hrecords horigin hmid
              rw [← placements_concat] at hmore
              have hnext :=
                hfits.concat (overlapped?_eq_none_iff.1 hnone) hstop hmore
              rw [← List.getLast?_concat (l := done)] at herror
              have hall := ih hnext hmore herror
              rwa [List.append_assoc, List.singleton_append] at hall

theorem layOut_ok
    {order : List Section}
    (hok : layOut order = .ok labels) :
    Fits order ∧ Records labels (placements order) := by
  have hall := layOutSections_ok fits_nil records_nil hok
  rwa [List.nil_append] at hall

theorem layOut_error
    {order : List Section}
    (herror : layOut order = .error e) :
    Refusal [] (placements order) e ∨ Overlap order e := by
  have hall := layOutSections_error fits_nil records_nil herror
  rwa [List.nil_append] at hall

/-- What a refusal names is at fault on its own, whatever the order of the sections is. -/
theorem Refusal.impossible
    {sections : List Section}
    (h : Refusal [] (placements sections) e)
    (hstop_le : ∀ s ∈ sections, s.stop ≤ 65536)
    (hlabel_lt : ∀ p ∈ placements sections, ∀ name,
      p.statement.item = .label name → p.address ≤ 65535)
    (hnodup : (definedNames (placements sections)).Nodup) :
    False := by
  cases h with
  | duplicate before after d hnew hlabel hearlier =>
      rw [hnew, List.append_cons, definedNames, List.filterMap_append, ← definedNames,
        definedNames_concat, Placement.defined?_eq_some_iff.2 hlabel, List.nodup_append] at hnodup
      rw [List.nil_append] at hearlier
      obtain ⟨hbefore, _, _⟩ := hnodup
      exact (List.nodup_append.1 hbefore).2.2 _ hearlier _ List.mem_cons_self rfl
  | labelBeyond hp hlabel haddress =>
      have := hlabel_lt _ hp _ hlabel
      omega
  | stopBeyond hp hstop =>
      obtain ⟨s, hs, hps⟩ := mem_placements_iff.1 hp
      have hinside : _ ≤ s.stop := (bounds_of_mem_place hps).2
      have := hstop_le s hs
      omega

theorem Refusal.not_fits
    {order : List Section}
    (h : Refusal [] (placements order) e) :
    ¬ Fits order :=
  fun hfits => h.impossible hfits.stop_le hfits.label_lt hfits.nodup

theorem Overlap.not_fits
    {order : List Section}
    (h : Overlap order e) :
    ¬ Fits order := by
  intro hfits
  obtain ⟨before, after, p, s, rfl, hstop, _⟩ := h
  have hapart := (List.isChain_append_cons_cons.1 hfits.apart).2.1
  omega

/-- **Acceptance of a layout.**  A program is laid out if and only if it fits. -/
theorem layOut_isOk_iff
    {order : List Section} :
    (∃ labels, layOut order = .ok labels) ↔ Fits order := by
  constructor
  · rintro ⟨labels, hok⟩
    exact (layOut_ok hok).1
  · intro hfits
    cases h : layOut order with
    | ok labels => exact ⟨labels, rfl⟩
    | error e =>
        rcases layOut_error h with hrefusal | hoverlap
        · exact absurd hfits hrefusal.not_fits
        · exact absurd hfits hoverlap.not_fits

end Sections

end Assembly
end Microcomputer
