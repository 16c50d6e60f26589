import Microcomputer.Assembly.Image
import Microcomputer.Proofs.Assembly.Layout

/-!
# The bytes of a program

The image of a program against the addresses of its statements.

**Invariant.**  `Written` says of an image that it holds the bytes of the placed
statements at their addresses, and zeros elsewhere.  Filling up to an origin
(`Written.fillTo`) and one more statement at the end (`Written.statement`) keep it.

**Result.**  `ofSections_holds`: the image of a list of sections holds their
statements, each at its own place, and nothing else.
-/

namespace Microcomputer
namespace Assembly

open Source (Item Location Operand Section Statement totalSize totalSize_cons)

/-- The image holds the bytes of the placed statements, and zeros between them. -/
structure Written (labels : Labels) (image : Image) (placed : List Placement) : Prop where
  bytes : ∀ p ∈ placed, ∃ bytes : List UInt8,
    bytesOf labels p.statement = .ok bytes ∧
    ∀ k value, bytes[k]? = some value → image[p.address + k]? = some value
  stop_le : ∀ p ∈ placed, p.stop ≤ image.size
  gap : ∀ x, x < image.size → (∀ p ∈ placed, ¬ (p.address ≤ x ∧ x < p.stop)) →
    image[x]? = some 0

section OneStatement

variable {labels : Labels} {image : Image} {placed : List Placement}

theorem length_of_bytesOf
    {s : Statement}
    {bytes : List UInt8}
    (h : bytesOf labels s = .ok bytes) :
    bytes.length = s.item.size := by
  unfold bytesOf at h
  split at h
  · next name hitem =>
      cases h
      rw [hitem]
      rfl
  · next value hitem =>
      cases h
      rw [hitem]
      rfl
  · next i operand hitem =>
      split at h
      · cases h
      · cases h
        rw [hitem]
        rfl

theorem bytesOf_error
    {s : Statement}
    {e : AssemblyError}
    (h : bytesOf labels s = .error e) :
    ∃ (i : Instruction) (name : String),
      s.item = .instruction i (.label name) ∧
      name ∉ labels ∧
      e = .unresolvedLabel s.location name := by
  unfold bytesOf at h
  split at h
  · cases h
  · cases h
  · next i operand hitem =>
      split at h
      · next e' hresolve =>
          cases h
          unfold resolve at hresolve
          split at hresolve
          · cases hresolve
          · next name =>
              split at hresolve
              · cases hresolve
              · next hnone =>
                  cases hresolve
                  refine ⟨i, name, hitem, ?_, rfl⟩
                  rw [Std.HashMap.mem_iff_isSome_getElem?, hnone]
                  exact Bool.false_ne_true
      · cases h

theorem getElem?_appendList
    (image : Image)
    (bytes : List UInt8)
    (x : Nat) :
    (image.appendList bytes)[x]? = (image.toList ++ bytes)[x]? := by
  rw [Array.appendList_eq_append, ← Array.getElem?_toList, Array.toList_appendList]

theorem size_appendList
    (image : Image)
    (bytes : List UInt8) :
    (image.appendList bytes).size = image.size + bytes.length := by
  rw [Array.appendList_eq_append, ← Array.length_toList, Array.toList_appendList,
    List.length_append, Array.length_toList]

theorem getElem?_appendList_of_some
    {bytes : List UInt8}
    {x : Nat}
    {value : UInt8}
    (h : image[x]? = some value) :
    (image.appendList bytes)[x]? = some value := by
  obtain ⟨hx, _⟩ := Array.getElem?_eq_some_iff.1 h
  rw [getElem?_appendList, List.getElem?_append_left (by simpa using hx)]
  simpa using h

theorem Written.statement
    {s : Statement}
    {bytes : List UInt8}
    (h : Written labels image placed)
    (hbytes : bytesOf labels s = .ok bytes) :
    Written labels (image.appendList bytes) (placed ++ [⟨image.size, s⟩]) := by
  have hsize : (image.appendList bytes).size = image.size + s.item.size := by
    rw [size_appendList, length_of_bytesOf hbytes]
  refine ⟨?_, ?_, ?_⟩
  · intro p hp
    rcases List.mem_append.1 hp with hp | hp
    · obtain ⟨old, hold, hat⟩ := h.bytes p hp
      exact ⟨old, hold, fun k value hk => getElem?_appendList_of_some (hat k value hk)⟩
    · obtain rfl := List.mem_singleton.1 hp
      refine ⟨bytes, hbytes, ?_⟩
      intro k value hk
      rw [getElem?_appendList, List.getElem?_append_right (by simp)]
      simpa using hk
  · intro p hp
    rw [hsize]
    rcases List.mem_append.1 hp with hp | hp
    · have := h.stop_le p hp
      omega
    · obtain rfl := List.mem_singleton.1 hp
      exact Nat.le_refl _
  · intro x hx hfree
    by_cases hold : x < image.size
    · apply getElem?_appendList_of_some
      exact h.gap x hold fun p hp => hfree p (List.mem_append_left _ hp)
    · have hnew := hfree ⟨image.size, s⟩ (List.mem_append_right _ List.mem_cons_self)
      simp only [Placement.stop] at hnew
      omega

theorem size_fillTo
    {address : Nat}
    (h : image.size ≤ address) :
    (fillTo image address).size = address := by
  simp [fillTo]
  omega

theorem Written.fillTo
    (h : Written labels image placed)
    (address : Nat) :
    Written labels (fillTo image address) placed := by
  have hkeep : ∀ (x : Nat) (value : UInt8), image[x]? = some value →
      (Assembly.fillTo image address)[x]? = some value := by
    intro x value hx
    obtain ⟨hlt, _⟩ := Array.getElem?_eq_some_iff.1 hx
    rw [Assembly.fillTo, Array.getElem?_append_left hlt]
    exact hx
  refine ⟨?_, ?_, ?_⟩
  · intro p hp
    obtain ⟨bytes, hbytes, hat⟩ := h.bytes p hp
    exact ⟨bytes, hbytes, fun k value hk => hkeep _ value (hat k value hk)⟩
  · intro p hp
    have := h.stop_le p hp
    simp only [Assembly.fillTo, Array.size_append]
    omega
  · intro x hx hfree
    by_cases hold : x < image.size
    · exact hkeep x 0 (h.gap x hold hfree)
    · simp only [Assembly.fillTo, Array.size_append, Array.size_replicate] at hx ⊢
      rw [Array.getElem?_append_right (Nat.le_of_not_lt hold), Array.getElem?_replicate]
      rw [if_pos (by omega)]

end OneStatement

section Writing

variable {labels : Labels} {placed : List Placement}

theorem written_nil : Written labels #[] [] where
  bytes := by
    intro p hp
    cases hp
  stop_le := by
    intro p hp
    cases hp
  gap := by
    intro x hx
    simp at hx

theorem size_of_writeStatements
    {image written : Image}
    {statements : List Statement}
    (hok : writeStatements labels image statements = .ok written) :
    written.size = image.size + totalSize statements := by
  induction statements generalizing image with
  | nil =>
      cases hok
      rfl
  | cons s rest ih =>
      unfold writeStatements at hok
      split at hok
      · cases hok
      · next bytes hbytes =>
          rw [ih hok, size_appendList, length_of_bytesOf hbytes, totalSize_cons, Nat.add_assoc]

theorem written_of_writeStatements
    {image written : Image}
    {statements : List Statement}
    (h : Written labels image placed)
    (hok : writeStatements labels image statements = .ok written) :
    Written labels written (placed ++ place image.size statements) := by
  induction statements generalizing image placed with
  | nil =>
      cases hok
      simpa [place] using h
  | cons s rest ih =>
      unfold writeStatements at hok
      split at hok
      · cases hok
      · next bytes hbytes =>
          have hsize : (image.appendList bytes).size = image.size + s.item.size := by
            rw [size_appendList, length_of_bytesOf hbytes]
          have hrest := ih (h.statement hbytes) hok
          rwa [hsize, List.append_assoc, List.singleton_append] at hrest

/-- The address where the writing stands after the sections `done`. -/
def stopOf (done : List Section) : Nat :=
  (done.getLast?.map Section.stop).getD 0

theorem writeSections_ok
    (done : List Section)
    {image written : Image}
    {rest : List Section}
    (hfits : Fits (done ++ rest))
    (h : Written labels image (placements done))
    (hsize : image.size = stopOf done)
    (hok : writeSections labels image rest = .ok written) :
    Written labels written (placements (done ++ rest)) ∧
      written.size = stopOf (done ++ rest) := by
  induction rest generalizing image done with
  | nil =>
      cases hok
      rw [List.append_nil]
      exact ⟨h, hsize⟩
  | cons s rest ih =>
      unfold writeSections at hok
      split at hok
      · cases hok
      · next next hnext =>
          have hbelow : image.size ≤ s.origin.toNat := by
            rw [hsize, stopOf]
            cases hlast : done.getLast? with
            | none => simp
            | some p =>
                exact (List.isChain_append.1 hfits.apart).2.2 p hlast s rfl
          have hwritten := written_of_writeStatements (h.fillTo s.origin.toNat) hnext
          have hstop := size_of_writeStatements hnext
          rw [size_fillTo hbelow] at hwritten hstop
          rw [← placements_concat] at hwritten
          rw [← List.singleton_append, ← List.append_assoc] at hfits ⊢
          refine ih _ hfits hwritten ?_ hok
          rw [hstop, stopOf, List.getLast?_concat]
          rfl

theorem written_of_writeSections
    {image : Image}
    {order : List Section}
    (hfits : Fits order)
    (hok : writeSections labels #[] order = .ok image) :
    Written labels image (placements order) ∧ image.size = stopOf order :=
  writeSections_ok [] hfits written_nil rfl hok

theorem writeStatements_error
    {image : Image}
    {statements : List Statement}
    {e : AssemblyError}
    (herror : writeStatements labels image statements = .error e) :
    ∃ s ∈ statements, bytesOf labels s = .error e := by
  induction statements generalizing image with
  | nil => cases herror
  | cons s rest ih =>
      unfold writeStatements at herror
      split at herror
      · next e' hbytes =>
          cases herror
          exact ⟨s, List.mem_cons_self, hbytes⟩
      · obtain ⟨t, ht, hbytes⟩ := ih herror
        exact ⟨t, List.mem_cons_of_mem _ ht, hbytes⟩

theorem exists_placement_of_mem
    {address : Nat}
    {statements : List Statement}
    {s : Statement}
    (h : s ∈ statements) :
    ∃ p ∈ place address statements, p.statement = s := by
  obtain ⟨before, after, rfl⟩ := List.append_of_mem h
  exact ⟨⟨address + totalSize before, s⟩, mem_place_iff.2 ⟨before, after, rfl, rfl⟩, rfl⟩

theorem writeSections_error
    {image : Image}
    {sections : List Section}
    {e : AssemblyError}
    (herror : writeSections labels image sections = .error e) :
    ∃ p ∈ placements sections, bytesOf labels p.statement = .error e := by
  induction sections generalizing image with
  | nil => cases herror
  | cons s rest ih =>
      unfold writeSections at herror
      split at herror
      · next e' hstatements =>
          cases herror
          obtain ⟨t, ht, hbytes⟩ := writeStatements_error hstatements
          obtain ⟨p, hp, rfl⟩ := exists_placement_of_mem ht
          exact ⟨p, List.mem_append_left _ hp, hbytes⟩
      · obtain ⟨p, hp, hbytes⟩ := ih herror
        exact ⟨p, List.mem_append_right _ hp, hbytes⟩

end Writing

section Whole

/-- The definitions of a label in a program. -/
def definitions
    (sections : List Section)
    (name : String) :
    List Placement :=
  (placements sections).filter fun p => p.statement.item = .label name

/-- The address that an operand stands for: a label stands for the place of its only definition. -/
inductive Target (sections : List Section) : Operand → Nat → Prop
  | address (value : UInt16) : Target sections (.address value) value.toNat
  | label
      {name : String}
      {d : Placement}
      (honly : definitions sections name = [d]) :
      Target sections (.label name) d.address

/-- The image holds the program and nothing else. -/
structure Holds (image : Image) (sections : List Section) : Prop where
  /-- The image ends with the section that ends last. -/
  size : (sections.map Section.stop).max? = some image.size
  size_le : image.size ≤ 65536
  /-- No two statements share an address. -/
  disjoint : (placements sections).Pairwise fun p q => p.stop ≤ q.address ∨ q.stop ≤ p.address
  /-- Every statement lies inside the image. -/
  stop_le : ∀ p ∈ placements sections, p.stop ≤ image.size
  byte : ∀ p ∈ placements sections, ∀ value, p.statement.item = .byte value →
    image[p.address]? = some value
  instruction : ∀ p ∈ placements sections, ∀ i operand,
    p.statement.item = .instruction i operand →
    ∃ (target : Nat) (low high : UInt8),
      Target sections operand target ∧
      target = low.toNat + 256 * high.toNat ∧
      image[p.address]? = some i.opcode ∧
      image[p.address + 1]? = some low ∧
      image[p.address + 2]? = some high
  /-- What belongs to no statement is zero. -/
  gap : ∀ x, x < image.size →
    (∀ p ∈ placements sections, ¬ (p.address ≤ x ∧ x < p.stop)) → image[x]? = some 0

theorem filter_label_eq_singleton
    {placed : List Placement}
    {p : Placement}
    {name : String}
    (hnodup : (definedNames placed).Nodup)
    (hp : p ∈ placed)
    (hitem : p.statement.item = .label name) :
    placed.filter (fun q => q.statement.item = .label name) = [p] := by
  induction placed with
  | nil => cases hp
  | cons q rest ih =>
      have hnone : name ∉ definedNames rest →
          rest.filter (fun q => q.statement.item = .label name) = [] := by
        intro hfresh
        rw [List.filter_eq_nil_iff]
        intro r hr
        rw [decide_eq_true_eq]
        exact fun hlabel => hfresh (mem_definedNames_iff.2 ⟨r, hr, hlabel⟩)
      by_cases hq : q.statement.item = .label name
      · have hnames : definedNames (q :: rest) = name :: definedNames rest := by
          rw [definedNames, List.filterMap_cons, Placement.defined?_eq_some_iff.2 hq]
          rfl
        rw [hnames, List.nodup_cons] at hnodup
        rcases List.mem_cons.1 hp with rfl | hrest
        · rw [List.filter_cons_of_pos (by simpa using hq), hnone hnodup.1]
        · exact absurd (mem_definedNames_iff.2 ⟨p, hrest, hitem⟩) hnodup.1
      · have hsub : (definedNames rest).Nodup := by
          refine hnodup.sublist ?_
          exact List.Sublist.filterMap _ (List.sublist_cons_self q rest)
        rcases List.mem_cons.1 hp with rfl | hrest
        · exact absurd hitem hq
        · rw [List.filter_cons_of_neg (by simpa using hq)]
          exact ih hsub hrest

theorem placements_perm
    {sections order : List Section}
    (h : order.Perm sections) :
    (placements order).Perm (placements sections) :=
  h.flatMap_right _

theorem definitions_perm
    {sections order : List Section}
    {name : String}
    {d : Placement}
    (h : order.Perm sections)
    (honly : definitions order name = [d]) :
    definitions sections name = [d] := by
  have hperm := (placements_perm h).filter fun p => p.statement.item = .label name
  change (definitions order name).Perm (definitions sections name) at hperm
  rw [honly] at hperm
  exact List.perm_singleton.1 hperm.symm

theorem target_of_resolve
    {labels : Labels}
    {order : List Section}
    {location : Location}
    {operand : Operand}
    {value : UInt16}
    (hrecords : Records labels (placements order))
    (h : resolve labels location operand = .ok value) :
    Target order operand value.toNat := by
  unfold resolve at h
  split at h
  · cases h
    exact .address _
  · next name =>
      split at h
      · next found hfound =>
          cases h
          have hmem : name ∈ labels := by
            rw [Std.HashMap.mem_iff_isSome_getElem?, hfound]
            rfl
          obtain ⟨d, hd, hlabel⟩ := mem_definedNames_iff.1 (hrecords.defined name hmem)
          have haddress := hrecords.address_lt d hd name hlabel
          have hvalue := hrecords.lookup d hd name hlabel
          rw [hfound, Option.some.injEq] at hvalue
          have hnat : value.toNat = d.address := by
            rw [hvalue, UInt16.toNat_ofNat']
            omega
          rw [hnat]
          exact .label (filter_label_eq_singleton hrecords.nodup hd hlabel)
      · cases h

theorem stop_le_stopOf
    {order : List Section}
    (hfits : Fits order)
    {s : Section}
    (hs : s ∈ order) :
    s.stop ≤ stopOf order := by
  cases hlast : order.getLast? with
  | none =>
      rw [List.getLast?_eq_none_iff.1 hlast] at hs
      cases hs
  | some last =>
      obtain ⟨before, rfl⟩ := List.getLast?_eq_some_iff.1 hlast
      have hstop : stopOf (before ++ [last]) = last.stop := by
        rw [stopOf, hlast]
        rfl
      rw [hstop]
      rcases List.mem_append.1 hs with hs | hs
      · have hapart := (List.pairwise_append.1 hfits.pairwise).2.2
        exact (hapart s hs last List.mem_cons_self).trans (origin_le_stop last)
      · rw [List.mem_singleton.1 hs]

theorem exists_stop_eq
    {order : List Section}
    (hne : order ≠ []) :
    ∃ s ∈ order, s.stop = stopOf order := by
  obtain ⟨before, last, rfl⟩ := (List.eq_nil_or_concat order).resolve_left hne
  refine ⟨last, ?_, ?_⟩
  · simp
  · simp [stopOf]

theorem max_stop
    {sections order : List Section}
    (hperm : order.Perm sections)
    (hfits : Fits order)
    (hne : sections ≠ []) :
    (sections.map Section.stop).max? = some (stopOf order) := by
  have hne' : order ≠ [] := by
    rintro rfl
    exact hne (List.nil_perm.1 hperm)
  obtain ⟨last, hlast, hstop⟩ := exists_stop_eq hne'
  rw [List.max?_eq_some_iff, ← hstop]
  constructor
  · exact List.mem_map_of_mem (hperm.mem_iff.1 hlast)
  · intro n hn
    obtain ⟨s, hs, rfl⟩ := List.mem_map.1 hn
    rw [hstop]
    exact stop_le_stopOf hfits (hperm.mem_iff.2 hs)

theorem pairwise_disjoint
    {sections order : List Section}
    (hperm : order.Perm sections)
    (hfits : Fits order) :
    (placements sections).Pairwise fun p q => p.stop ≤ q.address ∨ q.stop ≤ p.address := by
  have happart :
      (placements order).Pairwise fun p q => p.stop ≤ q.address ∨ q.stop ≤ p.address :=
    (pairwise_placements hfits.pairwise).imp fun hpq => Or.inl hpq
  exact (placements_perm hperm).pairwise happart Or.symm

theorem Written.instruction
    {labels : Labels}
    {image : Image}
    {order : List Section}
    {p : Placement}
    {i : Instruction}
    {operand : Operand}
    (h : Written labels image (placements order))
    (hrecords : Records labels (placements order))
    (hp : p ∈ placements order)
    (hitem : p.statement.item = .instruction i operand) :
    ∃ (target : Nat) (low high : UInt8),
      Target order operand target ∧
      target = low.toNat + 256 * high.toNat ∧
      image[p.address]? = some i.opcode ∧
      image[p.address + 1]? = some low ∧
      image[p.address + 2]? = some high := by
  obtain ⟨bytes, hbytes, hat⟩ := h.bytes p hp
  simp only [bytesOf, hitem] at hbytes
  cases hresolve : resolve labels p.statement.location operand with
  | error e => simp [hresolve] at hbytes
  | ok value =>
      simp only [hresolve, Except.ok.injEq] at hbytes
      subst hbytes
      refine ⟨value.toNat, _, _, target_of_resolve hrecords hresolve, ?_,
        hat 0 _ rfl, hat 1 _ rfl, hat 2 _ rfl⟩
      have := value.toNat_lt
      simp only [UInt8.toNat_ofNat']
      omega

theorem Target.perm
    {sections order : List Section}
    {operand : Operand}
    {target : Nat}
    (hperm : order.Perm sections)
    (h : Target order operand target) :
    Target sections operand target := by
  cases h with
  | address value => exact .address value
  | label honly => exact .label (definitions_perm hperm honly)

theorem ofSections_holds
    {sections : List Section}
    {image : Image}
    (hne : sections ≠ [])
    (h : ofSections sections = .ok image) :
    Holds image sections := by
  have hperm := inOrder_perm sections
  have hplaced := placements_perm hperm
  unfold ofSections at h
  split at h
  · cases h
  · next labels hlabels =>
      obtain ⟨hfits, hrecords⟩ := layOut_ok hlabels
      obtain ⟨hwritten, hsize⟩ := written_of_writeSections hfits h
      have hmax := max_stop hperm hfits hne
      rw [← hsize] at hmax
      refine
        { size := hmax
          size_le := ?_
          disjoint := pairwise_disjoint hperm hfits
          stop_le := fun p hp => hwritten.stop_le p (hplaced.mem_iff.2 hp)
          byte := ?_
          instruction := ?_
          gap := ?_ }
      · obtain ⟨s, hs, hstop⟩ := List.mem_map.1 (List.max?_mem hmax)
        rw [← hstop]
        exact hfits.stop_le s (hperm.mem_iff.2 hs)
      · intro p hp value hitem
        obtain ⟨bytes, hbytes, hat⟩ := hwritten.bytes p (hplaced.mem_iff.2 hp)
        simp only [bytesOf, hitem, Except.ok.injEq] at hbytes
        subst hbytes
        exact hat 0 value rfl
      · intro p hp i operand hitem
        obtain ⟨target, low, high, htarget, hbytes⟩ :=
          hwritten.instruction hrecords (hplaced.mem_iff.2 hp) hitem
        exact ⟨target, low, high, htarget.perm hperm, hbytes⟩
      · intro x hx hfree
        exact hwritten.gap x hx fun p hp => hfree p (hplaced.mem_iff.1 hp)

theorem size_le_of_ofSections
    {sections : List Section}
    {image : Image}
    (h : ofSections sections = .ok image) :
    image.size ≤ 65536 := by
  cases sections with
  | nil =>
      have hnone : ofSections [] = .ok #[] := by
        simp [ofSections, inOrder, layOut, layOutSections, writeSections]
      rw [hnone] at h
      cases h
      exact Nat.zero_le _
  | cons first others => exact (ofSections_holds (List.cons_ne_nil first others) h).size_le

end Whole

section Sources

open Source (Token readSections)

theorem ne_nil_of_readSections
    {last : Location}
    {done : Array Section}
    {text : List Token}
    {found : List Section}
    (h : readSections last done text = .ok found)
    (hne : done.toList ≠ [] ∨ text ≠ []) :
    found ≠ [] := by
  fun_induction readSections last done text with
  | case1 done text hempty =>
      cases h
      exact hne.resolve_right fun htext => htext (List.isEmpty_iff.1 hempty)
  | case2 => cases h
  | case3 done text _ s rest _ ih =>
      exact ih h (Or.inl (by simp))

theorem assemble_eq_ofSections
    {source : String}
    {tokens : List Token}
    {sections : List Section}
    (htokens : Source.tokens source = .ok tokens)
    (hsections : Source.sections tokens = .ok sections)
    (hne : tokens ≠ []) :
    assemble source = ofSections sections := by
  obtain ⟨first, others, rfl⟩ := List.exists_cons_of_ne_nil hne
  simp only [assemble, htokens, hsections]

theorem size_le_of_assemble
    {source : String}
    {image : Image}
    (h : assemble source = .ok image) :
    image.size ≤ 65536 := by
  unfold assemble at h
  split at h
  · cases h
  · cases h
  · split at h
    · cases h
    · exact size_le_of_ofSections h

/-- Sections in descending order, with a gap between them; a label is used below its definition. -/
def backwards : String :=
  ".org 5\nstar: db 0x2A\n.org 0\nload [star]\n"

/-- The section of `backwards` that is laid out last. -/
def backwardsData : Section :=
  ⟨5, ⟨1, 1⟩, [⟨.label "star", ⟨2, 1⟩⟩, ⟨.byte 42, ⟨2, 7⟩⟩]⟩

/-- The section of `backwards` that is laid out first. -/
def backwardsCode : Section :=
  ⟨0, ⟨3, 1⟩, [⟨.instruction .load (.label "star"), ⟨4, 1⟩⟩]⟩

theorem backwards_sections :
    ∃ tokens : List Token, Source.tokens backwards = .ok tokens ∧ tokens ≠ [] ∧
      Source.sections tokens = .ok [backwardsData, backwardsCode] := by
  have hread : ((Source.tokens backwards).bind Source.sections).toOption =
      some [backwardsData, backwardsCode] := by
    decide +kernel
  cases htokens : Source.tokens backwards with
  | error e =>
      rw [htokens] at hread
      cases hread
  | ok tokens =>
      rw [htokens] at hread
      have hsections : Source.sections tokens = .ok [backwardsData, backwardsCode] := by
        cases hfound : Source.sections tokens <;> simp_all [Except.bind, Except.toOption]
      refine ⟨tokens, rfl, ?_, hsections⟩
      rintro rfl
      simp [Source.sections, Source.readSections] at hsections

theorem ofSections_backwards :
    ofSections [backwardsData, backwardsCode] = .ok #[1, 5, 0, 0, 0, 42] := by
  have horder : inOrder [backwardsData, backwardsCode] = [backwardsCode, backwardsData] := by
    simp [inOrder, List.mergeSort, List.MergeSort.Internal.splitInTwo, backwardsCode,
      backwardsData]
  have hlabels : layOut [backwardsCode, backwardsData] = .ok (({} : Labels).insert "star" 5) := by
    have hcode : layOutStatements {} 0 backwardsCode.statements = .ok {} := rfl
    have hdata : layOutStatements {} 5 backwardsData.statements =
        .ok (({} : Labels).insert "star" 5) := by
      simp [layOutStatements, record, define, backwardsData, addressSpace, Item.size]
    have hapart : overlapped? (some backwardsCode) backwardsData = none := by decide
    have hfirst : overlapped? none backwardsCode = none := rfl
    have horigins : backwardsCode.origin.toNat = 0 ∧ backwardsData.origin.toNat = 5 :=
      ⟨rfl, rfl⟩
    simp only [layOut, layOutSections, hfirst, hapart, horigins, hcode, hdata]
  rw [ofSections, horder, hlabels]
  simp [writeSections, writeStatements, bytesOf, resolve, addressBytes, fillTo, backwardsCode,
    backwardsData, Instruction.opcode]

end Sources

end Assembly
end Microcomputer
