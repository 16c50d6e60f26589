import Microcomputer.Proofs.Assembly.Linking
import Microcomputer.Proofs.Listing.Sweep

/-!
# What a sweep recovers of a program

The sweep of an image that was assembled, against the program.

**Program.**  `Shown sections size x piece` says what the program has at an address: an instruction
with its target, a data byte, or a zero byte where no section lies.

**Boundaries.**  `Boundary sections x`: no statement begins before the address and ends behind it.
The sweep stays on boundaries (`Boundary.next`) and finds there what the program has
(`at?_of_shown`), provided that no data byte looks like an opcode.

**Result.**  `sweep_recovers_program`.
-/

namespace Microcomputer
namespace Assembly

open Source (Operand ReadsAs Section)

/-- What a program has at an address of its image. -/
inductive Shown
    (sections : List Section)
    (size : Nat) :
    Nat → Piece → Prop
  | instruction
      {p : Placement}
      {i : Instruction}
      {operand : Operand}
      {target : UInt16}
      (hp : p ∈ placements sections)
      (hitem : p.statement.item = .instruction i operand)
      (htarget : Target sections operand target.toNat) :
      Shown sections size p.address (.instruction i target)
  | byte
      {p : Placement}
      {value : UInt8}
      (hp : p ∈ placements sections)
      (hitem : p.statement.item = .byte value) :
      Shown sections size p.address (.byte value)
  | gap
      {x : Nat}
      (hx : x < size)
      (hfree : ¬ Occupied sections x) :
      Shown sections size x (.byte 0)

/-- No data byte is an opcode. -/
def NoCodeInData (sections : List Section) : Prop :=
  ∀ s ∈ sections, ∀ t ∈ s.statements, ∀ value, t.item = .byte value → value ∉ [1, 2, 3, 4]

variable {sections : List Section} {image : Image} {x : Nat} {piece : Piece}

section Pieces

theorem at?_of_code
    {i : Instruction}
    {low high : UInt8}
    (hopcode : image[x]? = some i.opcode)
    (hlow : image[x + 1]? = some low)
    (hhigh : image[x + 2]? = some high) :
    Piece.at? image x = some (.instruction i (Piece.addressOf low high)) := by
  simp [Piece.at?, hopcode, hlow, hhigh]

theorem at?_of_data
    {value : UInt8}
    (hvalue : image[x]? = some value)
    (hdata : Instruction.ofOpcode? value = none) :
    Piece.at? image x = some (.byte value) := by
  simp [Piece.at?, hvalue, hdata]

theorem ofOpcode?_eq_none
    {value : UInt8}
    (h : value ∉ [1, 2, 3, 4]) :
    Instruction.ofOpcode? value = none := by
  unfold Instruction.ofOpcode?
  split <;> simp_all

theorem NoCodeInData.ofOpcode?
    (h : NoCodeInData sections)
    {p : Placement}
    (hp : p ∈ placements sections)
    {value : UInt8}
    (hitem : p.statement.item = .byte value) :
    Instruction.ofOpcode? value = none := by
  obtain ⟨s, hs, hps⟩ := mem_placements_iff.1 hp
  obtain ⟨before, after, hstatements, -⟩ := mem_place_iff.1 hps
  have hmem : p.statement ∈ s.statements := by simp [hstatements]
  exact ofOpcode?_eq_none (h s hs p.statement hmem value hitem)

theorem at?_of_shown
    (h : Holds image sections)
    (hdata : NoCodeInData sections)
    (hshown : Shown sections image.size x piece) :
    Piece.at? image x = some piece := by
  cases hshown with
  | instruction hp hitem htarget =>
      obtain ⟨target, low, high, htarget', hbytes, hopcode, hlow, hhigh⟩ :=
        h.instruction _ hp _ _ hitem
      have hsame := htarget.unique htarget'
      rw [hbytes, ← Piece.toNat_addressOf] at hsame
      rw [at?_of_code hopcode hlow hhigh, UInt16.toNat_inj.1 hsame]
  | byte hp hitem =>
      exact at?_of_data (h.byte _ hp _ hitem) (hdata.ofOpcode? hp hitem)
  | gap hx hfree =>
      exact at?_of_data (h.zero_of_not_occupied hx hfree) rfl

end Pieces

section Boundaries

/-- No statement begins before the address and ends behind it. -/
def Boundary
    (sections : List Section)
    (x : Nat) :
    Prop :=
  ∀ p ∈ placements sections, ¬ (p.address < x ∧ x < p.stop)

theorem boundary_zero (sections : List Section) : Boundary sections 0 :=
  fun _ _ hinside => absurd hinside.1 (Nat.not_lt_zero _)

/-- Statements that lie over each other are one. -/
theorem Holds.eq_of_overlap
    (h : Holds image sections)
    {p q : Placement}
    (hp : p ∈ placements sections)
    (hq : q ∈ placements sections)
    (hpq : p.address < q.stop)
    (hqp : q.address < p.stop) :
    p = q := by
  have : Std.Symm fun p q : Placement => p.stop ≤ q.address ∨ q.stop ≤ p.address :=
    ⟨fun _ _ => Or.symm⟩
  by_contra hne
  have hapart := h.disjoint.forall hp hq hne
  omega

/-- A piece fills the room of a statement, or is one byte outside all sections. -/
theorem Shown.room
    (h : Shown sections image.size x piece) :
    (∃ p ∈ placements sections, p.address = x ∧ p.stop = x + piece.size) ∨
      (piece.size = 1 ∧ ¬ Occupied sections x) := by
  cases h with
  | @instruction p i operand target hp hitem =>
      exact Or.inl ⟨p, hp, rfl, by rw [Placement.stop, hitem]; rfl⟩
  | @byte p value hp hitem =>
      exact Or.inl ⟨p, hp, rfl, by rw [Placement.stop, hitem]; rfl⟩
  | gap hx hfree => exact Or.inr ⟨rfl, hfree⟩

/-- On a boundary inside the image the program has something. -/
theorem Boundary.exists_shown
    (hb : Boundary sections x)
    (h : Holds image sections)
    (hx : x < image.size) :
    ∃ piece, Shown sections image.size x piece := by
  by_cases hoccupied : Occupied sections x
  · obtain ⟨p, hp, hstart, hstop⟩ := occupied_iff_placement.1 hoccupied
    have hnot := hb p hp
    obtain rfl : p.address = x := by omega
    cases hitem : p.statement.item with
    | label name =>
        rw [Placement.stop, hitem] at hstop
        exact absurd hstop (Nat.lt_irrefl _)
    | byte value => exact ⟨_, .byte hp hitem⟩
    | instruction i operand =>
        obtain ⟨target, low, high, htarget, hbytes, -⟩ := h.instruction p hp i operand hitem
        rw [hbytes, ← Piece.toNat_addressOf] at htarget
        exact ⟨_, .instruction hp hitem htarget⟩
  · exact ⟨_, .gap hx hoccupied⟩

/-- **Alignment.**  Behind a piece of the program lies a boundary again. -/
theorem Boundary.next
    (hb : Boundary sections x)
    (h : Holds image sections)
    (hshown : Shown sections image.size x piece) :
    Boundary sections (x + piece.size) := by
  rintro q hq ⟨hstart, hstop⟩
  have hpos := piece.size_pos
  rcases hshown.room with ⟨p, hp, rfl, hroom⟩ | ⟨hone, hfree⟩
  · obtain rfl := h.eq_of_overlap hp hq (by omega) (by omega)
    omega
  · exact hfree (occupied_iff_placement.2 ⟨q, hq, by omega, by omega⟩)

theorem Shown.le_of_lt
    (hshown : Shown sections image.size x piece)
    (h : Holds image sections)
    {y : Nat}
    {other : Piece}
    (hother : Shown sections image.size y other)
    (hlt : x < y) :
    x + piece.size ≤ y := by
  have hpos := other.size_pos
  rcases hshown.room with ⟨p, hp, rfl, hroom⟩ | ⟨hone, -⟩
  · by_contra hinside
    rcases hother.room with ⟨q, hq, rfl, hroom'⟩ | ⟨-, hfree⟩
    · obtain rfl := h.eq_of_overlap hp hq (by omega) (by omega)
      omega
    · exact hfree (occupied_iff_placement.2 ⟨p, hp, by omega, by omega⟩)
  · omega

end Boundaries

section Sweep

open Listing (describedFrom piecesFrom sweep)

theorem mem_piecesFrom_iff
    (h : Holds image sections)
    (hdata : NoCodeInData sections)
    (hb : Boundary sections x)
    (y : Nat)
    (other : Piece) :
    (y, other) ∈ piecesFrom image x ↔ x ≤ y ∧ Shown sections image.size y other := by
  fun_induction piecesFrom image x with
  | case1 x hend =>
      refine ⟨fun hmem => (List.not_mem_nil hmem).elim, ?_⟩
      rintro ⟨hle, hother⟩
      have hinside := Piece.lt_size_of_at? (at?_of_shown h hdata hother)
      have hbeyond := Piece.at?_eq_none_iff.1 hend
      omega
  | case2 x piece hfound ih =>
      obtain ⟨shown, hshown⟩ := hb.exists_shown h (Piece.lt_size_of_at? hfound)
      obtain rfl : shown = piece := by
        simpa [hfound] using (at?_of_shown h hdata hshown).symm
      rw [List.mem_cons, ih (hb.next h hshown), Prod.mk.injEq]
      constructor
      · rintro (⟨rfl, rfl⟩ | ⟨hle, hother⟩)
        · exact ⟨Nat.le_refl _, hshown⟩
        · exact ⟨by omega, hother⟩
      · rintro ⟨hle, hother⟩
        rcases Nat.eq_or_lt_of_le hle with rfl | hlt
        · have hsame := at?_of_shown h hdata hother
          rw [hfound] at hsame
          exact Or.inl ⟨rfl, (Option.some.inj hsame).symm⟩
        · exact Or.inr ⟨hshown.le_of_lt h hother hlt, hother⟩

/-- **Recovery.** If no data byte is an opcode, the sweep consists of the instructions of the
program, its data bytes and the zeros of its gaps. -/
theorem sweep_recovers_program
    {source : String}
    (hreads : ReadsAs source sections)
    (himage : assemble source = .ok image)
    (hdata : NoCodeInData sections) :
    (∀ (x : Nat) (piece : Piece),
      (x, piece) ∈ sweep image ↔ Shown sections image.size x piece) ∧
    ((sweep image).Pairwise fun first second => first.1 + first.2.size ≤ second.1) ∧
    describedFrom image 0 =
      (sweep image).map fun entry => (entry.1, entry.2.text, entry.2.size) := by
  obtain ⟨hne, hsections⟩ := ofSections_of_assemble hreads himage
  have hholds := ofSections_holds hne hsections
  rw [Listing.sweep_eq_piecesFrom]
  refine ⟨?_, Listing.pairwise_piecesFrom image 0, Listing.describedFrom_eq image 0⟩
  intro x piece
  rw [mem_piecesFrom_iff hholds hdata (boundary_zero sections)]
  simp

/-- The sections of `backwards`, with the gap between them. -/
theorem sweep_recovers_backwards :
    ReadsAs backwards [backwardsData, backwardsCode] ∧
    assemble backwards = .ok #[1, 5, 0, 0, 0, 42] ∧
    NoCodeInData [backwardsData, backwardsCode] ∧
    (∀ (x : Nat) (piece : Piece),
      (x, piece) ∈ sweep #[1, 5, 0, 0, 0, 42] ↔
        Shown [backwardsData, backwardsCode] 6 x piece) ∧
    describedFrom #[1, 5, 0, 0, 0, 42] 0 =
      [(0, "load [0x0005]", 3), (3, "db 0x00", 1), (4, "db 0x00", 1), (5, "db 0x2a", 1)] := by
  obtain ⟨tokens, htokens, -, hsections⟩ := backwards_sections
  have hreads : ReadsAs backwards [backwardsData, backwardsCode] := ⟨tokens, htokens, hsections⟩
  have himage := assemble_of_ofSections hreads (by simp) ofSections_backwards
  have hdata : NoCodeInData [backwardsData, backwardsCode] := by
    simp [NoCodeInData, backwardsData, backwardsCode]
  obtain ⟨hpieces, -, hdescribed⟩ := sweep_recovers_program hreads himage hdata
  refine ⟨hreads, himage, hdata, hpieces, ?_⟩
  rw [hdescribed]
  decide +kernel

end Sweep

end Assembly
end Microcomputer
