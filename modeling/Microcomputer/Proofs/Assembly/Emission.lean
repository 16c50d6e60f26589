import Microcomputer.Proofs.Assembly.Image

/-!
# The second pass in place

**Pass.**  `emitted` makes an image of zeros up to the last end of a section and stores every byte
at its address, counted anew from the origins.  A store outside the image stops it.

**Invariant.**  The image in place is the one that `writeSections` has written so far, filled with
zeros (`store_fillTo`, `emitStatements_fillTo`, `emitSections_fillTo`).

**Results.**  `emitted_eq`: no store is outside the image, and the bytes are those of `ofSections`.
With it, `assemble_holds`.
-/

namespace Microcomputer
namespace Assembly

open Source (Section Statement Token totalSize totalSize_cons)

section Pass

/-- What stops the second pass. -/
inductive Halt
  | outside (address : Nat)
  | refused (error : AssemblyError)

/-- Store a byte of an image in place. -/
def store
    (image : Image)
    (address : Nat)
    (value : UInt8) :
    Except Halt Image :=
  if h : address < image.size then
    .ok (image.set address value)
  else
    .error (.outside address)

/-- Store what a statement at an address stands for. -/
def emit
    (labels : Labels)
    (image : Image)
    (address : Nat)
    (statement : Statement) :
    Except Halt Image :=
  match statement.item with
  | .label _ => .ok image
  | .byte value => store image address value
  | .instruction i operand => do
      let target ← (resolve labels statement.location operand).mapError Halt.refused
      let image ← store image address i.opcode
      let image ← store image (address + 1) (UInt8.ofNat (target.toNat % 256))
      store image (address + 2) (UInt8.ofNat (target.toNat / 256))

/-- Store statements that follow each other from an address on. -/
def emitStatements
    (labels : Labels)
    (image : Image)
    (address : Nat) :
    List Statement → Except Halt Image
  | [] => .ok image
  | statement :: rest => do
      let image ← emit labels image address statement
      emitStatements labels image (address + statement.item.size) rest

/-- Store sections, each from its origin on. -/
def emitSections
    (labels : Labels)
    (image : Image) :
    List Section → Except Halt Image
  | [] => .ok image
  | s :: rest => do
      let image ← emitStatements labels image s.origin.toNat s.statements
      emitSections labels image rest

/-- The largest end of a section. -/
def lastStop (sections : List Section) : Nat :=
  sections.foldl (fun stop s => max stop s.stop) 0

/-- The image of a list of sections, stored in place. -/
def emitted (sections : List Section) : Except Halt Image :=
  match layOut (inOrder sections) with
  | .error e => .error (.refused e)
  | .ok labels =>
      emitSections labels (Array.replicate (lastStop (inOrder sections)) 0) (inOrder sections)

end Pass

section Agreement

variable {labels : Labels} {image : Image} {stop : Nat}

theorem fillTo_eq_self
    (h : stop ≤ image.size) :
    fillTo image stop = image := by
  simp [fillTo, Nat.sub_eq_zero_of_le h]

theorem fillTo_fillTo
    {address : Nat}
    (h : address ≤ stop) :
    fillTo (fillTo image address) stop = fillTo image stop := by
  simp only [fillTo, Array.append_assoc, Array.replicate_append_replicate, Array.size_append,
    Array.size_replicate]
  congr 2
  omega

/-- To store the next byte in place is to append it. -/
theorem store_fillTo
    {address : Nat}
    (value : UInt8)
    (haddress : address = image.size)
    (h : address < stop) :
    store (fillTo image stop) address value = .ok (fillTo (image.push value) stop) := by
  subst haddress
  have hroom : image.size < (fillTo image stop).size := by
    rw [size_fillTo h.le]
    exact h
  have hrest : stop - image.size = stop - (image.push value).size + 1 := by
    rw [Array.size_push]
    omega
  have hset : (fillTo image stop).set image.size value = fillTo (image.push value) stop := by
    apply Array.toList_inj.1
    simp [fillTo, hrest, List.replicate_succ]
  rw [store, dif_pos hroom, hset]

/-- To store a statement behind what is written is to append its bytes. -/
theorem emit_fillTo
    {s : Statement}
    (h : image.size + s.item.size ≤ stop) :
    emit labels (fillTo image stop) image.size s =
      ((bytesOf labels s).mapError Halt.refused).map
        fun bytes => fillTo (image.appendList bytes) stop := by
  unfold emit bytesOf
  cases hitem : s.item with
  | label name => rfl
  | byte value =>
      rw [hitem] at h
      exact store_fillTo value rfl h
  | instruction i operand =>
      rw [hitem] at h
      change image.size + 3 ≤ stop at h
      dsimp only
      cases resolve labels s.location operand with
      | error e => rfl
      | ok target =>
          have hopcode := store_fillTo i.opcode rfl (show image.size < stop by omega)
          have hlow (low : UInt8) :
              store (fillTo (image.push i.opcode) stop) (image.size + 1) low =
                .ok (fillTo ((image.push i.opcode).push low) stop) :=
            store_fillTo low (by simp) (by omega)
          have hhigh (low high : UInt8) :
              store (fillTo ((image.push i.opcode).push low) stop) (image.size + 2) high =
                .ok (fillTo (((image.push i.opcode).push low).push high) stop) :=
            store_fillTo high (by simp) (by omega)
          simp only [Except.mapError, bind, Except.bind, hopcode, hlow, hhigh]
          rfl

theorem emitStatements_fillTo
    {statements : List Statement}
    (h : image.size + totalSize statements ≤ stop) :
    emitStatements labels (fillTo image stop) image.size statements =
      ((writeStatements labels image statements).mapError Halt.refused).map
        fun written => fillTo written stop := by
  induction statements generalizing image with
  | nil => rfl
  | cons s rest ih =>
      rw [totalSize_cons] at h
      unfold emitStatements writeStatements
      rw [emit_fillTo (by omega)]
      cases hbytes : bytesOf labels s with
      | error e => rfl
      | ok bytes =>
          have hsize : (image.appendList bytes).size = image.size + s.item.size := by
            rw [size_appendList, length_of_bytesOf hbytes]
          rw [← hsize]
          exact ih (by omega)

theorem emitSections_fillTo
    {order : List Section}
    (hapart : order.IsChain fun s t => s.stop ≤ t.origin.toNat)
    (hbehind : ∀ s ∈ order.head?, image.size ≤ s.origin.toNat)
    (hstop : ∀ s ∈ order, s.stop ≤ stop) :
    emitSections labels (fillTo image stop) order =
      ((writeSections labels image order).mapError Halt.refused).map
        fun written => fillTo written stop := by
  induction order generalizing image with
  | nil => rfl
  | cons s rest ih =>
      have hle := hstop s List.mem_cons_self
      have horigin : (fillTo image s.origin.toNat).size = s.origin.toNat :=
        size_fillTo (hbehind s rfl)
      have hfits : (fillTo image s.origin.toNat).size + totalSize s.statements ≤ stop := by
        rw [horigin]
        exact hle
      unfold emitSections writeSections
      rw [← fillTo_fillTo ((origin_le_stop s).trans hle)]
      nth_rewrite 2 [← horigin]
      rw [emitStatements_fillTo hfits]
      cases hwrite : writeStatements labels (fillTo image s.origin.toNat) s.statements with
      | error e => rfl
      | ok written =>
          have hsize : written.size = s.stop := by
            rw [size_of_writeStatements hwrite, horigin]
            rfl
          have hnext := List.isChain_cons.1 hapart
          refine ih hnext.2 ?_ fun t ht => hstop t (List.mem_cons_of_mem _ ht)
          intro t ht
          rw [hsize]
          exact hnext.1 t ht

theorem lastStop_eq_stopOf
    {order : List Section}
    (hfits : Fits order) :
    lastStop order = stopOf order := by
  by_cases hne : order = []
  · rw [hne]
    rfl
  · have hfold : lastStop order = (order.map Section.stop).foldl max 0 := by
      rw [List.foldl_map]
      rfl
    rw [hfold, List.foldl_max, max_stop (.refl order) hfits hne]
    exact Nat.zero_max _

/-- **The second pass in place.** It stores nothing outside the image, and makes that of
`ofSections`. -/
theorem emitted_eq (sections : List Section) :
    emitted sections = (ofSections sections).mapError Halt.refused := by
  unfold emitted ofSections
  cases hlabels : layOut (inOrder sections) with
  | error e => rfl
  | ok labels =>
      have hfits := (layOut_ok hlabels).1
      have hzeros : Array.replicate (lastStop (inOrder sections)) 0 =
          fillTo #[] (stopOf (inOrder sections)) := by
        rw [lastStop_eq_stopOf hfits]
        simp [fillTo]
      dsimp only
      rw [hzeros, emitSections_fillTo hfits.apart (fun s _ => Nat.zero_le _)
        fun s hs => stop_le_stopOf hfits hs]
      cases hwrite : writeSections labels #[] (inOrder sections) with
      | error e => rfl
      | ok image =>
          have hsize := (written_of_writeSections hfits hwrite).2
          have hfull := fillTo_eq_self hsize.ge
          simp [Except.mapError, Except.map, hfull]

end Agreement

section Result

/-- A source that assembles consists of sections, and the image, made without a store outside, holds
exactly these. -/
theorem assemble_holds
    {source : String}
    {image : Image}
    (h : assemble source = .ok image) :
    ∃ (tokens : List Token) (sections : List Section),
      Source.tokens source = .ok tokens ∧
      Source.sections tokens = .ok sections ∧
      emitted sections = .ok image ∧
      Holds image sections := by
  unfold assemble at h
  split at h
  · cases h
  · cases h
  · next tokens hnil htokens =>
      split at h
      · cases h
      · next sections hsections =>
          have hne : sections ≠ [] := by
            refine ne_nil_of_readSections hsections (Or.inr ?_)
            rintro rfl
            exact hnil rfl
          have hemitted : emitted sections = .ok image := by
            rw [emitted_eq, h]
            rfl
          exact ⟨tokens, sections, htokens, hsections, hemitted, ofSections_holds hne h⟩

theorem backwards_holds :
    assemble backwards = .ok #[1, 5, 0, 0, 0, 42] ∧
      ∃ (tokens : List Token) (sections : List Section),
        Source.tokens backwards = .ok tokens ∧
        Source.sections tokens = .ok sections ∧
        emitted sections = .ok #[1, 5, 0, 0, 0, 42] ∧
        Holds #[1, 5, 0, 0, 0, 42] sections := by
  obtain ⟨tokens, htokens, hne, hsections⟩ := backwards_sections
  have himage := (assemble_eq_ofSections htokens hsections hne).trans ofSections_backwards
  exact ⟨himage, assemble_holds himage⟩

end Result

end Assembly
end Microcomputer
