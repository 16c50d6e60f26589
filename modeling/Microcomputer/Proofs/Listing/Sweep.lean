import Mathlib.Algebra.Ring.Nat
import Microcomputer.Assembly.Image
import Microcomputer.Listing

/-!
# The sweep of an image

**Pieces.**  A piece is made of the bytes from which it was cut (`Piece.drop_eq_bytes_append`).

**Steps.**  `piecesFrom image offset` is the sweep from an offset on, one piece in front of those
behind it.  `sweep_eq_piecesFrom`: the pieces of a listing are those from the first byte on.

**Descriptions.**  `describedFrom` takes the descriptions of the pieces instead, and moves on by the
bytes that each one tells.  `describedFrom_eq`: it comes upon the same pieces.

**Order.**  `pairwise_piecesFrom`: every piece starts behind those before it.
`offset_of_getElem?`: it starts just behind them.

**Cover.**  `exists_covering`: every byte of the image lies in a piece.  `countP_of_covering`: the
pieces that start up to a byte are those up to the one in which it lies.

**Bytes.**  `flatMap_bytes_piecesFrom`: the pieces together have the bytes of the image.
-/

namespace Microcomputer

namespace Piece

/-- The bytes of a piece. -/
def bytes : Piece → List UInt8
  | instruction i address => i.opcode :: Assembly.addressBytes address
  | byte value => [value]

@[simp]
theorem length_bytes (piece : Piece) : piece.bytes.length = piece.size := by
  cases piece <;> rfl

theorem size_eq (piece : Piece) : piece.size = 1 ∨ piece.size = 3 := by
  cases piece with
  | instruction i address => exact Or.inr rfl
  | byte value => exact Or.inl rfl

theorem toNat_addressOf
    (low high : UInt8) :
    (addressOf low high).toNat = low.toNat + 256 * high.toNat := by
  have hlow := low.toNat_lt
  have hhigh := high.toNat_lt
  simp [addressOf]
  omega

theorem addressBytes_addressOf
    (low high : UInt8) :
    Assembly.addressBytes (addressOf low high) = [low, high] := by
  have hlow := low.toNat_lt
  rw [Assembly.addressBytes, toNat_addressOf]
  have hfirst : (low.toNat + 256 * high.toNat) % 256 = low.toNat := by omega
  have hsecond : (low.toNat + 256 * high.toNat) / 256 = high.toNat := by omega
  rw [hfirst, hsecond, UInt8.ofNat_toNat, UInt8.ofNat_toNat]

section Cutting

variable {image : Image} {offset : Nat} {piece : Piece}

theorem drop_eq_bytes_append
    (h : at? image offset = some piece) :
    image.toList.drop offset = piece.bytes ++ image.toList.drop (offset + piece.size) := by
  have hdrop : ∀ x value, image[x]? = some value →
      image.toList.drop x = value :: image.toList.drop (x + 1) := by
    intro x value hx
    rw [← Array.getElem?_toList] at hx
    exact List.drop_eq_getElem?_toList_append.trans (by rw [hx]; rfl)
  unfold at? at h
  split at h
  · cases h
  · next value hvalue =>
      split at h
      · next i low high hi hlow hhigh =>
          cases h
          obtain rfl := Instruction.ofOpcode?_eq_some_iff.1 hi
          rw [hdrop _ _ hvalue, hdrop _ _ hlow, hdrop _ _ hhigh, bytes, addressBytes_addressOf]
          rfl
      · cases h
        rw [hdrop _ _ hvalue]
        rfl

theorem describe_of_at?
    (h : at? image offset = some piece) :
    describe image offset = (piece.text, piece.size) := by
  rw [describe, h]

theorem exists_at?
    (h : offset < image.size) :
    ∃ piece, at? image offset = some piece := by
  cases hat : at? image offset with
  | none =>
      have := at?_eq_none_iff.1 hat
      omega
  | some piece => exact ⟨piece, rfl⟩

theorem lt_size_of_at?
    (h : at? image offset = some piece) :
    offset < image.size := by
  rcases Nat.lt_or_ge offset image.size with hlt | hge
  · exact hlt
  · rw [at?_eq_none_iff.2 hge] at h
    cases h

theorem describe_size_pos
    (h : offset < image.size) :
    0 < (describe image offset).2 := by
  obtain ⟨piece, hat⟩ := exists_at? h
  rw [describe_of_at? hat]
  exact piece.size_pos

end Cutting

end Piece

namespace Listing

/-- The pieces of an image from an offset on, each with its offset. -/
def piecesFrom
    (image : Image)
    (offset : Nat) :
    List (Nat × Piece) :=
  match _found : Piece.at? image offset with
  | none => []
  | some piece => (offset, piece) :: piecesFrom image (offset + piece.size)
termination_by image.size - offset
decreasing_by
  have := Piece.lt_size_of_at? _found
  have := piece.size_pos
  omega

/-- What is found at an offset of an image and behind it: offsets, texts and numbers of bytes. -/
def describedFrom
    (image : Image)
    (offset : Nat) :
    List (Nat × String × Nat) :=
  if _inside : offset < image.size then
    (offset, Piece.describe image offset) ::
      describedFrom image (offset + (Piece.describe image offset).2)
  else
    []
termination_by image.size - offset
decreasing_by
  have := Piece.describe_size_pos _inside
  omega

/-- The texts of the pieces of an image from an offset on. -/
def textsFrom
    (image : Image)
    (offset : Nat) :
    List String :=
  (describedFrom image offset).map fun entry => entry.2.1

section Steps

variable {image : Image} {offset : Nat} {piece : Piece}

theorem piecesFrom_of_end (h : Piece.at? image offset = none) : piecesFrom image offset = [] := by
  unfold piecesFrom
  split
  · rfl
  · next hfound => simp [h] at hfound

theorem piecesFrom_of_at?
    (h : Piece.at? image offset = some piece) :
    piecesFrom image offset = (offset, piece) :: piecesFrom image (offset + piece.size) := by
  rw [piecesFrom.eq_def image offset]
  split
  · next hend => simp [h] at hend
  · next other hother =>
      obtain rfl : piece = other := by simpa [h] using hother
      rfl

theorem sweepFrom_toList
    (image : Image)
    (done : Array (Nat × Piece))
    (offset : Nat) :
    (sweepFrom image done offset).toList = done.toList ++ piecesFrom image offset := by
  fun_induction sweepFrom image done offset with
  | case1 done offset hend => rw [piecesFrom_of_end hend, List.append_nil]
  | case2 done offset piece hfound ih =>
      rw [ih, piecesFrom_of_at? hfound]
      simp

theorem sweep_eq_piecesFrom (image : Image) : sweep image = piecesFrom image 0 := by
  rw [sweep, sweepFrom_toList]
  rfl

theorem describedFrom_eq
    (image : Image)
    (offset : Nat) :
    describedFrom image offset =
      (piecesFrom image offset).map fun entry => (entry.1, entry.2.text, entry.2.size) := by
  fun_induction piecesFrom image offset with
  | case1 offset hend =>
      rw [describedFrom, dif_neg (Nat.not_lt.2 (Piece.at?_eq_none_iff.1 hend))]
      rfl
  | case2 offset piece hfound ih =>
      rw [describedFrom, dif_pos (Piece.lt_size_of_at? hfound), Piece.describe_of_at? hfound,
        List.map_cons, ih]

end Steps

section Entries

variable {image : Image} {offset : Nat} {entry : Nat × Piece}

theorem at?_of_mem_piecesFrom
    (h : entry ∈ piecesFrom image offset) :
    Piece.at? image entry.1 = some entry.2 := by
  fun_induction piecesFrom image offset with
  | case1 => cases h
  | case2 offset piece hfound ih =>
      rcases List.mem_cons.1 h with rfl | hrest
      · exact hfound
      · exact ih hrest

theorem at?_of_mem_sweep
    (h : entry ∈ sweep image) :
    Piece.at? image entry.1 = some entry.2 := by
  rw [sweep_eq_piecesFrom] at h
  exact at?_of_mem_piecesFrom h

end Entries

section Order

variable {image : Image} {offset : Nat}

theorem le_of_mem_piecesFrom
    {entry : Nat × Piece}
    (h : entry ∈ piecesFrom image offset) :
    offset ≤ entry.1 := by
  fun_induction piecesFrom image offset with
  | case1 => cases h
  | case2 offset piece hfound ih =>
      rcases List.mem_cons.1 h with rfl | hrest
      · exact Nat.le_refl _
      · exact Nat.le_trans (Nat.le_add_right _ _) (ih hrest)

theorem pairwise_piecesFrom
    (image : Image)
    (offset : Nat) :
    (piecesFrom image offset).Pairwise fun first second => first.1 + first.2.size ≤ second.1 := by
  fun_induction piecesFrom image offset with
  | case1 => exact List.Pairwise.nil
  | case2 offset piece hfound ih =>
      exact List.Pairwise.cons (fun entry hentry => le_of_mem_piecesFrom hentry) ih

theorem offset_of_getElem?
    {k : Nat}
    {entry : Nat × Piece}
    (h : (piecesFrom image offset)[k]? = some entry) :
    entry.1 = offset + (((piecesFrom image offset).take k).map (·.2.size)).sum := by
  fun_induction piecesFrom image offset generalizing k with
  | case1 => cases h
  | case2 offset piece hfound ih =>
      cases k with
      | zero =>
          cases h
          rfl
      | succ k =>
          rw [List.getElem?_cons_succ] at h
          rw [ih h, List.take_succ_cons, List.map_cons, List.sum_cons, Nat.add_assoc]

end Order

section Cover

variable {image : Image} {offset x : Nat}

/-- Every byte lies in a piece. -/
theorem exists_covering
    (hlow : offset ≤ x)
    (hhigh : x < image.size) :
    ∃ (k : Nat) (entry : Nat × Piece),
      (piecesFrom image offset)[k]? = some entry ∧ entry.1 ≤ x ∧ x < entry.1 + entry.2.size := by
  fun_induction piecesFrom image offset with
  | case1 offset hend =>
      have := Piece.at?_eq_none_iff.1 hend
      omega
  | case2 offset piece hfound ih =>
      by_cases hpiece : x < offset + piece.size
      · exact ⟨0, (offset, piece), rfl, hlow, hpiece⟩
      · obtain ⟨k, entry, hentry, hcover⟩ := ih (Nat.le_of_not_lt hpiece)
        exact ⟨k + 1, entry, hentry, hcover⟩

/-- The pieces up to a byte are counted by the place of the one in which it lies. -/
theorem countP_of_covering
    {k : Nat}
    {entry : Nat × Piece}
    (h : (piecesFrom image offset)[k]? = some entry)
    (hlow : entry.1 ≤ x)
    (hhigh : x < entry.1 + entry.2.size) :
    (piecesFrom image offset).countP (fun other => other.1 ≤ x) = k + 1 := by
  fun_induction piecesFrom image offset generalizing k with
  | case1 => cases h
  | case2 offset piece hfound ih =>
      cases k with
      | zero =>
          cases h
          have hrest : (piecesFrom image (offset + piece.size)).countP (fun other => other.1 ≤ x) =
              0 := by
            rw [List.countP_eq_zero]
            intro other hother
            have hbehind : x < other.1 := Nat.lt_of_lt_of_le hhigh (le_of_mem_piecesFrom hother)
            simpa using hbehind
          rw [List.countP_cons_of_pos (by simpa using hlow), hrest]
      | succ k =>
          rw [List.getElem?_cons_succ] at h
          have hstart : offset ≤ entry.1 :=
            Nat.le_trans (Nat.le_add_right _ _) (le_of_mem_piecesFrom (List.mem_of_getElem? h))
          rw [List.countP_cons_of_pos (by simpa using Nat.le_trans hstart hlow), ih h]

end Cover

section Bytes

theorem flatMap_bytes_piecesFrom
    (image : Image)
    (offset : Nat) :
    (piecesFrom image offset).flatMap (·.2.bytes) = image.toList.drop offset := by
  fun_induction piecesFrom image offset with
  | case1 offset hend =>
      have hsize := Piece.at?_eq_none_iff.1 hend
      rw [List.drop_eq_nil_of_le (by simpa using hsize)]
      rfl
  | case2 offset piece hfound ih =>
      rw [List.flatMap_cons, ih, Piece.drop_eq_bytes_append hfound]

theorem exists_pieces
    (image : Image)
    (offset : Nat) :
    ∃ pieces : List Piece,
      textsFrom image offset = pieces.map Piece.text ∧
      pieces.flatMap Piece.bytes = image.toList.drop offset := by
  refine ⟨(piecesFrom image offset).map (·.2), ?_, ?_⟩
  · rw [textsFrom, describedFrom_eq, List.map_map, List.map_map]
    rfl
  · rw [List.flatMap_map, flatMap_bytes_piecesFrom]

end Bytes

end Listing
end Microcomputer
