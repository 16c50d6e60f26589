import Microcomputer.Proofs.Printer.Image
import Microcomputer.Proofs.Processor.Blocks
import Microcomputer.Proofs.Processor.StoreLog

/-!
# The string printer prints its text

**Memory.**  `encoded_memory`: instruction `k` of the program lies at address `3 * k`, whatever has
been stored so far.  `set_patched` and `set_offset` are its two stores.

**Passes.**  `takes_pass`: one pass prints one byte and counts the cell `offset` up, in 51 ticks.
After the last pass the program stays at a branch to itself (`takes_end`, `takes_parked`).

**Result.**  `prints_text`, from the source of the program to the output of a machine.
-/

namespace Microcomputer
namespace Printer

section Memories

section Code

variable {instructions : List (Instruction × UInt16)} {i : Instruction} {address : UInt16}

theorem getElem?_codeBytes
    {k offset : Nat}
    (h : instructions[k]? = some (i, address))
    (hoffset : offset < 3)
    (behind : List UInt8) :
    (codeBytes instructions ++ behind)[3 * k + offset]? =
      (i.opcode :: Assembly.addressBytes address)[offset]? := by
  induction instructions generalizing k with
  | nil => simp at h
  | cons first instructions ih =>
      have hcons : codeBytes (first :: instructions) ++ behind =
          (first.1.opcode :: Assembly.addressBytes first.2) ++
            (codeBytes instructions ++ behind) := by
        simp [codeBytes]
      rw [hcons]
      cases k with
      | zero =>
          cases h
          rw [List.getElem?_append_left (by simpa [Assembly.addressBytes] using by omega)]
          simp
      | succ k =>
          have hplace : 3 * (k + 1) + offset =
              (first.1.opcode :: Assembly.addressBytes first.2).length + (3 * k + offset) := by
            simp [Assembly.addressBytes]
            omega
          rw [hplace, List.getElem?_append_right (by omega), Nat.add_sub_cancel_left]
          exact ih h

end Code

section Memory

variable {text : List UInt8} {patched offset : UInt8}

theorem encoded_memory
    {k : Nat}
    {i : Instruction}
    {address : UInt16}
    (h : (code text.length patched)[k]? = some (i, address)) :
    Encoded (memory text patched offset) (3 * k) i address := by
  have hk : k < 13 := (List.getElem?_eq_some_iff.1 h).1
  refine ⟨by omega, ?_, ?_, ?_⟩
  · change (memory text patched offset)[3 * k + 0]? = _
    exact getElem?_codeBytes h (by omega) _
  · exact getElem?_codeBytes h (by omega) _
  · exact getElem?_codeBytes h (by omega) _

theorem length_before
    (text : List UInt8)
    (patched : UInt8) :
    (codeBytes (code text.length patched) ++ gapBytes).length = 4096 := by
  rw [List.length_append, length_codeBytes, gapBytes, List.length_replicate]
  rfl

theorem length_memory :
    (memory text patched offset).length = 4096 + (text.length + 4) := by
  rw [memory, ← List.append_assoc, List.length_append, length_before, List.length_append]
  rfl

/-- The data lie from 0x1000 on. -/
theorem getElem?_memory (k : Nat) :
    (memory text patched offset)[4096 + k]? = (text ++ [0, 0, 1, offset])[k]? := by
  have hbefore := length_before text patched
  rw [memory, ← List.append_assoc, List.getElem?_append_right (by omega), hbefore,
    Nat.add_sub_cancel_left]

theorem getElem?_memory_text
    {k : Nat}
    {value : UInt8}
    (h : (text ++ [0])[k]? = some value) :
    (memory text patched offset)[4096 + k]? = some value := by
  have hsplit : text ++ [0, 0, 1, offset] = text ++ [0] ++ [0, 1, offset] := by simp
  obtain ⟨hk, -⟩ := List.getElem?_eq_some_iff.1 h
  rw [getElem?_memory, hsplit, List.getElem?_append_left hk, h]

theorem getElem?_memory_cell
    {k : Nat}
    {value : UInt8}
    (h : [0, 0, 1, offset][k]? = some value) :
    (memory text patched offset)[4096 + (text.length + k)]? = some value := by
  rw [getElem?_memory, List.getElem?_append_right (by omega), Nat.add_sub_cancel_left, h]

theorem addressBytes_patched (patched : UInt8) :
    Assembly.addressBytes (UInt16.ofNat (0x1000 + patched.toNat)) = [patched, 0x10] := by
  have hlt := patched.toNat_lt
  have haddress : (UInt16.ofNat (0x1000 + patched.toNat)).toNat = 4096 + patched.toNat := by
    rw [UInt16.toNat_ofNat_of_lt']
    exact Nat.lt_trans (Nat.add_lt_add_left hlt 4096) (by decide)
  have hlow : (4096 + patched.toNat) % 256 = patched.toNat := by omega
  have hhigh : (4096 + patched.toNat) / 256 = 16 := by omega
  rw [Assembly.addressBytes, haddress, hlow, hhigh, UInt8.ofNat_toNat]
  rfl

theorem set_patched (value : UInt8) :
    (memory text patched offset).set 13 value = memory text value offset := by
  have hcode : (codeBytes (code text.length patched)).set 13 value =
      codeBytes (code text.length value) := by
    simp only [codeBytes, code, List.flatMap_cons, addressBytes_patched]
    rfl
  have hinside : 13 < (codeBytes (code text.length patched)).length := by
    rw [length_codeBytes]
    exact (by decide : 13 < 3 * 13)
  rw [memory, List.set_append_left _ _ hinside, hcode, memory]

/-- The store into the cell changes that cell. -/
theorem set_offset (value : UInt8) :
    (memory text patched offset).set (4096 + (text.length + 3)) value =
      memory text patched value := by
  have hbefore := length_before text patched
  have hcell : ([0, 0, 1, offset] : List UInt8).set 3 value = [0, 0, 1, value] := rfl
  rw [memory, ← List.append_assoc, List.set_append_right _ _ (by omega), hbefore,
    Nat.add_sub_cancel_left, List.set_append_right _ _ (by omega), Nat.add_sub_cancel_left,
    hcell, memory]
  simp only [List.append_assoc]

end Memory

end Memories

section Execution

variable {text printed : List UInt8} {patched offset acc value : UInt8}

section Instructions

theorem toNat_cellAt
    {length k : Nat}
    (h : length ≤ 255)
    (hk : k < 4) :
    (cellAt length k).toNat = 4096 + (length + k) :=
  UInt16.toNat_ofNat_of_lt' (by simp only [UInt16.size]; omega)

theorem cellAt_lt
    {length k : Nat}
    (h : length ≤ 255)
    (hk : k < 4) :
    cellAt length k < 0xF000 := by
  rw [UInt16.lt_iff_toNat_lt, toNat_cellAt h hk]
  show 4096 + (length + k) < 61440
  omega

theorem getElem?_cellAt
    {k : Nat}
    (h : text.length ≤ 255)
    (hvalue : [0, 0, 1, offset][k]? = some value) :
    cellAt text.length k < 0xF000 ∧
      (memory text patched offset)[(cellAt text.length k).toNat]? = some value := by
  have hk : k < 4 := (List.getElem?_eq_some_iff.1 hvalue).1
  refine ⟨cellAt_lt h hk, ?_⟩
  rw [toNat_cellAt h hk]
  exact getElem?_memory_cell hvalue

/-- An instruction that loads a cell. -/
theorem takes_loadCell
    {n k : Nat}
    (h : text.length ≤ 255)
    (hcode : (code text.length patched)[n]? = some (.load, cellAt text.length k))
    (hvalue : [0, 0, 1, offset][k]? = some value) :
    Takes 5 (Standing (3 * n) acc printed (memory text patched offset))
      (Standing (3 * n + 3) value printed (memory text patched offset)) := by
  obtain ⟨hbelow, hcell⟩ := getElem?_cellAt h hvalue
  exact takes_load (encoded_memory hcode) hbelow hcell

theorem takes_storeOffset
    {n : Nat}
    (h : text.length ≤ 255)
    (hcode : (code text.length patched)[n]? = some (.store, cellAt text.length 3)) :
    Takes 5 (Standing (3 * n) acc printed (memory text patched offset))
      (Standing (3 * n + 3) acc printed (memory text patched acc)) := by
  have haddress := toNat_cellAt h (k := 3) (by decide)
  have hinside : (cellAt text.length 3).toNat < (memory text patched offset).length := by
    rw [haddress, length_memory]
    omega
  have hstore :
      Takes 5 (Standing (3 * n) acc printed (memory text patched offset))
        (Standing (3 * n + 3) acc printed
          ((memory text patched offset).set (cellAt text.length 3).toNat acc)) :=
    takes_store (encoded_memory hcode) (cellAt_lt h (by decide)) hinside
  rwa [haddress, set_offset] at hstore

theorem takes_patch :
    Takes 5 (Standing 9 acc printed (memory text patched offset))
      (Standing 12 acc printed (memory text acc offset)) := by
  have hcode : (code text.length patched)[3]? = some (.store, 0x000D) := rfl
  have hinside : (0x000D : UInt16).toNat < (memory text patched offset).length := by
    rw [length_memory]
    show 13 < 4096 + (text.length + 4)
    omega
  have hstore :
      Takes 5 (Standing 9 acc printed (memory text patched offset))
        (Standing 12 acc printed ((memory text patched offset).set 13 acc)) :=
    takes_store (encoded_memory hcode) (by decide) hinside
  rwa [set_patched] at hstore

/-- The instruction that was changed loads a byte of the text, or the zero byte behind it. -/
theorem takes_loadByte
    (hbyte : (text ++ [0])[patched.toNat]? = some value) :
    Takes 5 (Standing 12 acc printed (memory text patched offset))
      (Standing 15 value printed (memory text patched offset)) := by
  have hcode : (code text.length patched)[4]? =
      some (.load, UInt16.ofNat (0x1000 + patched.toNat)) := rfl
  have hlt := patched.toNat_lt
  have haddress : (UInt16.ofNat (0x1000 + patched.toNat)).toNat = 4096 + patched.toNat :=
    UInt16.toNat_ofNat_of_lt' (Nat.lt_trans (Nat.add_lt_add_left hlt 4096) (by decide))
  refine takes_load (encoded_memory hcode) ?_ ?_
  · rw [UInt16.lt_iff_toNat_lt, haddress]
    exact Nat.lt_trans (Nat.add_lt_add_left hlt 4096) (by decide)
  · rw [haddress]
    exact getElem?_memory_text hbyte

end Instructions

section Passes

variable (h : text.length ≤ 255)
include h

/-- The two instructions before the loop. -/
theorem takes_setup :
    Takes 10 (Standing 0 acc printed (memory text patched offset))
      (Standing 6 0 printed (memory text patched 0)) := by
  have hload :
      Takes 5 (Standing 0 acc printed (memory text patched offset))
        (Standing 3 0 printed (memory text patched offset)) :=
    takes_loadCell (n := 0) (k := 1) h rfl rfl
  have hstore :
      Takes 5 (Standing 3 0 printed (memory text patched offset))
        (Standing 6 0 printed (memory text patched 0)) :=
    takes_storeOffset (n := 1) h rfl
  exact hload.trans hstore

/-- The first three instructions of a pass: they load the byte that the cell `offset` counts. -/
theorem takes_fetch
    (hbyte : (text ++ [0])[offset.toNat]? = some value) :
    Takes 15 (Standing 6 acc printed (memory text patched offset))
      (Standing 15 value printed (memory text offset offset)) := by
  have hload :
      Takes 5 (Standing 6 acc printed (memory text patched offset))
        (Standing 9 offset printed (memory text patched offset)) :=
    takes_loadCell (n := 2) (k := 3) h rfl rfl
  exact (hload.trans takes_patch).trans (takes_loadByte hbyte)

/-- One pass through the loop prints one byte. -/
theorem takes_pass
    (hbyte : text[offset.toNat]? = some value)
    (hvalue : value ≠ 0) :
    Takes 51 (Standing 6 acc printed (memory text patched offset))
      (Standing 6 0 (printed ++ [value]) (memory text offset (offset + 1))) := by
  have hfetched : (text ++ [0])[offset.toNat]? = some value := by
    rw [List.getElem?_append_left (List.getElem?_eq_some_iff.1 hbyte).1, hbyte]
  have hfetch :
      Takes 15 (Standing 6 acc printed (memory text patched offset))
        (Standing 15 value printed (memory text offset offset)) :=
    takes_fetch h hfetched
  have hbranch :
      Takes 5 (Standing 15 value printed (memory text offset offset))
        (Standing 18 value printed (memory text offset offset)) :=
    takes_branch_nonzero (encoded_memory (k := 5) rfl) hvalue
  have hprint :
      Takes 5 (Standing 18 value printed (memory text offset offset))
        (Standing 21 value (printed ++ [value]) (memory text offset offset)) :=
    takes_print (encoded_memory (k := 6) rfl) (by decide)
  have hload :
      Takes 5 (Standing 21 value (printed ++ [value]) (memory text offset offset))
        (Standing 24 offset (printed ++ [value]) (memory text offset offset)) :=
    takes_loadCell (n := 7) (k := 3) h rfl rfl
  have hadd :
      Takes 6 (Standing 24 offset (printed ++ [value]) (memory text offset offset))
        (Standing 27 (offset + 1) (printed ++ [value]) (memory text offset offset)) := by
    have hone : [0, 0, 1, offset][2]? = some 1 := rfl
    obtain ⟨hbelow, hcell⟩ := getElem?_cellAt h hone
    exact takes_add (encoded_memory (k := 8) rfl) hbelow hcell
  have hstore :
      Takes 5 (Standing 27 (offset + 1) (printed ++ [value]) (memory text offset offset))
        (Standing 30 (offset + 1) (printed ++ [value]) (memory text offset (offset + 1))) :=
    takes_storeOffset (n := 9) h rfl
  have hclear :
      Takes 5 (Standing 30 (offset + 1) (printed ++ [value]) (memory text offset (offset + 1)))
        (Standing 33 0 (printed ++ [value]) (memory text offset (offset + 1))) :=
    takes_loadCell (n := 10) (k := 1) h rfl rfl
  have hrepeat :
      Takes 5 (Standing 33 0 (printed ++ [value]) (memory text offset (offset + 1)))
        (Standing 6 0 (printed ++ [value]) (memory text offset (offset + 1))) :=
    takes_branch_zero (encoded_memory (k := 11) rfl)
  exact ((((((hfetch.trans hbranch).trans hprint).trans hload).trans hadd).trans hstore).trans
    hclear).trans hrepeat

/-- **Passes.**  So many bytes of the text are printed after so many passes. -/
theorem takes_passes
    (hne : ∀ b ∈ text, b ≠ 0)
    {k : Nat}
    (hk : k ≤ text.length) :
    ∃ patched : UInt8,
      Takes (10 + 51 * k) (Standing 0 0 [] (memory text 0 0))
        (Standing 6 0 (text.take k) (memory text patched (UInt8.ofNat k))) := by
  induction k with
  | zero => exact ⟨0, takes_setup h⟩
  | succ k ih =>
      obtain ⟨patched, hpasses⟩ := ih (by omega)
      have hbyte : text[(UInt8.ofNat k).toNat]? = some text[k] := by
        rw [UInt8.toNat_ofNat_of_lt' (by simp only [UInt8.size]; omega),
          List.getElem?_eq_getElem]
      have hpass := hpasses.trans (takes_pass h hbyte (hne _ (List.getElem_mem _)))
      rw [List.take_append_getElem] at hpass
      exact ⟨UInt8.ofNat k, by simpa [UInt8.ofNat_add, Nat.mul_succ, Nat.add_assoc] using hpass⟩

theorem takes_end :
    Takes 20
      (Standing 6 acc printed (memory text patched (UInt8.ofNat text.length)))
      (Standing 36 0 printed
        (memory text (UInt8.ofNat text.length) (UInt8.ofNat text.length))) := by
  have hbyte : (text ++ [0])[(UInt8.ofNat text.length).toNat]? = some 0 := by
    rw [UInt8.toNat_ofNat_of_lt' (by simp only [UInt8.size]; omega), List.getElem?_append_right
      (Nat.le_refl _), Nat.sub_self]
    rfl
  have hbranch :
      Takes 5
        (Standing 15 0 printed
          (memory text (UInt8.ofNat text.length) (UInt8.ofNat text.length)))
        (Standing 36 0 printed
          (memory text (UInt8.ofNat text.length) (UInt8.ofNat text.length))) :=
    takes_branch_zero (encoded_memory (k := 5) rfl)
  exact (takes_fetch h hbyte).trans hbranch

omit h in
/-- There it stays. -/
theorem takes_parked (times : Nat) :
    Takes (times * 5) (Standing 36 0 printed (memory text patched offset))
      (Standing 36 0 printed (memory text patched offset)) := by
  have hbranch :
      Takes 5 (Standing 36 0 printed (memory text patched offset))
        (Standing 36 0 printed (memory text patched offset)) :=
    takes_branch_zero (encoded_memory (k := 12) rfl)
  exact hbranch.repeated times

end Passes

end Execution

section Correctness

section Runs

/-- A new processor on the standard bus, with the program loaded. -/
def start (text : List UInt8) : Board where
  bus := standardBus [] (memory text 0 0)

variable {text : List UInt8}

theorem board_of_load (text : List UInt8) :
    ∃ fresh : Machine,
      Machine.ofMap {} = .ok fresh ∧
      (fresh.load (memory text 0 0).toArray).reset.board = start text :=
  ⟨_, rfl, rfl⟩

theorem standing_start (text : List UInt8) :
    (start text).Between ∧ Standing 0 0 [] (memory text 0 0) (start text).core :=
  ⟨⟨rfl, rfl⟩, rfl, rfl, rfl⟩

theorem output_of_standing
    {b : Board}
    {pc : Nat}
    {acc : UInt8}
    {printed memory : List UInt8}
    (h : Standing pc acc printed memory b.core) :
    b.bus.output.toList = printed := by
  have hbus : b.bus = standardBus printed memory := h.bus
  rw [hbus]
  rfl

variable (h : text.length ≤ 255) (hnonzero : ∀ b ∈ text, b ≠ 0)
include h hnonzero

theorem run_printed :
    ((start text).run (10 + 51 * text.length)).2.bus.output.toList = text := by
  obtain ⟨patched, hpasses⟩ := takes_passes h hnonzero (Nat.le_refl _)
  obtain ⟨hbetween, hstanding⟩ := standing_start text
  obtain ⟨last, hrun, -, hlast⟩ := hpasses _ hbetween hstanding
  rw [hrun, output_of_standing hlast, List.take_length]

/-- There are runs of any length that do not fail and have not printed anything else. -/
theorem run_parked (n : Nat) :
    ∃ (total : Nat) (last : Board),
      n ≤ total ∧
      (start text).run total = (.ok (), last) ∧
      last.bus.output.toList = text := by
  obtain ⟨patched, hpasses⟩ := takes_passes h hnonzero (Nat.le_refl _)
  rw [List.take_length] at hpasses
  obtain ⟨hbetween, hstanding⟩ := standing_start text
  have hparked := (hpasses.trans (takes_end h)).trans (takes_parked n)
  obtain ⟨last, hrun, -, hlast⟩ := hparked _ hbetween hstanding
  exact ⟨_, last, by omega, hrun, output_of_standing hlast⟩

end Runs

/-- **The string printer.** For every text of at most 255 bytes, none of them zero, the program
assembles, never faults, and prints the text. -/
theorem prints_text
    {text : List UInt8}
    (h : text.length ≤ 255)
    (hnonzero : ∀ b ∈ text, b ≠ 0) :
    ∃ (image : Image) (fresh : Machine),
      assemble (source text) = .ok image ∧
      Machine.ofMap {} = .ok fresh ∧
      ∀ n : Nat,
        let after := (fresh.load image).reset.run n
        after.1 = .ok () ∧
        after.2.output.toList <+: text ∧
        (10 + 51 * text.length ≤ n → after.2.output.toList = text) := by
  obtain ⟨fresh, hfresh, hboard⟩ := board_of_load text
  refine ⟨_, fresh, assemble_of_spells_outline h (spells_source text), hfresh, ?_⟩
  intro n after
  obtain ⟨total, last, hn, htotal, hlast⟩ := run_parked h hnonzero n
  obtain ⟨mid, hmid⟩ := Board.run_of_le hn htotal
  have hafter : after = Machine.ofBoard _ ((fresh.load _).reset.board.run n) := rfl
  rw [hboard, hmid] at hafter
  have hgrown := (start text).output_prefix_of_le hn
  rw [hmid, htotal, hlast] at hgrown
  refine ⟨by rw [hafter]; rfl, by rw [hafter]; exact hgrown, fun henough => ?_⟩
  have hprinted := (start text).output_prefix_of_le henough
  rw [run_printed h hnonzero, hmid] at hprinted
  rw [hafter]
  exact hgrown.eq_of_length_le hprinted.length_le

/-- The text of the program that greets the world. -/
def greeting : List UInt8 :=
  [72, 101, 108, 108, 111, 32, 87, 111, 114, 108, 100, 33]

theorem prints_greeting :
    greeting.length ≤ 255 ∧ (∀ b ∈ greeting, b ≠ 0) ∧
      ∃ (image : Image) (fresh : Machine),
        assemble (source greeting) = .ok image ∧
        Machine.ofMap {} = .ok fresh ∧
        ((fresh.load image).reset.run 1000).1 = .ok () ∧
        ((fresh.load image).reset.run 1000).2.output.toList = greeting := by
  have hlength : greeting.length ≤ 255 := by decide
  have hnonzero : ∀ b ∈ greeting, b ≠ 0 := by simp [greeting]
  obtain ⟨image, fresh, himage, hfresh, hruns⟩ := prints_text hlength hnonzero
  obtain ⟨hok, -, hprinted⟩ := hruns 1000
  have henough : 10 + 51 * greeting.length ≤ 1000 := by simp [greeting]
  exact ⟨hlength, hnonzero, image, fresh, himage, hfresh, hok, hprinted henough⟩

end Correctness

end Printer
end Microcomputer
