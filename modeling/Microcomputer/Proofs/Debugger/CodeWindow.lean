import Microcomputer.Proofs.Debugger.Labels
import Microcomputer.Proofs.Listing.Columns

/-!
# The window of the code view

Which lines of a listing the code view of the debugger shows while the program counter is in the
RAM.

**Entries.**  The listing is that of the memory, with the base of the RAM as its origin, and its
entries are what is read from its lines (`listed`).

**Position.**  `current_eq_iff`: the window is laid around the entry with the byte at the program
counter.  `isCurrent_iff` and `current_eq_of_isCurrent`: no other entry is marked.

**Result.**  `codeView_window`, by the facts that `CodeWindow` names.
-/

namespace Microcomputer
namespace Debugger

open Listing (Entry entries? entryOf offsetAt)

/-- What a code view of so many lines shows of the entries of a listing. -/
structure CodeWindow
    (d : Debugger)
    (lines : Nat)
    (entries : List Entry)
    (first : Nat) :
    Prop where
  /-- The lines are entries that follow each other. -/
  slice :
    (d.codeView lines).map (fun line => (line.address.toNat, line.text)) =
      ((entries.drop first).take lines).map fun e => (e.address, e.statement)
  /-- As many as fit, or are left. -/
  length_eq : (d.codeView lines).length = min lines (entries.length - first)
  /-- One of them has the byte at the program counter. -/
  covers :
    ∃ k < (d.codeView lines).length,
      d.machine.map.ramBase.toNat + offsetAt entries (first + k) ≤ d.machine.cpu.regs.pc.toNat ∧
      d.machine.cpu.regs.pc.toNat < d.machine.map.ramBase.toNat + offsetAt entries (first + k + 1)
  /-- A line is marked if the program counter is at its first byte. -/
  marked :
    ∀ (k : Nat) (line : CodeLine), (d.codeView lines)[k]? = some line →
      (line.isCurrent = true ↔
        d.machine.map.ramBase.toNat + offsetAt entries (first + k) = d.machine.cpu.regs.pc.toNat)
  /-- No two lines are marked. -/
  marked_unique :
    ∀ (j k : Nat) (line other : CodeLine),
      (d.codeView lines)[j]? = some line → (d.codeView lines)[k]? = some other →
      line.isCurrent = true → other.isCurrent = true → j = k
  /-- No line is marked if the program counter is at another byte of some entry. -/
  unmarked :
    ∀ j : Nat,
      d.machine.map.ramBase.toNat + offsetAt entries j < d.machine.cpu.regs.pc.toNat →
      d.machine.cpu.regs.pc.toNat < d.machine.map.ramBase.toNat + offsetAt entries (j + 1) →
      ∀ line ∈ d.codeView lines, line.isCurrent = false
  /-- Twice as many lines as there are entries show all of them. -/
  whole :
    2 * entries.length ≤ lines → first = 0 ∧ (d.codeView lines).length = entries.length

section Window

variable {d : Debugger} {lines : Nat}

/-- The entries of the listing of the memory. -/
def listed (d : Debugger) : List Entry :=
  (Listing.sweep d.machine.memory).map (entryOf d.machine.map.ramBase)

/-- The offset in the memory of the program counter. -/
def here (d : Debugger) : Nat :=
  d.machine.offsetOf d.machine.cpu.regs.pc

/-- The place of the entry around which a window is laid. -/
def current (d : Debugger) : Nat :=
  currentPosition (Listing.sweep d.machine.memory) d.here

theorem length_listed : d.listed.length = (Listing.sweep d.machine.memory).length :=
  List.length_map _

theorem length_codeView :
    (d.codeView lines).length = min lines (d.listed.length - (d.current - lines / 2)) := by
  rw [codeView_eq, List.length_map, length_listed, shownPieces, List.length_take, List.length_drop]
  rfl

theorem slice_codeView :
    (d.codeView lines).map (fun line => (line.address.toNat, line.text)) =
      ((d.listed.drop (d.current - lines / 2)).take lines).map fun e =>
        (e.address, e.statement) := by
  rw [codeView_eq, listed, ← List.map_drop, ← List.map_take, List.map_map, List.map_map]
  refine List.map_congr_left fun place _ => ?_
  simp [entryOf, UInt16.toNat_add]

variable {k : Nat} {place : Nat × Piece}

theorem exists_place_of_codeView
    {line : CodeLine}
    (h : (d.codeView lines)[k]? = some line) :
    ∃ place : Nat × Piece,
      (Listing.sweep d.machine.memory)[d.current - lines / 2 + k]? = some place ∧
      line.isCurrent = (place.1 == d.here) := by
  rw [codeView_eq, List.getElem?_map, Option.map_eq_some_iff] at h
  obtain ⟨place, hplace, rfl⟩ := h
  refine ⟨place, ?_, rfl⟩
  rw [shownPieces, List.getElem?_take] at hplace
  split at hplace
  · rwa [List.getElem?_drop] at hplace
  · cases hplace

theorem offsetAt_listed_succ (h : (Listing.sweep d.machine.memory)[k]? = some place) :
    offsetAt d.listed (k + 1) = place.1 + place.2.size := by
  have hentry : d.listed[k]? = some (entryOf d.machine.map.ramBase place) := by
    rw [listed, List.getElem?_map, h, Option.map_some]
  rw [Listing.offsetAt_succ hentry, entryOf, Piece.length_bytes, Listing.offset_eq_offsetAt h]
  rfl

theorem lt_length_listed {x : Nat}
    (hlow : offsetAt d.listed k ≤ x)
    (hhigh : x < offsetAt d.listed (k + 1)) :
    k < d.listed.length := by
  by_contra hge
  rw [Listing.offsetAt_succ_of_le (Nat.le_of_not_lt hge)] at hhigh
  omega

/-- The window is laid around the entry with the byte at the program counter. -/
theorem current_eq_iff (hinside : d.here < d.machine.memory.size) :
    d.current = k ↔ offsetAt d.listed k ≤ d.here ∧ d.here < offsetAt d.listed (k + 1) := by
  have hcount : ∀ {k place}, (Listing.sweep d.machine.memory)[k]? = some place →
      place.1 ≤ d.here → d.here < place.1 + place.2.size → d.current = k := by
    intro k place h hlow hhigh
    rw [Listing.sweep_eq_piecesFrom] at h
    rw [current, currentPosition, Listing.sweep_eq_piecesFrom,
      Listing.countP_of_covering h hlow hhigh, Nat.add_sub_cancel]
  constructor
  · rintro rfl
    obtain ⟨k, place, hplace, hlow, hhigh⟩ := Listing.exists_covering (Nat.zero_le d.here) hinside
    rw [← Listing.sweep_eq_piecesFrom] at hplace
    rw [hcount hplace hlow hhigh, offsetAt_listed_succ hplace]
    exact ⟨(Listing.offset_eq_offsetAt hplace).symm.trans_le hlow, hhigh⟩
  · rintro ⟨hlow, hhigh⟩
    have hlt := lt_length_listed hlow hhigh
    rw [length_listed] at hlt
    obtain ⟨place, hplace⟩ : ∃ place, (Listing.sweep d.machine.memory)[k]? = some place :=
      ⟨_, List.getElem?_eq_getElem hlt⟩
    have hstart : place.1 = offsetAt d.listed k := Listing.offset_eq_offsetAt hplace
    rw [offsetAt_listed_succ hplace] at hhigh
    exact hcount hplace (hstart.trans_le hlow) hhigh

theorem isCurrent_iff
    {line : CodeLine}
    (h : (d.codeView lines)[k]? = some line) :
    line.isCurrent = true ↔ offsetAt d.listed (d.current - lines / 2 + k) = d.here := by
  obtain ⟨place, hplace, hcurrent⟩ := exists_place_of_codeView h
  have hstart : place.1 = offsetAt d.listed (d.current - lines / 2 + k) :=
    Listing.offset_eq_offsetAt hplace
  rw [hcurrent, beq_iff_eq, hstart]

theorem current_eq_of_isCurrent
    {line : CodeLine}
    (hinside : d.here < d.machine.memory.size)
    (h : (d.codeView lines)[k]? = some line)
    (hmarked : line.isCurrent = true) :
    d.current = d.current - lines / 2 + k := by
  have hstart := (isCurrent_iff h).1 hmarked
  obtain ⟨place, hplace, -⟩ := exists_place_of_codeView h
  have hsize := place.2.size_pos
  have hplaced : place.1 = offsetAt d.listed (d.current - lines / 2 + k) :=
    Listing.offset_eq_offsetAt hplace
  refine (current_eq_iff hinside).2 ?_
  rw [offsetAt_listed_succ hplace, hplaced, hstart]
  omega

/-- **The code view.** Its lines are successive entries of the listing, with the one at the program
counter among them, which is marked if it starts there. -/
theorem codeView_window
    {d : Debugger}
    {lines : Nat}
    (hlines : 1 ≤ lines)
    (hbase : d.machine.map.ramBase ≤ d.machine.cpu.regs.pc)
    (hinside :
      d.machine.cpu.regs.pc.toNat - d.machine.map.ramBase.toNat < d.machine.memory.size) :
    ∃ (entries : List Entry) (first : Nat),
      entries? (Listing.text d.machine.memory d.machine.map.ramBase) = some entries ∧
      first < entries.length ∧
      CodeWindow d lines entries first := by
  have hle := UInt16.le_iff_toNat_le.1 hbase
  have hhere : d.here = d.machine.cpu.regs.pc.toNat - d.machine.map.ramBase.toNat :=
    UInt16.toNat_sub_of_le _ _ hbase
  rw [← hhere] at hinside
  have hlength := @length_codeView d lines
  obtain ⟨hlow, hhigh⟩ := (current_eq_iff hinside).1 rfl
  have hlt := lt_length_listed hlow hhigh
  refine ⟨d.listed, d.current - lines / 2, Listing.entries?_text _ _, by omega, ?_⟩
  exact
    { slice := slice_codeView
      length_eq := hlength
      covers := by
        refine ⟨d.current - (d.current - lines / 2), by omega, ?_⟩
        rw [Nat.add_sub_cancel' (Nat.sub_le _ _)]
        omega
      marked := by
        intro k line hline
        rw [isCurrent_iff hline, hhere]
        omega
      marked_unique := by
        intro j k line other hline hother hmarked hmarked'
        have hj := current_eq_of_isCurrent hinside hline hmarked
        have hk := current_eq_of_isCurrent hinside hother hmarked'
        omega
      unmarked := by
        intro j hbefore hbehind line hline
        obtain ⟨k, hk⟩ := List.mem_iff_getElem?.1 hline
        have hj : d.current = j := (current_eq_iff hinside).2 (by omega)
        by_contra hmarked
        rw [Bool.not_eq_false] at hmarked
        have hstart := (isCurrent_iff hk).1 hmarked
        rw [← current_eq_of_isCurrent hinside hk hmarked, hj] at hstart
        omega
      whole := by
        intro htwice
        omega }

/-- A debugger with the program counter inside an instruction that reaches beyond the address
space. -/
def insideInstruction : Debugger where
  machine := (MemoryMap.loaded { ramBase := 0xFFFE } #[1, 2, 3, 9]).setRegisters { pc := 0xFFFF }
  program := #[1, 2, 3, 9]

theorem insideInstruction_window :
    let d := insideInstruction
    let base := d.machine.map.ramBase
    let pc := d.machine.cpu.regs.pc
    base ≤ pc ∧
    pc.toNat - base.toNat < d.machine.memory.size ∧
    d.codeView 1 = [⟨0xFFFE, "load [0x0302]", false⟩] ∧
    ∃ (entries : List Entry) (first : Nat),
      entries? (Listing.text d.machine.memory base) = some entries ∧
      first < entries.length ∧
      CodeWindow d 1 entries first := by
  intro d base pc
  have hbase : base ≤ pc := by decide
  have hinside : pc.toNat - base.toNat < d.machine.memory.size := by decide
  have hview : d.codeView 1 = [⟨0xFFFE, "load [0x0302]", false⟩] := by decide +kernel
  exact ⟨hbase, hinside, hview, codeView_window (Nat.le_refl 1) hbase hinside⟩

end Window

end Debugger
end Microcomputer
