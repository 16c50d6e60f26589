import Microcomputer.Debugger.Basic
import Microcomputer.Proofs.Bus.Memory
import Microcomputer.Proofs.Listing.Sweep
import Microcomputer.Proofs.Processor.Wiring

/-!
# Labels of bytes

The addresses that a dump of the RAM and the code view of the debugger put before bytes.

**Labels.**  A label is counted round the address space, so it is the place of its byte only if that
lies below the top (`Ram.toNat_label_eq_iff`).  `Ram.byteAt?_label` says what the RAM has there.

**Views.**  `Ram.getElem?_dump` and `Debugger.codeView_eq`: every entry of a dump, and every line of
a code view, has the label of the offset where it starts.

**Results.**  `labels_below_top`, and `labels_wrong_beyond_top` for the other bytes.
-/

namespace Microcomputer

namespace Ram

section Labels

variable (r : Ram) (offset : Nat)

theorem toNat_label : (r.label offset).toNat = (r.base.toNat + offset) % 65536 := by
  simp [label, UInt16.toNat_add]

theorem toNat_label_eq_iff :
    (r.label offset).toNat = r.base.toNat + offset ↔ r.base.toNat + offset < 65536 := by
  rw [toNat_label]
  constructor
  · intro h
    rw [← h]
    exact Nat.mod_lt _ (by decide)
  · exact Nat.mod_eq_of_lt

theorem label_sub (h : 65536 ≤ offset) : r.label (offset - 65536) = r.label offset := by
  apply UInt16.toNat.inj
  rw [toNat_label, toNat_label]
  omega

theorem byteAt?_label :
    r.byteAt? (r.label offset) =
      if r.base.toNat + offset % 65536 < 65536 then r.contents[offset % 65536]? else none := by
  have hlabel := r.toNat_label offset
  have hbase := r.base.toNat_lt
  split
  · next hbelow =>
      have hplace : (r.label offset).toNat = r.base.toNat + offset % 65536 := by omega
      have hle : r.base ≤ r.label offset := UInt16.le_iff_toNat_le.2 (by omega)
      rw [byteAt?, if_pos hle, hplace, Nat.add_sub_cancel_left]
  · next hbeyond =>
      have hnot : ¬ r.base ≤ r.label offset := by
        rw [UInt16.le_iff_toNat_le]
        omega
      rw [byteAt?, if_neg hnot]

end Labels

section Dumps

variable {r : Ram}

theorem getElem?_dump
    (r : Ram)
    (start : UInt16)
    (count k : Nat) :
    (r.dump start count)[k]? =
      if k < count then
        let offset := start.toNat - r.base.toNat + k
        r.contents[offset]?.map fun byte => (r.label offset, byte)
      else
        none := by
  rw [dump, List.getElem?_mapIdx, List.getElem?_take]
  split
  · rw [List.getElem?_drop, Array.getElem?_toList]
  · rfl

/-- An entry of a dump leads to its byte below the top, and to nothing above. -/
theorem read_of_dump
    {start a : UInt16}
    {count k : Nat}
    {b : UInt8}
    (h : (r.dump start count)[k]? = some (a, b)) :
    let offset := start.toNat - r.base.toNat + k
    r.contents[offset]? = some b ∧
    a = r.label offset ∧
    (r.base.toNat + offset < 65536 → r.read a = .ok b) ∧
    (65536 ≤ r.base.toNat + offset → offset < 65536 → r.read a = .error (.outOfBounds a)) := by
  intro offset
  rw [getElem?_dump] at h
  split at h
  · obtain ⟨byte, hbyte, hentry⟩ := Option.map_eq_some_iff.1 h
    cases hentry
    refine ⟨hbyte, rfl, ?_, ?_⟩
    · intro hbelow
      have hmod : offset % 65536 = offset := Nat.mod_eq_of_lt (by omega)
      rw [read_eq, byteAt?_label, hmod, if_pos hbelow, hbyte]
    · intro hbeyond hlt
      rw [read_eq, byteAt?_label, Nat.mod_eq_of_lt hlt, if_neg (Nat.not_lt.2 hbeyond)]
  · cases h

end Dumps

end Ram

namespace Debugger

/-- The pieces that a code view of so many lines shows, each with its offset. -/
def shownPieces
    (d : Debugger)
    (lines : Nat) :
    List (Nat × Piece) :=
  let pc := d.machine.offsetOf d.machine.cpu.regs.pc
  let pieces := Listing.sweep d.machine.memory
  (pieces.drop (currentPosition pieces pc - lines / 2)).take lines

section Views

variable (d : Debugger) (lines : Nat)

theorem codeView_eq :
    d.codeView lines =
      (d.shownPieces lines).map fun (offset, piece) =>
        { address := d.machine.map.ramBase + UInt16.ofNat offset
          text := piece.text
          isCurrent := offset == d.machine.offsetOf d.machine.cpu.regs.pc } :=
  rfl

variable {d lines}

theorem at?_of_mem_shownPieces
    {offset : Nat}
    {piece : Piece}
    (h : (offset, piece) ∈ d.shownPieces lines) :
    Piece.at? d.machine.memory offset = some piece :=
  Listing.at?_of_mem_sweep (List.mem_of_mem_drop (List.mem_of_mem_take h))

theorem addressOf?_eq_label_iff
    (m : Machine)
    (offset : Nat) :
    m.addressOf? offset = some (m.map.ramBase + UInt16.ofNat offset) ↔
      m.map.ramBase.toNat + offset < 65536 := by
  unfold Machine.addressOf?
  split
  · next hbelow => simp [hbelow]
  · next hbeyond => simp [hbeyond]

end Views

/-- **Labels.** The label of a dumped byte and the address of a line of code lead to it exactly if
it lies in the address space. -/
theorem labels_below_top
    (r : Ram)
    (start : UInt16)
    (count : Nat)
    (d : Debugger)
    (lines : Nat) :
    (∀ (k : Nat) (a : UInt16) (b : UInt8),
      (r.dump start count)[k]? = some (a, b) →
      let offset := start.toNat - r.base.toNat + k
      r.contents[offset]? = some b ∧
      (a.toNat = r.base.toNat + offset ↔ r.base.toNat + offset < 65536) ∧
      (r.base.toNat + offset < 65536 → r.read a = .ok b) ∧
      (65536 ≤ r.base.toNat + offset → offset < 65536 → r.read a = .error (.outOfBounds a)) ∧
      (65536 ≤ offset → a = r.label (offset - 65536))) ∧
    (∀ (k : Nat) (line : CodeLine),
      (d.codeView lines)[k]? = some line →
      ∃ (offset : Nat) (piece : Piece),
        (d.shownPieces lines)[k]? = some (offset, piece) ∧
        Piece.at? d.machine.memory offset = some piece ∧
        line.text = piece.text ∧
        (d.machine.addressOf? offset = some line.address ↔
          d.machine.map.ramBase.toNat + offset < 65536)) := by
  constructor
  · intro k a b hentry offset
    obtain ⟨hbyte, hlabel, hbelow, hbeyond⟩ := Ram.read_of_dump hentry
    refine ⟨hbyte, ?_, hbelow, hbeyond, ?_⟩
    · rw [hlabel]
      exact r.toNat_label_eq_iff offset
    · intro hlater
      rw [hlabel, r.label_sub offset hlater]
  · intro k line hline
    rw [codeView_eq, List.getElem?_map, Option.map_eq_some_iff] at hline
    obtain ⟨⟨offset, piece⟩, hentry, rfl⟩ := hline
    have hpiece := at?_of_mem_shownPieces (List.mem_of_getElem? hentry)
    exact ⟨offset, piece, hentry, hpiece, rfl, addressOf?_eq_label_iff d.machine offset⟩

/-- A debugger whose RAM has one byte in the address space and one beyond it. -/
def overhanging : Debugger where
  machine := MemoryMap.loaded { ramBase := 0xFFFF } #[7, 8]
  program := #[7, 8]

/-- The byte beyond the address space is labelled with an address that is not its own. -/
theorem labels_wrong_beyond_top :
    (¬ ∀ (r : Ram) (start : UInt16) (count : Nat) (a : UInt16) (b : UInt8),
      (a, b) ∈ r.dump start count → r.read a = .ok b) ∧
    (¬ ∀ (d : Debugger) (lines k : Nat) (line : CodeLine) (offset : Nat) (piece : Piece),
      (d.codeView lines)[k]? = some line →
      (d.shownPieces lines)[k]? = some (offset, piece) →
      d.machine.addressOf? offset = some line.address) := by
  constructor
  · intro hall
    have hread := hall { base := 0xFFFF, contents := #[7, 8] } 0xFFFF 2 0 8 (by decide)
    exact absurd hread (by decide)
  · intro hall
    have hline : (overhanging.codeView 2)[1]? = some ⟨0, "db 0x08", true⟩ := by decide +kernel
    have hpiece : (overhanging.shownPieces 2)[1]? = some (1, .byte 8) := by decide +kernel
    have haddress := hall overhanging 2 1 _ 1 _ hline hpiece
    exact absurd haddress (by decide)

end Debugger
end Microcomputer
