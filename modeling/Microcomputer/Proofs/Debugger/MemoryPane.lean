import Microcomputer.Debugger.View
import Microcomputer.Proofs.Debugger.Operations
import Microcomputer.Proofs.Screen.Boxes
import Microcomputer.Proofs.Text.Numeral

/-!
# The memory on the screen

**Rows.**  `rowHead` and `byteLook` lay out a row of memory by numbers alone, and
`memoryLine_cells` says that this is what the debugger draws.

**Box.**  `shownMemory` cuts a line of the box out of the screen, and `shownMemory_eq` says what
stands there.  `place_of_marks`: only the byte at the program counter is marked as such.

**Scrolling.**  `Scrolled.perform` carries the bound of the scroll position over one operation and
`scrolled_of_reached` over all of them.

**Result.**  `memoryBox_shows`.
-/

namespace Microcomputer

theorem Machine.addressOf?_eq_some_iff
    {m : Machine}
    {offset : Nat}
    {address : UInt16} :
    m.addressOf? offset = some address ↔ m.map.ramBase.toNat + offset = address.toNat := by
  have hlt := address.toNat_lt
  unfold addressOf?
  split
  · next hbelow =>
      rw [Option.some.injEq, ← UInt16.toNat_inj, UInt16.toNat_ofNat_of_lt' hbelow]
  · next hbeyond =>
      simp only [reduceCtorEq, false_iff]
      omega

theorem Machine.size_memory_drive
    (m : Machine)
    (drive : Drive) :
    (m.perform drive.operation).2.memory.size = m.memory.size := by
  rw [perform_drive]
  change (m.board.run (m.ticksOf drive)).2.bus.memory.size = m.board.bus.memory.size
  rw [Board.bus_run, Bus.memory, Bus.memory, Bus.ram?_replay]
  cases m.board.bus.ram? with
  | none => rfl
  | some r => exact Array.size_mapIdx

theorem Machine.size_memory_tick (m : Machine) : m.tick.2.memory.size = m.memory.size := by
  simpa [Drive.operation, perform, reported_snd] using m.size_memory_drive .tick

theorem Machine.size_memory_step (m : Machine) : m.step.2.memory.size = m.memory.size := by
  simpa [Drive.operation, perform, reported_snd] using m.size_memory_drive .step

namespace Debugger

open Screen (Row Style Cell Line Pane)

section Rows

variable (d : Debugger)

/-- How the byte at an offset of the RAM is shown. -/
def byteLook
    (offset : Nat)
    (byte : UInt8) :
    Style :=
  let place := d.machine.map.ramBase.toNat + offset
  if place = d.machine.cpu.regs.pc.toNat then { color := some .yellow, bold := true }
  else if place = d.machine.cpu.regs.index.toNat then .ofColor .magenta
  else if byte ≠ 0 then .ofColor .white
  else .ofColor .darkGray

/-- The text before the bytes of a row of memory. -/
def rowHead (row : Nat) : String :=
  let place := d.machine.map.ramBase.toNat + 16 * row
  (if place ≤ 65535 then Text.hex 4 place else "----") ++ ": "

/-- The bytes of a row of memory, each with its offset. -/
def rowEntries (row : Nat) : List (Nat × UInt8) :=
  ((d.machine.memory.toList.drop (16 * row)).take 16).mapIdx fun k byte => (16 * row + k, byte)

/-- The cells of one byte. -/
def byteCells : Nat × UInt8 → Row
  | (offset, byte) => Row.ofText (Text.hex 2 byte.toNat ++ " ") (d.byteLook offset byte)

/-- The cells of a row of memory. -/
def rowCells (row : Nat) : Row :=
  Row.ofText (d.rowHead row) (.ofColor .darkGray) ++ (d.rowEntries row).flatMap d.byteCells

/-- A row of memory as it is shown in so many columns; beyond the memory, blanks. -/
def shownRow
    (row columns : Nat) :
    Row :=
  let cells := if 16 * row < d.machine.memory.size then d.rowCells row else []
  (cells ++ List.replicate columns ({ char := ' ', style := {} } : Cell)).take columns

variable {d}

theorem byteStyle_eq_byteLook (offset : Nat) (byte : UInt8) :
    byteStyle d.machine.cpu.regs (d.machine.addressOf? offset) byte = d.byteLook offset byte := by
  simp only [byteStyle, byteLook, Machine.addressOf?_eq_some_iff, currentStyle]

theorem rowLabel_eq_rowHead (row : Nat) : d.rowLabel (16 * row) ++ ": " = d.rowHead row := by
  unfold rowLabel rowHead
  cases haddress : d.machine.addressOf? (16 * row) with
  | some address =>
      have hplace := Machine.addressOf?_eq_some_iff.1 haddress
      have hlt := address.toNat_lt
      simp only
      rw [if_pos (by omega), hplace]
  | none =>
      have hbeyond : ¬ d.machine.map.ramBase.toNat + 16 * row < 65536 := by
        intro hbelow
        simp [Machine.addressOf?, hbelow] at haddress
      simp only
      rw [if_neg (by omega)]

theorem memoryLine_cells (row columns : Nat) :
    (d.memoryLine row).cells columns {} = (d.rowCells row).fit columns {} := by
  have hbytes : (d.machine.memory.extract (16 * row) (16 * row + 16)).toList =
      (d.machine.memory.toList.drop (16 * row)).take 16 := by
    simp [List.take_drop]
  simp only [memoryLine, Line.cells, Style.above_default, List.flatMap_cons, rowBytes,
    Nat.mul_comm row 16, hbytes, rowLabel_eq_rowHead, byteStyle_eq_byteLook, colored]
  rw [rowCells, rowEntries, List.mapIdx_eq_zipIdx_map, List.mapIdx_eq_zipIdx_map, List.flatMap_map,
    List.flatMap_map]
  rfl

end Rows

section Places

variable {d : Debugger} {row : Nat}

theorem length_rowHead : (d.rowHead row).toList.length = 6 := by
  unfold rowHead
  dsimp only
  split
  · next hplace =>
      have hdigits : (Text.hexDigits 4 (d.machine.map.ramBase.toNat + 16 * row)).length = 4 :=
        Text.length_hexDigits (by decide) (by omega)
      simp [Text.toList_hex, hdigits]
  · simp

theorem length_byteCells (entry : Nat × UInt8) : (d.byteCells entry).length = 3 := by
  have hdigits : (Text.hexDigits 2 entry.2.toNat).length = 2 :=
    Text.length_hexDigits (by decide) entry.2.toNat_lt
  simp [byteCells, Text.toList_hex, hdigits]

theorem place_of_rowEntries
    {place : Nat}
    {entry : Nat × UInt8}
    (h : (d.rowEntries row)[place]? = some entry) :
    place < 16 ∧ entry.1 = 16 * row + place := by
  obtain ⟨hlt, hentry⟩ := List.getElem?_eq_some_iff.1 h
  simp only [rowEntries, List.length_mapIdx, List.length_take] at hlt
  simp only [rowEntries, List.getElem_mapIdx] at hentry
  exact ⟨by omega, (congrArg Prod.fst hentry).symm⟩

theorem byteLook_eq_currentStyle_iff
    {offset : Nat}
    {byte : UInt8} :
    d.byteLook offset byte = currentStyle ↔
      d.machine.map.ramBase.toNat + offset = d.machine.cpu.regs.pc.toNat := by
  unfold byteLook
  dsimp only
  split
  · next hpc => simp [hpc, currentStyle]
  · next hpc =>
      simp only [hpc, iff_false]
      split
      · decide
      · split
        · decide
        · decide

/-- Behind the head, every three columns are those of one byte. -/
theorem getElem?_rowCells (column : Nat) :
    (d.rowCells row)[6 + column]? =
      (d.rowEntries row)[column / 3]?.bind fun entry => (d.byteCells entry)[column % 3]? := by
  have hhead : (Row.ofText (d.rowHead row) (.ofColor .darkGray)).length = 6 := by
    rw [Row.length_ofText, length_rowHead]
  rw [rowCells, List.getElem?_append_right (by omega), hhead, Nat.add_sub_cancel_left]
  exact Row.getElem?_blocks (by decide) (fun entry _ => length_byteCells entry) column

theorem place_of_rowCells
    {column : Nat}
    {cell : Cell}
    (h : (d.rowCells row)[column]? = some cell)
    (hstyle : cell.style = currentStyle) :
    6 ≤ column ∧ (column - 6) / 3 < 16 ∧
      d.machine.map.ramBase.toNat + (16 * row + (column - 6) / 3) =
        d.machine.cpu.regs.pc.toNat := by
  by_cases hcolumn : 6 ≤ column
  · obtain ⟨behind, rfl⟩ := Nat.exists_eq_add_of_le hcolumn
    rw [getElem?_rowCells, Option.bind_eq_some_iff] at h
    obtain ⟨⟨offset, byte⟩, hentry, hcell⟩ := h
    obtain ⟨hplace, hoffset⟩ := place_of_rowEntries hentry
    have hlook : d.byteLook offset byte = currentStyle :=
      (Row.style_of_mem_ofText (List.mem_of_getElem? hcell)).symm.trans hstyle
    have hpc := byteLook_eq_currentStyle_iff.1 hlook
    rw [Nat.add_sub_cancel_left, ← hoffset]
    exact ⟨hcolumn, hplace, hpc⟩
  · have hhead : cell ∈ Row.ofText (d.rowHead row) (.ofColor .darkGray) := by
      rw [rowCells, List.getElem?_append_left (by simp [length_rowHead]; omega)] at h
      exact List.mem_of_getElem? h
    rw [Row.style_of_mem_ofText hhead] at hstyle
    exact absurd hstyle (by decide)

theorem shownRow_cases
    {columns column : Nat}
    {cell : Cell}
    (h : (d.shownRow row columns)[column]? = some cell) :
    (d.rowCells row)[column]? = some cell ∨ cell.style = {} := by
  simp only [shownRow] at h
  by_cases hrow : 16 * row < d.machine.memory.size
  · rw [if_pos hrow, List.getElem?_take] at h
    split at h
    · rw [List.getElem?_append] at h
      split at h
      · exact Or.inl h
      · exact Or.inr (by rw [List.eq_of_mem_replicate (List.mem_of_getElem? h)])
    · cases h
  · rw [if_neg hrow, List.nil_append] at h
    have hblank := List.eq_of_mem_replicate (List.mem_of_mem_take (List.mem_of_getElem? h))
    exact Or.inr (by rw [hblank])

end Places

section Box

variable (d : Debugger) (width height k : Nat)

/-- What a screen shows between the borders of the memory box, in one of its lines. -/
def shownMemory : Option Row :=
  ((d.draw width height)[k + 1]?).map fun row => (row.drop (width / 2 + 1)).take (width / 2 - 2)

/-- A cell of the memory box is shown in the style of what the program counter points at. -/
def Marks (column : Nat) : Prop :=
  ∃ (row : Row) (cell : Cell),
    d.shownMemory width height k = some row ∧ row[column]? = some cell ∧ cell.style = currentStyle

variable {d width height k}

theorem getElem?_memoryPane
    (h : k < height - 11) :
    (d.memoryPane (memoryHeight height)).lines[k]? =
      if 16 * (d.scroll + k) < d.machine.memory.size then some (d.memoryLine (d.scroll + k))
      else none := by
  have hrow : k < min (memoryHeight height - 2) (d.rowCount - d.scroll) ↔
      16 * (d.scroll + k) < d.machine.memory.size := by
    simp only [memoryHeight, rowCount, rowBytes]
    omega
  rw [memoryPane, List.getElem?_map]
  by_cases hk : 16 * (d.scroll + k) < d.machine.memory.size
  · rw [List.getElem?_range (hrow.2 hk), if_pos hk]
    rfl
  · have hend := Nat.le_of_not_lt (mt hrow.1 hk)
    rw [List.getElem?_eq_none (by rwa [List.length_range]), if_neg hk]
    rfl

theorem getElem?_draw
    (hwidth : 4 ≤ width)
    (h : k < height - 11) :
    ∃ left : Row,
      left.length = width / 2 ∧
      (d.draw width height)[k + 1]? = some (left ++
        (d.memoryPane (memoryHeight height)).inner (width / 2 - 2)
          ((d.memoryPane (memoryHeight height)).lines[k]?.getD { spans := [] })) := by
  let code := (d.codePane (codeHeight height)).rows (width / 2) (codeHeight height)
  let memory := (d.memoryPane (memoryHeight height)).rows (width / 2) (memoryHeight height)
  -- The two boxes are the first of their halves, and both reach below this row.
  have hcode : k + 1 < code.length := by
    rw [Pane.length_rows (by simp only [codeHeight]; omega), codeHeight]
    omega
  have hmemory : k + 1 < memory.length := by
    rw [Pane.length_rows (by simp only [memoryHeight]; omega), memoryHeight]
    omega
  obtain ⟨left, hline⟩ : ∃ left, code[k + 1]? = some left := ⟨_, List.getElem?_eq_getElem hcode⟩
  have hleft : (d.leftRows (width / 2) height)[k + 1]? = some left := by
    rw [leftRows, List.append_assoc, List.getElem?_append_left hcode, hline]
  have hright : (d.rightRows (width / 2) height)[k + 1]? = memory[k + 1]? := by
    rw [rightRows, List.append_assoc, List.getElem?_append_left hmemory]
  refine ⟨left, Pane.length_of_mem_rows (by omega) (List.mem_of_getElem? hline), ?_⟩
  rw [draw, List.getElem?_zipWith, hleft, hright,
    Pane.getElem?_rows (by simp only [memoryHeight]; omega)]

/-- **The memory box.** A line shows the row that lies as far behind the scroll position. -/
theorem shownMemory_eq
    (hwidth : 4 ≤ width)
    (h : k < height - 11) :
    d.shownMemory width height k = some (d.shownRow (d.scroll + k) (width / 2 - 2)) := by
  obtain ⟨left, hleft, hrow⟩ := getElem?_draw (d := d) hwidth h
  rw [shownMemory, hrow, Option.map_some, Option.some.injEq, ← List.drop_drop,
    List.drop_left' hleft, Pane.inside_inner, getElem?_memoryPane h]
  change Line.cells _ _ {} = _
  rw [shownRow, ← Row.fit_eq_take]
  split
  · exact memoryLine_cells _ _
  · rfl

theorem place_of_marks
    {column : Nat}
    (hwidth : 4 ≤ width)
    (h : k < height - 11)
    (hmarks : d.Marks width height k column) :
    6 ≤ column ∧ (column - 6) / 3 < 16 ∧
      d.machine.map.ramBase.toNat + (16 * (d.scroll + k) + (column - 6) / 3) =
        d.machine.cpu.regs.pc.toNat := by
  obtain ⟨row, cell, hrow, hcell, hstyle⟩ := hmarks
  rw [shownMemory_eq hwidth h, Option.some.injEq] at hrow
  subst hrow
  rcases shownRow_cases hcell with hmemory | hblank
  · exact place_of_rowCells hmemory hstyle
  · rw [hblank] at hstyle
    exact absurd hstyle (by decide)

end Box

section Scrolling

variable {program : Image} {map : MemoryMap} {d fresh : Debugger}

/-- What a debugger can come to by its operations. -/
inductive Reached (fresh : Debugger) : Debugger → Prop
  | start : Reached fresh fresh
  | perform {d : Debugger} (operation : Operation) :
      Reached fresh d → Reached fresh (d.perform operation)
  /-- Continuous execution is ended, or the debugger itself, and the status line says so. -/
  | control {d : Debugger} (running quitting : Bool) (status : Status) :
      Reached fresh d → Reached fresh { d with running, quitting, status }

/-- The memory of a wired machine has the size of the program, and the view starts with one of its
rows. -/
structure Scrolled
    (program : Image)
    (map : MemoryMap)
    (d : Debugger) :
    Prop
    extends Holding program map d where
  size_eq : d.machine.memory.size = program.size
  scroll_le : d.scroll ≤ (program.size - 1) / 16

theorem scrolled_of_start (h : start program map = .ok fresh) : fresh.Scrolled program map := by
  obtain ⟨hmachine, hholding⟩ := machine_of_start h
  have hscroll : fresh.scroll = 0 := by
    cases hbuilt : Machine.ofMap map with
    | error e => simp [start, hbuilt, Except.map] at h
    | ok m =>
        simp only [start, hbuilt, Except.map, Except.ok.injEq] at h
        rw [← h]
  refine ⟨hholding, ?_, ?_⟩
  · rw [hmachine]
    exact congrArg Array.size (MemoryMap.memory_wired map program #[])
  · rw [hscroll]
    exact Nat.zero_le _

theorem Scrolled.size_perform
    (h : d.Scrolled program map)
    (operation : Operation) :
    (d.perform operation).machine.memory.size = program.size := by
  rw [← h.size_eq]
  cases operation with
  | tick =>
      rw [Debugger.perform, tick_frame]
      exact d.machine.size_memory_tick
  | step =>
      rw [Debugger.perform, step_frame]
      exact d.machine.size_memory_step
  | update =>
      rw [Debugger.perform]
      rcases d.update_machine.1 with hsame | hstep
      · rw [hsame]
      · rw [hstep]
        exact d.machine.size_memory_step
  | toggleBreakpoint => rw [Debugger.perform, toggleBreakpoint_frame]
  | reset =>
      rw [h.size_eq, Debugger.perform, h.toHolding.reset]
      exact congrArg Array.size (MemoryMap.memory_wired map program #[])
  | run => rfl
  | scroll rows => rfl
  | setRegisters regs => rfl

theorem scroll_perform_le
    (d : Debugger)
    (operation : Operation) :
    (d.perform operation).scroll = d.scroll ∨ (d.perform operation).scroll ≤ d.lastRow := by
  cases operation with
  | scroll rows => exact Or.inr (Nat.min_le_right _ _)
  | tick => exact Or.inl (by rw [perform, tick_frame])
  | step => exact Or.inl (by rw [perform, step_frame])
  | update =>
      refine Or.inl ?_
      rw [perform]
      rcases d.update_cases with hsame | hstep | hend
      · rw [hsame]
      · rw [hstep, checkBreakpoint_frame, step_frame]
      · rw [hend]
  | toggleBreakpoint => exact Or.inl (by rw [perform, toggleBreakpoint_frame])
  | run => exact Or.inl rfl
  | reset => exact Or.inl rfl
  | setRegisters regs => exact Or.inl rfl

theorem Scrolled.perform
    (h : d.Scrolled program map)
    (operation : Operation) :
    (d.perform operation).Scrolled program map := by
  refine ⟨h.toHolding.perform operation, h.size_perform operation, ?_⟩
  rcases d.scroll_perform_le operation with hsame | hlast
  · rw [hsame]
    exact h.scroll_le
  · rw [lastRow, h.size_eq] at hlast
    exact hlast

theorem scrolled_of_reached
    (hstart : start program map = .ok fresh)
    (h : Reached fresh d) :
    d.Scrolled program map := by
  induction h with
  | start => exact scrolled_of_start hstart
  | perform operation _ ih => exact ih.perform operation
  | control running quitting status _ ih =>
      exact ⟨⟨ih.program_eq, ih.wired⟩, ih.size_eq, ih.scroll_le⟩

end Scrolling

/-- What the memory box of a screen shows. -/
structure MemoryBox
    (d : Debugger)
    (width height : Nat) :
    Prop where
  /-- The rows of memory from the scroll position on, as far as there is room. -/
  shown :
    ∀ k < height - 11,
      d.shownMemory width height k = some (d.shownRow (d.scroll + k) (width / 2 - 2))
  /-- The cells that are marked as those of the byte at the program counter are the three of one
  byte. -/
  marked_unique :
    ∀ j < height - 11, ∀ k < height - 11, ∀ column column' : Nat,
      d.Marks width height j column → d.Marks width height k column' →
      6 ≤ column ∧ 6 ≤ column' ∧ j = k ∧ (column - 6) / 3 = (column' - 6) / 3
  /-- None is marked while the program counter is below the RAM. -/
  unmarked :
    d.machine.cpu.regs.pc < d.machine.map.ramBase →
      ∀ k < height - 11, ∀ column : Nat, ¬ d.Marks width height k column

/-- **The memory on the screen.** The lines show the rows of memory from the scroll position on,
which never goes beyond the last row. -/
theorem memoryBox_shows
    {width height : Nat}
    (hwidth : 4 ≤ width)
    (hheight : 12 ≤ height) :
    (∀ d : Debugger, MemoryBox d width height) ∧
    (∀ (program : Image) (map : MemoryMap) (fresh d : Debugger),
      start program map = .ok fresh → Reached fresh d →
      d.scroll ≤ (d.machine.memory.size - 1) / 16 ∧
      (0 < d.machine.memory.size →
        d.shownMemory width height 0 =
          some ((d.rowCells d.scroll ++
            List.replicate (width / 2 - 2) ({ char := ' ', style := {} } : Cell)).take
              (width / 2 - 2)) ∧
        d.rowEntries d.scroll ≠ [])) := by
  constructor
  · intro d
    exact
      { shown := fun k hk => shownMemory_eq hwidth hk
        marked_unique := by
          intro j hj k hk column column' hmarks hmarks'
          have hplace := place_of_marks hwidth hj hmarks
          have hplace' := place_of_marks hwidth hk hmarks'
          omega
        unmarked := by
          intro hbelow k hk column hmarks
          have hplace := place_of_marks hwidth hk hmarks
          have hlt := UInt16.lt_iff_toNat_lt.1 hbelow
          omega }
  · intro program map fresh d hstart hreached
    have hscrolled := scrolled_of_reached hstart hreached
    have hlast : d.scroll ≤ (d.machine.memory.size - 1) / 16 := by
      rw [hscrolled.size_eq]
      exact hscrolled.scroll_le
    refine ⟨hlast, fun hmemory => ?_⟩
    have hrow : 16 * d.scroll < d.machine.memory.size := by omega
    refine ⟨?_, ?_⟩
    · rw [shownMemory_eq hwidth (by omega), shownRow, Nat.add_zero, if_pos hrow]
    · simpa [rowEntries] using hrow

/-- A debugger for twenty bytes, the last twelve of them beyond the address space. -/
def uphill : Debugger where
  machine := MemoryMap.loaded { ramBase := 0xFFF8 } (Array.replicate 20 7)
  program := Array.replicate 20 7

theorem uphill_memoryBox :
    let d := ((uphill.perform (.setRegisters { pc := 0xFFF9 })).perform (.scroll (-3))).perform
      (.scroll 100)
    start (Array.replicate 20 7) { ramBase := 0xFFF8 } = .ok uphill ∧
    Reached uphill d ∧
    0 < d.machine.memory.size ∧
    d.machine.map.ramBase ≤ d.machine.cpu.regs.pc ∧
    MemoryBox d 80 24 ∧
    d.scroll = 1 ∧
    d.scroll ≤ (d.machine.memory.size - 1) / 16 ∧
    (d.shownMemory 80 24 0).map Row.text = some "----: 07 07 07 07                     " ∧
    d.rowEntries d.scroll ≠ [] := by
  intro d
  have hstart : start (Array.replicate 20 7) { ramBase := 0xFFF8 } = .ok uphill := by
    decide +kernel
  have hreached : Reached uphill d := .perform _ (.perform _ (.perform _ .start))
  have hmemory : 0 < d.machine.memory.size := by decide +kernel
  obtain ⟨hbox, hscroll⟩ := @memoryBox_shows 80 24 (by decide) (by decide)
  obtain ⟨hlast, hrow⟩ := hscroll _ _ _ d hstart hreached
  obtain ⟨hshown, hentries⟩ := hrow hmemory
  have hbase : d.machine.map.ramBase ≤ d.machine.cpu.regs.pc := by decide +kernel
  have hscrolled : d.scroll = 1 := by decide +kernel
  refine ⟨hstart, hreached, hmemory, hbase, hbox d, hscrolled, hlast, ?_, hentries⟩
  rw [hshown]
  decide +kernel

end Debugger
end Microcomputer
