import Microcomputer.Proofs.Assembly.Outline
import Microcomputer.Proofs.Source.Partition

/-!
# The string printer

A program that prints the bytes of a text up to a zero byte.  It has no indexed access; on every
pass it writes the low byte of the address to be loaded next into its own code.

**Program.**  `Printer.outline text` is the program as sections: the code from address zero on, and
from 0x1000 on the text, the zero byte that ends it, and three cells.  `Printer.lines text` are the
lines of its source.

**Memory.**  `Printer.memory text patched offset` is what the RAM holds while the program runs: the
address in the patched instruction and the cell `offset` are all that ever changes.

**Results.**  `assemble_of_spells_outline`: a source that is written as the tokens of the program
assembles to the memory with both of them zero.  `spells_source`: the lines are.
-/

namespace Microcomputer
namespace Printer

section Images

open Source (Item Section Statement)
open Assembly

section Program

/-- The code, from address zero on. -/
def codeItems : List Item :=
  [ .instruction .load (.label "zero"),
    .instruction .store (.label "offset"),
    .label "repeat",
    .instruction .load (.label "offset"),
    .instruction .store (.address 0x000D),
    .instruction .load (.address 0x1000),
    .instruction .branchIfZero (.label "finished"),
    .instruction .store (.address 0xF000),
    .instruction .load (.label "offset"),
    .instruction .add (.label "one"),
    .instruction .store (.label "offset"),
    .instruction .load (.label "zero"),
    .instruction .branchIfZero (.label "repeat"),
    .label "finished",
    .instruction .branchIfZero (.label "finished") ]

/-- The cells behind the text and the zero byte that ends it. -/
def cellItems : List Item :=
  [ .label "zero", .byte 0,
    .label "one", .byte 1,
    .label "offset", .byte 0 ]

/-- The data, from address 0x1000 on. -/
def dataItems (text : List UInt8) : List Item :=
  .label "string" :: (text.map Item.byte ++ .byte 0 :: cellItems)

/-- The program that prints a text. -/
def outline (text : List UInt8) : List (UInt16 × List Item) :=
  [(0, codeItems), (0x1000, dataItems text)]

end Program

section Memory

/-- The address of a cell behind a text; the zero byte that ends the text comes first. -/
def cellAt (length k : Nat) : UInt16 :=
  UInt16.ofNat (0x1000 + (length + k))

/-- The instructions for a text of some length; the fourth one writes into the fifth. -/
def code
    (length : Nat)
    (patched : UInt8) :
    List (Instruction × UInt16) :=
  [ (.load, cellAt length 1),
    (.store, cellAt length 3),
    (.load, cellAt length 3),
    (.store, 0x000D),
    (.load, UInt16.ofNat (0x1000 + patched.toNat)),
    (.branchIfZero, 0x0024),
    (.store, 0xF000),
    (.load, cellAt length 3),
    (.add, cellAt length 2),
    (.store, cellAt length 3),
    (.load, cellAt length 1),
    (.branchIfZero, 0x0006),
    (.branchIfZero, 0x0024) ]

/-- The bytes of instructions. -/
def codeBytes (instructions : List (Instruction × UInt16)) : List UInt8 :=
  instructions.flatMap fun i => i.1.opcode :: addressBytes i.2

/-- The zeros between the code and the data. -/
def gapBytes : List UInt8 :=
  List.replicate 4057 0

/-- What the RAM holds: the code, zeros up to 0x1000, the text, and the cells. -/
def memory
    (text : List UInt8)
    (patched offset : UInt8) :
    List UInt8 :=
  codeBytes (code text.length patched) ++
    (gapBytes ++ (text ++ [0, 0, 1, offset]))

end Memory

section Labels

/-- The addresses of the labels in the code. -/
def codeLabels : Labels :=
  (({} : Labels).insert "repeat" 0x0006).insert "finished" 0x0024

/-- The addresses of all labels. -/
def labels (length : Nat) : Labels :=
  (((codeLabels.insert "string" 0x1000).insert "zero" (cellAt length 1)).insert "one"
    (cellAt length 2)).insert "offset" (cellAt length 3)

theorem layOut_code :
    layOutStatements {} 0 (Section.ofOutline (0, codeItems)).statements = .ok codeLabels := by
  simp [layOutStatements, record, define, addressSpace, Section.ofOutline, codeItems, Item.size,
    Instruction.size, codeLabels]

theorem layOut_data
    {text : List UInt8}
    (h : text.length ≤ 255) :
    layOutStatements codeLabels 0x1000 (Section.ofOutline (0x1000, dataItems text)).statements =
      .ok (labels text.length) := by
  have hstatements : (Section.ofOutline (0x1000, dataItems text)).statements =
      ⟨.label "string", .start⟩ :: (text.map (⟨.byte ·, .start⟩) ++
        ⟨.byte 0, .start⟩ :: cellItems.map (⟨·, .start⟩)) := by
    simp [Section.ofOutline, dataItems, Function.comp_def]
  rw [hstatements, layOutStatements_label (by simp [codeLabels]) (by decide),
    layOutStatements_bytes text (by omega), layOutStatements_byte (by omega)]
  simp only [cellItems, List.map_cons, List.map_nil]
  rw [layOutStatements_label (by simp [codeLabels]) (by omega), layOutStatements_byte (by omega),
    layOutStatements_label (by simp [codeLabels]) (by omega), layOutStatements_byte (by omega),
    layOutStatements_label (by simp [codeLabels]) (by omega), layOutStatements_byte (by omega)]
  rfl

/-- What the labels of the code stand for. -/
theorem lookup_labels (length : Nat) :
    (labels length)["zero"]? = some (cellAt length 1) ∧
    (labels length)["one"]? = some (cellAt length 2) ∧
    (labels length)["offset"]? = some (cellAt length 3) ∧
    (labels length)["repeat"]? = some 0x0006 ∧
    (labels length)["finished"]? = some 0x0024 := by
  simp [labels, codeLabels, Std.HashMap.getElem_insert]

end Labels

section Written

variable {text : List UInt8}

theorem write_code :
    writeStatements (labels text.length) #[] (Section.ofOutline (0, codeItems)).statements =
      .ok (codeBytes (code text.length 0)).toArray := by
  obtain ⟨hzero, hone, hoffset, hrepeat, hfinished⟩ := lookup_labels text.length
  simp [writeStatements, bytesOf, resolve, Section.ofOutline, codeItems, hzero, hone, hoffset,
    hrepeat, hfinished, codeBytes, code]

/-- The bytes of an item that is not an instruction. -/
def dataBytes (s : Statement) : List UInt8 :=
  match s.item with
  | .byte value => [value]
  | _ => []

theorem write_data (before : List UInt8) :
    writeStatements (labels text.length) before.toArray
        (Section.ofOutline (0x1000, dataItems text)).statements =
      .ok (before ++ (text ++ [0, 0, 1, 0])).toArray := by
  have hbytes : ∀ s ∈ (Section.ofOutline (0x1000, dataItems text)).statements,
      bytesOf (labels text.length) s = .ok (dataBytes s) := by
    intro s hs
    obtain ⟨item, hitem, rfl⟩ := List.mem_map.1 hs
    cases item with
    | label => rfl
    | byte => rfl
    | instruction => simp [dataItems, cellItems] at hitem
  rw [writeStatements_of_bytesOf hbytes]
  simp [Section.ofOutline, dataItems, cellItems, dataBytes, List.flatMap_map]

theorem length_codeBytes (instructions : List (Instruction × UInt16)) :
    (codeBytes instructions).length = 3 * instructions.length := by
  induction instructions with
  | nil => rfl
  | cons i instructions ih =>
      rw [codeBytes, List.flatMap_cons, List.length_append, ← codeBytes, ih]
      simp [addressBytes]
      omega

theorem layOut_outline (h : text.length ≤ 255) :
    layOut ((outline text).map Section.ofOutline) = .ok (labels text.length) := by
  have hfirst : overlapped? none (Section.ofOutline (0, codeItems)) = none := rfl
  have hsecond : overlapped? (some (Section.ofOutline (0, codeItems)))
      (Section.ofOutline (0x1000, dataItems text)) = none := by
    rw [overlapped?_eq_none_iff]
    intro p hp
    cases hp
    show 39 ≤ 4096
    decide
  have hcode : layOutStatements {} (Section.ofOutline (0, codeItems)).origin.toNat
      (Section.ofOutline (0, codeItems)).statements = .ok codeLabels := layOut_code
  have hdata : layOutStatements codeLabels (Section.ofOutline (0x1000, dataItems text)).origin.toNat
      (Section.ofOutline (0x1000, dataItems text)).statements = .ok (labels text.length) :=
    layOut_data h
  simp only [outline, List.map_cons, List.map_nil, layOut, layOutSections, hfirst, hsecond, hcode,
    hdata]

/-- The image that is written: nothing is moved, and the code is filled up to the data. -/
theorem write_outline :
    writeSections (labels text.length) #[] ((outline text).map Section.ofOutline) =
      .ok (memory text 0 0).toArray := by
  have hempty : fillTo #[] (Section.ofOutline (0, codeItems)).origin.toNat = #[] := rfl
  have hfilled : fillTo (codeBytes (code text.length 0)).toArray
      (Section.ofOutline (0x1000, dataItems text)).origin.toNat =
        (codeBytes (code text.length 0) ++ gapBytes).toArray := by
    have hsize : (codeBytes (code text.length 0)).toArray.size = 39 := by
      rw [List.size_toArray, length_codeBytes]
      rfl
    have horigin : (Section.ofOutline (0x1000, dataItems text)).origin.toNat = 4096 := rfl
    rw [fillTo, hsize, horigin, ← List.toArray_replicate, List.append_toArray, gapBytes]
  simp only [outline, List.map_cons, List.map_nil, writeSections, hempty, write_code, hfilled,
    write_data, memory, List.append_assoc]

/-- **The image.**  The program assembles to the memory that it starts with. -/
theorem assemble_of_spells_outline
    {source : String}
    (h : text.length ≤ 255)
    (hspells : Source.Spells source.toList (Source.outlineKinds (outline text))) :
    assemble source = .ok (memory text 0 0).toArray := by
  have hitems : ∀ s ∈ outline text, s.2 ≠ [] := by
    simp [outline, codeItems, dataItems]
  refine assemble_of_spells hspells (by simp [outline]) hitems ?_
  have horder : inOrder ((outline text).map Section.ofOutline) =
      (outline text).map Section.ofOutline := by
    simp [inOrder, outline, List.mergeSort, List.MergeSort.Internal.splitInTwo,
      Section.ofOutline]
  rw [ofSections, horder, layOut_outline h]
  exact write_outline

end Written

end Images

section Sources

open Source (Item Spells TokenKind EndsName linesText lineKinds? outlineKinds)

section Lines

/-- The lines before the text. -/
def linesBefore : List String :=
  [ "",
    "            .org 0x0",
    "            load [zero]",
    "            store [offset]",
    "    repeat: load [offset]",
    "            store [0x000D]      ; low byte of the next instruction's address",
    "            load [0x1000]",
    "            brz [finished]",
    "            store [0xf000]",
    "            load [offset]",
    "            add [one]",
    "            store [offset]",
    "            load [zero]",
    "            brz [repeat]",
    "  finished: brz [finished]",
    "",
    "            .org 0x1000" ]

/-- A literal byte of the text. -/
def byteItem (value : UInt8) : String :=
  "db " ++ Text.hexLiteral 2 value.toNat ++ " "

/-- The line with the text. -/
def textLine (text : List UInt8) : String :=
  "    string: " ++ String.join (text.map byteItem)

/-- The lines behind the text: the zero byte that ends it, and the cells. -/
def linesBehind : List String :=
  [ "            db 0x00",
    "      zero: db 0x00",
    "       one: db 0x01",
    "    offset: db 0x00" ]

/-- The lines of the program that prints a text. -/
def lines (text : List UInt8) : List String :=
  linesBefore ++ textLine text :: linesBehind

/-- The source of the program that prints a text. -/
def source (text : List UInt8) : String :=
  String.join ((lines text).map (· ++ "\n"))

theorem toList_source (text : List UInt8) :
    (source text).toList =
      linesText linesBefore ++ ((textLine text).toList ++ '\n' :: linesText linesBehind) := by
  simp [source, lines, linesText, List.flatMap_map]

end Lines

section Kinds

theorem lineKinds_before :
    linesBefore.mapM lineKinds? =
      some
        [ [],
          [.origin, .number 0],
          Item.kinds (.instruction .load (.label "zero")),
          Item.kinds (.instruction .store (.label "offset")),
          Item.kinds (.label "repeat") ++ Item.kinds (.instruction .load (.label "offset")),
          Item.kinds (.instruction .store (.address 0x000D)),
          Item.kinds (.instruction .load (.address 0x1000)),
          Item.kinds (.instruction .branchIfZero (.label "finished")),
          Item.kinds (.instruction .store (.address 0xF000)),
          Item.kinds (.instruction .load (.label "offset")),
          Item.kinds (.instruction .add (.label "one")),
          Item.kinds (.instruction .store (.label "offset")),
          Item.kinds (.instruction .load (.label "zero")),
          Item.kinds (.instruction .branchIfZero (.label "repeat")),
          Item.kinds (.label "finished") ++
            Item.kinds (.instruction .branchIfZero (.label "finished")),
          [],
          [.origin, .number 0x1000] ] := by
  decide +kernel

theorem lineKinds_behind :
    linesBehind.mapM lineKinds? =
      some
        [ Item.kinds (.byte 0),
          Item.kinds (.label "zero") ++ Item.kinds (.byte 0),
          Item.kinds (.label "one") ++ Item.kinds (.byte 1),
          Item.kinds (.label "offset") ++ Item.kinds (.byte 0) ] := by
  decide +kernel

variable {rest : List Char} {kinds : List TokenKind}

theorem spells_byteItem
    (value : UInt8)
    (h : Spells rest kinds) :
    Spells ((byteItem value).toList ++ rest) (Item.kinds (.byte value) ++ kinds) := by
  have hvalue : value.toNat < UInt32.size := Nat.lt_trans value.toNat_lt (by decide)
  have hblank : EndsName (' ' :: rest) := .of_cons (by decide)
  have hnumber := (h.blank (c := ' ') (by decide)).hexLiteral 2 hvalue hblank
  have hdb : Source.IsName "db" := by decide
  have hspells := (hnumber.blank (c := ' ') (by decide)).name hdb (.of_cons (by decide))
  simpa [byteItem, Item.kinds] using hspells

theorem spells_byteItems
    (text : List UInt8)
    (h : Spells rest kinds) :
    Spells ((text.map byteItem).flatMap String.toList ++ rest)
      ((text.map Item.byte).flatMap Item.kinds ++ kinds) := by
  induction text with
  | nil => exact h
  | cons value text ih => simpa using spells_byteItem value ih

theorem spells_textLine
    (text : List UInt8)
    (h : Spells rest kinds) :
    Spells ((textLine text).toList ++ rest)
      (Item.kinds (.label "string") ++ ((text.map Item.byte).flatMap Item.kinds ++ kinds)) := by
  have hcolon := ((spells_byteItems text h).blank (c := ' ') (by decide)).spelled
    .colon (by simp [TokenKind.isWord])
  have hname : Source.IsName "string" := by decide
  have hlabel := hcolon.name hname (.of_cons (by decide))
  have hindent : ∀ behind, Source.GapBefore behind [' ', ' ', ' ', ' '] := fun behind =>
    .blank (by decide) (.blank (by decide) (.blank (by decide) (.blank (by decide) .nil)))
  simpa [textLine, Item.kinds] using hlabel.gap (hindent _)

/-- **The source.**  It is written as the tokens of the program. -/
theorem spells_source (text : List UInt8) :
    Spells (source text).toList (outlineKinds (outline text)) := by
  have hbehind := Source.spells_nil.lines lineKinds_behind
  rw [List.append_nil, List.append_nil] at hbehind
  have htext := spells_textLine text (hbehind.blank (c := '\n') (by decide))
  have hspells := htext.lines lineKinds_before
  rw [toList_source]
  simpa [outlineKinds, outline, codeItems, dataItems, cellItems] using hspells

end Kinds

end Sources

end Printer
end Microcomputer
