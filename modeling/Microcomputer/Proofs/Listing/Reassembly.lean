import Microcomputer.Proofs.Assembly.Image
import Microcomputer.Proofs.Listing.Sweep
import Microcomputer.Proofs.Source.Recognition
import Microcomputer.Proofs.Source.Spelling

/-!
# Reassembly

**Text.**  `disassembly` is a source of one section: the origin, and then the text of each piece of
the image on a line of its own.

**Argument.**  The text of a piece spells its tokens (`spells_text`), these are the tokens that its
item is written as (`kinds_item`), and the bytes of that item are the bytes of the piece
(`bytesOf_item`).  Different pieces have different texts (`text_injective`).

**Result.**  `assemble_disassembly`.
-/

namespace Microcomputer

open Source (DerivesProgram DerivesSection DerivesStatements EndsName Item Section
  Spells Statement Token TokenKind totalSize totalSize_cons)

namespace Piece

/-- The item that a piece reads as. -/
def item : Piece → Item
  | instruction i address => .instruction i (.address address)
  | byte value => .byte value

/-- The tokens of the text of a piece. -/
def kinds : Piece → List TokenKind
  | instruction i address =>
      [.name i.mnemonic, .openBracket, .number (UInt32.ofNat address.toNat), .closeBracket]
  | byte value => [.name "db", .number (UInt32.ofNat value.toNat)]

theorem isName_mnemonic (i : Instruction) : Source.IsName i.mnemonic := by
  cases i <;> decide

section Spelling

variable {rest : List Char} {others : List TokenKind}

theorem spells_text
    (piece : Piece)
    (h : Spells rest others)
    (hend : EndsName rest) :
    Spells (piece.text.toList ++ rest) (piece.kinds ++ others) := by
  cases piece with
  | instruction i address =>
      have hvalue : address.toNat < UInt32.size := address.toNat_lt.trans (by decide)
      have haddress := h.closeBracket.hexLiteral 4 hvalue (.of_cons (by decide))
      have hopen := haddress.openBracket.blank (c := ' ') (by decide)
      have hname := hopen.name (isName_mnemonic i) (.of_cons (by decide))
      simpa [text, Instruction.written, kinds] using hname
  | byte value =>
      have hword : Source.IsName "db" := by decide
      have hvalue : value.toNat < UInt32.size := value.toNat_lt.trans (by decide)
      have hnumber := (h.hexLiteral 2 hvalue hend).blank (c := ' ') (by decide)
      have hname := hnumber.name hword (.of_cons (by decide))
      simpa [text, kinds] using hname

theorem spells_lines
    (pieces : List Piece) :
    Spells (String.join (pieces.map fun p => p.text ++ "\n")).toList (pieces.flatMap kinds) := by
  induction pieces with
  | nil => exact Source.spells_nil
  | cons piece pieces ih =>
      have hline := ih.blank (c := '\n') (by decide)
      have htext := piece.spells_text hline (.of_cons (by decide))
      simpa [String.join_cons] using htext

end Spelling

section Texts

theorem mnemonic_injective : Function.Injective Instruction.mnemonic := by
  have hread : ∀ i : Instruction, Instruction.ofMnemonic? i.mnemonic = some i := fun i =>
    Instruction.ofMnemonic?_eq_some_iff.2 (by simp [Text.sameWord])
  intro i j h
  exact Option.some.inj ((hread i).symm.trans ((congrArg _ h).trans (hread j)))

theorem kinds_injective : Function.Injective kinds := by
  intro p q h
  cases p with
  | instruction i address =>
      cases q with
      | byte value => simp [kinds] at h
      | instruction j other =>
          simp only [kinds, List.cons.injEq, Source.TokenKind.name.injEq,
            Source.TokenKind.number.injEq] at h
          obtain ⟨hname, -, hnumber, -⟩ := h
          rw [UInt32.ofNat_uInt16ToNat, UInt32.ofNat_uInt16ToNat] at hnumber
          rw [mnemonic_injective hname, UInt16.toUInt32_inj.1 hnumber]
  | byte value =>
      cases q with
      | instruction j other => simp [kinds] at h
      | byte other =>
          simp only [kinds, List.cons.injEq, Source.TokenKind.number.injEq] at h
          obtain ⟨-, hnumber, -⟩ := h
          rw [UInt32.ofNat_uInt8ToNat, UInt32.ofNat_uInt8ToNat] at hnumber
          rw [UInt8.toUInt32_inj.1 hnumber]

/-- The text of a piece tells the piece. -/
theorem text_injective : Function.Injective text := by
  intro p q h
  have hend : Source.EndsName [] := Source.endsName_iff.2 rfl
  have hp := p.spells_text Source.spells_nil hend
  have hq := q.spells_text Source.spells_nil hend
  rw [h] at hp
  simpa using kinds_injective (by simpa using hp.unique hq)

end Texts

section Derivation

theorem kinds_item (piece : Piece) : piece.item.kinds = piece.kinds := by
  cases piece with
  | instruction i address =>
      simp only [item, Source.Item.kinds, Source.Operand.kind, kinds, UInt32.ofNat_uInt16ToNat]
  | byte value => simp only [item, Source.Item.kinds, kinds, UInt32.ofNat_uInt8ToNat]

theorem bytesOf_item
    {labels : Assembly.Labels}
    {s : Statement}
    {piece : Piece}
    (h : s.item = piece.item) :
    Assembly.bytesOf labels s = .ok piece.bytes := by
  cases piece with
  | instruction i address => simp only [Assembly.bytesOf, h, item, Assembly.resolve, bytes]
  | byte value => simp only [Assembly.bytesOf, h, item, bytes]

theorem size_item (piece : Piece) : piece.item.size = piece.size := by
  cases piece <;> rfl

theorem derivesStatements_kinds
    {tokens : List Token}
    {pieces : List Piece}
    (h : tokens.map Token.kind = pieces.flatMap kinds) :
    ∃ statements, DerivesStatements tokens statements ∧
      statements.map Statement.item = pieces.map item := by
  have hkinds : (pieces.map item).flatMap Source.Item.kinds = pieces.flatMap kinds := by
    simp only [List.flatMap_map, kinds_item]
  have hderives := Source.derivesItems_kinds (pieces.map item)
  rw [hkinds] at hderives
  exact hderives.statements h

end Derivation

section Layout

open Assembly (Labels layOutStatements writeStatements)

variable {pieces : List Piece} {statements : List Statement}

theorem totalSize_of_items
    (h : statements.map Statement.item = pieces.map item) :
    totalSize statements = (pieces.flatMap bytes).length := by
  induction pieces generalizing statements with
  | nil =>
      obtain rfl := List.map_eq_nil_iff.1 h
      rfl
  | cons piece pieces ih =>
      obtain ⟨s, rest, rfl, hs, hrest⟩ := List.map_eq_cons_iff.1 h
      rw [totalSize_cons, ih hrest, hs, size_item, List.flatMap_cons, List.length_append,
        length_bytes]

/-- Statements without labels only need room. -/
theorem layOutStatements_of_items
    {labels : Labels}
    {address : Nat}
    (h : statements.map Statement.item = pieces.map item)
    (hroom : address + totalSize statements ≤ 65536) :
    layOutStatements labels address statements = .ok labels := by
  induction pieces generalizing statements address with
  | nil =>
      obtain rfl := List.map_eq_nil_iff.1 h
      rfl
  | cons piece pieces ih =>
      obtain ⟨s, rest, rfl, hs, hrest⟩ := List.map_eq_cons_iff.1 h
      rw [totalSize_cons] at hroom
      have hrecord : Assembly.record labels address s = .ok labels := by
        cases piece <;> simp [Assembly.record, hs, item]
      rw [layOutStatements, hrecord]
      dsimp only
      rw [if_pos (by rw [Assembly.addressSpace]; omega)]
      exact ih hrest (by omega)

theorem writeStatements_of_items
    {labels : Labels}
    {image : Image}
    (h : statements.map Statement.item = pieces.map item) :
    writeStatements labels image statements =
      .ok (image.appendList (pieces.flatMap bytes)) := by
  induction pieces generalizing statements image with
  | nil =>
      obtain rfl := List.map_eq_nil_iff.1 h
      rfl
  | cons piece pieces ih =>
      obtain ⟨s, rest, rfl, hs, hrest⟩ := List.map_eq_cons_iff.1 h
      rw [writeStatements, bytesOf_item hs]
      dsimp only
      have happend : (image.appendList piece.bytes).appendList (pieces.flatMap bytes) =
          image.appendList (piece.bytes ++ pieces.flatMap bytes) := by
        apply Array.toList_inj.1
        simp
      rw [ih hrest, List.flatMap_cons, happend]

end Layout

end Piece

namespace Listing

/-- A source for an image at an origin: the texts of its pieces, line by line. -/
def disassembly
    (image : Image)
    (origin : Nat) :
    String :=
  ".org " ++ Text.hexLiteral 4 origin ++ "\n" ++
    String.join ((textsFrom image 0).map fun text => text ++ "\n")

/-- The source of pieces: tokens of one section. -/
theorem spells_section
    {origin : Nat}
    {lines : String}
    {kinds : List TokenKind}
    (h : Spells lines.toList kinds)
    (horigin : origin < UInt32.size) :
    Spells (".org " ++ Text.hexLiteral 4 origin ++ "\n" ++ lines).toList
      (.origin :: .number (UInt32.ofNat origin) :: kinds) := by
  have hnumber := (h.blank (c := '\n') (by decide)).hexLiteral 4 horigin (.of_cons (by decide))
  have hdirective := (hnumber.blank (c := ' ') (by decide)).origin (.of_cons (by decide))
  simpa using hdirective

theorem sections_of_kinds
    {origin : Nat}
    {tokens : List Token}
    {pieces : List Piece}
    (hkinds : tokens.map Token.kind =
      .origin :: .number (UInt32.ofNat origin) :: pieces.flatMap Piece.kinds)
    (horigin : origin ≤ 65535)
    (hne : pieces ≠ []) :
    ∃ s : Section,
      Source.sections tokens = .ok [s] ∧
      s.origin.toNat = origin ∧
      s.statements.map Statement.item = pieces.map Piece.item := by
  obtain ⟨⟨_, place⟩, rest, rfl, rfl, hrest⟩ := List.map_eq_cons_iff.1 hkinds
  obtain ⟨⟨_, place'⟩, body, rfl, rfl, hbody⟩ := List.map_eq_cons_iff.1 hrest
  obtain ⟨statements, hderives, hitems⟩ := Piece.derivesStatements_kinds hbody
  have hvalue : (UInt32.ofNat origin).toNat = origin :=
    UInt32.toNat_ofNat_of_lt' (Nat.lt_of_le_of_lt horigin (by decide))
  have hstatements : statements ≠ [] := by
    rintro rfl
    exact hne (List.map_eq_nil_iff.1 hitems.symm)
  have hbound : (UInt32.ofNat origin).toNat ≤ 65535 := by
    rw [hvalue]
    exact horigin
  have hsection : DerivesSection
      (⟨.origin, place⟩ :: ⟨.number (UInt32.ofNat origin), place'⟩ :: body)
      ⟨UInt16.ofNat (UInt32.ofNat origin).toNat, place, statements⟩ :=
    .mk hbound hderives hstatements
  have hprogram := DerivesProgram.cons hsection .nil
  rw [List.append_nil, hvalue] at hprogram
  refine ⟨_, Source.sections_of_derives hprogram, ?_, hitems⟩
  exact UInt16.toNat_ofNat_of_lt' (Nat.lt_succ_of_le horigin)

theorem ofSections_of_items
    {s : Section}
    {pieces : List Piece}
    (hitems : s.statements.map Statement.item = pieces.map Piece.item)
    (hroom : s.origin.toNat + (pieces.flatMap Piece.bytes).length ≤ 65536) :
    Assembly.ofSections [s] =
      .ok (Array.replicate s.origin.toNat 0 ++ (pieces.flatMap Piece.bytes).toArray) := by
  have horder : Assembly.inOrder [s] = [s] := List.mergeSort_singleton s
  have hlayOut : Assembly.layOut [s] = .ok {} := by
    rw [← Piece.totalSize_of_items hitems] at hroom
    have hstatements : Assembly.layOutStatements {} s.origin.toNat s.statements = .ok {} :=
      Piece.layOutStatements_of_items hitems hroom
    have hfirst : Assembly.overlapped? none s = none := rfl
    simp only [Assembly.layOut, Assembly.layOutSections, hfirst, hstatements]
  rw [Assembly.ofSections, horder, hlayOut]
  have hbytes : (Assembly.fillTo #[] s.origin.toNat).appendList (pieces.flatMap Piece.bytes) =
      Array.replicate s.origin.toNat 0 ++ (pieces.flatMap Piece.bytes).toArray := by
    apply Array.toList_inj.1
    simp [Assembly.fillTo]
  simp only [Assembly.writeSections, Piece.writeStatements_of_items hitems, hbytes]

/-- What the sweep takes apart, the assembler puts together again. -/
theorem assemble_disassembly
    {image : Image}
    {origin : Nat}
    (hne : image ≠ #[])
    (hfits : origin + image.size ≤ 65536) :
    assemble (disassembly image origin) = .ok (Array.replicate origin 0 ++ image) := by
  have hsize : 0 < image.size := Array.size_pos_iff.2 hne
  have horigin : origin ≤ 65535 := by omega
  obtain ⟨pieces, htexts, hbytes⟩ := exists_pieces image 0
  rw [List.drop_zero] at hbytes
  have hpieces : pieces ≠ [] := by
    rintro rfl
    exact hne (Array.toList_eq_nil_iff.1 hbytes.symm)
  have hspells : Spells (disassembly image origin).toList
      (.origin :: .number (UInt32.ofNat origin) :: pieces.flatMap Piece.kinds) := by
    rw [disassembly, htexts, List.map_map]
    exact spells_section (Piece.spells_lines pieces) (Nat.lt_of_le_of_lt horigin (by decide))
  obtain ⟨tokens, htokens, hkinds⟩ := hspells.tokens
  obtain ⟨s, hsections, rfl, hitems⟩ := sections_of_kinds hkinds horigin hpieces
  have htokens_ne : tokens ≠ [] := by
    rintro rfl
    cases hkinds
  have hroom : s.origin.toNat + (pieces.flatMap Piece.bytes).length ≤ 65536 := by
    rw [hbytes, Array.length_toList]
    exact hfits
  rw [Assembly.assemble_eq_ofSections htokens hsections htokens_ne,
    ofSections_of_items hitems hroom, hbytes, Array.toArray_toList]

/-- An opcode without its address at the end is data, and comes back as data. -/
theorem assemble_disassembly_truncated :
    assemble (disassembly #[1, 0x34, 0x12, 0x48, 2, 0] 3) =
      .ok #[0, 0, 0, 1, 0x34, 0x12, 0x48, 2, 0] :=
  assemble_disassembly (by decide) (by decide)

example : disassembly #[1, 0x34, 0x12, 0x48, 2, 0] 3 =
    ".org 0x0003\nload [0x1234]\ndb 0x48\ndb 0x02\ndb 0x00\n" := by
  decide +kernel

end Listing
end Microcomputer
