import Microcomputer.Proofs.Listing.Reassembly
import Microcomputer.Proofs.Listing.Sweep
import Microcomputer.Proofs.Text.Pieces

/-!
# A listing read by its columns

What the lines of a listing say about the image.

**Entries.**  `Entry.ofLine?` reads a line: four digits of an address, the bytes in nine columns of
their own, and the statement behind them.  `entries? text` reads all lines behind the heading.

**Writing.**  `written` is a line for an entry, and `ofLine?_written` reads it back.

**Sweep.**  `entryOf origin` is the entry for a piece at an offset; `lines_text`: a listing has the
three lines of its heading, and one for each piece.

**Results.**  `entries?_text`: what is read from a listing are the entries of the sweep.
`listing_lossless` says what that means for the image.
-/

namespace Microcomputer

namespace Piece

variable {image : Image} {offset : Nat} {piece : Piece}

theorem head?_bytes (h : at? image offset = some piece) : piece.bytes.head? = image[offset]? := by
  have hdrop := congrArg List.head? (drop_eq_bytes_append h)
  rw [List.head?_drop, Array.getElem?_toList, List.head?_append] at hdrop
  cases piece with
  | instruction i address => simpa [bytes] using hdrop.symm
  | byte value => simpa [bytes] using hdrop.symm

theorem isInstruction_iff
    (h : at? image offset = some piece) :
    (∃ (i : Instruction) (address : UInt16), piece = instruction i address) ↔
      ∃ i : Instruction, image[offset]? = some i.opcode ∧ offset + 2 < image.size := by
  constructor
  · rintro ⟨i, address, rfl⟩
    have hbytes := congrArg List.length (drop_eq_bytes_append h)
    have hlt := lt_size_of_at? h
    simp only [List.length_drop, Array.length_toList, List.length_append, length_bytes, size,
      Instruction.size] at hbytes
    exact ⟨i, (head?_bytes h).symm, by omega⟩
  · rintro ⟨i, hopcode, hroom⟩
    have hlow : image[offset + 1]? = some image[offset + 1] := Array.getElem?_eq_getElem (by omega)
    have hhigh : image[offset + 2]? = some image[offset + 2] := Array.getElem?_eq_getElem hroom
    simp only [at?, hopcode, hlow, hhigh, Instruction.ofOpcode?_opcode] at h
    exact ⟨i, _, (Option.some.inj h).symm⟩

end Piece

namespace Listing

open Text (InLine hexDigits inLine_hexDigits isHexDigit numeralValue words)

section Reading

/-- What a line of a listing says: where its bytes lie, the bytes, and a statement for them. -/
structure Entry where
  address : Nat
  bytes : List UInt8
  statement : String
  deriving DecidableEq

/-- The byte that a word of two digits stands for. -/
def byte? : List Char → Option UInt8
  | [high, low] =>
      if isHexDigit high && isHexDigit low then some (UInt8.ofNat (numeralValue 16 [high, low]))
      else none
  | _ => none

namespace Entry

/-- A line read by its columns. -/
def ofLine? : List Char → Option Entry
  | a :: b :: c :: d :: ':' :: ' ' :: ' ' :: rest =>
      if [a, b, c, d].all isHexDigit && rest[9]? == some ' ' then
        ((words (rest.take 9)).mapM byte?).map fun bytes =>
          { address := numeralValue 16 [a, b, c, d]
            bytes
            statement := String.ofList (rest.drop 10) }
      else
        none
  | _ => none

/-- The statement is an instruction, and not a data byte. -/
def IsInstruction (e : Entry) : Prop :=
  ∃ (i : Instruction) (address : UInt16), e.statement = i.written address

end Entry

/-- The entries of a listing: what its lines say behind the three of the heading. -/
def entries? (text : String) : Option (List Entry) :=
  ((Text.lines text).drop 3).mapM Entry.ofLine?

/-- The bytes of the entries before the one at a position. -/
def offsetAt
    (entries : List Entry)
    (position : Nat) :
    Nat :=
  ((entries.take position).map (·.bytes.length)).sum

theorem offsetAt_succ
    {entries : List Entry}
    {k : Nat}
    {e : Entry}
    (h : entries[k]? = some e) :
    offsetAt entries (k + 1) = offsetAt entries k + e.bytes.length := by
  simp [offsetAt, List.take_add_one, h]

theorem offsetAt_succ_of_le
    {entries : List Entry}
    {k : Nat}
    (h : entries.length ≤ k) :
    offsetAt entries (k + 1) = offsetAt entries k := by
  rw [offsetAt, offsetAt, List.take_of_length_le h, List.take_of_length_le (Nat.le_succ_of_le h)]

end Reading

section Writing

/-- The bytes in the second column of a line. -/
def rawColumn (bytes : List UInt8) : List Char :=
  [' '].intercalate (bytes.map fun b => hexDigits 2 b.toNat)

theorem byte?_hexDigits (b : UInt8) : byte? (hexDigits 2 b.toNat) = some b := by
  have hlength : (hexDigits 2 b.toNat).length = 2 :=
    Text.length_hexDigits (by decide) b.toNat_lt
  obtain ⟨high, low, hpair⟩ := List.length_eq_two.1 hlength
  have hdigits : ∀ digit ∈ [high, low], isHexDigit digit = true := by
    rw [← hpair]
    exact fun _ => Text.isHexDigit_of_mem_hexDigits
  obtain ⟨hhigh, hlow⟩ : isHexDigit high = true ∧ isHexDigit low = true := by simpa using hdigits
  have hvalue : numeralValue 16 [high, low] = b.toNat := by
    rw [← hpair, Text.numeralValue_hexDigits]
  rw [hpair]
  simp [byte?, hhigh, hlow, hvalue]

theorem bytes_of_rawColumn
    (bytes : List UInt8)
    (width : Nat) :
    (words ((rawColumn bytes).rightpad width ' ')).mapM byte? = some bytes := by
  have hpieces : ∀ piece ∈ bytes.map (fun b => hexDigits 2 b.toNat), ' ' ∉ piece ∧ piece ≠ [] := by
    intro piece hpiece
    obtain ⟨b, -, rfl⟩ := List.mem_map.1 hpiece
    refine ⟨fun hblank => ?_, Text.hexDigits_ne_nil 2 b.toNat⟩
    exact absurd (Text.isHexDigit_of_mem_hexDigits hblank) (by decide)
  rw [List.rightpad, rawColumn, Text.words_padded hpieces, List.mapM_map]
  have hread := Text.mapM_eq_some_map (l := bytes) fun b _ => byte?_hexDigits b
  rw [List.map_id'] at hread
  exact hread

theorem length_rawColumn_le (bytes : List UInt8) :
    (rawColumn bytes).length ≤ 3 * bytes.length := by
  induction bytes with
  | nil => exact Nat.le_refl _
  | cons b rest ih =>
      have hlength : (hexDigits 2 b.toNat).length = 2 :=
        Text.length_hexDigits (by decide) b.toNat_lt
      cases rest with
      | nil => simp [rawColumn, hlength]
      | cons b' rest =>
          simp only [rawColumn, List.map_cons, List.intercalate_cons_cons, List.length_append,
            List.length_cons, List.length_nil, hlength] at ih ⊢
          omega

/-- A line as it is written, without its end. -/
def written (e : Entry) : List Char :=
  hexDigits 4 e.address ++ ":  ".toList ++ (rawColumn e.bytes).rightpad 9 ' ' ++
    ' ' :: e.statement.toList

theorem ofLine?_written
    {e : Entry}
    (haddress : e.address < 65536)
    (hbytes : e.bytes.length ≤ 3) :
    Entry.ofLine? (written e) = some e := by
  have hlength : (hexDigits 4 e.address).length = 4 :=
    Text.length_hexDigits (by decide) haddress
  obtain ⟨a, b, c, d, hfour⟩ := List.length_eq_four.1 hlength
  have hdigits : [a, b, c, d].all isHexDigit = true := by
    rw [← hfour, List.all_eq_true]
    exact fun _ => Text.isHexDigit_of_mem_hexDigits
  have hvalue : numeralValue 16 [a, b, c, d] = e.address := by
    rw [← hfour, Text.numeralValue_hexDigits]
  have hraw := length_rawColumn_le e.bytes
  have hread := bytes_of_rawColumn e.bytes 9
  have hwidth : ((rawColumn e.bytes).rightpad 9 ' ').length = 9 := by
    rw [List.length_rightpad]
    omega
  unfold written
  generalize (rawColumn e.bytes).rightpad 9 ' ' = column at hread hwidth
  have hblank : (column ++ ' ' :: e.statement.toList)[9]? = some ' ' := by
    simp [← hwidth]
  have hbehind : (column ++ ' ' :: e.statement.toList).drop 10 = e.statement.toList := by
    rw [List.drop_append, hwidth, List.drop_eq_nil_of_le (by omega)]
    rfl
  have hline : hexDigits 4 e.address ++ ":  ".toList ++ column ++ ' ' :: e.statement.toList =
      a :: b :: c :: d :: ':' :: ' ' :: ' ' :: (column ++ ' ' :: e.statement.toList) := by
    simp [hfour]
  rw [hline, Entry.ofLine?, List.take_left' hwidth, hread, hvalue, hblank, hbehind, hdigits]
  simp

theorem inLine_rawColumn (bytes : List UInt8) : InLine (rawColumn bytes) := by
  refine Text.inLine_intercalate (by simp) fun digits hdigits => ?_
  obtain ⟨b, -, rfl⟩ := List.mem_map.1 hdigits
  exact inLine_hexDigits 2 b.toNat

theorem inLine_text (piece : Piece) : InLine piece.text.toList := by
  cases piece with
  | instruction i address =>
      have hname : InLine (i.mnemonic ++ " [" ++ "0x").toList := by cases i <;> decide
      have hclose : InLine "]".toList := by decide
      have htext := (hname.append (inLine_hexDigits 4 address.toNat)).append hclose
      simpa [Piece.text, Instruction.written, Text.toList_hexLiteral] using htext
  | byte value =>
      have hword : InLine "db 0x".toList := by decide
      have htext := hword.append (inLine_hexDigits 2 value.toNat)
      simpa [Piece.text, Text.toList_hexLiteral] using htext

theorem inLine_written
    {e : Entry}
    (h : InLine e.statement.toList) :
    InLine (written e) := by
  have hblanks : ∀ count, InLine (List.replicate count ' ') := by
    intro count c hc
    rw [List.eq_of_mem_replicate hc]
    decide
  have hraw := (inLine_rawColumn e.bytes).append (hblanks (9 - (rawColumn e.bytes).length))
  have hcolon : InLine ":  ".toList := by decide
  have haddress := (inLine_hexDigits 4 e.address).append hcolon
  have hstatement := (hblanks 1).append h
  exact (haddress.append hraw).append hstatement

end Writing

section Pieces

variable {image : Image} {origin : UInt16}

/-- The entry for a piece at an offset of an image. -/
def entryOf
    (origin : UInt16)
    (place : Nat × Piece) :
    Entry :=
  { address := (origin.toNat + place.1) % 65536
    bytes := place.2.bytes
    statement := place.2.text }

theorem ofLine?_written_entryOf (place : Nat × Piece) :
    Entry.ofLine? (written (entryOf origin place)) = some (entryOf origin place) := by
  refine ofLine?_written (Nat.mod_lt _ (by decide)) ?_
  rw [entryOf, Piece.length_bytes]
  have := place.2.size_eq
  omega

theorem toList_line
    {place : Nat × Piece}
    (h : Piece.at? image place.1 = some place.2) :
    (line image origin place.1 place.2).toList = written (entryOf origin place) ++ ['\n'] := by
  obtain ⟨offset, piece⟩ := place
  have hbytes : (image.extract offset (offset + piece.size)).toList = piece.bytes := by
    rw [Array.toList_extract, List.extract_eq_take_drop, Nat.add_sub_cancel_left,
      Piece.drop_eq_bytes_append h, List.take_left' piece.length_bytes]
  have haddress : (origin + UInt16.ofNat offset).toNat = (origin.toNat + offset) % 65536 := by
    simp [UInt16.toNat_add]
  have hwords : (piece.bytes.map fun b => Text.hex 2 b.toNat).map String.toList =
      piece.bytes.map fun b => hexDigits 2 b.toNat := by
    simp [Text.toList_hex]
  simp only [line, hbytes, haddress, Text.alignLeft, written, entryOf, rawColumn,
    String.toList_append, String.toList_ofList, String.toList_intercalate, hwords, Text.toList_hex]
  simp

/-- The lines of the heading, the last of them blank. -/
def headingLines : List (List Char) :=
  ["; micro0 disassembly".toList, "; ------------------".toList, []]

theorem lines_text
    (image : Image)
    (origin : UInt16) :
    Text.lines (text image origin) =
      headingLines ++ (sweep image).map fun place => written (entryOf origin place) := by
  have hheading : heading.toList = headingLines.flatMap (· ++ ['\n']) := by decide +kernel
  have hbody :
      (String.join ((sweep image).map fun place => line image origin place.1 place.2)).toList =
        ((sweep image).map fun place => written (entryOf origin place)).flatMap (· ++ ['\n']) := by
    rw [String.toList_join, List.flatMap_map, List.flatMap_map]
    exact List.flatMap_congr fun place hplace => toList_line (at?_of_mem_sweep hplace)
  have hinLine : ∀ line ∈ headingLines ++
      (sweep image).map (fun place => written (entryOf origin place)), InLine line := by
    have hfixed : ∀ line ∈ headingLines, InLine line := by decide
    intro line hline
    rcases List.mem_append.1 hline with hhead | hwritten
    · exact hfixed line hhead
    · obtain ⟨place, -, rfl⟩ := List.mem_map.1 hwritten
      exact inLine_written (inLine_text place.2)
  rw [← Text.lines_terminated hinLine, List.flatMap_append, ← hheading, ← hbody,
    ← String.toList_append, String.ofList_toList]
  rfl

theorem mapM_ofLine?_written
    (image : Image)
    (origin : UInt16) :
    ((sweep image).map fun place => written (entryOf origin place)).mapM Entry.ofLine? =
      some ((sweep image).map (entryOf origin)) := by
  rw [List.mapM_map]
  exact Text.mapM_eq_some_map fun place _ => ofLine?_written_entryOf place

/-- **Entries.**  What is read from a listing are the entries of the sweep. -/
theorem entries?_text
    (image : Image)
    (origin : UInt16) :
    entries? (text image origin) = some ((sweep image).map (entryOf origin)) := by
  have hlength : headingLines.length = 3 := rfl
  rw [entries?, lines_text, List.drop_left' hlength, mapM_ofLine?_written]

example :
    entries? (text #[4, 0, 0x10, 0x21] 0x0100) =
      some [⟨0x0100, [4, 0, 0x10], "brz [0x1000]"⟩, ⟨0x0103, [0x21], "db 0x21"⟩] := by
  decide +kernel

theorem offset_eq_offsetAt
    {k : Nat}
    {place : Nat × Piece}
    (h : (sweep image)[k]? = some place) :
    place.1 = offsetAt ((sweep image).map (entryOf origin)) k := by
  rw [sweep_eq_piecesFrom] at h ⊢
  rw [offset_of_getElem? h, Nat.zero_add, offsetAt, ← List.map_take, List.map_map]
  simp only [Function.comp_def, entryOf, Piece.length_bytes]

theorem isInstruction_entryOf_iff
    {place : Nat × Piece}
    (h : Piece.at? image place.1 = some place.2) :
    (entryOf origin place).IsInstruction ↔
      ∃ i : Instruction, (entryOf origin place).bytes.head? = some i.opcode ∧
        place.1 + 2 < image.size := by
  have hkind : (entryOf origin place).IsInstruction ↔
      ∃ (i : Instruction) (address : UInt16), place.2 = .instruction i address :=
    exists_congr fun i => exists_congr fun address =>
      Piece.text_injective.eq_iff (a := place.2) (b := .instruction i address)
  rw [hkind, Piece.isInstruction_iff h]
  simp only [entryOf, Piece.head?_bytes h]

/-- The entries tell the offset, the statement and the number of bytes of each description. -/
theorem describedFrom_eq_entries
    (image : Image)
    (origin : UInt16) :
    let entries := (sweep image).map (entryOf origin)
    describedFrom image 0 =
      entries.mapIdx fun k e => (offsetAt entries k, e.statement, e.bytes.length) := by
  intro entries
  rw [describedFrom_eq, ← sweep_eq_piecesFrom]
  refine List.ext_getElem? fun k => ?_
  rw [List.getElem?_map, List.getElem?_mapIdx, List.getElem?_map]
  cases hplace : (sweep image)[k]? with
  | none => rfl
  | some place =>
      have hoffset : place.1 = offsetAt entries k := offset_eq_offsetAt hplace
      simp only [Option.map_some, hoffset, entryOf, Piece.length_bytes]

/-- **The listing is lossless.** Behind three lines it has one for each description of the sweep,
and together they tell the bytes of the image. -/
theorem listing_lossless
    (image : Image)
    (origin : UInt16) :
    ∃ (body : List (List Char)) (entries : List Entry),
      Text.lines (text image origin) =
        "; micro0 disassembly".toList :: "; ------------------".toList :: [] :: body ∧
      body.mapM Entry.ofLine? = some entries ∧
      describedFrom image 0 =
        entries.mapIdx (fun k e => (offsetAt entries k, e.statement, e.bytes.length)) ∧
      (∀ e ∈ entries, e.bytes.length = 1 ∨ e.bytes.length = 3) ∧
      (entries.map (·.bytes.length)).sum = image.size ∧
      entries.flatMap (·.bytes) = image.toList ∧
      ∀ (k : Nat) (e : Entry), entries[k]? = some e →
        e.address = (origin.toNat + offsetAt entries k) % 65536 ∧
        (e.IsInstruction ↔
          ∃ i : Instruction, e.bytes.head? = some i.opcode ∧
            offsetAt entries k + 2 < image.size) := by
  have hbytes : ((sweep image).map (entryOf origin)).flatMap (·.bytes) = image.toList := by
    rw [List.flatMap_map, sweep_eq_piecesFrom]
    exact flatMap_bytes_piecesFrom image 0
  refine ⟨_, (sweep image).map (entryOf origin), lines_text image origin,
    mapM_ofLine?_written image origin, describedFrom_eq_entries image origin, ?_, ?_, hbytes, ?_⟩
  · intro e he
    obtain ⟨place, -, rfl⟩ := List.mem_map.1 he
    rw [entryOf, Piece.length_bytes]
    exact place.2.size_eq
  · rw [← List.length_flatMap, hbytes, Array.length_toList]
  · intro k e he
    rw [List.getElem?_map, Option.map_eq_some_iff] at he
    obtain ⟨place, hplace, rfl⟩ := he
    rw [← offset_eq_offsetAt hplace]
    exact ⟨rfl, isInstruction_entryOf_iff (at?_of_mem_sweep (List.mem_of_getElem? hplace))⟩

end Pieces

end Listing
end Microcomputer
