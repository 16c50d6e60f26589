import Microcomputer.Source.Sections

/-!
# The grammar of a program

The grammar of `Source.sections` as a derivation, apart from how it is read.

**Derivations.**  `DerivesItem` is over the kinds of the tokens: where an item stands
does not matter to what it says.  From `DerivesStatements` on the tokens come with
their places, because a statement carries the place of its first token and a section
the place of its directive.

**Result.**  `sections_of_derives`: what the grammar derives from a list of tokens is
what is read from it.
-/

namespace Microcomputer
namespace Source

section Grammar

/-- What stands between the brackets of an address. -/
inductive DerivesOperand : TokenKind → Operand → Prop
  | address
      {value : UInt32}
      (hvalue : value.toNat ≤ 65535) :
      DerivesOperand (.number value) (.address (UInt16.ofNat value.toNat))
  | label
      (name : String) :
      DerivesOperand (.name name) (.label name)

/-- An item of a section. -/
inductive DerivesItem : List TokenKind → Item → Prop
  | label
      (name : String) :
      DerivesItem [.name name, .colon] (.label name)
  | byte
      {word : String}
      {value : UInt32}
      (hword : Text.sameWord word "db" = true)
      (hvalue : value.toNat ≤ 255) :
      DerivesItem [.name word, .number value] (.byte (UInt8.ofNat value.toNat))
  | instruction
      {word : String}
      {i : Instruction}
      {kind : TokenKind}
      {operand : Operand}
      (hword : Instruction.ofMnemonic? word = some i)
      (hoperand : DerivesOperand kind operand) :
      DerivesItem [.name word, .openBracket, kind, .closeBracket] (.instruction i operand)

/-- A run of statements, each at the place of its first token. -/
inductive DerivesStatements : List Token → List Statement → Prop
  | nil : DerivesStatements [] []
  | cons
      {first : Token}
      {others rest : List Token}
      {item : Item}
      {statements : List Statement}
      (hitem : DerivesItem (first.kind :: others.map Token.kind) item)
      (hrest : DerivesStatements rest statements) :
      DerivesStatements (first :: (others ++ rest)) (⟨item, first.location⟩ :: statements)

/-- A section: the directive, the origin and at least one statement. -/
inductive DerivesSection : List Token → Section → Prop
  | mk
      {place place' : Location}
      {value : UInt32}
      {body : List Token}
      {statements : List Statement}
      (hvalue : value.toNat ≤ 65535)
      (hbody : DerivesStatements body statements)
      (hne : statements ≠ []) :
      DerivesSection (⟨.origin, place⟩ :: ⟨.number value, place'⟩ :: body)
        ⟨UInt16.ofNat value.toNat, place, statements⟩

/-- A program: any number of sections. -/
inductive DerivesProgram : List Token → List Section → Prop
  | nil : DerivesProgram [] []
  | cons
      {tokens rest : List Token}
      {s : Section}
      {others : List Section}
      (hsection : DerivesSection tokens s)
      (hrest : DerivesProgram rest others) :
      DerivesProgram (tokens ++ rest) (s :: others)

end Grammar

section Items

variable {last : Location} {rest : List Token}

theorem expect_of_kind
    {token : Token}
    {wanted : TokenKind}
    {context : Context}
    (h : token.kind = wanted) :
    expect last wanted context (token :: rest) = .ok (token.location, rest) := by
  rw [expect, if_pos h]

theorem readNumber_of_kind
    {token : Token}
    {context : Context}
    {bound : Nat}
    {value : UInt32}
    (h : token.kind = .number value)
    (hvalue : value.toNat ≤ bound) :
    readNumber last context bound (token :: rest) = .ok (value.toNat, rest) := by
  obtain ⟨kind, place⟩ := token
  cases h
  rw [readNumber, if_pos hvalue]

theorem readOperand_of_derives
    {token : Token}
    {operand : Operand}
    (h : DerivesOperand token.kind operand) :
    readOperand last (token :: rest) = .ok (operand, rest) := by
  obtain ⟨kind, place⟩ := token
  cases h with
  | address hvalue => rw [readOperand, if_pos (Nat.lt_succ_of_le hvalue)]
  | label name => rw [readOperand]

theorem not_byteWord_of_mnemonic
    {word : String}
    {i : Instruction}
    (h : Instruction.ofMnemonic? word = some i) :
    Text.sameWord word "db" = false := by
  have hsame : Text.foldCase i.mnemonic = Text.foldCase word := by
    simpa [Text.sameWord] using List.find?_some h
  rw [Text.sameWord, ← hsame]
  cases i <;> decide

theorem readItem_of_name
    {word : String}
    {place : Location}
    {second : Token}
    (h : second.kind ≠ .colon) :
    readItem last ⟨.name word, place⟩ (second :: rest) =
      readNamed last word place (second :: rest) := by
  obtain ⟨kind, place'⟩ := second
  cases kind with
  | colon => exact absurd rfl h
  | origin => rfl
  | name text => rfl
  | number value => rfl
  | openBracket => rfl
  | closeBracket => rfl

theorem readItem_of_derives
    {first : Token}
    {others : List Token}
    {item : Item}
    (h : DerivesItem (first.kind :: others.map Token.kind) item) :
    readItem last first (others ++ rest) = .ok (item, rest) := by
  obtain ⟨kind, place⟩ := first
  generalize hothers : others.map Token.kind = kinds at h
  cases h with
  | label name =>
      obtain ⟨⟨_, place'⟩, rfl, rfl⟩ := List.map_eq_singleton_iff.1 hothers
      rfl
  | @byte word value hword hvalue =>
      obtain ⟨number, rfl, hnumber⟩ := List.map_eq_singleton_iff.1 hothers
      rw [List.singleton_append, readItem_of_name (by rw [hnumber]; exact TokenKind.noConfusion),
        readNamed, if_pos hword, readNumber_of_kind hnumber hvalue]
  | @instruction word i kind operand hword hoperand =>
      obtain ⟨opening, others, rfl, hopening, hothers⟩ := List.map_eq_cons_iff.1 hothers
      obtain ⟨inner, others, rfl, hinner, hothers⟩ := List.map_eq_cons_iff.1 hothers
      obtain ⟨closing, rfl, hclosing⟩ := List.map_eq_singleton_iff.1 hothers
      rw [← hinner] at hoperand
      have haddress : readAddress last i (opening :: inner :: closing :: rest) =
          .ok (operand, rest) := by
        simp only [readAddress, expect_of_kind hopening, readOperand_of_derives hoperand,
          expect_of_kind hclosing]
      have hbyte : ¬ Text.sameWord word "db" = true := by
        rw [not_byteWord_of_mnemonic hword]
        exact Bool.false_ne_true
      simp only [List.cons_append, List.nil_append]
      rw [readItem_of_name (by rw [hopening]; exact TokenKind.noConfusion), readNamed,
        if_neg hbyte, hword]
      simp only [haddress]

end Items

section Sections

variable {last : Location} {rest : List Token}

theorem kind_ne_origin_of_derives
    {kind : TokenKind}
    {kinds : List TokenKind}
    {item : Item}
    (h : DerivesItem (kind :: kinds) item) :
    kind ≠ .origin := by
  cases h <;> exact TokenKind.noConfusion

theorem readStatements_cons
    {done : Array Statement}
    {first : Token}
    {text : List Token}
    {item : Item}
    (hfirst : first.kind ≠ .origin)
    (hitem : readItem last first text = .ok (item, rest)) :
    readStatements last done (first :: text) =
      readStatements last (done.push ⟨item, first.location⟩) rest := by
  rw [readStatements, if_neg hfirst]
  split
  · simp_all
  · simp_all

theorem readStatements_stop
    {done : Array Statement}
    (hrest : ∀ t ∈ rest.head?, t.kind = .origin) :
    readStatements last done rest = .ok (done.toList, rest) := by
  cases rest with
  | nil => rw [readStatements]
  | cons t rest => rw [readStatements, if_pos (hrest t rfl)]

theorem readStatements_of_derives
    {done : Array Statement}
    {text : List Token}
    {statements : List Statement}
    (h : DerivesStatements text statements)
    (hrest : ∀ t ∈ rest.head?, t.kind = .origin) :
    readStatements last done (text ++ rest) = .ok (done.toList ++ statements, rest) := by
  induction h generalizing done with
  | nil =>
      rw [List.nil_append, List.append_nil]
      exact readStatements_stop hrest
  | @cons first others tail item statements hitem _ ih =>
      have hread : readItem last first (others ++ (tail ++ rest)) = .ok (item, tail ++ rest) :=
        readItem_of_derives hitem
      rw [List.cons_append, List.append_assoc,
        readStatements_cons (kind_ne_origin_of_derives hitem) hread, ih, Array.toList_push,
        List.append_assoc, List.singleton_append]

theorem readSection_of_derives
    {text : List Token}
    {s : Section}
    (h : DerivesSection text s)
    (hrest : ∀ t ∈ rest.head?, t.kind = .origin) :
    readSection last (text ++ rest) = .ok (s, rest) := by
  cases h with
  | @mk place place' value body statements hvalue hbody hne =>
      obtain ⟨first, others, rfl⟩ := List.exists_cons_of_ne_nil hne
      have hnumber : readNumber last .afterOrigin 65535
          (⟨.number value, place'⟩ :: (body ++ rest)) = .ok (value.toNat, body ++ rest) :=
        readNumber_of_kind rfl hvalue
      have hstatements : readStatements last #[] (body ++ rest) =
          .ok (first :: others, rest) :=
        readStatements_of_derives hbody hrest
      simp only [List.cons_append, readSection, expect_of_kind, hnumber, hstatements]

theorem head_kind_of_derives
    {text : List Token}
    {found : List Section}
    (h : DerivesProgram text found) :
    ∀ t ∈ text.head?, t.kind = .origin := by
  cases h with
  | nil => simp
  | cons hsection _ =>
      cases hsection with
      | mk => simp

theorem readSections_cons
    {done : Array Section}
    {text : List Token}
    {s : Section}
    (h : readSection last text = .ok (s, rest)) :
    readSections last done text = readSections last (done.push s) rest := by
  have hne : text.isEmpty = false := by
    cases text with
    | nil => cases h
    | cons t text => rfl
  rw [readSections, hne]
  split
  · contradiction
  · split
    · simp_all
    · simp_all

theorem readSections_of_derives
    {done : Array Section}
    {text : List Token}
    {found : List Section}
    (h : DerivesProgram text found) :
    readSections last done text = .ok (done.toList ++ found) := by
  induction h generalizing done with
  | nil => rw [readSections]; simp
  | @cons text rest s others hsection hrest ih =>
      have hread : readSection last (text ++ rest) = .ok (s, rest) :=
        readSection_of_derives hsection (head_kind_of_derives hrest)
      rw [readSections_cons hread, ih, Array.toList_push, List.append_assoc,
        List.singleton_append]

theorem sections_of_derives
    {text : List Token}
    {found : List Section}
    (h : DerivesProgram text found) :
    sections text = .ok found := by
  rw [sections, readSections_of_derives h, List.nil_append]

end Sections

end Source
end Microcomputer
