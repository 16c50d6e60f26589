import Microcomputer.Proofs.Source.Grammar

/-!
# Recognition of the grammar

Reading sections accepts the grammar, and nothing else.

**Soundness.**  What a reading function takes from the front of a list of tokens is
derived from the tokens that it has taken: `derivesItem_of_readItem`,
`derivesStatements_of_read`, `derivesSection_of_read` and `derives_of_readSections`.

**Outlines.**  `DerivesOutline` is the grammar on the kinds of the tokens alone, without
any places.  A program is derived from tokens if and only if its outline is derived
from their kinds (`derivesOutline_iff`).

**Spellings.**  Every list of sections with statements is derived from some tokens
(`exists_tokens_of_sections`).

**Result.**  `sections_recognize_grammar`.
-/

namespace Microcomputer

theorem Instruction.ofMnemonic?_eq_some_iff
    {word : String}
    {i : Instruction} :
    ofMnemonic? word = some i ↔ Text.sameWord word i.mnemonic = true := by
  constructor
  · intro h
    have hsame : Text.foldCase i.mnemonic = Text.foldCase word := by
      simpa [Text.sameWord] using List.find?_some h
    simp [Text.sameWord, hsame]
  · intro h
    have hsame : Text.foldCase word = Text.foldCase i.mnemonic := by
      simpa [Text.sameWord] using h
    simp only [ofMnemonic?, Text.sameWord, hsame]
    cases i <;> decide

namespace Source

section Reading

variable {last : Location} {text rest : List Token}

theorem text_of_expect
    {place : Location}
    {wanted : TokenKind}
    {context : Context}
    (h : expect last wanted context text = .ok (place, rest)) :
    text = ⟨wanted, place⟩ :: rest := by
  cases text with
  | nil => simp [expect] at h
  | cons token others =>
      by_cases hkind : token.kind = wanted
      · simp [expect, hkind] at h
        simp [← h.1, ← h.2, ← hkind]
      · simp [expect, hkind] at h

theorem text_of_readNumber
    {context : Context}
    {bound n : Nat}
    (h : readNumber last context bound text = .ok (n, rest)) :
    ∃ (value : UInt32) (place : Location),
      text = ⟨.number value, place⟩ :: rest ∧ value.toNat ≤ bound ∧ n = value.toNat := by
  unfold readNumber at h
  split at h
  · next value place others =>
      split at h
      · next hvalue =>
          simp at h
          exact ⟨value, place, by simp [h.2], hvalue, h.1.symm⟩
      · simp at h
  · simp at h

theorem text_of_readOperand
    {operand : Operand}
    (h : readOperand last text = .ok (operand, rest)) :
    ∃ token : Token, text = token :: rest ∧ DerivesOperand token.kind operand := by
  unfold readOperand at h
  split at h
  · next value place others =>
      split at h
      · next hvalue =>
          simp at h
          obtain ⟨rfl, rfl⟩ := h
          exact ⟨_, rfl, .address (Nat.le_of_lt_succ hvalue)⟩
      · simp at h
  · simp at h
    obtain ⟨rfl, rfl⟩ := h
    exact ⟨_, rfl, .label _⟩
  · simp at h

theorem text_of_readAddress
    {i : Instruction}
    {operand : Operand}
    (h : readAddress last i text = .ok (operand, rest)) :
    ∃ (opened closed : Location) (token : Token),
      text = ⟨.openBracket, opened⟩ :: token :: ⟨.closeBracket, closed⟩ :: rest ∧
      DerivesOperand token.kind operand := by
  unfold readAddress at h
  split at h
  · simp at h
  · next opened inner hopen =>
      split at h
      · simp at h
      · next operand' tail hoperand =>
          split at h
          · simp at h
          · next closed rest' hclose =>
              simp at h
              obtain ⟨rfl, rfl⟩ := h
              obtain ⟨token, hinner, hderives⟩ := text_of_readOperand hoperand
              refine ⟨opened, closed, token, ?_, hderives⟩
              rw [text_of_expect hopen, hinner, text_of_expect hclose]

theorem derivesItem_of_readNamed
    {word : String}
    {place : Location}
    {item : Item}
    (h : readNamed last word place text = .ok (item, rest)) :
    ∃ others : List Token,
      text = others ++ rest ∧ DerivesItem (.name word :: others.map Token.kind) item := by
  unfold readNamed at h
  split at h
  · next hword =>
      split at h
      · simp at h
      · next n rest' hnumber =>
          simp at h
          obtain ⟨rfl, rfl⟩ := h
          obtain ⟨value, place', rfl, hvalue, rfl⟩ := text_of_readNumber hnumber
          exact ⟨[⟨.number value, place'⟩], rfl, .byte hword hvalue⟩
  · split at h
    · simp at h
    · next i hi =>
        split at h
        · simp at h
        · next operand rest' haddress =>
            simp at h
            obtain ⟨rfl, rfl⟩ := h
            obtain ⟨opened, closed, token, rfl, hoperand⟩ := text_of_readAddress haddress
            exact ⟨[⟨.openBracket, opened⟩, token, ⟨.closeBracket, closed⟩], rfl,
              .instruction hi hoperand⟩

theorem derivesItem_of_readItem
    {first : Token}
    {item : Item}
    (h : readItem last first text = .ok (item, rest)) :
    ∃ others : List Token,
      text = others ++ rest ∧ DerivesItem (first.kind :: others.map Token.kind) item := by
  unfold readItem at h
  split at h
  · next name place others hkind =>
      simp at h
      obtain ⟨rfl, rfl⟩ := h
      exact ⟨[⟨.colon, place⟩], rfl, by rw [hkind]; exact .label name⟩
  · next name hkind _ =>
      rw [hkind]
      exact derivesItem_of_readNamed h
  · simp at h

theorem derivesStatements_of_read
    {done : Array Statement}
    {found : List Statement}
    (h : readStatements last done text = .ok (found, rest)) :
    ∃ (body : List Token) (statements : List Statement),
      text = body ++ rest ∧
      found = done.toList ++ statements ∧
      DerivesStatements body statements := by
  fun_induction readStatements last done text with
  | case1 done =>
      simp at h
      exact ⟨[], [], by simp [h.2], by simp [h.1], .nil⟩
  | case2 done token text horigin =>
      simp at h
      exact ⟨[], [], by simp [h.2], by simp [h.1], .nil⟩
  | case3 => simp at h
  | case4 done token text horigin item text' hread ih =>
      obtain ⟨others, rfl, hitem⟩ := derivesItem_of_readItem hread
      obtain ⟨body, statements, rfl, rfl, hrest⟩ := ih h
      refine ⟨token :: (others ++ body), ⟨item, token.location⟩ :: statements, ?_, ?_, ?_⟩
      · simp
      · simp
      · exact .cons hitem hrest

theorem derivesSection_of_read
    {s : Section}
    (h : readSection last text = .ok (s, rest)) :
    ∃ body : List Token, text = body ++ rest ∧ DerivesSection body s := by
  unfold readSection at h
  split at h
  · simp at h
  · next place afterOrigin horigin =>
      split at h
      · simp at h
      · next n afterNumber hnumber =>
          split at h
          · simp at h
          · simp at h
          · next first others rest' hstatements =>
              simp at h
              obtain ⟨rfl, rfl⟩ := h
              obtain ⟨value, place', rfl, hvalue, rfl⟩ := text_of_readNumber hnumber
              obtain ⟨body, statements, rfl, hfound, hbody⟩ :=
                derivesStatements_of_read hstatements
              rw [text_of_expect horigin]
              refine ⟨⟨.origin, place⟩ :: ⟨.number value, place'⟩ :: body, by simp, ?_⟩
              simp at hfound
              subst hfound
              exact .mk hvalue hbody (by simp)

theorem derives_of_readSections
    {done : Array Section}
    {found : List Section}
    (h : readSections last done text = .ok found) :
    ∃ others : List Section, found = done.toList ++ others ∧ DerivesProgram text others := by
  fun_induction readSections last done text with
  | case1 done text hempty =>
      simp at h hempty
      subst hempty
      exact ⟨[], by simp [h], .nil⟩
  | case2 => simp at h
  | case3 done text hempty s rest' hread ih =>
      obtain ⟨body, rfl, hsection⟩ := derivesSection_of_read hread
      obtain ⟨others, rfl, hrest⟩ := ih h
      exact ⟨s :: others, by simp, .cons hsection hrest⟩

theorem sections_eq_ok_iff
    {found : List Section} :
    sections text = .ok found ↔ DerivesProgram text found := by
  constructor
  · intro h
    obtain ⟨others, hfound, hderives⟩ := derives_of_readSections h
    simp at hfound
    rwa [hfound]
  · exact sections_of_derives

end Reading

section Outlines

/-- A run of items, over the kinds of the tokens. -/
inductive DerivesItems : List TokenKind → List Item → Prop
  | nil : DerivesItems [] []
  | cons
      {kinds rest : List TokenKind}
      {item : Item}
      {items : List Item}
      (hitem : DerivesItem kinds item)
      (hrest : DerivesItems rest items) :
      DerivesItems (kinds ++ rest) (item :: items)

/-- A program over the kinds of the tokens: what each section starts with, and its items. -/
inductive DerivesOutline : List TokenKind → List (UInt16 × List Item) → Prop
  | nil : DerivesOutline [] []
  | cons
      {value : UInt32}
      {body rest : List TokenKind}
      {items : List Item}
      {others : List (UInt16 × List Item)}
      (hvalue : value.toNat ≤ 65535)
      (hbody : DerivesItems body items)
      (hne : items ≠ [])
      (hrest : DerivesOutline rest others) :
      DerivesOutline (.origin :: .number value :: (body ++ rest))
        ((UInt16.ofNat value.toNat, items) :: others)

/-- A section without its places. -/
def Section.outline (s : Section) : UInt16 × List Item :=
  (s.origin, s.statements.map Statement.item)

theorem DerivesStatements.items
    {text : List Token}
    {statements : List Statement}
    (h : DerivesStatements text statements) :
    DerivesItems (text.map Token.kind) (statements.map Statement.item) := by
  induction h with
  | nil => exact .nil
  | cons hitem _ ih => simpa using DerivesItems.cons hitem ih

theorem DerivesProgram.outline
    {text : List Token}
    {found : List Section}
    (h : DerivesProgram text found) :
    DerivesOutline (text.map Token.kind) (found.map Section.outline) := by
  induction h with
  | nil => exact .nil
  | cons hsection _ ih =>
      cases hsection with
      | mk hvalue hbody hne =>
          simpa [Section.outline] using DerivesOutline.cons hvalue hbody.items (by simpa) ih

theorem DerivesItem.exists_cons
    {kinds : List TokenKind}
    {item : Item}
    (h : DerivesItem kinds item) :
    ∃ (word : String) (others : List TokenKind), kinds = .name word :: others := by
  cases h <;> simp

theorem DerivesItems.statements
    {kinds : List TokenKind}
    {items : List Item}
    (h : DerivesItems kinds items)
    {text : List Token}
    (htext : text.map Token.kind = kinds) :
    ∃ statements : List Statement,
      DerivesStatements text statements ∧ statements.map Statement.item = items := by
  induction h generalizing text with
  | nil =>
      simp at htext
      subst htext
      exact ⟨[], .nil, rfl⟩
  | cons hitem _ ih =>
      obtain ⟨front, back, rfl, hfront, hback⟩ := List.map_eq_append_iff.1 htext
      obtain ⟨statements, hstatements, rfl⟩ := ih hback
      obtain ⟨word, others, rfl⟩ := hitem.exists_cons
      obtain ⟨first, tail, rfl, hfirst, rfl⟩ := List.map_eq_cons_iff.1 hfront
      rw [← hfirst] at hitem
      exact ⟨_, .cons hitem hstatements, rfl⟩

theorem DerivesOutline.program
    {kinds : List TokenKind}
    {outline : List (UInt16 × List Item)}
    (h : DerivesOutline kinds outline)
    {text : List Token}
    (htext : text.map Token.kind = kinds) :
    ∃ found : List Section,
      DerivesProgram text found ∧ found.map Section.outline = outline := by
  induction h generalizing text with
  | nil =>
      simp at htext
      subst htext
      exact ⟨[], .nil, rfl⟩
  | @cons value body rest items others hvalue hbody hne _ ih =>
      obtain ⟨⟨kind, place⟩, afterOrigin, rfl, rfl, htail⟩ := List.map_eq_cons_iff.1 htext
      obtain ⟨⟨kind', place'⟩, afterNumber, rfl, rfl, htail'⟩ := List.map_eq_cons_iff.1 htail
      obtain ⟨front, back, rfl, hfront, hback⟩ := List.map_eq_append_iff.1 htail'
      obtain ⟨statements, hstatements, rfl⟩ := hbody.statements hfront
      obtain ⟨found, hfound, rfl⟩ := ih hback
      have hsection : DerivesSection (⟨.origin, place⟩ :: ⟨.number value, place'⟩ :: front)
          ⟨UInt16.ofNat value.toNat, place, statements⟩ :=
        .mk hvalue hstatements (by simpa using hne)
      exact ⟨_, .cons hsection hfound, rfl⟩

/-- An outline is derived from kinds exactly if a program with it is derived from the tokens. -/
theorem derivesOutline_iff
    {text : List Token}
    {outline : List (UInt16 × List Item)} :
    DerivesOutline (text.map Token.kind) outline ↔
      ∃ found : List Section,
        DerivesProgram text found ∧ found.map Section.outline = outline := by
  constructor
  · intro h
    exact h.program rfl
  · rintro ⟨found, hfound, rfl⟩
    exact hfound.outline

end Outlines

section Spellings

theorem toNat_toUInt32_le (word : UInt16) : word.toUInt32.toNat ≤ 65535 := by
  rw [UInt16.toNat_toUInt32]
  exact Nat.le_of_lt_succ word.toNat_lt

/-- The kind of the token that an operand is written as. -/
def Operand.kind : Operand → TokenKind
  | .address value => .number value.toUInt32
  | .label name => .name name

/-- The kinds of the tokens that an item is written as, a mnemonic in small letters. -/
def Item.kinds : Item → List TokenKind
  | .label name => [.name name, .colon]
  | .byte value => [.name "db", .number value.toUInt32]
  | .instruction i operand => [.name i.mnemonic, .openBracket, operand.kind, .closeBracket]

/-- The kinds of the tokens that a program is written as. -/
def outlineKinds (outline : List (UInt16 × List Item)) : List TokenKind :=
  outline.flatMap fun s => .origin :: .number s.1.toUInt32 :: s.2.flatMap Item.kinds

theorem derivesOperand_kind (operand : Operand) : DerivesOperand operand.kind operand := by
  cases operand with
  | address value =>
      have hderives := DerivesOperand.address (toNat_toUInt32_le value)
      rwa [UInt16.toNat_toUInt32, UInt16.ofNat_toNat] at hderives
  | label name => exact .label name

theorem derivesItem_kinds (item : Item) : DerivesItem item.kinds item := by
  cases item with
  | label name => exact .label name
  | instruction i operand =>
      have hword : Instruction.ofMnemonic? i.mnemonic = some i :=
        Instruction.ofMnemonic?_eq_some_iff.2 (by simp [Text.sameWord])
      exact .instruction hword (derivesOperand_kind operand)
  | byte value =>
      have hword : Text.sameWord "db" "db" = true := by simp [Text.sameWord]
      have hvalue : value.toUInt32.toNat ≤ 255 := by
        rw [UInt8.toNat_toUInt32]
        exact Nat.le_of_lt_succ value.toNat_lt
      have hderives := DerivesItem.byte hword hvalue
      rwa [UInt8.toNat_toUInt32, UInt8.ofNat_toNat] at hderives

theorem derivesItems_kinds (items : List Item) : DerivesItems (items.flatMap Item.kinds) items := by
  induction items with
  | nil => exact .nil
  | cons item items ih => exact .cons (derivesItem_kinds item) ih

theorem derivesOutline_kinds
    {outline : List (UInt16 × List Item)}
    (h : ∀ s ∈ outline, s.2 ≠ []) :
    DerivesOutline (outlineKinds outline) outline := by
  induction outline with
  | nil => exact .nil
  | cons s others ih =>
      have hsection := DerivesOutline.cons (toNat_toUInt32_le s.1) (derivesItems_kinds s.2)
        (h s (by simp)) (ih fun t ht => h t (by simp [ht]))
      rwa [UInt16.toNat_toUInt32, UInt16.ofNat_toNat] at hsection

theorem exists_tokens_of_statements (statements : List Statement) :
    ∃ text : List Token, DerivesStatements text statements := by
  induction statements with
  | nil => exact ⟨[], .nil⟩
  | cons s statements ih =>
      obtain ⟨rest, hrest⟩ := ih
      have hitem := derivesItem_kinds s.item
      obtain ⟨word, others, hkinds⟩ := hitem.exists_cons
      rw [hkinds] at hitem
      -- Only the place of the first token matters; the others are put there too.
      have hothers : (others.map fun kind => Token.mk kind s.location).map Token.kind = others := by
        simp [Function.comp_def]
      rw [← hothers] at hitem
      have hfirst : DerivesItem ((Token.mk (.name word) s.location).kind :: _) s.item := hitem
      exact ⟨_, .cons hfirst hrest⟩

/-- Every list of sections, each of them with statements, can be written down. -/
theorem exists_tokens_of_sections
    {found : List Section}
    (h : ∀ s ∈ found, s.statements ≠ []) :
    ∃ text : List Token, DerivesProgram text found := by
  induction found with
  | nil => exact ⟨[], .nil⟩
  | cons s found ih =>
      obtain ⟨rest, hrest⟩ := ih fun t ht => h t (by simp [ht])
      obtain ⟨body, hbody⟩ := exists_tokens_of_statements s.statements
      have hsection := @DerivesSection.mk s.location s.location s.origin.toUInt32 _ _
        (toNat_toUInt32_le s.origin) hbody (h s (by simp))
      rw [UInt16.toNat_toUInt32, UInt16.ofNat_toNat] at hsection
      exact ⟨_, .cons hsection hrest⟩

theorem DerivesProgram.statements_ne_nil
    {text : List Token}
    {found : List Section}
    (h : DerivesProgram text found) :
    ∀ s ∈ found, s.statements ≠ [] := by
  induction h with
  | nil => simp
  | cons hsection _ ih =>
      cases hsection with
      | mk _ _ hne => simpa using ⟨hne, ih⟩

end Spellings

/-- **Recognition.** Sections are read from tokens exactly if the grammar derives them, and the
outline is the only one for the kinds. -/
theorem sections_recognize_grammar :
    (∀ text : List Token,
      (∃ found, sections text = .ok found) ↔
        ∃ outline, DerivesOutline (text.map Token.kind) outline) ∧
    (∀ (text : List Token) (found : List Section),
      sections text = .ok found ↔ DerivesProgram text found) ∧
    (∀ (text : List Token) (found : List Section),
      sections text = .ok found →
        ∀ outline, DerivesOutline (text.map Token.kind) outline ↔
          outline = found.map Section.outline) ∧
    (∀ found : List Section,
      (∃ text, DerivesProgram text found) ↔ ∀ s ∈ found, s.statements ≠ []) ∧
    (∀ (word : String) (i : Instruction),
      Instruction.ofMnemonic? word = some i ↔ Text.sameWord word i.mnemonic = true) := by
  refine ⟨?_, fun text found => sections_eq_ok_iff, ?_, ?_,
    fun word i => Instruction.ofMnemonic?_eq_some_iff⟩
  · intro text
    constructor
    · rintro ⟨found, hfound⟩
      exact ⟨_, (sections_eq_ok_iff.1 hfound).outline⟩
    · rintro ⟨outline, houtline⟩
      obtain ⟨found, hfound, _⟩ := derivesOutline_iff.1 houtline
      exact ⟨found, sections_eq_ok_iff.2 hfound⟩
  · intro text found hfound outline
    constructor
    · intro houtline
      obtain ⟨other, hother, rfl⟩ := derivesOutline_iff.1 houtline
      have hsame : found = other := by
        have hread := sections_eq_ok_iff.2 hother
        rw [hfound] at hread
        exact Except.ok.inj hread
      rw [hsame]
    · rintro rfl
      exact (sections_eq_ok_iff.1 hfound).outline
  · intro found
    constructor
    · rintro ⟨text, htext⟩
      exact htext.statements_ne_nil
    · exact exists_tokens_of_sections

end Source
end Microcomputer
