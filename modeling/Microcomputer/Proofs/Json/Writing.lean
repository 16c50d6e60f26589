import Microcomputer.Json.Value
import Microcomputer.Proofs.Json.Reading

/-!
# What is written is read back

**Layouts.**  The compact and the pretty text of a value differ in their blanks alone.  A `Layout`
says which blanks there are, and `render` writes a value with them; both writers are cases of it
(`toList_compactOnto`, `toList_prettyOnto`).

**Values.**  `Json.WellFormed v`: the numbers of the value are literals of numbers, and its strings
and names are written as strings must be.

**Result.**  `spells_render`: what is written is a text of the value.  So a well-formed value is
read back from its compact text (`ofText?_compact`) and from its pretty one (`ofText?_pretty`).
-/

namespace Microcomputer
namespace Json

/-- The blanks between the parts of a text. -/
structure Layout where
  /-- Before the elements and members at a depth, and before the bracket that closes them. -/
  line : Nat → List Char
  /-- Behind a colon. -/
  gap : List Char
  isBlank_line : ∀ depth, ∀ c ∈ line depth, Token.isBlank c = true
  isBlank_gap : ∀ c ∈ gap, Token.isBlank c = true

namespace Layout

/-- No blanks at all. -/
def compact : Layout where
  line _ := []
  gap := []
  isBlank_line _ _ h := nomatch h
  isBlank_gap _ h := nomatch h

/-- Every element and member on a line of its own. -/
def pretty : Layout where
  line depth := '\n' :: List.replicate (2 * depth) ' '
  gap := [' ']
  isBlank_line depth c h := by
    rcases List.mem_cons.1 h with rfl | h
    · rfl
    · rw [List.eq_of_mem_replicate h]
      rfl
  isBlank_gap c h := by
    rw [List.mem_singleton.1 h]
    rfl

end Layout

section Rendering

mutual

/-- The text of a value in a layout. -/
def render
    (layout : Layout)
    (depth : Nat) :
    Json → List Char
  | .null => Token.null.spelling
  | .boolean b => (Token.boolean b).spelling
  | .number literal => (Token.number literal).spelling
  | .string written => (Token.string written).spelling
  | .array [] => ['[', ']']
  | .array (v :: rest) =>
      '[' :: (layout.line (depth + 1) ++
        (render layout (depth + 1) v ++
          (renderElements layout depth rest ++ (layout.line depth ++ [']']))))
  | .object [] => ['\x7b', '\x7d']
  | .object ((key, v) :: rest) =>
      '\x7b' :: (layout.line (depth + 1) ++
        ((Token.string key).spelling ++ ':' :: (layout.gap ++
          (render layout (depth + 1) v ++
            (renderMembers layout depth rest ++ (layout.line depth ++ ['\x7d']))))))

/-- The text of the elements after the first one. -/
def renderElements
    (layout : Layout)
    (depth : Nat) :
    List Json → List Char
  | [] => []
  | v :: rest =>
      ',' :: (layout.line (depth + 1) ++
        (render layout (depth + 1) v ++ renderElements layout depth rest))

/-- The text of the members after the first one. -/
def renderMembers
    (layout : Layout)
    (depth : Nat) :
    List (String × Json) → List Char
  | [] => []
  | (key, v) :: rest =>
      ',' :: (layout.line (depth + 1) ++
        ((Token.string key).spelling ++ ':' :: (layout.gap ++
          (render layout (depth + 1) v ++ renderMembers layout depth rest))))

end

mutual

theorem toList_compactOnto
    (v : Json)
    (text : String)
    (depth : Nat) :
    (compactOnto text v).toList = text.toList ++ render .compact depth v := by
  match v with
  | .null | .boolean true | .boolean false | .number _ | .string _ =>
      simp [compactOnto, render, Token.spelling]
  | .array [] => simp [compactOnto, render]
  | .array (v :: rest) =>
      simp [compactOnto, render, toList_elementsOnto rest _ depth,
        toList_compactOnto v _ (depth + 1), Layout.compact]
  | .object [] => simp [compactOnto, render]
  | .object ((key, v) :: rest) =>
      simp [compactOnto, render, toList_membersOnto rest _ depth,
        toList_compactOnto v _ (depth + 1), Layout.compact, Token.spelling]

theorem toList_elementsOnto
    (rest : List Json)
    (text : String)
    (depth : Nat) :
    (elementsOnto text rest).toList = text.toList ++ renderElements .compact depth rest := by
  match rest with
  | [] => simp [elementsOnto, renderElements]
  | v :: rest =>
      simp [elementsOnto, renderElements, toList_elementsOnto rest _ depth,
        toList_compactOnto v _ (depth + 1), Layout.compact]

theorem toList_membersOnto
    (rest : List (String × Json))
    (text : String)
    (depth : Nat) :
    (membersOnto text rest).toList = text.toList ++ renderMembers .compact depth rest := by
  match rest with
  | [] => simp [membersOnto, renderMembers]
  | (key, v) :: rest =>
      simp [membersOnto, renderMembers, toList_membersOnto rest _ depth,
        toList_compactOnto v _ (depth + 1), Layout.compact, Token.spelling]

end

theorem toList_newLine (depth : Nat) : (newLine depth).toList = Layout.pretty.line depth := by
  simp [newLine, Layout.pretty]

mutual

theorem toList_prettyOnto
    (v : Json)
    (depth : Nat)
    (text : String) :
    (prettyOnto depth text v).toList = text.toList ++ render .pretty depth v := by
  match v with
  | .null | .boolean true | .boolean false | .number _ | .string _ =>
      simp [prettyOnto, render, Token.spelling]
  | .array [] => simp [prettyOnto, render]
  | .array (v :: rest) =>
      simp [prettyOnto, render, toList_prettyElements rest, toList_prettyOnto v, toList_newLine]
  | .object [] => simp [prettyOnto, render]
  | .object ((key, v) :: rest) =>
      simp [prettyOnto, render, toList_prettyMembers rest, toList_prettyOnto v, toList_newLine,
        Token.spelling, show Layout.pretty.gap = [' '] from rfl]

theorem toList_prettyElements
    (rest : List Json)
    (depth : Nat)
    (text : String) :
    (prettyElements depth text rest).toList =
      text.toList ++ renderElements .pretty depth rest := by
  match rest with
  | [] => simp [prettyElements, renderElements]
  | v :: rest =>
      simp [prettyElements, renderElements, toList_prettyElements rest, toList_prettyOnto v,
        toList_newLine]

theorem toList_prettyMembers
    (rest : List (String × Json))
    (depth : Nat)
    (text : String) :
    (prettyMembers depth text rest).toList =
      text.toList ++ renderMembers .pretty depth rest := by
  match rest with
  | [] => simp [prettyMembers, renderMembers]
  | (key, v) :: rest =>
      simp [prettyMembers, renderMembers, toList_prettyMembers rest, toList_prettyOnto v,
        toList_newLine, Token.spelling, show Layout.pretty.gap = [' '] from rfl]

end

end Rendering

section Spelling

/-- A text of some tokens, before which a number may end. -/
structure Follows
    (text : List Char)
    (tokens : List Token) :
    Prop where
  spells : Spells text tokens
  ends : EndsNumber text

theorem follows_nil : Follows [] [] :=
  ⟨.nil, fun _ h => nomatch h⟩

variable {text : List Char} {tokens : List Token}

theorem Follows.blanks
    {blanks : List Char}
    (hblanks : ∀ c ∈ blanks, Token.isBlank c = true)
    (h : Follows text tokens) :
    Follows (blanks ++ text) tokens := by
  refine ⟨h.spells.blanks hblanks, ?_⟩
  cases blanks with
  | nil => exact h.ends
  | cons c others =>
      rintro _ ⟨⟩
      have hc := hblanks c List.mem_cons_self
      simp only [Token.isBlank, Bool.or_eq_true, beq_iff_eq] at hc
      rcases hc with ((rfl | rfl) | rfl) | rfl <;> decide

theorem Spells.comma (h : Spells text tokens) : Follows (',' :: text) (.comma :: tokens) :=
  ⟨.token .comma trivial trivial h, by rintro _ ⟨⟩; decide⟩

theorem Follows.closeBracket (h : Follows text tokens) :
    Follows (']' :: text) (.closeBracket :: tokens) :=
  ⟨.token .closeBracket trivial trivial h.spells, by rintro _ ⟨⟩; decide⟩

theorem Follows.closeBrace (h : Follows text tokens) :
    Follows ('\x7d' :: text) (.closeBrace :: tokens) :=
  ⟨.token .closeBrace trivial trivial h.spells, by rintro _ ⟨⟩; decide⟩

theorem Spells.name
    {key : String}
    {gap : List Char}
    (hkey : IsWritten key.toList)
    (hgap : ∀ c ∈ gap, Token.isBlank c = true)
    (h : Spells text tokens) :
    Spells ((Token.string key).spelling ++ ':' :: (gap ++ text))
      (.string key :: .colon :: tokens) :=
  .token (.string key) hkey trivial (.token .colon trivial trivial (h.blanks hgap))

mutual

/-- What is written for a value is a text of it, with anything behind it. -/
theorem spells_render
    (v : Json)
    (layout : Layout)
    (depth : Nat)
    {text : List Char}
    {tokens : List Token}
    (hv : ∀ t ∈ v.tokens, t.WellFormed)
    (h : Follows text tokens) :
    Spells (render layout depth v ++ text) (v.tokens ++ tokens) := by
  match v with
  | .null => exact .token .null trivial trivial h.spells
  | .boolean b => exact .token (.boolean b) trivial trivial h.spells
  | .number literal => exact .token (.number literal) (hv _ List.mem_cons_self) h.ends h.spells
  | .string written => exact .token (.string written) (hv _ List.mem_cons_self) trivial h.spells
  | .array [] => exact .token .openBracket trivial trivial h.closeBracket.spells
  | .array (v :: rest) =>
      simp only [Json.tokens, List.mem_cons, List.mem_append, or_imp, forall_and] at hv
      obtain ⟨-, ⟨hv, hrest⟩, -⟩ := hv
      have hclose := h.closeBracket.blanks (layout.isBlank_line depth)
      have hothers := follows_renderElements rest layout depth hrest hclose
      have hvalue := spells_render v layout (depth + 1) hv hothers
      simpa [render, Json.tokens, Token.spelling] using
        Spells.token .openBracket trivial trivial
          (hvalue.blanks (layout.isBlank_line (depth + 1)))
  | .object [] => exact .token .openBrace trivial trivial h.closeBrace.spells
  | .object ((key, v) :: rest) =>
      simp only [Json.tokens, List.mem_cons, List.mem_append, or_imp, forall_and] at hv
      obtain ⟨-, hkey, -, ⟨hv, hrest⟩, -⟩ := hv
      have hclose := h.closeBrace.blanks (layout.isBlank_line depth)
      have hothers := follows_renderMembers rest layout depth hrest hclose
      have hvalue := spells_render v layout (depth + 1) hv hothers
      have hname := hvalue.name (hkey _ rfl) layout.isBlank_gap
      simpa [render, Json.tokens, Token.spelling] using
        Spells.token .openBrace trivial trivial
          (hname.blanks (layout.isBlank_line (depth + 1)))

theorem follows_renderElements
    (rest : List Json)
    (layout : Layout)
    (depth : Nat)
    {text : List Char}
    {tokens : List Token}
    (hrest : ∀ t ∈ elementTokens rest, t.WellFormed)
    (h : Follows text tokens) :
    Follows (renderElements layout depth rest ++ text) (elementTokens rest ++ tokens) := by
  match rest with
  | [] => exact h
  | v :: rest =>
      simp only [elementTokens, List.mem_cons, List.mem_append, or_imp, forall_and] at hrest
      obtain ⟨-, hv, hrest⟩ := hrest
      have hothers := follows_renderElements rest layout depth hrest h
      have hvalue := spells_render v layout (depth + 1) hv hothers
      simpa [renderElements, elementTokens] using
        (hvalue.blanks (layout.isBlank_line (depth + 1))).comma

theorem follows_renderMembers
    (rest : List (String × Json))
    (layout : Layout)
    (depth : Nat)
    {text : List Char}
    {tokens : List Token}
    (hrest : ∀ t ∈ memberTokens rest, t.WellFormed)
    (h : Follows text tokens) :
    Follows (renderMembers layout depth rest ++ text) (memberTokens rest ++ tokens) := by
  match rest with
  | [] => exact h
  | (key, v) :: rest =>
      simp only [memberTokens, List.mem_cons, List.mem_append, or_imp, forall_and] at hrest
      obtain ⟨-, hkey, -, hv, hrest⟩ := hrest
      have hothers := follows_renderMembers rest layout depth hrest h
      have hvalue := spells_render v layout (depth + 1) hv hothers
      have hname := hvalue.name (hkey _ rfl) layout.isBlank_gap
      simpa [renderMembers, memberTokens] using
        (hname.blanks (layout.isBlank_line (depth + 1))).comma

end

end Spelling

/-- The numbers, the strings and the names of a value are written as they must be. -/
def WellFormed (v : Json) : Prop :=
  ∀ t ∈ v.tokens, t.WellFormed

variable {v : Json}

theorem spells_of_render
    {text : String}
    {layout : Layout}
    {depth : Nat}
    (h : v.WellFormed)
    (htext : text.toList = render layout depth v) :
    Spells text.toList v.tokens := by
  have hspells := spells_render v layout depth h follows_nil
  rwa [List.append_nil, List.append_nil, ← htext] at hspells

theorem spells_compact (h : v.WellFormed) : Spells v.compact.toList v.tokens :=
  spells_of_render h (toList_compactOnto v "" 0)

/-- **Compact texts.**  A well-formed value is read back from its compact text. -/
theorem ofText?_compact (h : v.WellFormed) : ofText? v.compact = some v :=
  ofText?_of_spells (spells_compact h)

/-- **Pretty texts.**  A well-formed value is read back from its pretty text. -/
theorem ofText?_pretty (h : v.WellFormed) : ofText? v.pretty = some v :=
  ofText?_of_spells (spells_of_render h (toList_prettyOnto v 0 ""))

end Json
end Microcomputer
