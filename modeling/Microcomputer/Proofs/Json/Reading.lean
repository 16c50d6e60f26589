import Microcomputer.Proofs.Json.Spelling

/-!
# Reading back the texts of a value

**Texts.**  `Spells text tokens`: the text is made of the spellings of the tokens, with any blanks
before, between and behind them.  Only a number needs something behind it that cannot go on with it.

**Tokens.**  `Json.tokens` lists the tokens of a value.  `readAll_tokens`: where a value is wanted,
they are read as that value, whatever values are still open.

**Result.**  `ofText?_of_spells`: every text of a value is read as that value.
-/

namespace Microcomputer
namespace Json

/-- The texts of a list of tokens. -/
inductive Spells : List Char → List Token → Prop
  | nil : Spells [] []
  | blank
      {c : Char}
      {text : List Char}
      {tokens : List Token}
      (hc : Token.isBlank c = true)
      (h : Spells text tokens) :
      Spells (c :: text) tokens
  | token
      (token : Token)
      {text : List Char}
      {tokens : List Token}
      (hformed : token.WellFormed)
      (hend : token.EndsBefore text)
      (h : Spells text tokens) :
      Spells (token.spelling ++ text) (token :: tokens)

section Texts

variable {text : List Char} {tokens : List Token}

theorem Spells.readAll
    (h : Spells text tokens)
    (done : Array Token) :
    Token.readAll done text = some (done.toList ++ tokens) := by
  induction h generalizing done with
  | nil => simp [Token.readAll]
  | blank hc _ ih => rw [Token.readAll, if_pos hc, ih]
  | @token token text tokens hformed hend _ ih =>
      obtain ⟨c, more, hspelling, hc⟩ := Token.exists_spelling hformed
      have hread := Token.read_spelling hformed hspelling hend
      rw [hspelling, List.cons_append, Token.readAll, if_neg (by simp [hc])]
      split
      · next hnone =>
          rw [hread] at hnone
          cases hnone
      · next hsome =>
          rw [hread] at hsome
          cases hsome
          rw [ih]
          simp

/-- Blanks before a text change nothing. -/
theorem Spells.blanks
    {blanks : List Char}
    (hblanks : ∀ c ∈ blanks, Token.isBlank c = true)
    (h : Spells text tokens) :
    Spells (blanks ++ text) tokens := by
  induction blanks with
  | nil => exact h
  | cons c others ih =>
      exact .blank (hblanks c List.mem_cons_self)
        (ih fun d hd => hblanks d (List.mem_cons_of_mem c hd))

end Texts

section Tokens

mutual

/-- The tokens of a value. -/
def tokens : Json → List Token
  | .null => [.null]
  | .boolean b => [.boolean b]
  | .number literal => [.number literal]
  | .string written => [.string written]
  | .array [] => [.openBracket, .closeBracket]
  | .array (v :: rest) => .openBracket :: (tokens v ++ elementTokens rest ++ [.closeBracket])
  | .object [] => [.openBrace, .closeBrace]
  | .object ((key, v) :: rest) =>
      .openBrace :: .string key :: .colon :: (tokens v ++ memberTokens rest ++ [.closeBrace])

/-- The tokens of the elements after the first one. -/
def elementTokens : List Json → List Token
  | [] => []
  | v :: rest => .comma :: (tokens v ++ elementTokens rest)

/-- The tokens of the members after the first one. -/
def memberTokens : List (String × Json) → List Token
  | [] => []
  | (key, v) :: rest => .comma :: .string key :: .colon :: (tokens v ++ memberTokens rest)

end

theorem State.readAll_cons
    {state next : State}
    {token : Token}
    (h : state.read token = some next)
    (rest : List Token) :
    state.readAll (token :: rest) = next.readAll rest := by
  simp only [State.readAll, h]

mutual

theorem readAll_tokens
    (v : Json)
    (first : Bool)
    (stack : List Frame)
    (rest : List Token) :
    (State.value first stack).readAll (v.tokens ++ rest) =
      (State.complete v stack).readAll rest := by
  match v with
  | .null | .boolean _ | .number _ | .string _ | .array [] | .object [] => rfl
  | .array (v :: others) =>
      simp only [tokens, List.cons_append, List.append_assoc, List.nil_append]
      rw [State.readAll_cons rfl, readAll_tokens v, readAll_elementTokens others]
      rfl
  | .object ((key, v) :: others) =>
      simp only [tokens, List.cons_append, List.append_assoc, List.nil_append]
      rw [State.readAll_cons rfl, State.readAll_cons rfl, State.readAll_cons rfl,
        readAll_tokens v, readAll_memberTokens others]
      rfl

theorem readAll_elementTokens
    (others : List Json)
    (v : Json)
    (done : List Json)
    (stack : List Frame)
    (rest : List Token) :
    (State.complete v (.array done :: stack)).readAll
        (elementTokens others ++ .closeBracket :: rest) =
      (State.complete (.array (done.reverse ++ v :: others)) stack).readAll rest := by
  match others with
  | [] =>
      rw [elementTokens, List.nil_append, State.readAll_cons rfl]
      simp
  | w :: others =>
      simp only [elementTokens, List.cons_append, List.append_assoc]
      rw [State.readAll_cons rfl, readAll_tokens w, readAll_elementTokens others]
      simp

theorem readAll_memberTokens
    (others : List (String × Json))
    (name : String)
    (v : Json)
    (done : List (String × Json))
    (stack : List Frame)
    (rest : List Token) :
    (State.complete v (.object done name :: stack)).readAll
        (memberTokens others ++ .closeBrace :: rest) =
      (State.complete (.object (done.reverse ++ (name, v) :: others)) stack).readAll rest := by
  match others with
  | [] =>
      rw [memberTokens, List.nil_append, State.readAll_cons rfl]
      simp
  | (key, w) :: others =>
      simp only [memberTokens, List.cons_append, List.append_assoc]
      rw [State.readAll_cons rfl, State.readAll_cons rfl, State.readAll_cons rfl,
        readAll_tokens w, readAll_memberTokens others]
      simp

end

/-- A value is made up by its tokens. -/
theorem ofTokens?_tokens (v : Json) : ofTokens? v.tokens = some v := by
  have h := readAll_tokens v false [] []
  rw [List.append_nil] at h
  rw [ofTokens?, h]
  rfl

end Tokens

/-- **Reading.**  Every text of a value, with any blanks in it, is read as that value. -/
theorem ofText?_of_spells
    {text : String}
    {v : Json}
    (h : Spells text.toList v.tokens) :
    ofText? text = some v := by
  rw [ofText?, h.readAll #[], List.nil_append, Option.bind_some, ofTokens?_tokens]

end Json
end Microcomputer
