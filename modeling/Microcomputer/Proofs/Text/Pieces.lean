import Mathlib.Data.List.Forall2
import Microcomputer.Proofs.Text.Numeral
import Microcomputer.Text.Characters

/-!
# Texts cut into pieces

What a text is cut into that was put together from pieces.

**Lines.**  `lines_terminated`: lines with a line feed behind each of them.  Numerals stand in a
line (`inLine_decimal`, `inLine_hexDigits`).

**Words.**  `words_padded`: words with a blank between them, and blanks behind the last one.

**Reading.**  Pieces can be read together exactly if each of them can be read (`mapM_eq_some_iff`,
`mapM_eq_some_map`).
-/

namespace Microcomputer
namespace Text

section Lines

/-- None of the characters ends a line. -/
def InLine (chars : List Char) : Prop :=
  ∀ c ∈ chars, c ≠ '\n' ∧ c ≠ '\r'

instance (chars : List Char) : Decidable (InLine chars) :=
  List.decidableBAll _ chars

@[simp]
theorem inLine_nil : InLine [] := by
  simp [InLine]

@[simp]
theorem inLine_cons
    {c : Char}
    {chars : List Char} :
    InLine (c :: chars) ↔ (c ≠ '\n' ∧ c ≠ '\r') ∧ InLine chars :=
  List.forall_mem_cons

@[simp]
theorem inLine_append
    {first second : List Char} :
    InLine (first ++ second) ↔ InLine first ∧ InLine second :=
  List.forall_mem_append

theorem InLine.append
    {first second : List Char}
    (h : InLine first)
    (h' : InLine second) :
    InLine (first ++ second) := by
  exact inLine_append.2 ⟨h, h'⟩

theorem inLine_intercalate
    {separator : List Char}
    {pieces : List (List Char)}
    (hseparator : InLine separator)
    (h : ∀ piece ∈ pieces, InLine piece) :
    InLine (separator.intercalate pieces) := by
  induction pieces with
  | nil => exact inLine_nil
  | cons piece others ih =>
      obtain ⟨hpiece, hothers⟩ := List.forall_mem_cons.1 h
      cases others with
      | nil => simpa using hpiece
      | cons second others =>
          rw [List.intercalate_cons_cons]
          exact (hpiece.append hseparator).append (ih hothers)

theorem splitOn_terminated
    {pieces : List (List Char)}
    {separator : Char}
    (h : ∀ piece ∈ pieces, separator ∉ piece) :
    (pieces.flatMap (· ++ [separator])).splitOn separator = pieces ++ [[]] := by
  induction pieces with
  | nil => rfl
  | cons piece pieces ih =>
      obtain ⟨hpiece, hpieces⟩ := List.forall_mem_cons.1 h
      rw [List.flatMap_cons, List.append_assoc, List.singleton_append,
        List.splitOn_append_cons_self, List.splitOn_eq_singleton hpiece, ih hpieces]
      rfl

/-- What a line feed ends as it is. -/
def IsLine (chars : List Char) : Prop :=
  '\n' ∉ chars ∧ chars.getLast? ≠ some '\r'

theorem InLine.isLine
    {line : List Char}
    (h : InLine line) :
    IsLine line :=
  ⟨fun hmem => (h '\n' hmem).1 rfl, fun hlast => (h '\r' (List.mem_of_getLast? hlast)).2 rfl⟩

theorem isLine_append
    {first second : List Char}
    (h : '\n' ∉ first)
    (hsecond : InLine second)
    (hne : second ≠ []) :
    IsLine (first ++ second) := by
  obtain ⟨hfeed, hreturn⟩ := hsecond.isLine
  constructor
  · simp [h, hfeed]
  · rwa [List.getLast?_append_of_ne_nil first hne]

theorem lines_of_isLine
    {pieces : List (List Char)}
    (h : ∀ piece ∈ pieces, IsLine piece) :
    lines (String.ofList (pieces.flatMap (· ++ ['\n']))) = pieces := by
  have hsplit : (pieces.flatMap (· ++ ['\n'])).splitOn '\n' = pieces ++ [[]] :=
    splitOn_terminated fun piece hpiece => (h piece hpiece).1
  have hkept : pieces.map dropReturn = pieces :=
    (List.map_congr_left fun piece hpiece => if_neg (h piece hpiece).2).trans (List.map_id pieces)
  simp [lines, hsplit, hkept]

theorem lines_terminated
    {pieces : List (List Char)}
    (h : ∀ piece ∈ pieces, InLine piece) :
    lines (String.ofList (pieces.flatMap (· ++ ['\n']))) = pieces :=
  lines_of_isLine fun piece hpiece => (h piece hpiece).isLine

theorem inLine_hexDigits (width n : Nat) : InLine (hexDigits width n) := by
  intro c hc
  have hdigit := isHexDigit_of_mem_hexDigits hc
  constructor
  · rintro rfl
    exact absurd hdigit (by decide)
  · rintro rfl
    exact absurd hdigit (by decide)

@[simp]
theorem inLine_hexLiteral (width n : Nat) : InLine (hexLiteral width n).toList := by
  simp [toList_hexLiteral, inLine_hexDigits]

@[simp]
theorem inLine_decimal (n : Nat) : InLine (decimal n).toList := by
  intro c hc
  have hmem : c ∈ Nat.toDigits 10 n := by simpa [decimal] using hc
  have hdigit : c.isDigit = true := Nat.isDigit_of_mem_toDigits (by decide) (by decide) hmem
  constructor
  · rintro rfl
    cases hdigit
  · rintro rfl
    cases hdigit

end Lines

section Words

/-- The words of a text, between its blanks. -/
def words (text : List Char) : List (List Char) :=
  (text.splitOn ' ').filter (!·.isEmpty)

theorem words_replicate (count : Nat) : words (List.replicate count ' ') = [] := by
  induction count with
  | zero => rfl
  | succ count ih =>
      have hsplit := List.splitOn_append_cons_self (a := ' ') [] (List.replicate count ' ')
      rw [List.nil_append] at hsplit
      rw [words, List.replicate_succ, hsplit, List.filter_append]
      exact ih

/-- A word before a blank and other words. -/
theorem words_append_cons
    {word : List Char}
    (hblank : ' ' ∉ word)
    (hne : word ≠ [])
    (text : List Char) :
    words (word ++ ' ' :: text) = word :: words text := by
  rw [words, List.splitOn_append_cons_self, List.splitOn_eq_singleton hblank, List.filter_append]
  simp [hne, words]

theorem words_padded
    {pieces : List (List Char)}
    (h : ∀ piece ∈ pieces, ' ' ∉ piece ∧ piece ≠ [])
    (count : Nat) :
    words ([' '].intercalate pieces ++ List.replicate count ' ') = pieces := by
  induction pieces with
  | nil => exact words_replicate count
  | cons piece pieces ih =>
      obtain ⟨⟨hblank, hne⟩, hpieces⟩ := List.forall_mem_cons.1 h
      cases pieces with
      | nil =>
          rw [List.intercalate_singleton]
          cases count with
          | zero => simp [words, List.splitOn_eq_singleton hblank, hne]
          | succ count =>
              rw [List.replicate_succ, words_append_cons hblank hne, words_replicate]
      | cons second others =>
          rw [List.intercalate_cons_cons, List.append_assoc, List.append_assoc,
            List.singleton_append, words_append_cons hblank hne, ih hpieces]

end Words

section Reading

theorem mapM_eq_some_map
    {α β : Type}
    {f : α → Option β}
    {g : α → β}
    {l : List α}
    (h : ∀ a ∈ l, f a = some (g a)) :
    l.mapM f = some (l.map g) := by
  induction l with
  | nil => rfl
  | cons a rest ih =>
      rw [List.mapM_cons, h a List.mem_cons_self, ih fun b hb => h b (List.mem_cons_of_mem a hb)]
      rfl

theorem mapM_eq_some_iff
    {α β : Type}
    {f : α → Option β}
    {l : List α}
    {found : List β} :
    l.mapM f = some found ↔ List.Forall₂ (fun a b => f a = some b) l found := by
  induction l generalizing found with
  | nil => cases found <;> simp
  | cons a rest ih =>
      cases found with
      | nil => simp [Option.bind_eq_some_iff]
      | cons b others => simp [Option.bind_eq_some_iff, ih]

end Reading

end Text
end Microcomputer
