import Microcomputer.Screen

/-!
# The rows of a pane

How large a pane is on the screen, and what its rows have between the borders.

**Sizes.**  A pane has as many rows as its height and as many cells in each as its width, as soon as
there is room for the borders (`Pane.length_rows`, `Pane.length_of_mem_rows`).

**Lines.**  `Pane.getElem?_rows`: behind the top border come the lines, and blank ones where there
are no more.  `Pane.inside_inner`: a line has its cells between the borders.

**Cells.**  `Row.fit_eq_take`: a row cut or filled to a width.  `Row.getElem?_blocks`: a cell of a
row that is put together from blocks of one length.
-/

namespace Microcomputer
namespace Screen

@[simp]
theorem Style.above_default (style : Style) : style.above {} = style := by
  simp [above]

namespace Row

@[simp]
theorem length_ofText
    (text : String)
    (style : Style) :
    (ofText text style).length = text.toList.length :=
  List.length_map _

@[simp]
theorem length_fit
    (row : Row)
    (width : Nat)
    (style : Style) :
    (row.fit width style).length = width := by
  simp only [fit, List.length_rightpad, List.length_take]
  omega

theorem fit_eq_take
    (row : Row)
    (width : Nat)
    (style : Style) :
    row.fit width style =
      (row ++ List.replicate width ({ char := ' ', style } : Cell)).take width := by
  have hcount : width - min width row.length = min (width - row.length) width := by omega
  rw [fit, List.rightpad, List.take_append, List.length_take, List.take_replicate, hcount]

theorem style_of_mem_ofText
    {text : String}
    {style : Style}
    {cell : Cell}
    (h : cell ∈ ofText text style) :
    cell.style = style := by
  obtain ⟨c, -, rfl⟩ := List.mem_map.1 h
  rfl

/-- A cell in a row of blocks: the block, and the place in it. -/
theorem getElem?_blocks
    {α : Type}
    {blocks : List α}
    {cells : α → Row}
    {size : Nat}
    (hpos : 0 < size)
    (h : ∀ block ∈ blocks, (cells block).length = size)
    (x : Nat) :
    (blocks.flatMap cells)[x]? = blocks[x / size]?.bind fun block => (cells block)[x % size]? := by
  induction blocks generalizing x with
  | nil => simp
  | cons block blocks ih =>
      obtain ⟨hblock, hblocks⟩ := List.forall_mem_cons.1 h
      rw [List.flatMap_cons]
      by_cases hx : x < size
      · rw [List.getElem?_append_left (by omega), Nat.div_eq_of_lt hx, Nat.mod_eq_of_lt hx]
        rfl
      · have hdiv : x / size = (x - size) / size + 1 := Nat.div_eq_sub_div hpos (by omega)
        have hmod : x % size = (x - size) % size := Nat.mod_eq_sub_mod (by omega)
        rw [List.getElem?_append_right (by omega), hblock, ih hblocks, hdiv, hmod,
          List.getElem?_cons_succ]

end Row

namespace Pane

variable {p : Pane} {width height k : Nat}

theorem length_top : (p.top width).length = width + 2 := by
  simp [top]
  omega

theorem length_bottom : (p.bottom width).length = width + 2 := by
  simp [bottom]

theorem length_inner (line : Line) : (p.inner width line).length = width + 2 := by
  simp [inner, Line.cells]
  omega

theorem length_rows (h : 2 ≤ height) : (p.rows width height).length = height := by
  simp [rows]
  omega

theorem length_of_mem_rows
    {row : Row}
    (hwidth : 2 ≤ width)
    (h : row ∈ p.rows width height) :
    row.length = width := by
  simp only [rows, List.mem_append, List.mem_cons, List.mem_map, List.not_mem_nil, or_false] at h
  rcases h with (rfl | ⟨line, -, rfl⟩) | rfl
  · rw [length_top]
    omega
  · rw [length_inner]
    omega
  · rw [length_bottom]
    omega

theorem getElem?_rows
    (h : k < height - 2) :
    (p.rows width height)[k + 1]? =
      some (p.inner (width - 2) (p.lines[k]?.getD { spans := [] })) := by
  have hblank : ((p.lines.take (height - 2)).rightpad (height - 2) ({ spans := [] } : Line))[k]? =
      some (p.lines[k]?.getD { spans := [] }) := by
    rw [List.rightpad]
    by_cases hk : k < p.lines.length
    · rw [List.getElem?_append_left (by simp; omega), List.getElem?_take_of_lt h,
        List.getElem?_eq_getElem hk, Option.getD_some]
    · rw [List.getElem?_append_right (by simp; omega),
        List.getElem?_replicate_of_lt (by simp; omega),
        List.getElem?_eq_none (Nat.le_of_not_lt hk), Option.getD_none]
  rw [rows, List.cons_append, List.getElem?_cons_succ, List.getElem?_append_left (by simp; omega),
    List.getElem?_map, hblank, Option.map_some]

theorem inside_inner (line : Line) :
    ((p.inner width line).drop 1).take width = line.cells width p.style := by
  have hside : (Row.ofText "│" p.borderStyle).length = 1 := rfl
  have hcells : (line.cells width p.style).length = width := Row.length_fit _ _ _
  rw [inner, List.append_assoc, List.drop_left' hside, List.take_left' hcells]

end Pane

end Screen
end Microcomputer
