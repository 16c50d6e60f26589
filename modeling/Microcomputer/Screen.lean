import Microcomputer.Text.Characters

/-!
# The screen

A screen is a list of rows, and a row a list of cells: characters with a style.

**Panes.**  A pane is a box with a single-line border, a title in the top border, and lines inside,
which are cut at the right border and at the bottom border.  A piece of text lies over the style of
its line, and the line and the border over the style of the pane.

**Wrapping.**  A row takes as many words of a line as fit, with the blanks in front of each; a word
longer than a row is cut.  Where a row ends, the blanks that would still fit into it are left out,
and one more if a blank begins the next row.  A line of blanks alone makes an empty row before that
of its blanks.
-/

namespace Microcomputer
namespace Screen

section Cells

inductive Color
  | red
  | green
  | yellow
  | magenta
  | cyan
  | gray
  | darkGray
  | white
  deriving DecidableEq

def Color.name : Color → String
  | .red => "Red"
  | .green => "Green"
  | .yellow => "Yellow"
  | .magenta => "Magenta"
  | .cyan => "Cyan"
  | .gray => "Gray"
  | .darkGray => "DarkGray"
  | .white => "White"

structure Style where
  color : Option Color := none
  bold : Bool := false
  deriving DecidableEq

namespace Style

def ofColor (color : Color) : Style :=
  { color := some color }

/-- A style laid over another one: where it is silent, the lower one shows. -/
def above (upper lower : Style) : Style :=
  { color := upper.color.or lower.color, bold := upper.bold || lower.bold }

/-- The name of a style; the default style has the empty name. -/
def name (style : Style) : String :=
  (style.color.map Color.name).getD "" ++ if style.bold then "+bold" else ""

end Style

structure Cell where
  char : Char
  style : Style
  deriving DecidableEq

abbrev Row := List Cell

namespace Row

def text (row : Row) : String :=
  String.ofList (row.map (·.char))

def ofText
    (text : String)
    (style : Style) :
    Row :=
  text.toList.map fun char => { char, style }

/-- A row cut, or filled with blanks of a style, to a width. -/
def fit
    (row : Row)
    (width : Nat)
    (style : Style) :
    Row :=
  (row.take width).rightpad width { char := ' ', style }

end Row

end Cells

section Panes

/-- A piece of text in one style. -/
structure Span where
  text : String
  style : Style := {}

/-- A line inside a pane. -/
structure Line where
  spans : List Span
  style : Style := {}

def Line.ofText (text : String) : Line :=
  { spans := [{ text }] }

structure Pane where
  title : String
  border : Style := {}
  style : Style := {}
  lines : List Line

namespace Line

def cells
    (line : Line)
    (width : Nat)
    (below : Style) :
    Row :=
  let style := line.style.above below
  Row.fit (line.spans.flatMap fun s => Row.ofText s.text (s.style.above style)) width style

end Line

namespace Pane

def borderStyle (p : Pane) : Style :=
  p.border.above p.style

def top
    (p : Pane)
    (width : Nat) :
    Row :=
  let title := p.title.toList.take width
  Row.ofText
    (String.ofList ('┌' :: title.rightpad width '─' ++ ['┐']))
    p.borderStyle

def bottom
    (p : Pane)
    (width : Nat) :
    Row :=
  Row.ofText (String.ofList ('└' :: List.replicate width '─' ++ ['┘'])) p.borderStyle

def inner
    (p : Pane)
    (width : Nat)
    (line : Line) :
    Row :=
  let side : Row := Row.ofText "│" p.borderStyle
  side ++ line.cells width p.style ++ side

def rows
    (p : Pane)
    (width height : Nat) :
    List Row :=
  let shown := (p.lines.take (height - 2)).rightpad (height - 2) { spans := [] }
  p.top (width - 2) :: shown.map (p.inner (width - 2)) ++ [p.bottom (width - 2)]

end Pane

end Panes

section Wrapping

/-- A blank at which a line can be broken; the no-break space is none. -/
def isBreak (c : Char) : Bool :=
  Text.isBlank c && c != '\u00a0'

structure Wrapping where
  rows : List (List Char) := []
  row : List Char := []
  blanks : List Char := []
  word : List Char := []
  /-- The last character taken was part of a word. -/
  inWord : Bool := false

namespace Wrapping

def settle (w : Wrapping) : Wrapping :=
  { w with row := w.row ++ w.blanks ++ w.word, blanks := [], word := [] }

/-- The columns in use, with the word that is not yet settled. -/
def used (w : Wrapping) : Nat :=
  w.row.length + w.blanks.length + w.word.length

def take
    (w : Wrapping)
    (c : Char) :
    Wrapping :=
  if isBreak c then { w with blanks := w.blanks ++ [c], inWord := false }
  else { w with word := w.word ++ [c], inWord := true }

/-- End the row, without the blanks that would still fit into it. -/
def breakRow
    (width : Nat)
    (w : Wrapping) :
    Wrapping :=
  { w with
    rows := w.rows ++ [w.row]
    row := []
    blanks := w.blanks.drop (width - w.row.length) }

def step
    (width : Nat)
    (w : Wrapping)
    (c : Char) :
    Wrapping :=
  let ends := (w.inWord && isBreak c) || (w.row.isEmpty && width ≤ w.used)
  let w := if ends then w.settle else w
  if w.used < width then w.take c
  else
    let next := w.breakRow width
    if isBreak c && next.blanks.isEmpty then next else next.take c

/-- The rows of a line that has been laid out; there is at least one. -/
def finish (w : Wrapping) : List (List Char) :=
  let onlyBlanks := w.row.isEmpty && w.word.isEmpty && !w.blanks.isEmpty
  let rows := if onlyBlanks then w.rows ++ [[]] else w.rows
  let last := w.settle.row
  if last.isEmpty && !rows.isEmpty then rows else rows ++ [last]

end Wrapping

def wrap
    (width : Nat)
    (line : List Char) :
    List (List Char) :=
  if width = 0 then [[]] else (line.foldl (Wrapping.step width) {}).finish

/-- The lines of a text, wrapped to a width. -/
def wrapped
    (width : Nat)
    (text : String) :
    List Line :=
  (Text.lines text).flatMap fun line =>
    (wrap width line).map fun part => Line.ofText (String.ofList part)

end Wrapping

end Screen
end Microcomputer
