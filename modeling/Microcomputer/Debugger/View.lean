import Microcomputer.Debugger.Basic
import Microcomputer.Screen

/-!
# The debugger's screen

**Layout.**  On the left the code, the registers (seven rows) and the status (three rows); on the
right the memory, the output (five rows) and the help (four rows).

**Highlights.**  The current line of code is yellow and bold, and lines with a breakpoint are red.
The byte at the program counter is yellow and bold, the byte at the index magenta, and zeros are
dark.
-/

namespace Microcomputer
namespace Debugger

open Screen (Color Style Span Line Pane Row)

section Panes

/-- The style of what the program counter points at. -/
def currentStyle : Style :=
  { color := some .yellow, bold := true }

def codeLine
    (d : Debugger)
    (line : CodeLine) :
    Line :=
  let marked := d.breakpoints.contains line.address
  { spans :=
      [{ text :=
          (if marked then "●" else " ") ++ " " ++ (if line.isCurrent then "▶ " else "  ")
            ++ Text.hex 4 line.address.toNat ++ ": " ++ line.text }]
    style :=
      if line.isCurrent then currentStyle
      else if marked then .ofColor .red
      else {} }

def codePane
    (d : Debugger)
    (height : Nat) :
    Pane :=
  { title := " Disassembly "
    border := .ofColor .cyan
    lines := (d.codeView (height - 2)).map d.codeLine }

def phaseColor : Phase → Color
  | .idle => .gray
  | .fetch => .cyan
  | .execute _ => .green

def colored
    (color : Color)
    (text : String) :
    Span :=
  { text, style := .ofColor color }

def plain (text : String) : Span :=
  { text }

def registersPane (d : Debugger) : Pane :=
  let cpu := d.machine.cpu
  let regs := cpu.regs
  { title := " Registers "
    border := .ofColor .green
    lines :=
      [{ spans :=
          [plain "PC: ", colored .yellow (Text.hex 4 regs.pc.toNat),
            plain "   INDEX: ", colored .white (Text.hex 4 regs.index.toNat)] },
        { spans :=
          [plain "ACC: ", colored .white (Text.hex 2 regs.acc.toNat),
            plain (" (" ++ Text.alignRight 3 (Text.decimal regs.acc.toNat) ++ ")"),
            plain "   BUFFER: ", colored .white (Text.hex 2 regs.buffer.toNat)] },
        { spans :=
          [plain "Tick: ", colored (phaseColor cpu.phase) (Text.decimal cpu.counter.toNat),
            plain ("  " ++ cpu.phase.name),
            plain "   Instr: ", plain ((cpu.current.map Instruction.mnemonic).getD "-")] },
        { spans :=
          [plain "Cycles: ", colored .cyan (Text.decimal cpu.cycles.toNat),
            plain "   State: ",
            colored (if cpu.isRunning then .green else .red) cpu.state.name] }] }

def statusPane (d : Debugger) : Pane :=
  { title := " Status "
    style := .ofColor .white
    lines := (Text.lines d.status.text).map fun line => .ofText (String.ofList line) }

/-- The style of a byte of memory at an address, if it has one. -/
def byteStyle
    (regs : Registers)
    (address : Option UInt16)
    (byte : UInt8) :
    Style :=
  if address = some regs.pc then currentStyle
  else if address = some regs.index then .ofColor .magenta
  else if byte ≠ 0 then .ofColor .white
  else .ofColor .darkGray

/-- The label of the row of memory that starts at an offset. -/
def rowLabel
    (d : Debugger)
    (offset : Nat) :
    String :=
  match d.machine.addressOf? offset with
  | some address => Text.hex 4 address.toNat
  | none => "----"

def memoryLine
    (d : Debugger)
    (row : Nat) :
    Line :=
  let first := row * rowBytes
  let bytes := (d.machine.memory.extract first (first + rowBytes)).toList
  let byteSpan (k : Nat) (byte : UInt8) : Span :=
    { text := Text.hex 2 byte.toNat ++ " "
      style := byteStyle d.machine.cpu.regs (d.machine.addressOf? (first + k)) byte }
  { spans := colored .darkGray (d.rowLabel first ++ ": ") :: bytes.mapIdx byteSpan }

/-- The number of rows of memory, the last of which may be shorter. -/
def rowCount (d : Debugger) : Nat :=
  (d.machine.memory.size + (rowBytes - 1)) / rowBytes

def memoryPane
    (d : Debugger)
    (height : Nat) :
    Pane :=
  let rows := min (height - 2) (d.rowCount - d.scroll)
  { title := " Memory (" ++ Text.decimal d.machine.memory.size ++ " bytes) "
    border := .ofColor .magenta
    lines := (List.range rows).map fun k => d.memoryLine (d.scroll + k) }

def outputPane
    (d : Debugger)
    (width : Nat) :
    Pane :=
  { title := " Output @ " ++ Text.hex 4 d.machine.map.charOutBase.toNat ++ " "
    style := .ofColor .white
    lines := Screen.wrapped (width - 2) d.machine.outputText }

def helpPane : Pane :=
  { title := " Help "
    style := .ofColor .darkGray
    lines :=
      [.ofText "t: Tick  s: Step  r: Run  p: Pause  b: Breakpoint",
        .ofText "x: Reset  ↑↓/PgUp/PgDn: Scroll memory  q: Quit"] }

end Panes

section Layout

def codeHeight (height : Nat) : Nat :=
  height - 10

def memoryHeight (height : Nat) : Nat :=
  height - 9

def leftRows
    (d : Debugger)
    (width height : Nat) :
    List Row :=
  (d.codePane (codeHeight height)).rows width (codeHeight height)
    ++ d.registersPane.rows width 7
    ++ d.statusPane.rows width 3

def rightRows
    (d : Debugger)
    (width height : Nat) :
    List Row :=
  (d.memoryPane (memoryHeight height)).rows width (memoryHeight height)
    ++ (d.outputPane width).rows width 5
    ++ helpPane.rows width 4

def draw
    (d : Debugger)
    (width height : Nat) :
    List Row :=
  List.zipWith (· ++ ·)
    (d.leftRows (width / 2) height)
    (d.rightRows (width / 2) height)

end Layout

end Debugger
end Microcomputer
