import Cnegative.Term.Buffer

namespace Cnegative

namespace Term

open Library

/-! The diff renderer of `std.term`, and a terminal that receives what it writes. -/

/-- One SGR sequence other than the reset. -/
inductive Sgr where
  | code (code : Int)
  | fg256 (color : Int)
  | bg256 (color : Int)
  | fgTrue (red green blue : Nat)
  | bgTrue (red green blue : Nat)
  deriving DecidableEq, Repr

inductive Output where
  | move (row column : Int)
  | sgrReset
  | sgr (item : Sgr)
  | bytes (chars : List Nat)
  | flush
  deriving DecidableEq, Repr

def colorIsRgb (value : Int) : Bool := 16777216 ≤ value

def colorComponent (value : Int) (shift : Nat) : Nat := (unsigned value >>> shift) &&& 255

/-- The masks of `cn_term_set_style`, each with its SGR code. -/
def attributeCodes : List (Nat × Int) :=
  [(1, 1), (2, 2), (4, 3), (8, 4), (16, 5), (32, 7), (64, 9)]

def attributes (attrs : Int) : List Sgr :=
  attributeCodes.filterMap fun (mask, code) =>
    if unsigned attrs &&& mask ≠ 0 then some (.code code) else none

def foreground (fg : Int) : List Sgr :=
  if fg < 0 then []
  else if colorIsRgb fg then
    [.fgTrue (colorComponent fg 16) (colorComponent fg 8) (colorComponent fg 0)]
  else if fg < 8 then [.code (fg + 30)]
  else if fg < 16 then [.code (fg - 8 + 90)]
  else [.fg256 fg]

def background (bg : Int) : List Sgr :=
  if bg < 0 then []
  else if colorIsRgb bg then
    [.bgTrue (colorComponent bg 16) (colorComponent bg 8) (colorComponent bg 0)]
  else if bg < 8 then [.code (bg + 40)]
  else if bg < 16 then [.code (bg - 8 + 100)]
  else [.bg256 bg]

/-- What `cn_term_set_style` writes behind the reset. -/
def styleItems (fg bg attrs : Int) : List Sgr :=
  attributes attrs ++ foreground fg ++ background bg

def setStyle (fg bg attrs : Int) : List Output :=
  .sgrReset :: (styleItems fg bg attrs).map .sgr

def writeCode (code : Int) : List Nat :=
  if code < 0 then [63]
  else
    let code := code.toNat
    if code ≤ 127 then [code]
    else if code ≤ 2047 then [(code >>> 6) ||| 192, (code &&& 63) ||| 128]
    else if code ≤ 65535 then
      [(code >>> 12) ||| 224, ((code >>> 6) &&& 63) ||| 128, (code &&& 63) ||| 128]
    else if code ≤ 1114111 then
      [(code >>> 18) ||| 240, ((code >>> 12) &&& 63) ||| 128, ((code >>> 6) &&& 63) ||| 128,
        (code &&& 63) ||| 128]
    else [63]

def moveCursor (row column : Int) : Output :=
  .move (wrap ((if 0 ≤ row then row else 0) + 1)) (wrap ((if 0 ≤ column then column else 0) + 1))

/-- `cell.width`: how far the renderer takes the cursor to move. -/
def cellAdvance (wcwidth : Int → Int) (code : Int) : Int :=
  if 0 < codepointWidth wcwidth code then codepointWidth wcwidth code else 1

/-- The slots of `cn_term_render_diff_clip`, with the front buffer and what was written. -/
structure Render where
  cursorRow : Int
  cursorCol : Int
  fg : Int
  bg : Int
  attrs : Int
  front : Buffer
  out : List Output

def Render.start (front : Buffer) : Render := ⟨-1, -1, -2, -2, -1, front, []⟩

def Render.moveTo (row column : Int) (state : Render) : Render :=
  if state.cursorRow = row ∧ state.cursorCol = column then state
  else { state with out := state.out ++ [moveCursor row column] }

def Render.applyStyle (cell : Cell) (state : Render) : Render :=
  if cell.fg = state.fg ∧ cell.bg = state.bg ∧ cell.attrs = state.attrs then state
  else
    { state with
      fg := cell.fg
      bg := cell.bg
      attrs := cell.attrs
      out := state.out ++ setStyle cell.fg cell.bg cell.attrs }

/-- `write.cell`, but for the copy to the front buffer. -/
def Render.writeCell (wcwidth : Int → Int) (row column : Int) (cell : Cell) (state : Render) :
    Render :=
  { state with
    cursorRow := row
    cursorCol := wrap (column + cellAdvance wcwidth cell.code)
    out := state.out ++ [.bytes (writeCode cell.code)] }

/-- `check.cell` up to `advance.col`. -/
def renderCell (wcwidth : Int → Int) (back : Buffer) (row column : Int) (state : Render) :
    Option Render := do
  let index := wrap (wrap (row * back.width) + column)
  let backCell ← back.cells.load cellSize index
  let frontCell ← state.front.cells.load cellSize index
  if backCell = frontCell then return state
  else do
    let cells ← state.front.cells.store cellSize index backCell
    let copied := { state with front := { state.front with cells := cells } }
    if backCell.code = -1 then return copied
    else
      return ((copied.moveTo row column).applyStyle backCell).writeCell wcwidth row column backCell

/-- `col.loop`. -/
def renderRow (wcwidth : Int → Int) (back : Buffer) (colStart colEnd row : Int) (state : Render) :
    Option Render :=
  (List.range (colEnd - colStart).toNat).foldlM
    (fun state (step : Nat) => renderCell wcwidth back row (colStart + step) state) state

structure Clip where
  row : Int
  column : Int
  height : Int
  width : Int
  deriving DecidableEq, Repr

/-- `cn_term_render_diff_clip` on two buffers that are there: whether it succeeded, the front
buffer and what was written.  No result stands for an access outside of a block. -/
def renderDiffClip (wcwidth : Int → Int) (back front : Buffer) (clip : Clip) :
    Option (Bool × Buffer × List Output) :=
  if back.width = front.width ∧ back.height = front.height then
    let rowStart := if 0 ≤ clip.row then clip.row else 0
    let colStart := if 0 ≤ clip.column then clip.column else 0
    let rowEndRaw := wrap (clip.row + clip.height)
    let colEndRaw := wrap (clip.column + clip.width)
    let rowEnd := if back.height < rowEndRaw then back.height else rowEndRaw
    let colEnd := if back.width < colEndRaw then back.width else colEndRaw
    if rowStart < rowEnd ∧ colStart < colEnd then do
      let state ← (List.range (rowEnd - rowStart).toNat).foldlM
        (fun state (step : Nat) => renderRow wcwidth back colStart colEnd (rowStart + step) state)
        (Render.start front)
      return (true, state.front, state.out ++ [.sgrReset, .flush])
    else some (true, front, [.sgrReset, .flush])
  else some (false, front, [])

def renderDiff (wcwidth : Int → Int) (back front : Buffer) :
    Option (Bool × Buffer × List Output) :=
  renderDiffClip wcwidth back front ⟨0, 0, back.height, back.width⟩

/-! The terminal.  A glyph of two columns stands in two spots, and what is printed over one of
them takes the other away. -/

inductive Spot where
  | blank
  | whole (code : Int) (style : List Sgr)
  | left (code : Int) (style : List Sgr)
  | right (code : Int) (style : List Sgr)
  deriving DecidableEq, Repr

def Spot.isLeft : Spot → Bool
  | .left _ _ => true
  | _ => false

def Spot.isRight : Spot → Bool
  | .right _ _ => true
  | _ => false

/-- A row before something is printed at a column: the other half of a glyph that stands there
is gone. -/
def unpair (spots : Nat → Spot) (column : Nat) : Nat → Spot := fun c =>
  if c + 1 = column ∧ (spots column).isRight then .blank
  else if c = column + 1 ∧ (spots column).isLeft then .blank
  else spots c

def putNarrow (spots : Nat → Spot) (column : Nat) (code : Int) (style : List Sgr) : Nat → Spot :=
  fun c => if c = column then .whole code style else unpair spots column c

def putDouble (spots : Nat → Spot) (column : Nat) (code : Int) (style : List Sgr) : Nat → Spot :=
  fun c =>
    if c = column then .left code style
    else if c = column + 1 then .right code style
    else unpair (unpair spots column) (column + 1) c

/-- The style is what was received since the last reset. -/
structure Terminal where
  columns : Nat
  row : Nat
  column : Nat
  style : List Sgr
  spot : Nat → Nat → Spot

/-- UTF-8, one code at a time. -/
def decode : List Nat → Int
  | [a] => a
  | [a, b] => ((a &&& 31) * 64 + (b &&& 63) : Nat)
  | [a, b, c] => ((a &&& 15) * 4096 + (b &&& 63) * 64 + (c &&& 63) : Nat)
  | [a, b, c, d] =>
      ((a &&& 7) * 262144 + (b &&& 63) * 4096 + (c &&& 63) * 64 + (d &&& 63) : Nat)
  | _ => 65533

namespace Terminal

/-- A glyph that does not fit in the row goes to the next one. -/
def wrapped (terminal : Terminal) (width : Nat) : Terminal :=
  if terminal.columns < terminal.column + width then
    { terminal with row := terminal.row + 1, column := 0 }
  else terminal

def print (wcwidth : Int → Int) (code : Int) (terminal : Terminal) : Terminal :=
  let width := (codepointWidth wcwidth code).toNat
  if width = 0 then terminal
  else
    let place := terminal.wrapped width
    let put := if width = 1 then putNarrow else putDouble
    { place with
      column := place.column + width
      spot := fun r =>
        if r = place.row then put (place.spot r) place.column code place.style else place.spot r }

def receive (wcwidth : Int → Int) (terminal : Terminal) : Output → Terminal
  | .move row column => { terminal with row := (row - 1).toNat, column := (column - 1).toNat }
  | .sgrReset => { terminal with style := [] }
  | .sgr item => { terminal with style := terminal.style ++ [item] }
  | .bytes chars => terminal.print wcwidth (decode chars)
  | .flush => terminal

def receiveAll (wcwidth : Int → Int) (terminal : Terminal) (out : List Output) : Terminal :=
  out.foldl (receive wcwidth) terminal

end Terminal

end Term

end Cnegative
