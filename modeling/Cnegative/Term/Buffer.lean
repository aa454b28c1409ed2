import Cnegative.Library.Storage

namespace Cnegative

namespace Term

open Library

/-! The screen buffer of `std.term`: a block of cells, row by row. -/

structure Cell where
  code : Int
  fg : Int
  bg : Int
  attrs : Int
  wide : Bool
  deriving DecidableEq, Repr

/-- Four words and the flag, padded to a multiple of eight bytes. -/
def cellSize : Nat := 40

structure Buffer where
  width : Int
  height : Int
  cells : Library.Block Cell

def isKnownWide (code : Int) : Bool :=
  [(4352, 4607), (9001, 9002), (11904, 42191), (44032, 55203), (63744, 64255), (65040, 65131),
    (65281, 65374), (65504, 65510), (127744, 129791), (131072, 262141)].any
    fun range => decide (range.1 ≤ code) && decide (code ≤ range.2)

/-- `cn_term_codepoint_width` outside of Windows; `wcwidth` belongs to the C library. -/
def codepointWidth (wcwidth : Int → Int) (code : Int) : Int :=
  if code = -1 ∨ code = 0 ∨ code < 32 ∨ (127 ≤ code ∧ code < 160) then 0
  else if code ≤ 1114111 ∧ 0 ≤ wcwidth code then wcwidth code
  else if isKnownWide code then 2 else 1

def bufferIndex (buffer : Buffer) (row column : Int) : Option Int :=
  if 0 ≤ row ∧ 0 ≤ column ∧ row < buffer.height ∧ column < buffer.width then
    some (wrap (wrap (row * buffer.width) + column))
  else none

/-- The block that `malloc` gives for the cells; what lies in it is up to the allocator. -/
def mallocCells (count : Int) (slot : Nat → Cell) : Library.Block Cell :=
  ⟨unsigned (wrap (count * cellSize)), slot⟩

/-- `cn_term_buffer_new`; `record` and `cells` are the answers of the two `malloc`s. -/
def bufferNew (width height : Int) (record : Bool) (cells : Option (Nat → Cell)) :
    Option Buffer :=
  if 0 < width ∧ 0 < height ∧ record = true then
    cells.map fun slot => ⟨width, height, mallocCells (wrap (width * height)) slot⟩
  else none

/-- `fill.new.loop` and the loop of `cn_term_buffer_clear`. -/
def fillCells (count : Int) (fill : Cell) (cells : Library.Block Cell) : Option (Library.Block Cell) :=
  (List.range count.toNat).foldlM (fun cells (index : Nat) => cells.store cellSize index fill) cells

/-- `copy.cell`. -/
def copyCell (old : Buffer) (width : Int) (row : Nat) (cells : Library.Block Cell) (column : Nat) :
    Option (Library.Block Cell) := do
  let cell ← old.cells.load cellSize (wrap (wrap (row * old.width) + column))
  cells.store cellSize (wrap (wrap (row * width) + column)) cell

def copyRow (old : Buffer) (width : Int) (cells : Library.Block Cell) (row : Nat) :
    Option (Library.Block Cell) :=
  (List.range (min old.width width).toNat).foldlM (copyCell old width row) cells

def copyRows (old : Buffer) (width height : Int) (cells : Library.Block Cell) : Option (Library.Block Cell) :=
  (List.range (min old.height height).toNat).foldlM (copyRow old width) cells

def bufferResize (buffer : Buffer) (width height : Int) (fill : Cell)
    (cells : Option (Nat → Cell)) : Option (Bool × Buffer) :=
  if 0 < width ∧ 0 < height then
    if buffer.width = width ∧ buffer.height = height then some (true, buffer)
    else match cells with
      | none => some (false, buffer)
      | some slot => do
          let filled ← fillCells (wrap (width * height)) fill
            (mallocCells (wrap (width * height)) slot)
          let copied ← copyRows buffer width height filled
          return (true, ⟨width, height, copied⟩)
  else some (false, buffer)

def bufferClear (buffer : Buffer) (fill : Cell) : Option Buffer := do
  let cells ← fillCells (wrap (buffer.width * buffer.height)) fill buffer.cells
  return { buffer with cells := cells }

def Cell.normalize (wcwidth : Int → Int) (value : Cell) : Cell :=
  { value with wide := value.wide || decide (1 < codepointWidth wcwidth value.code) }

/-- The placeholder in the second slot of a wide cell. -/
def Cell.continuation (value : Cell) : Cell :=
  { value with code := -1, wide := false }

def bufferSet (wcwidth : Int → Int) (buffer : Buffer) (row column : Int) (value : Cell) :
    Option (Bool × Buffer) :=
  match bufferIndex buffer row column with
  | none => some (false, buffer)
  | some index =>
    let value := value.normalize wcwidth
    if value.wide then
      match bufferIndex buffer row (wrap (column + 1)) with
      | none => some (false, buffer)
      | some next => do
          let cells ← buffer.cells.store cellSize index value
          let cells ← cells.store cellSize next value.continuation
          return (true, { buffer with cells := cells })
    else do
      let cells ← buffer.cells.store cellSize index value
      return (true, { buffer with cells := cells })

def bufferGet (buffer : Buffer) (row column : Int) : Option (Option Cell) :=
  match bufferIndex buffer row column with
  | none => some none
  | some index => (buffer.cells.load cellSize index).map some

/-! Runs of a program on one buffer. -/

inductive Op where
  | clear (fill : Cell)
  | resize (width height : Int) (fill : Cell) (cells : Option (Nat → Cell))
  | set (row column : Int) (value : Cell)
  | get (row column : Int)

inductive Answer where
  | done (ok : Bool)
  | got (cell : Option Cell)
  deriving DecidableEq, Repr

/-- No result stands for an access outside of the block. -/
def Buffer.step (wcwidth : Int → Int) (buffer : Buffer) : Op → Option (Answer × Buffer)
  | .clear fill => (bufferClear buffer fill).map fun after => (.done true, after)
  | .resize width height fill cells =>
      (bufferResize buffer width height fill cells).map fun after => (.done after.1, after.2)
  | .set row column value =>
      (bufferSet wcwidth buffer row column value).map fun after => (.done after.1, after.2)
  | .get row column => (bufferGet buffer row column).map fun cell => (.got cell, buffer)

def Buffer.run (wcwidth : Int → Int) (buffer : Buffer) : List Op → Option (List Answer × Buffer)
  | [] => some ([], buffer)
  | op :: ops => do
      let (answer, next) ← buffer.step wcwidth op
      let (answers, last) ← next.run wcwidth ops
      return (answer :: answers, last)

end Term

end Cnegative
