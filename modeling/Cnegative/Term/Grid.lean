import Cnegative.Term.Buffer

namespace Cnegative

namespace Term

open Library

/-! What a screen buffer is for: a table of cells. -/

structure Grid where
  width : Nat
  height : Nat
  cell : Nat → Nat → Cell

namespace Grid

def Contains (grid : Grid) (row column : Int) : Prop :=
  0 ≤ row ∧ 0 ≤ column ∧ row < grid.height ∧ column < grid.width

instance (grid : Grid) (row column : Int) : Decidable (grid.Contains row column) :=
  inferInstanceAs (Decidable (_ ∧ _))

def put (grid : Grid) (row column : Nat) (value : Cell) : Grid :=
  { grid with cell := fun r c => if r = row ∧ c = column then value else grid.cell r c }

def clear (grid : Grid) (fill : Cell) : Grid :=
  { grid with cell := fun _ _ => fill }

/-- The overlapping rectangle stays. -/
def resize (grid : Grid) (width height : Nat) (fill : Cell) : Grid where
  width := width
  height := height
  cell := fun row column =>
    if row < grid.height ∧ column < grid.width then grid.cell row column else fill

/-- A wide cell takes its right neighbour as well; it has no place in the last column. -/
def set (grid : Grid) (row column : Int) (value : Cell) : Bool × Grid :=
  if grid.Contains row column then
    if value.wide then
      if grid.Contains row (column + 1) then
        (true, (grid.put row.toNat column.toNat value).put row.toNat (column.toNat + 1)
          value.continuation)
      else (false, grid)
    else (true, grid.put row.toNat column.toNat value)
  else (false, grid)

def get (grid : Grid) (row column : Int) : Option Cell :=
  if grid.Contains row column then some (grid.cell row.toNat column.toNat) else none

def step (wcwidth : Int → Int) (grid : Grid) : Op → Answer × Grid
  | .clear fill => (.done true, grid.clear fill)
  | .resize width height fill cells =>
      if 0 < width ∧ 0 < height then
        if width = grid.width ∧ height = grid.height then (.done true, grid)
        else if cells.isSome then (.done true, grid.resize width.toNat height.toNat fill)
        else (.done false, grid)
      else (.done false, grid)
  | .set row column value =>
      let after := grid.set row column (value.normalize wcwidth)
      (.done after.1, after.2)
  | .get row column => (.got (grid.get row column), grid)

def run (wcwidth : Int → Int) (grid : Grid) : List Op → List Answer × Grid
  | [] => ([], grid)
  | op :: ops =>
    let after := grid.step wcwidth op
    let last := after.2.run wcwidth ops
    (after.1 :: last.1, last.2)

end Grid

/-! A buffer holds a grid in a block that has room for all of it. -/

def Fits (width height : Int) : Prop :=
  width * height * cellSize < 2 ^ 64

instance (width height : Int) : Decidable (Fits width height) :=
  inferInstanceAs (Decidable (_ < _))

structure Buffer.Holds (buffer : Buffer) (grid : Grid) : Prop where
  width : buffer.width = grid.width
  height : buffer.height = grid.height
  nonempty : 0 < grid.width ∧ 0 < grid.height
  bytes : buffer.cells.bytes = grid.width * grid.height * cellSize
  fits : Fits grid.width grid.height
  cell : ∀ row column, row < grid.height → column < grid.width →
    buffer.cells.slot (row * grid.width + column) = grid.cell row column

theorem Fits.count_lt {width height : Nat} (hfits : Fits width height) :
    width * height < 2 ^ 63 := by
  have hbytes : ((width * height * cellSize : Nat) : Int) < 2 ^ 64 := by
    push_cast
    exact hfits
  unfold cellSize at hbytes
  omega

theorem mallocCells_bytes {width height : Nat} (hfits : Fits width height)
    (slot : Nat → Cell) :
    (mallocCells (wrap (width * height)) slot).bytes = width * height * cellSize := by
  have hcount := hfits.count_lt
  have hbytes : width * height * cellSize < 2 ^ 64 := by
    have := hfits
    unfold Fits at this
    exact_mod_cast this
  unfold mallocCells
  rw [unsigned_wrap, ← Nat.cast_mul, wrap_natCast hcount, ← Nat.cast_mul, unsigned_natCast hbytes]

theorem wrap_count {width height : Nat} (hfits : Fits width height) :
    wrap ((width : Int) * height) = (width * height : Nat) := by
  rw [← Nat.cast_mul, wrap_natCast hfits.count_lt]

theorem wrap_index {width height row column : Nat} (hfits : Fits width height)
    (hrow : row < height) (hcolumn : column < width) :
    wrap (wrap ((row : Int) * width) + column) = (row * width + column : Nat) := by
  have hindex := row_index_lt hrow hcolumn
  have hcount := hfits.count_lt
  have hoffset : row * width < 2 ^ 63 := by omega
  rw [← Nat.cast_mul, wrap_natCast hoffset, ← Nat.cast_add, wrap_natCast (by omega)]

namespace Buffer.Holds

variable {buffer : Buffer} {grid : Grid}

theorem count_lt (hholds : buffer.Holds grid) : grid.width * grid.height < 2 ^ 63 :=
  hholds.fits.count_lt

theorem index_eq (hholds : buffer.Holds grid) (row column : Int) :
    bufferIndex buffer row column =
      if grid.Contains row column then
        some ((row.toNat * grid.width + column.toNat : Nat) : Int)
      else none := by
  unfold bufferIndex
  rw [hholds.width, hholds.height]
  by_cases hcontains : grid.Contains row column
  · rw [if_pos hcontains]
    obtain ⟨hrow, hcolumn, hrowLt, hcolumnLt⟩ := hcontains
    rw [if_pos ⟨hrow, hcolumn, hrowLt, hcolumnLt⟩]
    obtain ⟨row, rfl⟩ := Int.eq_ofNat_of_zero_le hrow
    obtain ⟨column, rfl⟩ := Int.eq_ofNat_of_zero_le hcolumn
    rw [wrap_index hholds.fits (by exact_mod_cast hrowLt) (by exact_mod_cast hcolumnLt)]
    rfl
  · rw [if_neg hcontains]
    exact if_neg hcontains

theorem load (hholds : buffer.Holds grid) {row column : Nat} (hrow : row < grid.height)
    (hcolumn : column < grid.width) :
    buffer.cells.load cellSize (row * grid.width + column : Nat) =
      some (grid.cell row column) := by
  rw [Library.Block.load_of_lt (le_of_eq hholds.bytes.symm) (row_index_lt hrow hcolumn),
    hholds.cell row column hrow hcolumn]

theorem store (hholds : buffer.Holds grid) (row column : Nat) (hrow : row < grid.height)
    (hcolumn : column < grid.width) (value : Cell) :
    ∃ cells, buffer.cells.store cellSize (row * grid.width + column : Nat) value = some cells ∧
      { buffer with cells := cells }.Holds (grid.put row column value) := by
  refine ⟨_, Library.Block.store_of_lt (le_of_eq hholds.bytes.symm) (row_index_lt hrow hcolumn), ?_⟩
  refine ⟨hholds.width, hholds.height, hholds.nonempty, hholds.bytes, hholds.fits,
    fun r c hr hc => ?_⟩
  change Function.update buffer.cells.slot (row * grid.width + column) value
    (r * grid.width + c) = if r = row ∧ c = column then value else grid.cell r c
  rw [Function.update_apply]
  change c < grid.width at hc
  by_cases hsame : r = row ∧ c = column
  · rw [if_pos hsame, if_pos ((row_index_inj hc hcolumn).mpr hsame)]
  · rw [if_neg hsame, if_neg (fun heq => hsame ((row_index_inj hc hcolumn).mp heq))]
    exact hholds.cell r c hr hc

theorem get (hholds : buffer.Holds grid) (row column : Int) :
    bufferGet buffer row column = some (grid.get row column) := by
  unfold bufferGet Grid.get
  rw [hholds.index_eq]
  by_cases hcontains : grid.Contains row column
  · obtain ⟨hrow, hcolumn, hrowLt, hcolumnLt⟩ := hcontains
    rw [if_pos ⟨hrow, hcolumn, hrowLt, hcolumnLt⟩, if_pos ⟨hrow, hcolumn, hrowLt, hcolumnLt⟩]
    dsimp only
    rw [hholds.load (by omega) (by omega)]
    rfl
  · rw [if_neg hcontains, if_neg hcontains]

theorem set (hholds : buffer.Holds grid) (wcwidth : Int → Int) (row column : Int)
    (value : Cell) :
    ∃ after, bufferSet wcwidth buffer row column value =
        some ((grid.set row column (value.normalize wcwidth)).1, after) ∧
      after.Holds (grid.set row column (value.normalize wcwidth)).2 := by
  unfold bufferSet Grid.set
  rw [hholds.index_eq]
  by_cases hcontains : grid.Contains row column
  case neg =>
    rw [if_neg hcontains, if_neg hcontains]
    exact ⟨buffer, rfl, hholds⟩
  rw [if_pos hcontains, if_pos hcontains]
  have hbounds := hcontains
  obtain ⟨hrow, hcolumn, hrowLt, hcolumnLt⟩ := hbounds
  dsimp only
  by_cases hwide : (value.normalize wcwidth).wide = true
  · rw [if_pos hwide, if_pos hwide]
    have hcount := hholds.count_lt
    have hbelow := row_index_lt (Nat.zero_lt_of_lt (show 0 < grid.height from hholds.nonempty.2))
      (show column.toNat < grid.width by omega)
    have hnext : wrap (column + 1) = column + 1 := wrap_of_range (by omega) (by omega)
    rw [hnext, hholds.index_eq]
    by_cases hinside : grid.Contains row (column + 1)
    · rw [if_pos hinside, if_pos hinside]
      obtain ⟨-, -, -, hnextLt⟩ := hinside
      obtain ⟨cells, hstore, hfirst⟩ := hholds.store row.toNat column.toNat
        (by omega) (by omega) (value.normalize wcwidth)
      obtain ⟨last, hlast, hsecond⟩ := hfirst.store row.toNat
        (column.toNat + 1) (by change row.toNat < grid.height; omega)
        (by change column.toNat + 1 < grid.width; omega) (value.normalize wcwidth).continuation
      refine ⟨{ buffer with cells := last }, ?_, hsecond⟩
      have hto : (column + 1).toNat = column.toNat + 1 := by omega
      dsimp only
      rw [hstore, hto]
      change (cells.store cellSize _ _).bind _ = _
      change cells.store cellSize (row.toNat * grid.width + (column.toNat + 1) : Nat) _ = _ at hlast
      rw [hlast]
      rfl
    · rw [if_neg hinside, if_neg hinside]
      exact ⟨buffer, rfl, hholds⟩
  · rw [if_neg hwide, if_neg hwide]
    obtain ⟨cells, hstore, hfirst⟩ := hholds.store row.toNat column.toNat
      (by omega) (by omega) (value.normalize wcwidth)
    refine ⟨{ buffer with cells := cells }, ?_, hfirst⟩
    rw [hstore]
    rfl

theorem fillCells_spec {count : Nat} {cells : Library.Block Cell} (hroom : count * cellSize ≤ cells.bytes)
    (fill : Cell) :
    ∃ filled, fillCells count fill cells = some filled ∧ filled.bytes = cells.bytes ∧
      ∀ i < count, filled.slot i = fill := by
  unfold fillCells
  rw [Int.toNat_natCast]
  refine foldlM_range_rule (motive := fun k (filled : Library.Block Cell) => filled.bytes = cells.bytes ∧
    ∀ i < k, filled.slot i = fill) ⟨rfl, by simp⟩ fun k filled hk hfilled => ?_
  obtain ⟨hbytes, hslots⟩ := hfilled
  refine ⟨_, Library.Block.store_of_lt (hbytes ▸ hroom) hk, hbytes, fun i hi => ?_⟩
  change Function.update filled.slot k fill i = fill
  by_cases hsame : i = k
  · rw [hsame, Function.update_self]
  · rw [Function.update_of_ne hsame]
    exact hslots i (by omega)

theorem clear (hholds : buffer.Holds grid) (fill : Cell) :
    ∃ after, bufferClear buffer fill = some after ∧ after.Holds (grid.clear fill) := by
  unfold bufferClear
  rw [hholds.width, hholds.height, wrap_count hholds.fits]
  obtain ⟨filled, hfill, hbytes, hslots⟩ :=
    fillCells_spec (le_of_eq hholds.bytes.symm) fill
  refine ⟨{ buffer with cells := filled }, ?_, hholds.width, hholds.height, hholds.nonempty,
    hbytes.trans hholds.bytes, hholds.fits, fun row column hrow hcolumn => ?_⟩
  · rw [hfill]
    rw [← hholds.width, ← hholds.height]
    rfl
  · exact hslots _ (row_index_lt hrow hcolumn)

theorem copyRow_spec (hholds : buffer.Holds grid) {width height row : Nat}
    (hfits : Fits width height) (hrow : row < min grid.height height) {cells : Library.Block Cell}
    {shown : Nat → Nat → Cell} (hroom : width * height * cellSize ≤ cells.bytes)
    (hshown : ∀ r c, r < height → c < width → cells.slot (r * width + c) = shown r c) :
    ∃ copied, copyRow buffer width cells row = some copied ∧ copied.bytes = cells.bytes ∧
      ∀ r c, r < height → c < width → copied.slot (r * width + c) =
        if r = row ∧ c < min grid.width width then grid.cell r c else shown r c := by
  unfold copyRow
  rw [hholds.width, ← Nat.cast_min, Int.toNat_natCast]
  refine foldlM_range_rule (motive := fun k (copied : Library.Block Cell) => copied.bytes = cells.bytes ∧
    ∀ r c, r < height → c < width → copied.slot (r * width + c) =
      if r = row ∧ c < k then grid.cell r c else shown r c)
    ⟨rfl, by simpa using hshown⟩ fun k copied hk hcopied => ?_
  obtain ⟨hbytes, hslots⟩ := hcopied
  obtain ⟨hkOld, hkNew⟩ := Nat.lt_min.mp hk
  obtain ⟨hrowOld, hrowNew⟩ := Nat.lt_min.mp hrow
  unfold copyCell
  rw [hholds.width, wrap_index hholds.fits hrowOld hkOld, hholds.load hrowOld hkOld,
    wrap_index hfits hrowNew hkNew]
  refine ⟨_, Library.Block.store_of_lt (hbytes ▸ hroom) (row_index_lt hrowNew hkNew), hbytes,
    fun r c hr hc => ?_⟩
  change Function.update copied.slot (row * width + k) (grid.cell row k) (r * width + c) = _
  rw [Function.update_apply]
  by_cases hsame : r = row ∧ c = k
  · rw [if_pos ((row_index_inj hc hkNew).mpr hsame), if_pos ⟨hsame.1, by omega⟩, hsame.1, hsame.2]
  · rw [if_neg (fun heq => hsame ((row_index_inj hc hkNew).mp heq)), hslots r c hr hc]
    by_cases hbefore : r = row ∧ c < k
    · rw [if_pos hbefore, if_pos ⟨hbefore.1, by omega⟩]
    · rw [if_neg hbefore, if_neg (by omega)]

theorem copyRows_spec (hholds : buffer.Holds grid) {width height : Nat}
    (hfits : Fits width height) {cells : Library.Block Cell} {fill : Cell}
    (hroom : width * height * cellSize ≤ cells.bytes)
    (hfilled : ∀ i < width * height, cells.slot i = fill) :
    ∃ copied, copyRows buffer width height cells = some copied ∧ copied.bytes = cells.bytes ∧
      ∀ r c, r < height → c < width → copied.slot (r * width + c) =
        if r < min grid.height height ∧ c < min grid.width width then grid.cell r c else fill := by
  unfold copyRows
  rw [hholds.height, ← Nat.cast_min, Int.toNat_natCast]
  refine foldlM_range_rule (motive := fun k (copied : Library.Block Cell) => copied.bytes = cells.bytes ∧
    ∀ r c, r < height → c < width → copied.slot (r * width + c) =
      if r < k ∧ c < min grid.width width then grid.cell r c else fill)
    ⟨rfl, fun r c hr hc => ?_⟩ fun k copied hk hcopied => ?_
  · rw [if_neg (by omega)]
    exact hfilled _ (row_index_lt hr hc)
  · obtain ⟨hbytes, hslots⟩ := hcopied
    obtain ⟨next, hnext, hnextBytes, hnextSlots⟩ :=
      hholds.copyRow_spec hfits hk (hbytes ▸ hroom) hslots
    refine ⟨next, hnext, hnextBytes.trans hbytes, fun r c hr hc => ?_⟩
    rw [hnextSlots r c hr hc]
    by_cases hrow : r = k ∧ c < min grid.width width
    · rw [if_pos hrow, if_pos ⟨by omega, hrow.2⟩]
    · rw [if_neg hrow]
      by_cases hbefore : r < k ∧ c < min grid.width width
      · rw [if_pos hbefore, if_pos ⟨by omega, hbefore.2⟩]
      · rw [if_neg hbefore, if_neg (by omega)]

/-- A larger grid takes a new block, and fails without one. -/
theorem resize (hholds : buffer.Holds grid) {width height : Int} (hwidth : 0 < width)
    (hheight : 0 < height) (hfits : Fits width height) (fill : Cell) (slot : Nat → Cell)
    (hsize : ¬ (width = grid.width ∧ height = grid.height)) :
    ∃ after, bufferResize buffer width height fill (some slot) = some (true, after) ∧
      after.Holds (grid.resize width.toNat height.toNat fill) := by
  obtain ⟨width, rfl⟩ := Int.eq_ofNat_of_zero_le hwidth.le
  obtain ⟨height, rfl⟩ := Int.eq_ofNat_of_zero_le hheight.le
  unfold bufferResize
  rw [if_pos ⟨hwidth, hheight⟩, hholds.width, hholds.height, if_neg (by omega)]
  have hbytes := mallocCells_bytes hfits slot
  obtain ⟨filled, hfill, hfilledBytes, hfilled⟩ := fillCells_spec (le_of_eq hbytes.symm) fill
  obtain ⟨copied, hcopy, hcopiedBytes, hcopied⟩ :=
    hholds.copyRows_spec hfits (le_of_eq (hfilledBytes.trans hbytes).symm) hfilled
  refine ⟨⟨width, height, copied⟩, ?_, rfl, rfl, ⟨by exact_mod_cast hwidth,
    by exact_mod_cast hheight⟩, hcopiedBytes.trans (hfilledBytes.trans hbytes), hfits,
    fun row column hrow hcolumn => ?_⟩
  · dsimp only
    rw [wrap_count hfits] at hfill ⊢
    rw [hfill]
    change (copyRows buffer width height filled).bind _ = _
    rw [hcopy]
    rfl
  · change row < height at hrow
    change column < width at hcolumn
    change copied.slot (row * width + column) =
      if row < grid.height ∧ column < grid.width then grid.cell row column else fill
    rw [hcopied row column hrow hcolumn]
    by_cases hinside : row < grid.height ∧ column < grid.width
    · rw [if_pos hinside, if_pos (by omega)]
    · rw [if_neg hinside, if_neg (by omega)]

end Buffer.Holds

/-! Runs. -/

/-- The block of a resize that asks for one is as large as its cells. -/
def Op.Fits : Op → Prop
  | .resize width height _ (some _) => 0 < width → 0 < height → Term.Fits width height
  | _ => True

theorem step_refines {buffer : Buffer} {grid : Grid} (hholds : buffer.Holds grid)
    (wcwidth : Int → Int) {op : Op} (hfits : op.Fits) :
    ∃ after, buffer.step wcwidth op = some ((grid.step wcwidth op).1, after) ∧
      after.Holds (grid.step wcwidth op).2 := by
  cases op with
  | clear fill =>
      obtain ⟨after, hclear, hafter⟩ := hholds.clear fill
      exact ⟨after, by rw [Buffer.step, hclear]; rfl, hafter⟩
  | set row column value =>
      obtain ⟨after, hset, hafter⟩ := hholds.set wcwidth row column value
      exact ⟨after, by rw [Buffer.step, hset]; rfl, hafter⟩
  | get row column =>
      exact ⟨buffer, by rw [Buffer.step, hholds.get]; rfl, hholds⟩
  | resize width height fill cells =>
      rw [Buffer.step, Grid.step]
      by_cases hdims : 0 < width ∧ 0 < height
      case neg =>
        unfold bufferResize
        rw [if_neg hdims, if_neg hdims]
        exact ⟨buffer, rfl, hholds⟩
      rw [if_pos hdims]
      by_cases hsize : width = grid.width ∧ height = grid.height
      · have hsame : buffer.width = width ∧ buffer.height = height :=
          ⟨hholds.width.trans hsize.1.symm, hholds.height.trans hsize.2.symm⟩
        unfold bufferResize
        rw [if_pos hsize, if_pos hdims, if_pos hsame]
        exact ⟨buffer, rfl, hholds⟩
      rw [if_neg hsize]
      cases cells with
      | none =>
          have hother : ¬ (buffer.width = width ∧ buffer.height = height) := by
            rintro ⟨rfl, rfl⟩
            exact hsize ⟨hholds.width, hholds.height⟩
          unfold bufferResize
          rw [if_pos hdims, if_neg hother]
          exact ⟨buffer, rfl, hholds⟩
      | some slot =>
          obtain ⟨after, hresize, hafter⟩ :=
            hholds.resize hdims.1 hdims.2 (hfits hdims.1 hdims.2) fill slot hsize
          exact ⟨after, by rw [hresize]; rfl, hafter⟩

theorem run_refines {ops : List Op} {buffer : Buffer} {grid : Grid} (hholds : buffer.Holds grid)
    (wcwidth : Int → Int) (hfits : ∀ op ∈ ops, op.Fits) :
    ∃ last, buffer.run wcwidth ops = some ((grid.run wcwidth ops).1, last) ∧
      last.Holds (grid.run wcwidth ops).2 := by
  induction ops generalizing buffer grid with
  | nil => exact ⟨buffer, rfl, hholds⟩
  | cons op ops ih =>
      obtain ⟨next, hstep, hnext⟩ := step_refines hholds wcwidth (hfits op (by simp))
      obtain ⟨last, hrun, hlast⟩ := ih hnext fun op hop => hfits op (by simp [hop])
      refine ⟨last, ?_, hlast⟩
      rw [Buffer.run, hstep]
      change (Buffer.run wcwidth next ops).bind _ = _
      rw [hrun]
      rfl

/-- The cells as the allocator left them. -/
def Grid.fresh (width height : Int) (slot : Nat → Cell) : Grid where
  width := width.toNat
  height := height.toNat
  cell := fun row column => slot (row * width.toNat + column)

theorem bufferNew_holds {width height : Int} {record : Bool} {slot : Nat → Cell}
    {buffer : Buffer} (hnew : bufferNew width height record (some slot) = some buffer)
    (hfits : Fits width height) : buffer.Holds (.fresh width height slot) := by
  unfold bufferNew at hnew
  split at hnew
  · rename_i hdims
    cases hnew
    obtain ⟨hwidth, hheight, -⟩ := hdims
    obtain ⟨width, rfl⟩ := Int.eq_ofNat_of_zero_le hwidth.le
    obtain ⟨height, rfl⟩ := Int.eq_ofNat_of_zero_le hheight.le
    exact
      { width := rfl
        height := rfl
        nonempty := ⟨by exact_mod_cast hwidth, by exact_mod_cast hheight⟩
        bytes := mallocCells_bytes hfits slot
        fits := hfits
        cell := fun row column hrow hcolumn => rfl }
  · cases hnew

def Buffer.HasRoom (buffer : Buffer) : Prop :=
  buffer.width * buffer.height * cellSize ≤ buffer.cells.bytes

theorem Buffer.Holds.hasRoom {buffer : Buffer} {grid : Grid} (hholds : buffer.Holds grid) :
    buffer.HasRoom := by
  unfold Buffer.HasRoom
  rw [hholds.width, hholds.height, hholds.bytes]
  push_cast
  exact le_refl _

/-- A new buffer has room just when its size in bytes is a word, and then the buffer and the
table run side by side as long as each resize asks for such a size. -/
theorem buffer_refines_iff (wcwidth : Int → Int) {width height : Int} {record : Bool}
    {slot : Nat → Cell} {buffer : Buffer}
    (hnew : bufferNew width height record (some slot) = some buffer) :
    (buffer.HasRoom ↔ Fits width height) ∧
      (Fits width height → ∀ ops : List Op, (∀ op ∈ ops, op.Fits) →
        ∃ last, buffer.run wcwidth ops =
            some (((Grid.fresh width height slot).run wcwidth ops).1, last) ∧
          last.Holds ((Grid.fresh width height slot).run wcwidth ops).2 ∧ last.HasRoom) := by
  refine ⟨⟨fun hroom => ?_, fun hfits => (bufferNew_holds hnew hfits).hasRoom⟩,
    fun hfits ops hops => ?_⟩
  · unfold bufferNew at hnew
    split at hnew
    · cases hnew
      have hbytes := unsigned_lt (wrap (wrap (width * height) * cellSize))
      change width * height * cellSize ≤ (unsigned _ : Nat) at hroom
      exact lt_of_le_of_lt hroom (by exact_mod_cast hbytes)
    · cases hnew
  · obtain ⟨last, hrun, hlast⟩ := run_refines (bufferNew_holds hnew hfits) wcwidth hops
    exact ⟨last, hrun, hlast, hlast.hasRoom⟩

def blank : Cell := ⟨32, -1, -1, 0, false⟩

theorem buffer_refines_small :
    ∃ buffer, bufferNew 3 2 true (some fun _ => blank) = some buffer ∧
      (buffer.HasRoom ↔ Fits 3 2) ∧
      (Fits 3 2 → ∀ ops : List Op, (∀ op ∈ ops, op.Fits) →
        ∃ last, buffer.run (fun _ => 1) ops =
            some (((Grid.fresh 3 2 fun _ => blank).run (fun _ => 1) ops).1, last) ∧
          last.Holds ((Grid.fresh 3 2 fun _ => blank).run (fun _ => 1) ops).2 ∧ last.HasRoom) :=
  ⟨_, rfl, @buffer_refines_iff (fun _ => 1) 3 2 true (fun _ => blank) _ rfl⟩

/-- The size of `2 ^ 61 + 1` columns is `40` modulo `2 ^ 64`: the block has room for one cell,
and the second lies outside of it. -/
theorem wide_buffer_overflows :
    ∃ buffer, bufferNew (2 ^ 61 + 1) 1 true (some fun _ => blank) = some buffer ∧
      ¬ buffer.HasRoom ∧ buffer.run (fun _ => 1) [.set 0 1 blank] = none := by
  refine ⟨_, rfl, ?_, by decide⟩
  unfold Buffer.HasRoom
  decide

end Term

end Cnegative
