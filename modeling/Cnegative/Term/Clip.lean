import Cnegative.Term.RenderDiff

namespace Cnegative

namespace Term

open Library

/-! What the renderer does to the front buffer, for any rectangle. -/

/-- The cells from a line or column up to another. -/
def InSpan (start stop : Int) (position : Nat) : Prop :=
  start ≤ position ∧ (position : Int) < stop

instance (start stop : Int) (position : Nat) : Decidable (InSpan start stop position) :=
  inferInstanceAs (Decidable (_ ∧ _))

namespace Clip

/-- The rectangle, in unbounded integers. -/
def Covers (clip : Clip) (row column : Nat) : Prop :=
  InSpan clip.row (clip.row + clip.height) row ∧
    InSpan clip.column (clip.column + clip.width) column

/-- The rectangle whose last row and column are sums of 64 bits. -/
def CoversWrapped (clip : Clip) (row column : Nat) : Prop :=
  InSpan clip.row (wrap (clip.row + clip.height)) row ∧
    InSpan clip.column (wrap (clip.column + clip.width)) column

instance (clip : Clip) (row column : Nat) : Decidable (clip.Covers row column) :=
  inferInstanceAs (Decidable (_ ∧ _))

instance (clip : Clip) (row column : Nat) : Decidable (clip.CoversWrapped row column) :=
  inferInstanceAs (Decidable (_ ∧ _))

/-- Where two grids differ, the sums may overflow only as far as that leaves the cell where it
was, in the rectangle or out of it. -/
def Harmless (clip : Clip) (back front : Grid) : Prop :=
  ∀ row column, row < front.height → column < front.width →
    back.cell row column ≠ front.cell row column →
      (clip.Covers row column ↔ clip.CoversWrapped row column)

theorem harmless_of_fits {clip : Clip} (hrows : clip.row + clip.height < 2 ^ 63)
    (hrows' : -2 ^ 63 ≤ clip.row + clip.height) (hcolumns : clip.column + clip.width < 2 ^ 63)
    (hcolumns' : -2 ^ 63 ≤ clip.column + clip.width) (back front : Grid) :
    clip.Harmless back front := by
  intro row column _ _ _
  rw [Covers, CoversWrapped, wrap_of_range hrows' hrows, wrap_of_range hcolumns' hcolumns]

end Clip

def Grid.copyWhere (front back : Grid) (selected : Nat → Nat → Prop)
    [∀ row column, Decidable (selected row column)] : Grid :=
  { front with
    cell := fun row column =>
      if selected row column then back.cell row column else front.cell row column }

section

variable {wcwidth : Int → Int} {back front : Grid} {backBuffer frontBuffer : Buffer}
  {state : Render} {clip : Clip}

theorem renderCell_copies (wcwidth : Int → Int) {row column : Nat}
    (hbackHolds : backBuffer.Holds back) (hwidths : front.width = back.width)
    (hheights : front.height = back.height) (hholds : state.front.Holds front)
    (hrow : row < front.height) (hcolumn : column < front.width) :
    ∃ state', renderCell wcwidth backBuffer row column state = some state' ∧
      state'.front.Holds (front.put row column (back.cell row column)) := by
  have hindex : wrap (wrap ((row : Int) * backBuffer.width) + column) =
      (row * back.width + column : Nat) := by
    rw [hbackHolds.width, wrap_index hbackHolds.fits (hheights ▸ hrow) (hwidths ▸ hcolumn)]
  have hfrontLoad : state.front.cells.load cellSize (row * back.width + column : Nat) =
      some (front.cell row column) := by
    rw [← hwidths]
    exact hholds.load hrow hcolumn
  obtain ⟨cells, hstore, hput⟩ := hholds.store row column hrow hcolumn (back.cell row column)
  rw [hwidths] at hstore
  unfold renderCell
  simp only [hindex, hbackHolds.load (hheights ▸ hrow) (hwidths ▸ hcolumn), hfrontLoad, hstore,
    Option.bind_eq_bind, Option.bind_some]
  by_cases hsame : back.cell row column = front.cell row column
  · refine ⟨state, if_pos hsame, hholds.congr rfl rfl fun r c _ _ => ?_⟩
    change (if r = row ∧ c = column then back.cell row column else front.cell r c) = front.cell r c
    split
    case isTrue hplace => rw [hplace.1, hplace.2, hsame]
    case isFalse => rfl
  · rw [if_neg hsame]
    by_cases hcode : (back.cell row column).code = -1
    · exact ⟨_, if_pos hcode, hput⟩
    · refine ⟨_, if_neg hcode, ?_⟩
      change (Render.applyStyle _ _).front.Holds _
      rw [prepared_front]
      exact hput

theorem renderRow_copies (wcwidth : Int → Int) {row left right : Nat}
    (hbackHolds : backBuffer.Holds back) (hwidths : front.width = back.width)
    (hheights : front.height = back.height) (hholds : state.front.Holds front)
    (hrow : row < front.height) (hright : right ≤ front.width) :
    ∃ state', renderRow wcwidth backBuffer left right row state = some state' ∧
      state'.front.Holds (front.copyWhere back fun r c => r = row ∧ left ≤ c ∧ c < right) := by
  have hfold : ∃ last, (List.range (right - left)).foldlM (fun state (step : Nat) =>
        renderCell wcwidth backBuffer row (left + step : Nat) state) state = some last ∧
      last.front.Holds (front.copyWhere back fun r c =>
        r = row ∧ left ≤ c ∧ c < left + (right - left)) := by
    have hstart : state.front.Holds (front.copyWhere back fun r c =>
        r = row ∧ left ≤ c ∧ c < left + 0) :=
      hholds.congr rfl rfl fun r c _ _ => if_neg (by omega)
    refine foldlM_range_rule (motive := fun (steps : Nat) (state : Render) => state.front.Holds
      (front.copyWhere back fun r c => r = row ∧ left ≤ c ∧ c < left + steps))
      hstart fun steps state hsteps hholds => ?_
    · have hcolumn : left + steps < front.width := Nat.lt_of_lt_of_le (by omega) hright
      obtain ⟨state', hcell, hput⟩ :=
        @renderCell_copies _ (front.copyWhere back fun r c => r = row ∧ left ≤ c ∧ c < left + steps)
          _ _ wcwidth row (left + steps) hbackHolds hwidths hheights hholds hrow hcolumn
      refine ⟨state', hcell, hput.congr rfl rfl fun r c _ _ => ?_⟩
      change (if r = row ∧ left ≤ c ∧ c < left + (steps + 1) then back.cell r c
          else front.cell r c) = if r = row ∧ c = left + steps then back.cell row (left + steps)
        else if r = row ∧ left ≤ c ∧ c < left + steps then back.cell r c else front.cell r c
      by_cases hplace : r = row ∧ c = left + steps
      · rw [if_pos hplace, hplace.1, hplace.2, if_pos (by omega)]
      · rw [if_neg hplace]
        exact if_congr (by omega) rfl rfl
  obtain ⟨last, hrun, hlast⟩ := hfold
  refine ⟨last, ?_, hlast.congr rfl rfl fun r c _ _ => if_congr (by omega) rfl rfl⟩
  unfold renderRow
  rw [show ((right : Int) - left).toNat = right - left by omega, ← hrun]
  congr 1

theorem renderRows_copies (wcwidth : Int → Int) {top bottom left right : Nat}
    (hbackHolds : backBuffer.Holds back) (hwidths : front.width = back.width)
    (hheights : front.height = back.height) (hholds : state.front.Holds front)
    (hbottom : bottom ≤ front.height) (hright : right ≤ front.width) :
    ∃ state', (List.range (bottom - top)).foldlM (fun state (step : Nat) =>
        renderRow wcwidth backBuffer left right (top + step : Nat) state) state = some state' ∧
      state'.front.Holds (front.copyWhere back fun r c =>
        (top ≤ r ∧ r < bottom) ∧ left ≤ c ∧ c < right) := by
  have hfold : ∃ last, (List.range (bottom - top)).foldlM (fun state (step : Nat) =>
        renderRow wcwidth backBuffer left right (top + step : Nat) state) state = some last ∧
      last.front.Holds (front.copyWhere back fun r c =>
        (top ≤ r ∧ r < top + (bottom - top)) ∧ left ≤ c ∧ c < right) := by
    have hstart : state.front.Holds (front.copyWhere back fun r c =>
        (top ≤ r ∧ r < top + 0) ∧ left ≤ c ∧ c < right) :=
      hholds.congr rfl rfl fun r c _ _ => if_neg (by omega)
    refine foldlM_range_rule (motive := fun (steps : Nat) (state : Render) => state.front.Holds
      (front.copyWhere back fun r c => (top ≤ r ∧ r < top + steps) ∧ left ≤ c ∧ c < right))
      hstart fun steps state hsteps hholds => ?_
    · have hrow : top + steps < front.height := Nat.lt_of_lt_of_le (by omega) hbottom
      obtain ⟨state', hrow, hcopied⟩ :=
        @renderRow_copies _ (front.copyWhere back fun r c =>
            (top ≤ r ∧ r < top + steps) ∧ left ≤ c ∧ c < right)
          _ _ wcwidth (top + steps) left right hbackHolds hwidths hheights hholds hrow hright
      refine ⟨state', hrow, hcopied.congr rfl rfl fun r c _ _ => ?_⟩
      change (if (top ≤ r ∧ r < top + (steps + 1)) ∧ left ≤ c ∧ c < right then back.cell r c
          else front.cell r c) = if r = top + steps ∧ left ≤ c ∧ c < right then back.cell r c
        else if (top ≤ r ∧ r < top + steps) ∧ left ≤ c ∧ c < right then back.cell r c
        else front.cell r c
      by_cases hplace : r = top + steps ∧ left ≤ c ∧ c < right
      · rw [if_pos hplace, if_pos (by omega)]
      · rw [if_neg hplace]
        exact if_congr (by omega) rfl rfl
  obtain ⟨last, hrun, hlast⟩ := hfold
  exact ⟨last, hrun, hlast.congr rfl rfl fun r c _ _ => if_congr (by omega) rfl rfl⟩

/-- What the renderer does to the front buffer: it copies the rectangle of the wrapped sums. -/
theorem renderDiffClip_copies (wcwidth : Int → Int) (hbackHolds : backBuffer.Holds back)
    (hfrontHolds : frontBuffer.Holds front) (hwidths : front.width = back.width)
    (hheights : front.height = back.height) (clip : Clip) :
    ∃ copied out, renderDiffClip wcwidth backBuffer frontBuffer clip = some (true, copied, out) ∧
      copied.Holds (front.copyWhere back clip.CoversWrapped) := by
  have hsame : backBuffer.width = frontBuffer.width ∧ backBuffer.height = frontBuffer.height := by
    rw [hbackHolds.width, hfrontHolds.width, hbackHolds.height, hfrontHolds.height, hwidths,
      hheights]
    exact ⟨rfl, rfl⟩
  unfold renderDiffClip
  rw [if_pos hsame]
  dsimp only
  generalize hrowStart : (if 0 ≤ clip.row then clip.row else 0) = rowStart
  generalize hcolStart : (if 0 ≤ clip.column then clip.column else 0) = colStart
  generalize hrowEnd : (if backBuffer.height < wrap (clip.row + clip.height) then backBuffer.height
    else wrap (clip.row + clip.height)) = rowEnd
  generalize hcolEnd : (if backBuffer.width < wrap (clip.column + clip.width) then backBuffer.width
    else wrap (clip.column + clip.width)) = colEnd
  have hcovers : ∀ r c, r < front.height → c < front.width → (clip.CoversWrapped r c ↔
      (rowStart ≤ r ∧ (r : Int) < rowEnd) ∧ colStart ≤ c ∧ (c : Int) < colEnd) := by
    intro r c hr hc
    rw [← hrowStart, ← hcolStart, ← hrowEnd, ← hcolEnd, hbackHolds.width, hbackHolds.height,
      ← hwidths, ← hheights]
    unfold Clip.CoversWrapped InSpan
    split_ifs <;> omega
  split
  case isTrue hregion =>
    obtain ⟨top, rfl⟩ : ∃ top : Nat, rowStart = top :=
      ⟨rowStart.toNat, by split_ifs at hrowStart <;> omega⟩
    obtain ⟨left, rfl⟩ : ∃ left : Nat, colStart = left :=
      ⟨colStart.toNat, by split_ifs at hcolStart <;> omega⟩
    obtain ⟨bottom, rfl⟩ : ∃ bottom : Nat, rowEnd = bottom := ⟨rowEnd.toNat, by omega⟩
    obtain ⟨right, rfl⟩ : ∃ right : Nat, colEnd = right := ⟨colEnd.toNat, by omega⟩
    have hbottom : bottom ≤ front.height := by
      have hheight := hbackHolds.height
      rw [hheights]
      split_ifs at hrowEnd <;> omega
    have hright : right ≤ front.width := by
      have hwidth := hbackHolds.width
      rw [hwidths]
      split_ifs at hcolEnd <;> omega
    have hstart : (Render.start frontBuffer).front.Holds front := hfrontHolds
    obtain ⟨last, hrun, hlast⟩ := @renderRows_copies _ _ _ _ wcwidth top bottom left right
      hbackHolds hwidths hheights hstart hbottom hright
    refine ⟨last.front, last.out ++ [.sgrReset, .flush], ?_, hlast.congr rfl rfl ?_⟩
    · rw [show ((bottom : Int) - top).toNat = bottom - top by omega]
      simp only [Nat.cast_add] at hrun
      rw [hrun]
      rfl
    · intro r c hr hc
      refine if_congr ((hcovers r c hr hc).trans ?_) rfl rfl
      simp only [Nat.cast_le, Nat.cast_lt]
  case isFalse hregion =>
    refine ⟨frontBuffer, _, rfl, hfrontHolds.congr rfl rfl fun r c hr hc => if_neg fun hin => ?_⟩
    have hinside := (hcovers r c hr hc).mp hin
    omega

theorem Buffer.Holds.cell_eq {buffer : Buffer} {grid other : Grid} (hholds : buffer.Holds grid)
    (hother : buffer.Holds other) (hwidth : other.width = grid.width)
    (hheight : other.height = grid.height) {row column : Nat} (hrow : row < grid.height)
    (hcolumn : column < grid.width) :
    other.cell row column = grid.cell row column := by
  rw [← hother.cell row column (hheight ▸ hrow) (hwidth ▸ hcolumn), hwidth,
    hholds.cell row column hrow hcolumn]

/-- The front buffer gets the cells of the rectangle, and nothing else happens to it. -/
def CopiesClip (wcwidth : Int → Int) (backBuffer frontBuffer : Buffer) (back front : Grid)
    (clip : Clip) : Prop :=
  ∃ copied out, renderDiffClip wcwidth backBuffer frontBuffer clip = some (true, copied, out) ∧
    copied.Holds (front.copyWhere back clip.Covers)

theorem copiesClip_iff (wcwidth : Int → Int) (clip : Clip) (hbackHolds : backBuffer.Holds back)
    (hfrontHolds : frontBuffer.Holds front) (hwidths : front.width = back.width)
    (hheights : front.height = back.height) :
    CopiesClip wcwidth backBuffer frontBuffer back front clip ↔ clip.Harmless back front := by
  obtain ⟨copied, out, hrun, hcopied⟩ :=
    renderDiffClip_copies wcwidth hbackHolds hfrontHolds hwidths hheights clip
  constructor
  · rintro ⟨_, _, hagain, hclipped⟩ row column hrow hcolumn hdiffer
    rw [hrun] at hagain
    cases hagain
    have hcell := hcopied.cell_eq hclipped rfl rfl hrow hcolumn
    simp only [Grid.copyWhere] at hcell
    by_cases hexact : clip.Covers row column
    · by_cases hwrapped : clip.CoversWrapped row column
      · exact iff_of_true hexact hwrapped
      · rw [if_pos hexact, if_neg hwrapped] at hcell
        exact absurd hcell hdiffer
    · by_cases hwrapped : clip.CoversWrapped row column
      · rw [if_neg hexact, if_pos hwrapped] at hcell
        exact absurd hcell.symm hdiffer
      · exact iff_of_false hexact hwrapped
  · intro hharmless
    refine ⟨copied, out, hrun, hcopied.congr rfl rfl fun r c hr hc => ?_⟩
    simp only [Grid.copyWhere]
    by_cases hsame : back.cell r c = front.cell r c
    · rw [hsame, ite_self, ite_self]
    · exact if_congr (hharmless r c hr hc hsame) rfl rfl

/-- The exact condition; buffers of other sizes are refused, and every access lies inside. -/
theorem render_diff_clip_iff (wcwidth : Int → Int) (clip : Clip)
    (hbackHolds : backBuffer.Holds back) (hfrontHolds : frontBuffer.Holds front) :
    (front.width = back.width → front.height = back.height →
      (CopiesClip wcwidth backBuffer frontBuffer back front clip ↔ clip.Harmless back front)) ∧
    (¬ (front.width = back.width ∧ front.height = back.height) →
      renderDiffClip wcwidth backBuffer frontBuffer clip = some (false, frontBuffer, [])) ∧
    (renderDiffClip wcwidth backBuffer frontBuffer clip).isSome := by
  have hrefused : ¬ (front.width = back.width ∧ front.height = back.height) →
      renderDiffClip wcwidth backBuffer frontBuffer clip = some (false, frontBuffer, []) := by
    intro hdiffer
    unfold renderDiffClip
    rw [if_neg]
    rintro ⟨hwidth, hheight⟩
    rw [hbackHolds.width, hfrontHolds.width] at hwidth
    rw [hbackHolds.height, hfrontHolds.height] at hheight
    exact hdiffer ⟨by exact_mod_cast hwidth.symm, by exact_mod_cast hheight.symm⟩
  refine ⟨copiesClip_iff wcwidth clip hbackHolds hfrontHolds, hrefused, ?_⟩
  by_cases hsame : front.width = back.width ∧ front.height = back.height
  · obtain ⟨copied, out, hrun, -⟩ :=
      renderDiffClip_copies wcwidth hbackHolds hfrontHolds hsame.1 hsame.2 clip
    rw [hrun]
    rfl
  · rw [hrefused hsame]
    rfl

end

/-! A rectangle from the second row to the last one there can be. -/

def blankCell : Cell := ⟨32, 0, 0, 0, false⟩

def markedCell : Cell := ⟨120, 0, 0, 0, false⟩

def columnOf (cell : Cell) : Grid := ⟨1, 2, fun _ _ => cell⟩

def columnBuffer (cell : Cell) : Buffer := ⟨1, 2, ⟨80, fun _ => cell⟩⟩

theorem columnBuffer_holds (cell : Cell) : (columnBuffer cell).Holds (columnOf cell) where
  width := rfl
  height := rfl
  nonempty := by simp [columnOf]
  bytes := rfl
  fits := by simp [Fits, columnOf, cellSize]
  cell _ _ _ _ := rfl

theorem render_diff_clip_of_column :
    (CopiesClip (fun _ => 1) (columnBuffer markedCell) (columnBuffer blankCell)
      (columnOf markedCell) (columnOf blankCell) ⟨1, 0, 1, 1⟩ ↔
        Clip.Harmless ⟨1, 0, 1, 1⟩ (columnOf markedCell) (columnOf blankCell)) ∧
    Clip.Harmless ⟨1, 0, 1, 1⟩ (columnOf markedCell) (columnOf blankCell) :=
  ⟨(render_diff_clip_iff (fun _ => 1) ⟨1, 0, 1, 1⟩ (columnBuffer_holds _)
    (columnBuffer_holds _)).1 rfl rfl,
    Clip.harmless_of_fits (by decide) (by decide) (by decide) (by decide) _ _⟩

/-- The sum of the row and the largest height is negative, and no row is copied. -/
theorem tall_clip_copies_nothing :
    ¬ (∀ (clip : Clip) (backBuffer frontBuffer : Buffer) (back front : Grid),
      backBuffer.Holds back → frontBuffer.Holds front → front.width = back.width →
        front.height = back.height →
          CopiesClip (fun _ => 1) backBuffer frontBuffer back front clip) ∧
    Clip.Covers ⟨1, 0, 2 ^ 63 - 1, 1⟩ 1 0 ∧
    ¬ Clip.CoversWrapped ⟨1, 0, 2 ^ 63 - 1, 1⟩ 1 0 := by
  have hcovers : Clip.Covers ⟨1, 0, 2 ^ 63 - 1, 1⟩ 1 0 := by decide
  have hwrapped : ¬ Clip.CoversWrapped ⟨1, 0, 2 ^ 63 - 1, 1⟩ 1 0 := by decide
  refine ⟨fun hcopies => ?_, hcovers, hwrapped⟩
  have hcopied := hcopies ⟨1, 0, 2 ^ 63 - 1, 1⟩ _ _ _ _ (columnBuffer_holds markedCell)
    (columnBuffer_holds blankCell) rfl rfl
  have hharmless := (copiesClip_iff _ _ (columnBuffer_holds markedCell)
    (columnBuffer_holds blankCell) rfl rfl).mp hcopied
  exact hwrapped ((hharmless 1 0 (by decide) (by decide) (by decide)).mp hcovers)

end Term

end Cnegative
