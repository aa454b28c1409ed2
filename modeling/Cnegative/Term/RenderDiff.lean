import Cnegative.Term.Screen

namespace Cnegative

namespace Term

open Library

/-! The run of the renderer: tracked and real state of the terminal side by side. -/

/-- What the terminal became. -/
def Render.terminal (wcwidth : Int → Int) (start : Terminal) (state : Render) : Terminal :=
  start.receiveAll wcwidth state.out

/-- The front buffer when the cells before a place are copied. -/
def merged (back front : Grid) (row column : Nat) : Grid :=
  { front with
    cell := fun r c => if Before r c row column then back.cell r c else front.cell r c }

theorem Buffer.Holds.congr {buffer : Buffer} {grid other : Grid} (hholds : buffer.Holds grid)
    (hwidth : other.width = grid.width) (hheight : other.height = grid.height)
    (hcell : ∀ row column, row < grid.height → column < grid.width →
      other.cell row column = grid.cell row column) : buffer.Holds other where
  width := by rw [hholds.width, hwidth]
  height := by rw [hholds.height, hheight]
  nonempty := by rw [hwidth, hheight]; exact hholds.nonempty
  bytes := by rw [hholds.bytes, hwidth, hheight]
  fits := by rw [hwidth, hheight]; exact hholds.fits
  cell row column hrow hcolumn := by
    rw [hwidth] at hcolumn ⊢
    rw [hheight] at hrow
    rw [hholds.cell row column hrow hcolumn, hcell row column hrow hcolumn]

/-- What the renderer keeps track of, before the cell at a place, is what the terminal is in. -/
structure InStep (wcwidth : Int → Int) (back front : Grid) (start : Terminal) (row column : Nat)
    (state : Render) : Prop where
  cursor : state.cursorRow = -1 ∨
    ((state.terminal wcwidth start).row : Int) = state.cursorRow ∧
      ((state.terminal wcwidth start).column : Int) = state.cursorCol
  style : (state.fg = -2 ∧ state.bg = -2 ∧ state.attrs = -1 ∧
      start.style ≠ styleItems (-2) (-2) (-1) ∧
      ∀ r c, Before r c row column → c < back.width → ¬ Drawn back front r c) ∨
    (state.terminal wcwidth start).style = styleItems state.fg state.bg state.attrs
  columns : (state.terminal wcwidth start).columns = start.columns
  aligned : Aligned wcwidth back start state.out

/-- The same inside of a row, with the front buffer and the screen. -/
structure InRow (wcwidth : Int → Int) (back front : Grid) (start : Terminal) (row column : Nat)
    (state : Render) : Prop extends InStep wcwidth back front start row column state where
  holds : state.front.Holds (merged back front row column)
  above : ∀ r c, r < row → c < back.width →
    (state.terminal wcwidth start).spot r c = lookAt (back.cell r) c
  below : ∀ r c, row < r → r < back.height → c < back.width →
    (state.terminal wcwidth start).spot r c = lookAt (front.cell r) c
  sweep : Sweep (back.cell row) (front.cell row) back.width column
    ((state.terminal wcwidth start).spot row)

/-- The same between two rows. -/
structure AtRow (wcwidth : Int → Int) (back front : Grid) (start : Terminal) (row : Nat)
    (state : Render) : Prop extends InStep wcwidth back front start row 0 state where
  holds : state.front.Holds (merged back front row 0)
  above : ∀ r c, r < row → c < back.width →
    (state.terminal wcwidth start).spot r c = lookAt (back.cell r) c
  below : ∀ r c, row ≤ r → r < back.height → c < back.width →
    (state.terminal wcwidth start).spot r c = lookAt (front.cell r) c

variable {wcwidth : Int → Int} {back front : Grid} {start : Terminal} {row column : Nat}
  {state : Render} {cell : Cell}

/-! Moves and styles that are left out change nothing. -/

theorem wrap_next {position bound : Nat} (hposition : position < bound) (hbound : bound < 2 ^ 63) :
    wrap ((position : Int) + 1) = position + 1 := by
  have hcast : ((position : Int) + 1) = ((position + 1 : Nat) : Int) := by push_cast; rfl
  rw [hcast, wrap_natCast (by omega)]

theorem terminal_moveTo (row column : Nat)
    (hcursor : state.cursorRow = -1 ∨
      ((state.terminal wcwidth start).row : Int) = state.cursorRow ∧
        ((state.terminal wcwidth start).column : Int) = state.cursorCol)
    (hrow : row + 1 < 2 ^ 63) (hcolumn : column + 1 < 2 ^ 63) :
    (state.moveTo row column).terminal wcwidth start =
      { state.terminal wcwidth start with row := row, column := column } := by
  unfold Render.moveTo
  split
  case isTrue hskip =>
    obtain hnone | ⟨hrowEq, hcolumnEq⟩ := hcursor
    · omega
    · have hr : (state.terminal wcwidth start).row = row := by omega
      have hc : (state.terminal wcwidth start).column = column := by omega
      rw [← hr, ← hc]
  case isFalse =>
    change (start.receiveAll wcwidth (state.out ++ [moveCursor row column])) = _
    rw [receiveAll_append]
    change Terminal.receive wcwidth _ (moveCursor row column) = _
    rw [moveCursor, if_pos (Int.natCast_nonneg _), if_pos (Int.natCast_nonneg _),
      wrap_next (Nat.lt_succ_self row) hrow, wrap_next (Nat.lt_succ_self column) hcolumn]
    simp [Terminal.receive, Render.terminal]

theorem terminal_applyStyle
    (hstyle : (state.fg = -2 ∧ state.bg = -2 ∧ state.attrs = -1 ∧
        ¬ cell.HasStartStyle) ∨
      (state.terminal wcwidth start).style = styleItems state.fg state.bg state.attrs) :
    (state.applyStyle cell).terminal wcwidth start =
      { state.terminal wcwidth start with style := cell.style } := by
  unfold Render.applyStyle
  split
  case isTrue hskip =>
    obtain ⟨hfg, hbg, hattrs, hother⟩ | hsame := hstyle
    · rw [hfg, hbg, hattrs] at hskip
      exact absurd hskip hother
    · rw [Cell.style, hskip.1, hskip.2.1, hskip.2.2, ← hsame]
  case isFalse =>
    change start.receiveAll wcwidth (state.out ++ setStyle cell.fg cell.bg cell.attrs) = _
    rw [receiveAll_append, receiveAll_setStyle]
    rfl

theorem aligned_moveTo (haligned : Aligned wcwidth back start state.out) :
    Aligned wcwidth back start (state.moveTo row column).out := by
  unfold Render.moveTo
  split
  · exact haligned
  · refine haligned.append (Aligned.quiet fun output hmem chars heq => ?_)
    rw [List.mem_singleton.mp hmem] at heq
    cases heq

theorem aligned_applyStyle (haligned : Aligned wcwidth back start state.out) :
    Aligned wcwidth back start (state.applyStyle cell).out := by
  unfold Render.applyStyle
  split
  · exact haligned
  · exact haligned.append (Aligned.quiet (setStyle_quiet _ _ _))

/-! One cell. -/

theorem moveTo_words (row column : Int) (state : Render) :
    (state.moveTo row column).fg = state.fg ∧ (state.moveTo row column).bg = state.bg ∧
      (state.moveTo row column).attrs = state.attrs := by
  unfold Render.moveTo
  split <;> exact ⟨rfl, rfl, rfl⟩

theorem applyStyle_words (cell : Cell) (state : Render) :
    (state.applyStyle cell).fg = cell.fg ∧ (state.applyStyle cell).bg = cell.bg ∧
      (state.applyStyle cell).attrs = cell.attrs := by
  unfold Render.applyStyle
  split
  case isTrue hskip => exact ⟨hskip.1.symm, hskip.2.1.symm, hskip.2.2.symm⟩
  case isFalse => exact ⟨rfl, rfl, rfl⟩

theorem before_succ {r c : Nat} :
    Before r c row (column + 1) ↔ Before r c row column ∨ r = row ∧ c = column := by
  unfold Before
  omega

theorem not_before : ¬ Before row column row column := by
  unfold Before
  omega

theorem merged_succ :
    (merged back front row (column + 1)).cell =
      ((merged back front row column).put row column (back.cell row column)).cell := by
  funext r c
  change (if Before r c row (column + 1) then back.cell r c else front.cell r c) =
    if r = row ∧ c = column then back.cell row column
    else if Before r c row column then back.cell r c else front.cell r c
  by_cases hplace : r = row ∧ c = column
  · rw [if_pos (before_succ.mpr (.inr hplace)), if_pos hplace, hplace.1, hplace.2]
  · rw [if_neg hplace]
    exact if_congr (before_succ.trans (or_iff_left hplace)) rfl rfl

theorem merged_place : (merged back front row column).cell row column = front.cell row column :=
  if_neg not_before

theorem Grid.WellPaired.fits (hback : back.WellPaired) (hrow : row < back.height)
    (hcolumn : column < back.width) :
    column + (if (back.cell row column).wide then 2 else 1) ≤ back.width := by
  split
  case isTrue hwide => exact (hback.right row column hrow hcolumn hwide).1
  case isFalse => exact hcolumn

theorem Buffer.Holds.bounds {buffer : Buffer} {grid : Grid} (hholds : buffer.Holds grid) :
    grid.height < 2 ^ 63 ∧ grid.width < 2 ^ 63 := by
  have hcount := hholds.count_lt
  obtain ⟨hwidth, hheight⟩ := hholds.nonempty
  exact ⟨(Nat.le_mul_of_pos_left _ hwidth).trans_lt hcount,
    (Nat.le_mul_of_pos_right _ hheight).trans_lt hcount⟩

/-- The terminal after a cell is printed. -/
theorem terminal_draw (state : Render) (hstep : InStep wcwidth back front start row column state)
    (hcolumns : back.width ≤ start.columns) (hback : back.WellPaired)
    (hrow : row < back.height) (hcolumn : column < back.width)
    (hheight : back.height < 2 ^ 63) (hwidth : back.width < 2 ^ 63)
    (hfitting : (back.cell row column).Fitting wcwidth)
    (hstyled : start.style ≠ styleItems (-2) (-2) (-1) →
      (∀ r c, Before r c row column → c < back.width → ¬ Drawn back front r c) →
      ¬ (back.cell row column).HasStartStyle) :
    (((state.moveTo row column).applyStyle (back.cell row column)).writeCell wcwidth row column
        (back.cell row column)).terminal wcwidth start =
      { state.terminal wcwidth start with
        row := row
        column := column + (if (back.cell row column).wide then 2 else 1)
        style := (back.cell row column).style
        spot := fun r =>
          if r = row then
            (if (back.cell row column).wide then putDouble else putNarrow)
              ((state.terminal wcwidth start).spot r) column (glyph (back.cell row column).code)
              (back.cell row column).style
          else (state.terminal wcwidth start).spot r } ∧
    Aligned wcwidth back start
      (((state.moveTo row column).applyStyle (back.cell row column)).writeCell wcwidth row column
        (back.cell row column)).out := by
  have hmove := terminal_moveTo row column hstep.cursor (by omega) (by omega)
  obtain ⟨hfg, hbg, hattrs⟩ := moveTo_words row column state
  have hready : ((state.moveTo row column).applyStyle (back.cell row column)).terminal wcwidth
      start = { state.terminal wcwidth start with
        row := row, column := column, style := (back.cell row column).style } := by
    rw [terminal_applyStyle, hmove]
    rw [hfg, hbg, hattrs, hmove]
    obtain ⟨hf, hb, ha, hother, hfirst⟩ | hsame := hstep.style
    · exact .inl ⟨hf, hb, ha, hstyled hother hfirst⟩
    · exact .inr hsame
  constructor
  · change start.receiveAll wcwidth (_ ++ [.bytes _]) = _
    rw [receiveAll_append]
    change ((Render.terminal wcwidth start _).print wcwidth (decode (writeCode _))) = _
    rw [hready, decode_writeCode, print_fits hfitting]
    rw [hstep.columns]
    exact (hback.fits hrow hcolumn).trans hcolumns
  · refine (aligned_applyStyle (aligned_moveTo hstep.aligned)).append ⟨fun chars heq => ?_, trivial⟩
    change (Render.terminal wcwidth start _).AtCell back chars
    rw [hready]
    cases heq
    exact ⟨hrow, hcolumn, rfl, rfl⟩

theorem prepared_front (row column : Int) (cell : Cell) (state : Render) :
    ((state.moveTo row column).applyStyle cell).front = state.front := by
  unfold Render.applyStyle Render.moveTo
  split <;> split <;> rfl

/-- A cell that is not printed leaves the screen alone. -/
theorem InRow.passed (hin : InRow wcwidth back front start row column state)
    (hdrawn : ¬ Drawn back front row column) {buffer : Buffer}
    (hholds : buffer.Holds (merged back front row (column + 1)))
    (hsweep : Sweep (back.cell row) (front.cell row) back.width (column + 1)
      ((state.terminal wcwidth start).spot row)) :
    InRow wcwidth back front start row (column + 1) { state with front := buffer } where
  holds := hholds
  cursor := hin.cursor
  style := by
    obtain ⟨hfg, hbg, hattrs, hother, hfirst⟩ | hsame := hin.style
    · refine .inl ⟨hfg, hbg, hattrs, hother, fun r c hbefore hc => ?_⟩
      obtain hbefore | ⟨rfl, rfl⟩ := before_succ.mp hbefore
      · exact hfirst r c hbefore hc
      · exact hdrawn
    · exact .inr hsame
  columns := hin.columns
  aligned := hin.aligned
  above := hin.above
  below := hin.below
  sweep := hsweep

/-- What `renderCell` can do: it copies a cell, and prints it where it is drawn. -/
theorem renderCell_cases (wcwidth : Int → Int) {backBuffer : Buffer} (hbackHolds : backBuffer.Holds back)
    (hwidths : front.width = back.width) (hheights : front.height = back.height)
    (hholds : state.front.Holds (merged back front row column)) (hrow : row < back.height)
    (hcolumn : column < back.width) :
    ∃ buffer, buffer.Holds (merged back front row (column + 1)) ∧
      (¬ Drawn back front row column ∧
        renderCell wcwidth backBuffer row column state = some { state with front := buffer } ∨
      Drawn back front row column ∧
        renderCell wcwidth backBuffer row column state =
          some (((Render.moveTo row column { state with front := buffer }).applyStyle
            (back.cell row column)).writeCell wcwidth row column (back.cell row column))) := by
  have hindex : wrap (wrap ((row : Int) * backBuffer.width) + column) =
      (row * back.width + column : Nat) := by
    rw [hbackHolds.width, wrap_index hbackHolds.fits hrow hcolumn]
  have hfrontLoad : state.front.cells.load cellSize (row * back.width + column : Nat) =
      some (front.cell row column) := by
    have hload := hholds.load (show row < front.height from hheights ▸ hrow)
      (show column < front.width from hwidths ▸ hcolumn)
    rw [merged_place] at hload
    rw [← hwidths]
    exact hload
  unfold renderCell
  simp only [hindex, hbackHolds.load hrow hcolumn, hfrontLoad, Option.bind_eq_bind,
    Option.bind_some]
  by_cases hsame : back.cell row column = front.cell row column
  · refine ⟨state.front, hholds.congr rfl rfl fun r c _ _ => ?_,
      .inl ⟨fun hdrawn => hdrawn.1 hsame, if_pos hsame⟩⟩
    rw [merged_succ]
    change (if r = row ∧ c = column then _ else _) = _
    split
    case isTrue hplace =>
      obtain ⟨rfl, rfl⟩ := hplace
      rw [merged_place, hsame]
    case isFalse => rfl
  · obtain ⟨cells, hstore, hput⟩ := hholds.store row column (hheights ▸ hrow)
      (hwidths ▸ hcolumn) (back.cell row column)
    refine ⟨{ state.front with cells := cells },
      hput.congr rfl rfl fun r c _ _ => congrFun (congrFun merged_succ r) c, ?_⟩
    have hstoreAt : state.front.cells.store cellSize (row * back.width + column : Nat)
        (back.cell row column) = some cells := by
      rw [← hwidths]
      exact hstore
    rw [if_neg hsame]
    simp only [hstoreAt, Option.bind_some]
    by_cases hcode : (back.cell row column).code = -1
    · refine .inl ⟨fun hdrawn => ?_, if_pos hcode⟩
      have hcont := hdrawn.2
      rw [Cell.isContinuation, hcode] at hcont
      cases hcont
    · exact .inr ⟨⟨hsame, by rwa [Cell.isContinuation, beq_eq_false_iff_ne]⟩, if_neg hcode⟩

theorem renderCell_spec {backBuffer : Buffer} (hbackHolds : backBuffer.Holds back)
    (hcolumnWidths : ColumnWidths wcwidth)
    (hwidths : front.width = back.width) (hheights : front.height = back.height)
    (hback : back.WellPaired) (hfront : front.WellPaired) (hcolumns : back.width ≤ start.columns)
    (hcond : Renderable wcwidth start back front) (hrow : row < back.height)
    (hcolumn : column < back.width) (hin : InRow wcwidth back front start row column state) :
    ∃ state', renderCell wcwidth backBuffer row column state = some state' ∧
      InRow wcwidth back front start row (column + 1) state' := by
  have hbackRow := hback.row hrow
  have hfrontRow : RowPaired (front.cell row) back.width := by
    rw [← hwidths]
    exact hfront.row (hheights ▸ hrow)
  obtain ⟨hheightLt, hwidthLt⟩ := hbackHolds.bounds
  obtain ⟨buffer, hholds, ⟨hdrawn, hrun⟩ | ⟨hdrawn, hrun⟩⟩ :=
    renderCell_cases wcwidth hbackHolds hwidths hheights hin.holds hrow hcolumn
  · refine ⟨_, hrun, hin.passed hdrawn hholds ?_⟩
    cases hcont : (back.cell row column).isContinuation with
    | true => exact hin.sweep.skip hbackRow hcolumn hcont
    | false =>
        have hsame : back.cell row column = front.cell row column := by
          by_contra hchanged
          exact hdrawn ⟨hchanged, hcont⟩
        exact hin.sweep.keep hbackRow hfrontRow hcolumn hcont hsame
  · have hfitting := hcond.fitting row column hrow hcolumn hdrawn
    obtain ⟨hterminal, haligned⟩ := terminal_draw { state with front := buffer }
      ⟨hin.cursor, hin.style, hin.columns, hin.aligned⟩ hcolumns hback hrow hcolumn hheightLt
      hwidthLt hfitting fun hother => hcond.styled hother row column hrow hcolumn hdrawn
    have hadvance : wrap ((column : Int) + cellAdvance wcwidth (back.cell row column).code) =
        (column + (if (back.cell row column).wide then 2 else 1) : Nat) := by
      have hcast : (column : Int) + (if (back.cell row column).wide then 2 else 1) =
          (column + (if (back.cell row column).wide then 2 else 1) : Nat) := by
        split <;> rfl
      rw [advance_of_fitting hcolumnWidths hfitting, hcast]
      exact wrap_natCast ((hback.fits hrow hcolumn).trans_lt hwidthLt)
    obtain ⟨hfg, hbg, hattrs⟩ := applyStyle_words (back.cell row column)
      (Render.moveTo row column { state with front := buffer })
    refine ⟨_, hrun, ⟨⟨.inr ⟨?_, ?_⟩, .inr ?_, ?_, haligned⟩, ?_, fun r c hr hc => ?_,
      fun r c hr hheight hc => ?_, ?_⟩⟩
    · rw [hterminal]
      rfl
    · rw [hterminal]
      exact hadvance.symm
    · rw [hterminal]
      change _ = styleItems (Render.applyStyle _ _).fg (Render.applyStyle _ _).bg
        (Render.applyStyle _ _).attrs
      rw [hfg, hbg, hattrs]
      rfl
    · rw [hterminal]
      exact hin.columns
    · change (Render.applyStyle _ _).front.Holds _
      rw [prepared_front]
      exact hholds
    · rw [hterminal]
      change (if r = row then _ else (state.terminal wcwidth start).spot r) c = _
      rw [if_neg (by omega)]
      exact hin.above r c hr hc
    · rw [hterminal]
      change (if r = row then _ else (state.terminal wcwidth start).spot r) c = _
      rw [if_neg (by omega)]
      exact hin.below r c hr hheight hc
    · rw [hterminal]
      change Sweep _ _ _ _ (if row = row then _ else _)
      rw [if_pos rfl]
      cases hwide : (back.cell row column).wide with
      | true => exact hin.sweep.wide hbackRow hfrontRow hcolumn hdrawn.2 hwide
      | false => exact hin.sweep.narrow hbackRow hfrontRow hcolumn hdrawn.2 hwide

/-! Whole rows. -/

theorem Buffer.Holds.nextRow {buffer : Buffer} (hwidths : front.width = back.width)
    (hholds : buffer.Holds (merged back front row back.width)) :
    buffer.Holds (merged back front (row + 1) 0) := by
  refine hholds.congr rfl rfl fun r c _ hc => ?_
  change c < front.width at hc
  refine if_congr ?_ rfl rfl
  unfold Before
  omega

theorem renderRow_spec {backBuffer : Buffer} (hbackHolds : backBuffer.Holds back)
    (hcolumnWidths : ColumnWidths wcwidth)
    (hwidths : front.width = back.width) (hheights : front.height = back.height)
    (hback : back.WellPaired) (hfront : front.WellPaired) (hcolumns : back.width ≤ start.columns)
    (hcond : Renderable wcwidth start back front) (hrow : row < back.height)
    (hat : AtRow wcwidth back front start row state) :
    ∃ state', renderRow wcwidth backBuffer 0 back.width row state = some state' ∧
      AtRow wcwidth back front start (row + 1) state' := by
  have hfrontRow : RowPaired (front.cell row) back.width := by
    rw [← hwidths]
    exact hfront.row (hheights ▸ hrow)
  have henter : InRow wcwidth back front start row 0 state :=
    ⟨hat.toInStep, hat.holds, hat.above, fun r c hr => hat.below r c (by omega),
      Sweep.enter (hback.row hrow) hfrontRow fun c hc => hat.below row c (Nat.le_refl _) hrow hc⟩
  obtain ⟨last, hrun, hleave⟩ : ∃ last, (List.range back.width).foldlM
      (fun state (step : Nat) => renderCell wcwidth backBuffer row (0 + step) state) state =
        some last ∧ InRow wcwidth back front start row back.width last := by
    refine foldlM_range_rule (motive := InRow wcwidth back front start row) henter
      fun column state hcolumn hin => ?_
    rw [zero_add]
    exact renderCell_spec hbackHolds hcolumnWidths hwidths hheights hback hfront hcolumns hcond
      hrow hcolumn hin
  refine ⟨last, ?_, ⟨⟨hleave.cursor, ?_, hleave.columns, hleave.aligned⟩, ?_, ?_, ?_⟩⟩
  · unfold renderRow
    rw [Int.sub_zero, Int.toNat_natCast]
    exact hrun
  · obtain ⟨hfg, hbg, hattrs, hother, hfirst⟩ | hsame := hleave.style
    · refine .inl ⟨hfg, hbg, hattrs, hother, fun r c hbefore hc => hfirst r c ?_ hc⟩
      unfold Before at hbefore ⊢
      omega
    · exact .inr hsame
  · exact hleave.holds.nextRow hwidths
  · intro r c hr hc
    obtain hlt | rfl := Nat.lt_succ_iff_lt_or_eq.mp hr
    · exact hleave.above r c hlt hc
    · exact hleave.sweep.behind c hc
  · exact fun r c hr hheight hc => hleave.below r c (by omega) hheight hc

theorem start_atRow {frontBuffer : Buffer} (hfrontHolds : frontBuffer.Holds front)
    (hwidths : front.width = back.width) (hheights : front.height = back.height)
    (hshows : start.Shows front) :
    AtRow wcwidth back front start 0 (Render.start frontBuffer) where
  cursor := .inl rfl
  style := by
    by_cases hsame : start.style = styleItems (-2) (-2) (-1)
    · exact .inr hsame
    · exact .inl ⟨rfl, rfl, rfl, hsame, fun r c hbefore => by unfold Before at hbefore; omega⟩
  columns := rfl
  aligned := trivial
  holds := hfrontHolds.congr rfl rfl fun r c _ _ => if_neg (by unfold Before; omega)
  above r c hr := absurd hr (Nat.not_lt_zero r)
  below r c _ hr hc := hshows r c (hheights ▸ hr) (hwidths ▸ hc)

theorem renderDiff_eq {backBuffer frontBuffer : Buffer} {last : Render}
    (hbackHolds : backBuffer.Holds back) (hfrontHolds : frontBuffer.Holds front)
    (hwidths : front.width = back.width) (hheights : front.height = back.height)
    (hrun : (List.range back.height).foldlM
      (fun state (step : Nat) => renderRow wcwidth backBuffer 0 back.width (0 + step) state)
        (Render.start frontBuffer) = some last) :
    renderDiff wcwidth backBuffer frontBuffer =
      some (true, last.front, last.out ++ [.sgrReset, .flush]) := by
  obtain ⟨hheightLt, hwidthLt⟩ := hbackHolds.bounds
  obtain ⟨hwidthPos, hheightPos⟩ := hbackHolds.nonempty
  unfold renderDiff renderDiffClip
  simp only [hbackHolds.width, hbackHolds.height, hfrontHolds.width, hfrontHolds.height, hwidths,
    hheights, zero_add, wrap_natCast hheightLt, wrap_natCast hwidthLt, lt_irrefl, if_false,
    le_refl, if_true, and_self]
  rw [if_pos ⟨by exact_mod_cast hheightPos, by exact_mod_cast hwidthPos⟩, Int.sub_zero,
    Int.toNat_natCast]
  simp only [zero_add] at hrun
  rw [hrun]
  rfl

/-- The terminal shows the back buffer, the front buffer is a copy of it, and everything was
printed at its cell and in its style. -/
theorem render_diff_shows {backBuffer frontBuffer : Buffer} (hcolumnWidths : ColumnWidths wcwidth)
    (hbackHolds : backBuffer.Holds back) (hfrontHolds : frontBuffer.Holds front)
    (hwidths : front.width = back.width) (hheights : front.height = back.height)
    (hback : back.WellPaired) (hfront : front.WellPaired) (hcolumns : back.width ≤ start.columns)
    (hshows : start.Shows front) (hcond : Renderable wcwidth start back front) :
    ∃ copied out, renderDiff wcwidth backBuffer frontBuffer = some (true, copied, out) ∧
      (start.receiveAll wcwidth out).Shows back ∧ Aligned wcwidth back start out ∧
        copied.Holds back := by
  obtain ⟨last, hrun, hlast⟩ : ∃ last, (List.range back.height).foldlM
      (fun state (step : Nat) => renderRow wcwidth backBuffer 0 back.width (0 + step) state)
        (Render.start frontBuffer) = some last ∧
      AtRow wcwidth back front start back.height last := by
    refine foldlM_range_rule (motive := AtRow wcwidth back front start)
      (start_atRow hfrontHolds hwidths hheights hshows) fun row state hrow hat => ?_
    rw [zero_add]
    exact renderRow_spec hbackHolds hcolumnWidths hwidths hheights hback hfront hcolumns hcond hrow
      hat
  have hquiet : ∀ output ∈ [Output.sgrReset, .flush], ∀ chars, output ≠ .bytes chars := by
    intro output hmem chars heq
    subst heq
    simp at hmem
  refine ⟨last.front, last.out ++ [.sgrReset, .flush],
    renderDiff_eq hbackHolds hfrontHolds hwidths hheights hrun, ?_,
    hlast.aligned.append (Aligned.quiet hquiet), ?_⟩
  · intro r c hr hc
    rw [receiveAll_append]
    exact hlast.above r c hr hc
  · refine hlast.holds.congr hwidths.symm hheights.symm fun r c hr _ => ?_
    exact (if_pos (.inl (by rw [← hheights]; exact hr))).symm

end Term

end Cnegative
