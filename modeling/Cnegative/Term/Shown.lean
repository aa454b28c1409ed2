import Cnegative.Term.RenderDiff

namespace Cnegative

namespace Term

open Library

variable {wcwidth : Int → Int} {back front : Grid} {start : Terminal} {row column : Nat}
  {state : Render}

/-! A first printed cell in the style that the renderer starts with gets no style. -/

theorem draw_out_grows (wcwidth : Int → Int) (row column : Int) (cell : Cell) (state : Render) :
    ∃ rest, (((state.moveTo row column).applyStyle cell).writeCell wcwidth row column cell).out =
      state.out ++ rest := by
  change ∃ rest, ((state.moveTo row column).applyStyle cell).out ++ _ = _
  unfold Render.applyStyle Render.moveTo
  split <;> split <;> simp

/-- Nothing was written before the first printed cell, and that cell is printed in the style that
the terminal happened to be in. -/
structure Unstyled (wcwidth : Int → Int) (back front : Grid) (start : Terminal)
    (first : Nat × Nat) (row column : Nat) (state : Render) : Prop where
  holds : state.front.Holds (merged back front row column)
  fresh : ¬ Before first.1 first.2 row column → state = Render.start state.front
  slipped : Before first.1 first.2 row column → ¬ Aligned wcwidth back start state.out

structure IsFirst (back front : Grid) (first : Nat × Nat) : Prop where
  inside : first.1 < back.height ∧ first.2 < back.width
  drawn : Drawn back front first.1 first.2
  first : ∀ r c, Before r c first.1 first.2 → c < back.width → ¬ Drawn back front r c

theorem unstyled_draw {buffer : Buffer} (hrow : row + 1 < 2 ^ 63) (hcolumn : column + 1 < 2 ^ 63)
    (hother : start.style ≠ styleItems (-2) (-2) (-1))
    (hstyle : (back.cell row column).HasStartStyle) :
    ¬ Aligned wcwidth back start
      ((((Render.start buffer).moveTo row column).applyStyle (back.cell row column)).writeCell
        wcwidth row column (back.cell row column)).out := by
  intro haligned
  have hout : ((((Render.start buffer).moveTo row column).applyStyle
      (back.cell row column)).writeCell wcwidth row column (back.cell row column)).out =
      [moveCursor row column, .bytes (writeCode (back.cell row column).code)] := by
    have hmove : (Render.start buffer).moveTo row column =
        { Render.start buffer with out := [moveCursor row column] } :=
      if_neg fun hskip => by
        have hrow : (-1 : Int) = row := hskip.1
        omega
    have hstyled : Render.applyStyle (back.cell row column)
        { Render.start buffer with out := [moveCursor row column] } =
        { Render.start buffer with out := [moveCursor row column] } := if_pos hstyle
    rw [hmove, hstyled]
    rfl
  rw [hout] at haligned
  obtain ⟨-, hcell, -⟩ := haligned
  have hmoved : start.receive wcwidth (moveCursor row column) =
      { start with row := row, column := column } := by
    rw [moveCursor, if_pos (Int.natCast_nonneg _), if_pos (Int.natCast_nonneg _),
      wrap_next (Nat.lt_succ_self row) hrow, wrap_next (Nat.lt_succ_self column) hcolumn]
    simp [Terminal.receive]
  rw [hmoved] at hcell
  obtain ⟨-, -, -, hsame⟩ := hcell _ rfl
  apply hother
  change start.style = (back.cell row column).style at hsame
  rw [hsame, Cell.style, hstyle.1, hstyle.2.1, hstyle.2.2]

theorem unstyled_cell {backBuffer : Buffer} {first : Nat × Nat}
    (hbackHolds : backBuffer.Holds back) (hwidths : front.width = back.width)
    (hheights : front.height = back.height) (hfirst : IsFirst back front first)
    (hother : start.style ≠ styleItems (-2) (-2) (-1))
    (hstyle : (back.cell first.1 first.2).HasStartStyle) (hrow : row < back.height)
    (hcolumn : column < back.width)
    (hstate : Unstyled wcwidth back front start first row column state) :
    ∃ state', renderCell wcwidth backBuffer row column state = some state' ∧
      Unstyled wcwidth back front start first row (column + 1) state' := by
  obtain ⟨hheightLt, hwidthLt⟩ := hbackHolds.bounds
  obtain ⟨buffer, hholds, ⟨hdrawn, hrun⟩ | ⟨hdrawn, hrun⟩⟩ :=
    renderCell_cases wcwidth hbackHolds hwidths hheights hstate.holds hrow hcolumn
  · refine ⟨_, hrun, hholds, fun hbefore => ?_, fun hbefore => ?_⟩
    · rw [hstate.fresh fun h => hbefore (before_succ.mpr (.inl h))]
      rfl
    · obtain hbefore | ⟨hr, hc⟩ := before_succ.mp hbefore
      · exact hstate.slipped hbefore
      · exact absurd hfirst.drawn (by rw [hr, hc]; exact hdrawn)
  · refine ⟨_, hrun, ?_, fun hbefore => ?_, fun _ => ?_⟩
    · change (Render.applyStyle _ _).front.Holds _
      rw [prepared_front]
      exact hholds
    · have hplace : ¬ Before row column first.1 first.2 := fun h =>
        hfirst.first row column h hcolumn hdrawn
      unfold Before at hbefore hplace
      omega
    · by_cases hbefore : Before first.1 first.2 row column
      · obtain ⟨rest, hout⟩ := draw_out_grows wcwidth row column
          (back.cell row column) { state with front := buffer }
        rw [hout]
        exact fun haligned => hstate.slipped hbefore haligned.of_append
      · have hplace : ¬ Before row column first.1 first.2 := fun h =>
          hfirst.first row column h hcolumn hdrawn
        obtain ⟨rfl, rfl⟩ : first.1 = row ∧ first.2 = column := by
          unfold Before at hbefore hplace
          omega
        rw [hstate.fresh hbefore]
        exact unstyled_draw (by omega) (by omega) hother hstyle

theorem unstyled_row {backBuffer : Buffer} {first : Nat × Nat}
    (hbackHolds : backBuffer.Holds back) (hwidths : front.width = back.width)
    (hheights : front.height = back.height) (hfirst : IsFirst back front first)
    (hother : start.style ≠ styleItems (-2) (-2) (-1))
    (hstyle : (back.cell first.1 first.2).HasStartStyle) (hrow : row < back.height)
    (hstate : Unstyled wcwidth back front start first row 0 state) :
    ∃ state', renderRow wcwidth backBuffer 0 back.width row state = some state' ∧
      Unstyled wcwidth back front start first (row + 1) 0 state' := by
  obtain ⟨last, hrun, hlast⟩ : ∃ last, (List.range back.width).foldlM
      (fun state (step : Nat) => renderCell wcwidth backBuffer row (0 + step) state) state =
        some last ∧ Unstyled wcwidth back front start first row back.width last := by
    refine foldlM_range_rule (motive := Unstyled wcwidth back front start first row) hstate
      fun column state hcolumn hin => ?_
    rw [zero_add]
    exact unstyled_cell hbackHolds hwidths hheights hfirst hother hstyle hrow hcolumn hin
  have hnext : Before first.1 first.2 (row + 1) 0 ↔ Before first.1 first.2 row back.width := by
    have hinside := hfirst.inside.2
    unfold Before
    omega
  refine ⟨last, ?_, hlast.holds.nextRow hwidths, fun h => hlast.fresh fun h' => h (hnext.mpr h'),
    fun h => hlast.slipped (hnext.mp h)⟩
  unfold renderRow
  rw [Int.sub_zero, Int.toNat_natCast]
  exact hrun

theorem first_is_styled (first : Nat × Nat) {backBuffer frontBuffer : Buffer} {copied : Buffer}
    {out : List Output} (hbackHolds : backBuffer.Holds back)
    (hfrontHolds : frontBuffer.Holds front) (hwidths : front.width = back.width)
    (hheights : front.height = back.height) (hfirst : IsFirst back front first)
    (hother : start.style ≠ styleItems (-2) (-2) (-1))
    (hresult : renderDiff wcwidth backBuffer frontBuffer = some (true, copied, out))
    (haligned : Aligned wcwidth back start out) :
    ¬ (back.cell first.1 first.2).HasStartStyle := by
  intro hstyle
  have henter : Unstyled wcwidth back front start first 0 0 (Render.start frontBuffer) := by
    refine ⟨hfrontHolds.congr rfl rfl fun r c _ _ => if_neg ?_, fun _ => rfl, fun hbefore => ?_⟩
    · unfold Before
      omega
    · unfold Before at hbefore
      omega
  obtain ⟨last, hrun, hlast⟩ : ∃ last, (List.range back.height).foldlM
      (fun state (step : Nat) => renderRow wcwidth backBuffer 0 back.width (0 + step) state)
        (Render.start frontBuffer) = some last ∧
      Unstyled wcwidth back front start first back.height 0 last := by
    refine foldlM_range_rule
      (motive := fun row => Unstyled wcwidth back front start first row 0) henter
      fun row state hrow hin => ?_
    rw [zero_add]
    exact unstyled_row hbackHolds hwidths hheights hfirst hother hstyle hrow hin
  rw [renderDiff_eq hbackHolds hfrontHolds hwidths hheights hrun] at hresult
  cases hresult
  exact hlast.slipped (.inl hfirst.inside.1) haligned.of_append

/-! What a terminal shows fits. -/

theorem fitting_of_shown {terminal : Terminal} {grid : Grid} (hsane : terminal.Sane wcwidth)
    (hshows : terminal.Shows grid) (hrow : row < grid.height) (hcolumn : column < grid.width)
    (hcont : (grid.cell row column).isContinuation = false) :
    (grid.cell row column).Fitting wcwidth := by
  have hspot := hsane row column
  rw [hshows row column hrow hcolumn, lookAt, hcont] at hspot
  unfold Cell.Fitting
  cases hwide : (grid.cell row column).wide with
  | true =>
      rw [hwide] at hspot
      exact hspot
  | false =>
      rw [hwide] at hspot
      exact hspot

/-- The terminal comes to show the back buffer, with everything printed at its cell and in its
style, exactly where the printed cells fit and the first one gets its style. -/
theorem render_diff_shows_iff (wcwidth : Int → Int) (back front : Grid)
    (backBuffer frontBuffer : Buffer) (start : Terminal) (hcolumnWidths : ColumnWidths wcwidth)
    (hbackHolds : backBuffer.Holds back) (hfrontHolds : frontBuffer.Holds front)
    (hwidths : front.width = back.width) (hheights : front.height = back.height)
    (hback : back.WellPaired) (hfront : front.WellPaired) (hcolumns : back.width ≤ start.columns)
    (hsane : start.Sane wcwidth) (hshows : start.Shows front) :
    (∃ copied out, renderDiff wcwidth backBuffer frontBuffer = some (true, copied, out) ∧
      (start.receiveAll wcwidth out).Shows back ∧ Aligned wcwidth back start out) ↔
    Renderable wcwidth start back front := by
  constructor
  · rintro ⟨copied, out, hresult, hshown, haligned⟩
    refine ⟨fun row column hrow hcolumn hdrawn => ?_,
      fun hother row column hrow hcolumn hdrawn hfirst => ?_⟩
    · exact fitting_of_shown (hsane.receiveAll hcolumnWidths) hshown hrow hcolumn hdrawn.2
    · exact first_is_styled (row, column) hbackHolds hfrontHolds hwidths hheights
        ⟨⟨hrow, hcolumn⟩, hdrawn, hfirst⟩ hother hresult haligned
  · intro hcond
    obtain ⟨copied, out, hresult, hshown, haligned, -⟩ := render_diff_shows hcolumnWidths
      hbackHolds hfrontHolds hwidths hheights hback hfront hcolumns hshows hcond
    exact ⟨copied, out, hresult, hshown, haligned⟩

/-! Buffers of one row. -/

def rowGrid (cells : List Cell) : Grid := ⟨cells.length, 1, fun _ column => cells.getD column blank⟩

def rowBuffer (cells : List Cell) : Buffer :=
  ⟨cells.length, 1, ⟨cells.length * cellSize, fun index => cells.getD index blank⟩⟩

theorem rowBuffer_holds {cells : List Cell} (hcells : cells ≠ [])
    (hfits : Fits cells.length 1) : (rowBuffer cells).Holds (rowGrid cells) where
  width := rfl
  height := rfl
  nonempty := ⟨List.length_pos_iff.mpr hcells, Nat.one_pos⟩
  bytes := by rw [rowBuffer, rowGrid, Nat.mul_one]
  fits := hfits
  cell row column hrow _ := by
    obtain rfl : row = 0 := Nat.lt_one_iff.mp hrow
    rw [Nat.zero_mul, Nat.zero_add]
    rfl

theorem rowGrid_wellPaired {cells : List Cell} (hcells : ∀ cell ∈ cells, cell.isNarrow = true) :
    (rowGrid cells).WellPaired := by
  have hnarrow : ∀ row column, ((rowGrid cells).cell row column).wide = false ∧
      ((rowGrid cells).cell row column).isContinuation = false := by
    intro row column
    rw [← Cell.isNarrow_iff]
    change (cells.getD column blank).isNarrow = true
    rw [List.getD_eq_getElem?_getD]
    cases hcell : cells[column]? with
    | none => rfl
    | some cell => exact hcells cell (List.mem_of_getElem? hcell)
  refine ⟨⟨fun row column _ _ hwide => ?_, fun row column _ _ hcont => ?_⟩,
    fun row column _ _ _ => (hnarrow row column).1⟩
  · rw [(hnarrow row column).1] at hwide
    cases hwide
  · rw [(hnarrow row column).2] at hcont
    cases hcont

def showing (cells : List Cell) : Terminal :=
  ⟨80, 0, 0, [], fun row column => lookAt ((rowGrid cells).cell row) column⟩

theorem showing_sane {cells : List Cell} (hcells : ∀ cell ∈ cells, cell.isNarrow = true ∧
    codepointWidth letterWidth (glyph cell.code) = 1) : (showing cells).Sane letterWidth := by
  have hplain : ∀ column, (cells.getD column blank).isNarrow = true ∧
      codepointWidth letterWidth (glyph (cells.getD column blank).code) = 1 := by
    intro column
    rw [List.getD_eq_getElem?_getD]
    cases hcell : cells[column]? with
    | none => exact ⟨rfl, by decide⟩
    | some cell => exact hcells cell (List.mem_of_getElem? hcell)
  intro row column
  obtain ⟨hnarrow, hwidth⟩ := hplain column
  obtain ⟨hwide, hcont⟩ := Cell.isNarrow_iff.mp hnarrow
  change (lookAt (fun column => cells.getD column blank) column).Sane letterWidth
  rw [lookAt, hcont, hwide]
  exact hwidth

theorem letterWidth_widths : ColumnWidths letterWidth where
  question := by decide
  atMost code := by
    unfold letterWidth
    split <;> omega

def wideCells : List Cell := [{ letter 20320 with wide := true }, letter (-1), letter 98]

theorem wideCells_wellPaired : (rowGrid wideCells).WellPaired := by
  refine ⟨⟨fun row column hrow hcolumn hwide => ?_, fun row column hrow hcolumn hcont => ?_⟩,
    fun row column hrow hcolumn hcont => ?_⟩
  all_goals
    change column < 3 at hcolumn
    interval_cases column
  · exact ⟨by decide, rfl⟩
  · cases hwide
  · cases hwide
  · cases hcont
  · exact ⟨0, rfl, rfl⟩
  · cases hcont
  · cases hcont
  · rfl
  · cases hcont

theorem render_diff_shows_iff_wide : ∃ copied out,
    renderDiff letterWidth (rowBuffer wideCells) (rowBuffer [blank, blank, blank]) =
      some (true, copied, out) ∧
    ((showing [blank, blank, blank]).receiveAll letterWidth out).Shows (rowGrid wideCells) ∧
    Aligned letterWidth (rowGrid wideCells) (showing [blank, blank, blank]) out := by
  refine (render_diff_shows_iff letterWidth (rowGrid wideCells) (rowGrid [blank, blank, blank])
    _ _ (showing [blank, blank, blank]) letterWidth_widths (rowBuffer_holds (by decide) (by decide))
    (rowBuffer_holds (by decide) (by decide)) rfl rfl wideCells_wellPaired
    (rowGrid_wellPaired (by decide)) (by decide) (showing_sane (by decide))
    (fun _ _ _ _ => rfl)).mpr
    ⟨fun row column hrow hcolumn hdrawn => ?_, fun _ row column hrow hcolumn hdrawn _ => ?_⟩
  all_goals
    obtain rfl : row = 0 := Nat.lt_one_iff.mp hrow
    change column < 3 at hcolumn
    interval_cases column
  · decide
  · cases hdrawn.2
  · decide
  · decide
  · decide
  · decide

/-- No control code other than 0; a second half has none. -/
def Cell.IsPlain (cell : Cell) : Prop :=
  cell.isContinuation = true ∨ cell.code = 0 ∨
    32 ≤ cell.code ∧ ¬ (127 ≤ cell.code ∧ cell.code < 160)

instance (cell : Cell) : Decidable cell.IsPlain := inferInstanceAs (Decidable (_ ∨ _))

/-- A cell with code 0 takes no column on the screen, and the renderer counts one. -/
theorem empty_cell_slips :
    ¬ (∀ (wcwidth : Int → Int) (back front : Grid) (backBuffer frontBuffer : Buffer)
      (start : Terminal), ColumnWidths wcwidth → backBuffer.Holds back →
        frontBuffer.Holds front → front.width = back.width → front.height = back.height → back.WellPaired →
        front.WellPaired →
        (∀ row column, row < back.height → column < back.width →
          (back.cell row column).IsPlain ∧ (front.cell row column).IsPlain) →
        back.width ≤ start.columns → start.Sane wcwidth → start.Shows front →
        ∃ copied out, renderDiff wcwidth backBuffer frontBuffer = some (true, copied, out) ∧
          (start.receiveAll wcwidth out).Shows back ∧ Aligned wcwidth back start out) := by
  intro hall
  obtain ⟨copied, out, hrun, hshows, -⟩ := hall letterWidth (rowGrid [letter 0, letter 98])
    (rowGrid [letter 120, letter 121]) _ _ (showing [letter 120, letter 121]) letterWidth_widths
    (rowBuffer_holds (by decide) (by decide)) (rowBuffer_holds (by decide) (by decide)) rfl rfl
    (rowGrid_wellPaired (by decide)) (rowGrid_wellPaired (by decide))
    (fun row column hrow hcolumn => by
      obtain rfl : row = 0 := Nat.lt_one_iff.mp hrow
      change column < 2 at hcolumn
      interval_cases column
      · decide
      · decide)
    (by decide) (showing_sane (by decide)) (fun _ _ _ _ => rfl)
  have hout : (renderDiff letterWidth (rowBuffer [letter 0, letter 98])
      (rowBuffer [letter 120, letter 121])).map (·.2.2) =
      some [.move 1 1, .sgrReset, .bytes [0], .bytes [98], .sgrReset, .flush] := by
    decide
  rw [hrun] at hout
  cases hout
  exact absurd (hshows 0 1 (by decide) (by decide)) (by decide)

end Term

end Cnegative
