import Cnegative.Term.Sweep

namespace Cnegative

namespace Term

open Library

/-! The bytes of a code, and back. -/

theorem low_bits (code : Nat) : code &&& 63 = code % 64 := Nat.and_two_pow_sub_one_eq_mod code 6

theorem tail_bits : ∀ bits < 64, (bits ||| 128) &&& 63 = bits := by decide

theorem two_head : ∀ bits < 32, (bits ||| 192) &&& 31 = bits := by decide

theorem three_head : ∀ bits < 16, (bits ||| 224) &&& 15 = bits := by decide

theorem four_head : ∀ bits < 8, (bits ||| 240) &&& 7 = bits := by decide

theorem decode_writeCode (code : Int) : decode (writeCode code) = glyph code := by
  unfold writeCode glyph
  by_cases hnegative : code < 0
  · rw [if_pos hnegative, if_neg (by omega)]
    rfl
  rw [if_neg hnegative]
  obtain ⟨code, rfl⟩ := Int.eq_ofNat_of_zero_le (not_lt.mp hnegative)
  simp only [Int.toNat_natCast, Nat.shiftRight_eq_div_pow, low_bits]
  have htail : ∀ value : Nat, (value % 64 ||| 128) &&& 63 = value % 64 := fun value =>
    tail_bits _ (Nat.mod_lt _ (by decide))
  by_cases hone : code ≤ 127
  · rw [if_pos hone, if_pos (by omega)]
    rfl
  rw [if_neg hone]
  by_cases htwo : code ≤ 2047
  · rw [if_pos htwo, if_pos (by omega), decode, two_head (code / 2 ^ 6) (by omega),
      htail]
    omega
  rw [if_neg htwo]
  by_cases hthree : code ≤ 65535
  · rw [if_pos hthree, if_pos (by omega)]
    simp only [decode, three_head (code / 2 ^ 12) (by omega), htail]
    omega
  rw [if_neg hthree]
  by_cases hfour : code ≤ 1114111
  · rw [if_pos hfour, if_pos (by omega)]
    simp only [decode, four_head (code / 2 ^ 18) (by omega), htail]
    omega
  rw [if_neg hfour, if_neg (by omega)]
  rfl

/-! What the renderer is asked to do. -/

/-- Paired, and no second half is itself a cell of two columns. -/
structure Grid.WellPaired (grid : Grid) : Prop extends grid.Paired where
  apart : ∀ row column, row < grid.height → column < grid.width →
    (grid.cell row column).isContinuation = true → (grid.cell row column).wide = false

theorem Grid.WellPaired.row {grid : Grid} (hpaired : grid.WellPaired) {row : Nat}
    (hrow : row < grid.height) : RowPaired (grid.cell row) grid.width where
  right column hcolumn := hpaired.right row column hrow hcolumn
  left column hcolumn := hpaired.left row column hrow hcolumn
  apart column hcolumn := hpaired.apart row column hrow hcolumn

def Terminal.Shows (terminal : Terminal) (grid : Grid) : Prop :=
  ∀ row column, row < grid.height → column < grid.width →
    terminal.spot row column = lookAt (grid.cell row) column

def Drawn (back front : Grid) (row column : Nat) : Prop :=
  back.cell row column ≠ front.cell row column ∧
    (back.cell row column).isContinuation = false

/-- What is known of `wcwidth`: a question mark takes one column, and no code more than two. -/
structure ColumnWidths (wcwidth : Int → Int) : Prop where
  question : wcwidth 63 = 1
  atMost : ∀ code, wcwidth code ≤ 2

def Cell.Fitting (wcwidth : Int → Int) (cell : Cell) : Prop :=
  codepointWidth wcwidth (glyph cell.code) = (if cell.wide then 2 else 1)

instance (wcwidth : Int → Int) (cell : Cell) : Decidable (cell.Fitting wcwidth) :=
  inferInstanceAs (Decidable (_ = _))

/-- The renderer counts the columns of a glyph that has some. -/
theorem advance_of_fitting {wcwidth : Int → Int} (hwidths : ColumnWidths wcwidth) {cell : Cell}
    (hfitting : cell.Fitting wcwidth) :
    cellAdvance wcwidth cell.code = (if cell.wide then 2 else 1) := by
  unfold Cell.Fitting glyph at hfitting
  split at hfitting
  case isTrue =>
    rw [cellAdvance, hfitting]
    split <;> split <;> first | rfl | omega
  case isFalse hout =>
    have hquestion : codepointWidth wcwidth 63 = 1 := by
      simp [codepointWidth, hwidths.question]
    have hwidth : codepointWidth wcwidth cell.code ≤ 1 := by
      unfold codepointWidth
      by_cases hnegative : cell.code < 0
      · rw [if_pos (by omega)]
        omega
      · have hknown : isKnownWide cell.code = false := by
          simp [isKnownWide]
          omega
        rw [if_neg (by omega), if_neg (by omega), hknown]
        exact le_refl _
    rw [← hfitting, hquestion, cellAdvance]
    split
    · omega
    · rfl

def Cell.HasStartStyle (cell : Cell) : Prop := cell.fg = -2 ∧ cell.bg = -2 ∧ cell.attrs = -1

instance (cell : Cell) : Decidable cell.HasStartStyle := inferInstanceAs (Decidable (_ ∧ _))

def Before (r c row column : Nat) : Prop := r < row ∨ r = row ∧ c < column

instance (r c row column : Nat) : Decidable (Before r c row column) :=
  inferInstanceAs (Decidable (_ ∨ _))

/-- The glyph of each cell that is printed takes the columns of the cell, and the first one has not
the style that the renderer starts with, unless the terminal has it already. -/
structure Renderable (wcwidth : Int → Int) (start : Terminal) (back front : Grid) : Prop where
  fitting : ∀ row column, row < back.height → column < back.width →
    Drawn back front row column → (back.cell row column).Fitting wcwidth
  styled : start.style ≠ styleItems (-2) (-2) (-1) →
    ∀ row column, row < back.height → column < back.width → Drawn back front row column →
    (∀ r c, Before r c row column → c < back.width → ¬ Drawn back front r c) →
      ¬ (back.cell row column).HasStartStyle

/-- The cell of the back buffer under the cursor is the one that is printed, in its style. -/
def Terminal.AtCell (terminal : Terminal) (back : Grid) (chars : List Nat) : Prop :=
  terminal.row < back.height ∧ terminal.column < back.width ∧
    chars = writeCode (back.cell terminal.row terminal.column).code ∧
      terminal.style = (back.cell terminal.row terminal.column).style

def Aligned (wcwidth : Int → Int) (back : Grid) : Terminal → List Output → Prop
  | _, [] => True
  | terminal, output :: rest =>
      (∀ chars, output = .bytes chars → terminal.AtCell back chars) ∧
        Aligned wcwidth back (terminal.receive wcwidth output) rest

section Receiving

variable {wcwidth : Int → Int} {back : Grid} {terminal : Terminal} {out : List Output}

theorem receiveAll_append (front : List Output) :
    terminal.receiveAll wcwidth (front ++ out) =
      (terminal.receiveAll wcwidth front).receiveAll wcwidth out :=
  List.foldl_append

theorem Aligned.append {front : List Output} (hfront : Aligned wcwidth back terminal front)
    (hout : Aligned wcwidth back (terminal.receiveAll wcwidth front) out) :
    Aligned wcwidth back terminal (front ++ out) := by
  induction front generalizing terminal with
  | nil => exact hout
  | cons output rest ih => exact ⟨hfront.1, ih hfront.2 hout⟩

theorem Aligned.quiet (hquiet : ∀ output ∈ out, ∀ chars, output ≠ .bytes chars) :
    Aligned wcwidth back terminal out := by
  induction out generalizing terminal with
  | nil => trivial
  | cons output rest ih =>
      refine ⟨fun chars heq => absurd heq (hquiet output (List.mem_cons_self ..) chars), ih ?_⟩
      exact fun other hother => hquiet other (List.mem_cons_of_mem _ hother)

theorem receiveAll_items (terminal : Terminal) (items : List Sgr) :
    terminal.receiveAll wcwidth (items.map .sgr) =
      { terminal with style := terminal.style ++ items } := by
  induction items generalizing terminal with
  | nil => simp [Terminal.receiveAll]
  | cons item rest ih =>
      rw [List.map_cons]
      exact (ih { terminal with style := terminal.style ++ [item] }).trans (by simp)

theorem receiveAll_setStyle (fg bg attrs : Int) :
    terminal.receiveAll wcwidth (setStyle fg bg attrs) =
      { terminal with style := styleItems fg bg attrs } :=
  receiveAll_items { terminal with style := [] } _

theorem setStyle_quiet (fg bg attrs : Int) :
    ∀ output ∈ setStyle fg bg attrs, ∀ chars, output ≠ .bytes chars := by
  intro output hmem chars heq
  subst heq
  simp [setStyle] at hmem

theorem print_fits {code : Int} {wide : Bool}
    (hwidth : codepointWidth wcwidth code = (if wide then 2 else 1))
    (hfits : terminal.column + (if wide then 2 else 1) ≤ terminal.columns) :
    terminal.print wcwidth code =
      { terminal with
        column := terminal.column + (if wide then 2 else 1)
        spot := fun r =>
          if r = terminal.row then
            (if wide then putDouble else putNarrow) (terminal.spot r) terminal.column code
              terminal.style
          else terminal.spot r } := by
  unfold Terminal.print Terminal.wrapped
  cases wide with
  | true =>
      simp only [if_true] at hwidth hfits ⊢
      simp [hwidth, Nat.not_lt.mpr hfits]
  | false =>
      simp only [Bool.false_eq_true, if_false] at hwidth hfits ⊢
      simp [hwidth, Nat.not_lt.mpr hfits]

/-- A printed glyph stands in as many spots as it takes columns. -/
def Spot.Sane (wcwidth : Int → Int) : Spot → Prop
  | .blank => True
  | .whole code _ => codepointWidth wcwidth code = 1
  | .left code _ | .right code _ => codepointWidth wcwidth code = 2

def Terminal.Sane (wcwidth : Int → Int) (terminal : Terminal) : Prop :=
  ∀ row column, (terminal.spot row column).Sane wcwidth

theorem sane_unpair {spots : Nat → Spot} (hsane : ∀ c, (spots c).Sane wcwidth) (column c : Nat) :
    (unpair spots column c).Sane wcwidth := by
  unfold unpair
  split
  · trivial
  · split
    · trivial
    · exact hsane c

theorem codepointWidth_le (hwidths : ColumnWidths wcwidth) (code : Int) :
    codepointWidth wcwidth code ≤ 2 := by
  have hle := hwidths.atMost code
  unfold codepointWidth
  split
  · omega
  · split
    · exact hle
    · split <;> omega

theorem Terminal.Sane.print (hwidths : ColumnWidths wcwidth) (hsane : terminal.Sane wcwidth)
    (code : Int) : (terminal.print wcwidth code).Sane wcwidth := by
  have hle := codepointWidth_le hwidths code
  unfold Terminal.print
  dsimp only
  split
  case isTrue => exact hsane
  case isFalse hsome =>
    have hplace : (terminal.wrapped (codepointWidth wcwidth code).toNat).spot = terminal.spot := by
      unfold Terminal.wrapped
      split <;> rfl
    intro r c
    dsimp only
    rw [hplace]
    split
    case isFalse => exact hsane r c
    case isTrue =>
      split
      case isTrue hone =>
        unfold putNarrow
        split
        · change codepointWidth wcwidth code = 1
          omega
        · exact sane_unpair (hsane r) _ c
      case isFalse hone =>
        unfold putDouble
        split
        · change codepointWidth wcwidth code = 2
          omega
        · split
          · change codepointWidth wcwidth code = 2
            omega
          · exact sane_unpair (sane_unpair (hsane r) _) _ c

theorem Terminal.Sane.receiveAll (hwidths : ColumnWidths wcwidth)
    (hsane : terminal.Sane wcwidth) : (terminal.receiveAll wcwidth out).Sane wcwidth := by
  induction out generalizing terminal with
  | nil => exact hsane
  | cons output rest ih =>
      refine ih ?_
      cases output with
      | bytes chars => exact hsane.print hwidths (decode chars)
      | _ => exact hsane

theorem Aligned.of_append {front : List Output}
    (haligned : Aligned wcwidth back terminal (front ++ out)) :
    Aligned wcwidth back terminal front := by
  induction front generalizing terminal with
  | nil => trivial
  | cons output rest ih => exact ⟨haligned.1, ih haligned.2⟩

end Receiving

end Term

end Cnegative
