import Cnegative.Term.Grid

namespace Cnegative

namespace Term

open Library

/-! The two halves of a wide cell: the cell itself, and the placeholder to its right. -/

def Cell.isContinuation (cell : Cell) : Bool := cell.code == -1

def Cell.isNarrow (cell : Cell) : Bool := !cell.wide && !cell.isContinuation

structure Grid.Paired (grid : Grid) : Prop where
  right : ∀ row column, row < grid.height → column < grid.width →
    (grid.cell row column).wide = true →
      column + 1 < grid.width ∧ (grid.cell row (column + 1)).isContinuation = true
  left : ∀ row column, row < grid.height → column < grid.width →
    (grid.cell row column).isContinuation = true →
      ∃ before, column = before + 1 ∧ (grid.cell row before).wide = true

theorem Cell.isNarrow_iff {cell : Cell} :
    cell.isNarrow = true ↔ cell.wide = false ∧ cell.isContinuation = false := by
  simp [Cell.isNarrow]

theorem Cell.isContinuation_of_code {cell : Cell} (hcode : 0 ≤ cell.code) :
    cell.isContinuation = false := by
  rw [Cell.isContinuation, beq_eq_false_iff_ne]
  omega

namespace Grid

variable {grid : Grid} {row column : Nat} {value fill : Cell}

theorem put_self : (grid.put row column value).cell row column = value :=
  if_pos ⟨rfl, rfl⟩

theorem put_ne {r c : Nat} (hne : ¬ (r = row ∧ c = column)) :
    (grid.put row column value).cell r c = grid.cell r c :=
  if_neg hne

theorem clear_paired (hfill : fill.isNarrow = true) : (grid.clear fill).Paired := by
  obtain ⟨hwide, hcont⟩ := Cell.isNarrow_iff.mp hfill
  constructor
  · intro r c _ _ hcell
    rw [show (grid.clear fill).cell r c = fill from rfl, hwide] at hcell
    cases hcell
  · intro r c _ _ hcell
    rw [show (grid.clear fill).cell r c = fill from rfl, hcont] at hcell
    cases hcell

theorem put_narrow_paired_iff (hpaired : grid.Paired) (hrow : row < grid.height)
    (hcolumn : column < grid.width) (hvalue : value.isNarrow = true) :
    (grid.put row column value).Paired ↔ (grid.cell row column).isNarrow = true := by
  obtain ⟨hwide, hcont⟩ := Cell.isNarrow_iff.mp hvalue
  rw [Cell.isNarrow_iff]
  constructor
  · intro hafter
    constructor
    -- the second half would stand alone
    · by_contra hfirst
      rw [Bool.not_eq_false] at hfirst
      obtain ⟨hnext, hsecond⟩ := hpaired.right row column hrow hcolumn hfirst
      obtain ⟨before, hbefore, hpair⟩ := hafter.left row (column + 1) hrow hnext
        (by rw [put_ne (by omega)]; exact hsecond)
      obtain rfl : column = before := by omega
      rw [put_self, hwide] at hpair
      cases hpair
    -- the first half would stand alone
    · by_contra hsecond
      rw [Bool.not_eq_false] at hsecond
      obtain ⟨before, rfl, hfirst⟩ := hpaired.left row column hrow hcolumn hsecond
      obtain ⟨-, hpair⟩ := hafter.right row before hrow (by change before < grid.width; omega)
        (by rw [put_ne (by omega)]; exact hfirst)
      rw [put_self, hcont] at hpair
      cases hpair
  · rintro ⟨hnotWide, hnotCont⟩
    constructor
    · intro r c hr hc hcell
      by_cases hsame : r = row ∧ c = column
      · obtain ⟨rfl, rfl⟩ := hsame
        rw [put_self, hwide] at hcell
        cases hcell
      · rw [put_ne hsame] at hcell
        obtain ⟨hnext, hsecond⟩ := hpaired.right r c hr hc hcell
        refine ⟨hnext, ?_⟩
        rw [put_ne]
        · exact hsecond
        · rintro ⟨rfl, rfl⟩
          rw [hnotCont] at hsecond
          cases hsecond
    · intro r c hr hc hcell
      by_cases hsame : r = row ∧ c = column
      · obtain ⟨rfl, rfl⟩ := hsame
        rw [put_self, hcont] at hcell
        cases hcell
      · rw [put_ne hsame] at hcell
        obtain ⟨before, rfl, hfirst⟩ := hpaired.left r c hr hc hcell
        refine ⟨before, rfl, ?_⟩
        rw [put_ne]
        · exact hfirst
        · rintro ⟨rfl, rfl⟩
          rw [hnotWide] at hfirst
          cases hfirst

def putWide (grid : Grid) (row column : Nat) (value : Cell) : Grid :=
  (grid.put row column value).put row (column + 1) value.continuation

theorem putWide_first : (grid.putWide row column value).cell row column = value := by
  rw [putWide, put_ne (by omega), put_self]

theorem putWide_second :
    (grid.putWide row column value).cell row (column + 1) = value.continuation :=
  put_self

theorem putWide_ne {r c : Nat} (hne : ¬ (r = row ∧ (c = column ∨ c = column + 1))) :
    (grid.putWide row column value).cell r c = grid.cell r c := by
  rw [putWide, put_ne (by omega), put_ne (by omega)]

theorem putWide_paired_iff (hpaired : grid.Paired) (hrow : row < grid.height)
    (hnext : column + 1 < grid.width) (hwide : value.wide = true)
    (hcont : value.isContinuation = false) :
    (grid.putWide row column value).Paired ↔
      (grid.cell row column).isContinuation = false ∧
        (grid.cell row (column + 1)).wide = false := by
  constructor
  · intro hafter
    constructor
    · by_contra hsecond
      rw [Bool.not_eq_false] at hsecond
      obtain ⟨before, rfl, hfirst⟩ := hpaired.left row column hrow (by omega) hsecond
      obtain ⟨-, hpair⟩ := hafter.right row before hrow (by change before < grid.width; omega)
        (by rw [putWide_ne (by omega)]; exact hfirst)
      rw [putWide_first, hcont] at hpair
      cases hpair
    · by_contra hfirst
      rw [Bool.not_eq_false] at hfirst
      obtain ⟨hlast, hsecond⟩ := hpaired.right row (column + 1) hrow hnext hfirst
      obtain ⟨before, hbefore, hpair⟩ := hafter.left row (column + 1 + 1) hrow hlast
        (by rw [putWide_ne (by omega)]; exact hsecond)
      obtain rfl : column + 1 = before := by omega
      rw [putWide_second] at hpair
      cases hpair
  · rintro ⟨hnotCont, hnotWide⟩
    constructor
    · intro r c hr hc hcell
      by_cases hfirst : r = row ∧ c = column
      · obtain ⟨rfl, rfl⟩ := hfirst
        exact ⟨hnext, by rw [putWide_second]; rfl⟩
      by_cases hsecond : r = row ∧ c = column + 1
      · obtain ⟨rfl, rfl⟩ := hsecond
        rw [putWide_second] at hcell
        cases hcell
      · rw [putWide_ne (by omega)] at hcell
        obtain ⟨hlast, hpair⟩ := hpaired.right r c hr hc hcell
        refine ⟨hlast, ?_⟩
        rw [putWide_ne]
        · exact hpair
        · rintro ⟨rfl, hplace | hplace⟩
          · rw [hplace, hnotCont] at hpair
            cases hpair
          · exact hfirst ⟨rfl, by omega⟩
    · intro r c hr hc hcell
      by_cases hfirst : r = row ∧ c = column
      · obtain ⟨rfl, rfl⟩ := hfirst
        rw [putWide_first, hcont] at hcell
        cases hcell
      by_cases hsecond : r = row ∧ c = column + 1
      · obtain ⟨rfl, rfl⟩ := hsecond
        exact ⟨column, rfl, by rw [putWide_first]; exact hwide⟩
      · rw [putWide_ne (by omega)] at hcell
        obtain ⟨before, rfl, hpair⟩ := hpaired.left r c hr hc hcell
        refine ⟨before, rfl, ?_⟩
        rw [putWide_ne]
        · exact hpair
        · rintro ⟨rfl, hplace | hplace⟩
          · exact hsecond ⟨rfl, by omega⟩
          · rw [hplace, hnotWide] at hpair
            cases hpair

theorem resize_paired_iff (hpaired : grid.Paired) {width height : Nat} (hwidth : 0 < width)
    (hfill : fill.isNarrow = true) :
    (grid.resize width height fill).Paired ↔
      (width < grid.width → ∀ row < min grid.height height,
        (grid.cell row (width - 1)).wide = false) := by
  obtain ⟨hwide, hcont⟩ := Cell.isNarrow_iff.mp hfill
  have hinside : ∀ {r c}, r < grid.height → c < grid.width →
      (grid.resize width height fill).cell r c = grid.cell r c := fun hr hc => if_pos ⟨hr, hc⟩
  have houtside : ∀ {r c}, ¬ (r < grid.height ∧ c < grid.width) →
      (grid.resize width height fill).cell r c = fill := fun hout => if_neg hout
  constructor
  · intro hafter hcut r hr
    obtain ⟨hold, hnew⟩ := Nat.lt_min.mp hr
    by_contra hfirst
    rw [Bool.not_eq_false] at hfirst
    obtain ⟨hnext, -⟩ := hafter.right r (width - 1) hnew (by change width - 1 < width; omega)
      (by rw [hinside hold (by omega)]; exact hfirst)
    change width - 1 + 1 < width at hnext
    omega
  · intro hcut
    constructor
    · intro r c hr hc hcell
      change r < height at hr
      change c < width at hc
      change c + 1 < width ∧ _
      by_cases hold : r < grid.height ∧ c < grid.width
      · rw [hinside hold.1 hold.2] at hcell
        obtain ⟨hnext, hsecond⟩ := hpaired.right r c hold.1 hold.2 hcell
        refine ⟨?_, by rw [hinside hold.1 hnext]; exact hsecond⟩
        by_contra hlast
        have hlastCell := hcut (by omega) r (by omega)
        rw [show width - 1 = c by omega, hcell] at hlastCell
        cases hlastCell
      · rw [houtside hold, hwide] at hcell
        cases hcell
    · intro r c hr hc hcell
      by_cases hold : r < grid.height ∧ c < grid.width
      · rw [hinside hold.1 hold.2] at hcell
        obtain ⟨before, rfl, hfirst⟩ := hpaired.left r c hold.1 hold.2 hcell
        exact ⟨before, rfl, by rw [hinside hold.1 (by omega)]; exact hfirst⟩
      · rw [houtside hold, hcont] at hcell
        cases hcell

/-- No half of a pair is written over without the other, and none is cut off. -/
def steady (wcwidth : Int → Int) (grid : Grid) : Op → Bool
  | .set row column value =>
      let old := grid.cell row.toNat column.toNat
      let next := grid.cell row.toNat (column.toNat + 1)
      if grid.Contains row column then
        if (value.normalize wcwidth).wide then
          !decide (grid.Contains row (column + 1)) || (!old.isContinuation && !next.wide)
        else old.isNarrow
      else true
  | .resize width height _ cells =>
      if 0 < width ∧ 0 < height ∧ cells.isSome = true then
        decide (grid.width ≤ width) ||
          (List.range (min grid.height height.toNat)).all fun row =>
            !(grid.cell row (width.toNat - 1)).wide
      else true
  | _ => true

end Grid

/-- Cells of a program: characters, and fill cells of their own. -/
def Op.plain : Op → Bool
  | .clear fill => fill.isNarrow
  | .resize _ _ fill _ => fill.isNarrow
  | .set _ _ value => decide (0 ≤ value.code)
  | .get _ _ => true

theorem set_paired_iff {grid : Grid} (hpaired : grid.Paired) (wcwidth : Int → Int)
    (row column : Int) {value : Cell} (hcode : 0 ≤ value.code) :
    (grid.set row column (value.normalize wcwidth)).2.Paired ↔
      grid.steady wcwidth (.set row column value) = true := by
  have hcont : (value.normalize wcwidth).isContinuation = false :=
    Cell.isContinuation_of_code hcode
  unfold Grid.set Grid.steady
  dsimp only
  by_cases hcontains : grid.Contains row column
  case neg =>
    rw [if_neg hcontains, if_neg hcontains]
    exact iff_of_true hpaired rfl
  rw [if_pos hcontains, if_pos hcontains]
  obtain ⟨hrow, hcolumn, hrowLt, hcolumnLt⟩ := hcontains
  by_cases hwide : (value.normalize wcwidth).wide = true
  · rw [if_pos hwide, if_pos hwide]
    by_cases hnext : grid.Contains row (column + 1)
    · rw [if_pos hnext]
      obtain ⟨-, -, -, hnextLt⟩ := hnext
      change (grid.putWide row.toNat column.toNat (value.normalize wcwidth)).Paired ↔ _
      refine (Grid.putWide_paired_iff hpaired (by omega) (by omega) hwide hcont).trans ?_
      have hcontains : grid.Contains row (column + 1) := ⟨hrow, by omega, hrowLt, hnextLt⟩
      simp [hcontains]
    · rw [if_neg hnext]
      simp [hpaired, hnext]
  · rw [if_neg hwide, if_neg hwide]
    rw [Bool.not_eq_true] at hwide
    exact Grid.put_narrow_paired_iff hpaired (by omega) (by omega)
      (Cell.isNarrow_iff.mpr ⟨hwide, hcont⟩)

theorem step_paired_iff {grid : Grid} (hpaired : grid.Paired) (wcwidth : Int → Int) {op : Op}
    (hplain : op.plain = true) :
    (grid.step wcwidth op).2.Paired ↔ grid.steady wcwidth op = true := by
  cases op with
  | clear fill => exact iff_of_true (Grid.clear_paired hplain) rfl
  | get row column => exact iff_of_true hpaired rfl
  | set row column value =>
      exact set_paired_iff hpaired wcwidth row column (of_decide_eq_true hplain)
  | resize width height fill cells =>
      unfold Grid.step Grid.steady
      dsimp only
      by_cases hdims : 0 < width ∧ 0 < height
      case neg =>
        rw [if_neg hdims, if_neg (fun h => hdims ⟨h.1, h.2.1⟩)]
        exact iff_of_true hpaired rfl
      rw [if_pos hdims]
      by_cases hsize : width = grid.width ∧ height = grid.height
      · rw [if_pos hsize, hsize.1]
        simp [hpaired]
      rw [if_neg hsize]
      cases cells with
      | none =>
          have hasksNot : ¬ (0 < width ∧ 0 < height ∧ (none : Option (Nat → Cell)).isSome = true) :=
            fun hasks => Bool.noConfusion hasks.2.2
          rw [if_neg hasksNot]
          exact iff_of_true hpaired rfl
      | some slot =>
          have hasks : 0 < width ∧ 0 < height ∧ (some slot).isSome = true :=
            ⟨hdims.1, hdims.2, rfl⟩
          rw [if_pos hasks.2.2, if_pos hasks]
          refine (Grid.resize_paired_iff hpaired (by omega) hplain).trans ?_
          rw [Bool.or_eq_true, decide_eq_true_eq, List.all_eq_true]
          simp only [List.mem_range, Bool.not_eq_eq_eq_not, Bool.not_true]
          constructor
          · intro hcut
            by_cases hwider : (grid.width : Int) ≤ width
            · exact Or.inl hwider
            · exact Or.inr (hcut (by omega))
          · rintro (hwider | hcut) hnarrower
            · omega
            · exact hcut

def Grid.steadyRun (wcwidth : Int → Int) (grid : Grid) : List Op → Bool
  | [] => true
  | op :: ops => grid.steady wcwidth op && (grid.step wcwidth op).2.steadyRun wcwidth ops

theorem Grid.ops_paired {ops : List Op} {grid : Grid} (hpaired : grid.Paired)
    (wcwidth : Int → Int) (hplain : ∀ op ∈ ops, op.plain = true)
    (hsteady : grid.steadyRun wcwidth ops = true) : (grid.run wcwidth ops).2.Paired := by
  induction ops generalizing grid with
  | nil => exact hpaired
  | cons op ops ih =>
      rw [Grid.steadyRun, Bool.and_eq_true] at hsteady
      have hnext := (step_paired_iff hpaired wcwidth (hplain op (by simp))).mpr hsteady.1
      exact ih hnext (fun other hother => hplain other (by simp [hother])) hsteady.2

structure Buffer.Paired (buffer : Buffer) : Prop where
  right : ∀ row column cell, bufferGet buffer row column = some (some cell) → cell.wide = true →
    ∃ next, bufferGet buffer row (column + 1) = some (some next) ∧ next.isContinuation = true
  left : ∀ row column cell, bufferGet buffer row column = some (some cell) →
    cell.isContinuation = true →
    ∃ first, bufferGet buffer row (column - 1) = some (some first) ∧ first.wide = true

theorem Grid.get_eq_some {grid : Grid} {row column : Int} {cell : Cell} :
    grid.get row column = some cell ↔
      grid.Contains row column ∧ grid.cell row.toNat column.toNat = cell := by
  unfold Grid.get
  by_cases hcontains : grid.Contains row column
  · rw [if_pos hcontains]
    simp [hcontains]
  · rw [if_neg hcontains]
    simp [hcontains]

theorem Buffer.Holds.paired_iff {buffer : Buffer} {grid : Grid} (hholds : buffer.Holds grid) :
    buffer.Paired ↔ grid.Paired := by
  constructor
  · intro hpaired
    constructor
    · intro r c hr hc hwide
      have hcell : grid.get r c = some (grid.cell r c) :=
        Grid.get_eq_some.mpr ⟨⟨by omega, by omega, by omega, by omega⟩, rfl⟩
      obtain ⟨next, hnext, hcont⟩ :=
        hpaired.right r c _ ((hholds.get r c).trans (congrArg some hcell)) hwide
      rw [hholds.get, Option.some.injEq] at hnext
      obtain ⟨⟨-, -, -, hbelow⟩, rfl⟩ := Grid.get_eq_some.mp hnext
      exact ⟨by omega, hcont⟩
    · intro r c hr hc hcont
      have hcell : grid.get r c = some (grid.cell r c) :=
        Grid.get_eq_some.mpr ⟨⟨by omega, by omega, by omega, by omega⟩, rfl⟩
      obtain ⟨first, hfirst, hwide⟩ :=
        hpaired.left r c _ ((hholds.get r c).trans (congrArg some hcell)) hcont
      rw [hholds.get, Option.some.injEq] at hfirst
      obtain ⟨⟨-, habove, -, -⟩, rfl⟩ := Grid.get_eq_some.mp hfirst
      refine ⟨c - 1, by omega, ?_⟩
      rwa [show ((c : Int) - 1).toNat = c - 1 by omega] at hwide
  · intro hpaired
    constructor
    · intro row column cell hcell hwide
      rw [hholds.get, Option.some.injEq] at hcell
      obtain ⟨⟨hrow, hcolumn, hrowLt, hcolumnLt⟩, rfl⟩ := Grid.get_eq_some.mp hcell
      obtain ⟨hnext, hcont⟩ := hpaired.right row.toNat column.toNat (by omega) (by omega) hwide
      refine ⟨_, (hholds.get _ _).trans (congrArg some (Grid.get_eq_some.mpr
        ⟨⟨hrow, by omega, hrowLt, by omega⟩, rfl⟩)), ?_⟩
      rwa [show (column + 1).toNat = column.toNat + 1 by omega]
    · intro row column cell hcell hcont
      rw [hholds.get, Option.some.injEq] at hcell
      obtain ⟨⟨hrow, hcolumn, hrowLt, hcolumnLt⟩, rfl⟩ := Grid.get_eq_some.mp hcell
      obtain ⟨before, hbefore, hwide⟩ :=
        hpaired.left row.toNat column.toNat (by omega) (by omega) hcont
      refine ⟨_, (hholds.get _ _).trans (congrArg some (Grid.get_eq_some.mpr
        ⟨⟨hrow, by omega, hrowLt, by omega⟩, rfl⟩)), ?_⟩
      rwa [show (column - 1).toNat = before by omega]

/-- The grid of a new buffer that was cleared at once; what the allocator left is gone. -/
def Grid.cleared (width height : Int) (fill : Cell) : Grid :=
  ⟨width.toNat, height.toNat, fun _ _ => fill⟩

theorem run_paired (wcwidth : Int → Int) {width height : Int} {record : Bool}
    {slot : Nat → Cell} {buffer : Buffer} {fill : Cell} {ops : List Op}
    (hnew : bufferNew width height record (some slot) = some buffer)
    (hfits : Fits width height ∧ ∀ op ∈ ops, op.Fits) (hfill : fill.isNarrow = true)
    (hplain : ∀ op ∈ ops, op.plain = true)
    (hsteady : (Grid.cleared width height fill).steadyRun wcwidth ops = true) :
    ∃ answers last, buffer.run wcwidth (.clear fill :: ops) = some (answers, last) ∧
      last.Paired := by
  have hclear : ∀ op ∈ Op.clear fill :: ops, op.Fits := by
    intro op hop
    rcases List.mem_cons.mp hop with rfl | hop
    · trivial
    · exact hfits.2 op hop
  obtain ⟨last, hrun, hlast⟩ := run_refines (bufferNew_holds hnew hfits.1) wcwidth hclear
  refine ⟨_, last, hrun, hlast.paired_iff.mpr ?_⟩
  exact Grid.ops_paired (Grid.clear_paired hfill) wcwidth hplain hsteady

def letter (code : Int) : Cell := { blank with code := code }

/-- `wcwidth` of the letters below. -/
def letterWidth (code : Int) : Int := if code = 20320 then 2 else 1

/-- Two wide cells side by side, the first written again, and a row more. -/
def wideRow : List Op :=
  [.set 0 0 (letter 20320), .set 0 2 (letter 20320), .set 0 0 (letter 20320),
    .set 0 3 { letter 65 with wide := true }, .set 1 9 (letter 65),
    .resize 4 2 blank (some fun _ => blank), .set 1 3 (letter 65), .get 1 3]

theorem run_paired_wideRow : ∃ buffer, bufferNew 4 1 true (some fun _ => blank) = some buffer ∧
    ∃ answers last, buffer.run letterWidth (.clear blank :: wideRow) = some (answers, last) ∧
      last.Paired :=
  ⟨_, rfl, @run_paired letterWidth 4 1 true (fun _ => blank) _ blank wideRow rfl
    ⟨by decide, by
      intro op hop
      simp only [wideRow, List.mem_cons, List.not_mem_nil, or_false] at hop
      rcases hop with rfl | rfl | rfl | rfl | rfl | rfl | rfl | rfl <;>
        first | trivial | exact fun _ _ => by decide⟩
    (by decide) (by decide) (by decide)⟩

/-- A letter over the second half of a wide cell leaves the first half alone. -/
theorem letter_over_continuation :
    ∃ buffer answers last, bufferNew 4 1 true (some fun _ => blank) = some buffer ∧
      buffer.run letterWidth [.clear blank, .set 0 0 (letter 20320), .set 0 1 (letter 65)] =
        some (answers, last) ∧ ¬ last.Paired := by
  refine ⟨_, _, _, rfl, rfl, fun hpaired => ?_⟩
  obtain ⟨next, hnext, hcont⟩ := hpaired.right 0 0 { letter 20320 with wide := true }
    (by decide) rfl
  have hletter : next = letter 65 := by
    refine Option.some.inj (Option.some.inj (hnext.symm.trans ?_))
    decide
  rw [hletter] at hcont
  cases hcont

end Term

end Cnegative
