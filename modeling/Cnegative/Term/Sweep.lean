import Cnegative.Term.Render
import Cnegative.Term.Pairing

namespace Cnegative

namespace Term

open Library

/-! One row of the screen while the renderer goes through it. -/

def glyph (code : Int) : Int :=
  if 0 ≤ code ∧ code ≤ 1114111 then code else 63

def Cell.style (cell : Cell) : List Sgr := styleItems cell.fg cell.bg cell.attrs

/-- What a row of cells looks like on the screen. -/
def lookAt (cells : Nat → Cell) (column : Nat) : Spot :=
  if (cells column).isContinuation then
    .right (glyph (cells (column - 1)).code) (cells (column - 1)).style
  else if (cells column).wide then .left (glyph (cells column).code) (cells column).style
  else .whole (glyph (cells column).code) (cells column).style

structure RowPaired (cells : Nat → Cell) (width : Nat) : Prop where
  right : ∀ column, column < width → (cells column).wide = true →
    column + 1 < width ∧ (cells (column + 1)).isContinuation = true
  left : ∀ column, column < width → (cells column).isContinuation = true →
    ∃ before, column = before + 1 ∧ (cells before).wide = true
  apart : ∀ column, column < width → (cells column).isContinuation = true →
    (cells column).wide = false

namespace RowPaired

variable {cells : Nat → Cell} {width column : Nat}

/-- A second half stands behind a wide cell, and nowhere else. -/
theorem next (hpaired : RowPaired cells width) (hcolumn : column < width)
    (hnext : column + 1 < width) :
    (cells (column + 1)).isContinuation = (cells column).wide := by
  rw [Bool.eq_iff_iff]
  constructor
  · intro hcont
    obtain ⟨before, hbefore, hwide⟩ := hpaired.left _ hnext hcont
    obtain rfl : column = before := by omega
    exact hwide
  · exact fun hwide => (hpaired.right column hcolumn hwide).2

theorem own_of_wide (hpaired : RowPaired cells width) (hcolumn : column < width)
    (hwide : (cells column).wide = true) : (cells column).isContinuation = false := by
  by_contra hboth
  rw [Bool.not_eq_false] at hboth
  rw [hpaired.apart _ hcolumn hboth] at hwide
  cases hwide

end RowPaired

section Spots

variable {spots : Nat → Spot} {column other : Nat} {code : Int} {style : List Sgr}

theorem unpair_before (hright : (spots column).isRight = false) (hbefore : other < column) :
    unpair spots column other = spots other := by
  rw [unpair, if_neg (by simp [hright]), if_neg (by omega)]

theorem unpair_far (hfar : column + 1 < other) : unpair spots column other = spots other := by
  rw [unpair, if_neg (by omega), if_neg (by omega)]

theorem unpair_next :
    unpair spots column (column + 1) =
      if (spots column).isLeft = true then .blank else spots (column + 1) := by
  rw [unpair, if_neg (by omega)]
  simp

theorem putNarrow_self : putNarrow spots column code style column = .whole code style :=
  if_pos rfl

theorem putNarrow_ne (hne : other ≠ column) :
    putNarrow spots column code style other = unpair spots column other :=
  if_neg hne

theorem putDouble_self : putDouble spots column code style column = .left code style :=
  if_pos rfl

theorem putDouble_next : putDouble spots column code style (column + 1) = .right code style := by
  rw [putDouble, if_neg (by omega), if_pos rfl]

theorem putDouble_ne (hne : other ≠ column) (hnext : other ≠ column + 1) :
    putDouble spots column code style other = unpair (unpair spots column) (column + 1) other := by
  rw [putDouble, if_neg hne, if_neg hnext]

theorem putDouble_before (hright : (spots column).isRight = false) (hbefore : other < column) :
    putDouble spots column code style other = spots other := by
  rw [putDouble_ne (by omega) (by omega), unpair, if_neg (by omega), if_neg (by omega),
    unpair_before hright hbefore]

theorem putDouble_third :
    putDouble spots column code style (column + 1 + 1) =
      if (if (spots column).isLeft = true then .blank else spots (column + 1)).isLeft = true then
        .blank
      else spots (column + 1 + 1) := by
  rw [putDouble_ne (by omega) (by omega), unpair_next, unpair_next, unpair_far (by omega)]

theorem putDouble_far (hfar : column + 1 + 1 < other) :
    putDouble spots column code style other = spots other := by
  rw [putDouble_ne (by omega) (by omega), unpair_far (by omega), unpair_far (by omega)]

end Spots

/-- The row before a column: what lies behind shows the back buffer.  What lies ahead shows the
front buffer, but for halves whose other half was printed over. -/
structure Sweep (back front : Nat → Cell) (width column : Nat) (spots : Nat → Spot) : Prop where
  behind : ∀ c, c < column → spots c = lookAt back c
  ahead : ∀ c, column ≤ c → c < width → spots c = lookAt front c ∨
    spots c = .blank ∧ (front c).isContinuation = true ∧ (back c).isContinuation = false ∨
    c = column ∧ (back c).isContinuation = true
  covered : column < width → (back column).isContinuation = true → spots column = lookAt back column
  halved : column < width → (back column).isContinuation = false →
    (front column).isContinuation = true → spots column = .blank
  halvedNext : column + 1 < width → (back column).isContinuation = true →
    (back (column + 1)).isContinuation = false → (front (column + 1)).isContinuation = true →
      spots (column + 1) = .blank

namespace Sweep

variable {back front : Nat → Cell} {width column : Nat} {spots : Nat → Spot}

/-- A row is entered. -/
theorem enter (hback : RowPaired back width) (hfront : RowPaired front width)
    (hshows : ∀ c, c < width → spots c = lookAt front c) : Sweep back front width 0 spots where
  behind c hc := absurd hc (Nat.not_lt_zero c)
  ahead c _ hc := .inl (hshows c hc)
  covered hwidth hcont := by
    obtain ⟨before, hbefore, -⟩ := hback.left 0 hwidth hcont
    cases hbefore
  halved hwidth _ hcont := by
    obtain ⟨before, hbefore, -⟩ := hfront.left 0 hwidth hcont
    cases hbefore
  halvedNext hwidth hcont := by
    obtain ⟨before, hbefore, -⟩ := hback.left 0 (by omega) hcont
    cases hbefore

/-- A spot ahead of a cell that is neither covered nor halved. -/
theorem ahead_look (hsweep : Sweep back front width column spots) {c : Nat} (hc : column ≤ c)
    (hwidth : c < width) (hback : (back c).isContinuation = false)
    (hfront : (front c).isContinuation = false) : spots c = lookAt front c := by
  obtain hlook | ⟨-, hcont, -⟩ | ⟨-, hcont⟩ := hsweep.ahead c hc hwidth
  · exact hlook
  · rw [hfront] at hcont
    cases hcont
  · rw [hback] at hcont
    cases hcont

theorem not_right (hsweep : Sweep back front width column spots) (hwidth : column < width)
    (hback : (back column).isContinuation = false) : (spots column).isRight = false := by
  cases hfront : (front column).isContinuation with
  | true =>
      rw [hsweep.halved hwidth hback hfront]
      rfl
  | false =>
      rw [hsweep.ahead_look (Nat.le_refl _) hwidth hback hfront, lookAt, hfront]
      cases (front column).wide <;> rfl

/-- A cell of its own that is the same in both buffers is passed over. -/
theorem keep (hback : RowPaired back width) (hfront : RowPaired front width)
    (hsweep : Sweep back front width column spots) (hwidth : column < width)
    (hcont : (back column).isContinuation = false) (hsame : back column = front column) :
    Sweep back front width (column + 1) spots := by
  have hfrontCont : (front column).isContinuation = false := hsame ▸ hcont
  have hlook : spots column = lookAt back column := by
    rw [hsweep.ahead_look (Nat.le_refl _) hwidth hcont hfrontCont, lookAt, lookAt, hsame]
    simp only [hfrontCont, Bool.false_eq_true, if_false]
  -- the next cells are second halves in both rows or in none
  have hnext : column + 1 < width →
      (back (column + 1)).isContinuation = (front (column + 1)).isContinuation := by
    intro hnextWidth
    rw [hback.next hwidth hnextWidth, hfront.next hwidth hnextWidth, hsame]
  refine ⟨fun c hc => ?_, fun c hc hcwidth => ?_, fun hnextWidth hnextCont => ?_,
    fun hnextWidth hnextCont hfrontNext => ?_, fun hthird hnextCont hthirdCont hfrontThird => ?_⟩
  · obtain hlt | rfl := Nat.lt_succ_iff_lt_or_eq.mp hc
    · exact hsweep.behind c hlt
    · exact hlook
  · obtain hahead | hahead | ⟨rfl, -⟩ := hsweep.ahead c (by omega) hcwidth
    · exact .inl hahead
    · exact .inr (.inl hahead)
    · omega
  · have hfrontNext : (front (column + 1)).isContinuation = true := hnext hnextWidth ▸ hnextCont
    obtain hahead | ⟨-, -, hno⟩ | ⟨heq, -⟩ := hsweep.ahead (column + 1) (by omega) hnextWidth
    · rw [hahead, lookAt, lookAt, hnextCont, hfrontNext]
      simp only [if_true, Nat.add_sub_cancel, hsame]
    · rw [hnextCont] at hno
      cases hno
    · omega
  · rw [hnext hnextWidth, hfrontNext] at hnextCont
    cases hnextCont
  · -- the second half at the next column ends a glyph, so that no half follows it
    have hfrontNext : (front (column + 1)).isContinuation = true :=
      hnext (by omega) ▸ hnextCont
    rw [hfront.next (by omega) hthird, hfront.apart _ (by omega) hfrontNext] at hfrontThird
    cases hfrontThird

/-- A second half is copied without output. -/
theorem skip (hback : RowPaired back width)
    (hsweep : Sweep back front width column spots) (hwidth : column < width)
    (hcont : (back column).isContinuation = true) :
    Sweep back front width (column + 1) spots := by
  have hnextCont : column + 1 < width → (back (column + 1)).isContinuation = false :=
    fun hnextWidth => (hback.next hwidth hnextWidth).trans (hback.apart _ hwidth hcont)
  refine ⟨fun c hc => ?_, fun c hc hcwidth => ?_, fun hnextWidth hnext => ?_,
    fun hnextWidth hnext hfrontNext => ?_, fun hthird hnext => ?_⟩
  · obtain hlt | rfl := Nat.lt_succ_iff_lt_or_eq.mp hc
    · exact hsweep.behind c hlt
    · exact hsweep.covered hwidth hcont
  · obtain hahead | hahead | ⟨rfl, -⟩ := hsweep.ahead c (by omega) hcwidth
    · exact .inl hahead
    · exact .inr (.inl hahead)
    · omega
  · rw [hnextCont hnextWidth] at hnext
    cases hnext
  · exact hsweep.halvedNext hnextWidth hcont hnext hfrontNext
  · rw [hnextCont (by omega)] at hnext
    cases hnext

/-- A cell of one column is printed. -/
theorem narrow (hback : RowPaired back width) (hfront : RowPaired front width)
    (hsweep : Sweep back front width column spots) (hwidth : column < width)
    (hcont : (back column).isContinuation = false) (hnarrow : (back column).wide = false) :
    Sweep back front width (column + 1)
      (putNarrow spots column (glyph (back column).code) (back column).style) := by
  have hright := hsweep.not_right hwidth hcont
  have hnextCont : column + 1 < width → (back (column + 1)).isContinuation = false :=
    fun hnextWidth => (hback.next hwidth hnextWidth).trans hnarrow
  have hhalved : column + 1 < width → (front (column + 1)).isContinuation = true →
      putNarrow spots column (glyph (back column).code) (back column).style (column + 1) =
        .blank := by
    intro hnextWidth hnext
    have hwide : (front column).wide = true := hfront.next hwidth hnextWidth ▸ hnext
    have hfrontCont := hfront.own_of_wide hwidth hwide
    have hleft : (spots column).isLeft = true := by
      rw [hsweep.ahead_look (Nat.le_refl _) hwidth hcont hfrontCont, lookAt, hfrontCont, hwide]
      rfl
    rw [putNarrow_ne (by omega), unpair_next, if_pos hleft]
  refine ⟨fun c hc => ?_, fun c hc hcwidth => ?_, fun hnextWidth hnext => ?_,
    fun hnextWidth _ hfrontNext => hhalved hnextWidth hfrontNext, fun hthird hnext => ?_⟩
  · obtain hlt | rfl := Nat.lt_succ_iff_lt_or_eq.mp hc
    · rw [putNarrow_ne (by omega), unpair_before hright hlt, hsweep.behind c hlt]
    · rw [putNarrow_self, lookAt, hcont, hnarrow]
      rfl
  · obtain rfl | hfar := Nat.eq_or_lt_of_le hc
    · have hcNext := hnextCont hcwidth
      cases hfrontNext : (front (column + 1)).isContinuation with
      | true => exact .inr (.inl ⟨hhalved hcwidth hfrontNext, rfl, hcNext⟩)
      | false =>
          have hahead := hsweep.ahead_look (by omega) hcwidth hcNext hfrontNext
          have hleft : (spots column).isLeft = false := by
            by_contra hleft
            rw [Bool.not_eq_false] at hleft
            have hfrontCont : (front column).isContinuation = false := by
              by_contra hboth
              rw [Bool.not_eq_false] at hboth
              rw [hsweep.halved hwidth hcont hboth] at hleft
              cases hleft
            rw [hsweep.ahead_look (Nat.le_refl _) hwidth hcont hfrontCont, lookAt, hfrontCont]
              at hleft
            rw [← hfront.next hwidth hcwidth, hfrontNext] at hleft
            cases hleft
          rw [putNarrow_ne (by omega), unpair_next, hleft]
          exact .inl hahead
    · rw [putNarrow_ne (by omega), unpair_far hfar]
      obtain hahead | hahead | ⟨rfl, -⟩ := hsweep.ahead c (by omega) hcwidth
      · exact .inl hahead
      · exact .inr (.inl hahead)
      · omega
  · rw [hnextCont hnextWidth] at hnext
    cases hnext
  · rw [hnextCont (by omega)] at hnext
    cases hnext

/-- A cell of two columns is printed. -/
theorem wide (hback : RowPaired back width) (hfront : RowPaired front width)
    (hsweep : Sweep back front width column spots) (hwidth : column < width)
    (hcont : (back column).isContinuation = false) (hwide : (back column).wide = true) :
    Sweep back front width (column + 1)
      (putDouble spots column (glyph (back column).code) (back column).style) := by
  have hright := hsweep.not_right hwidth hcont
  obtain ⟨hnextWidth, hnextCont⟩ := hback.right column hwidth hwide
  have hnextLook : spots (column + 1) = lookAt front (column + 1) := by
    obtain hahead | ⟨-, -, hno⟩ | ⟨heq, -⟩ := hsweep.ahead (column + 1) (by omega) hnextWidth
    · exact hahead
    · rw [hnextCont] at hno
      cases hno
    · omega
  have hthirdCont : column + 1 + 1 < width → (back (column + 1 + 1)).isContinuation = false :=
    fun hthird => (hback.next hnextWidth hthird).trans (hback.apart _ hnextWidth hnextCont)
  -- the glyph at the next column loses its second half
  have hhalved : column + 1 + 1 < width → (front (column + 1 + 1)).isContinuation = true →
      putDouble spots column (glyph (back column).code) (back column).style (column + 1 + 1) =
        .blank := by
    intro hthird hfrontThird
    have hpair : (front (column + 1)).wide = true := hfront.next hnextWidth hthird ▸ hfrontThird
    have hfrontNext := hfront.own_of_wide hnextWidth hpair
    have hleft : (spots column).isLeft = false := by
      cases hfrontCont : (front column).isContinuation with
      | true =>
          rw [hsweep.halved hwidth hcont hfrontCont]
          rfl
      | false =>
          rw [hsweep.ahead_look (Nat.le_refl _) hwidth hcont hfrontCont, lookAt, hfrontCont]
          rw [← hfront.next hwidth hnextWidth, hfrontNext]
          rfl
    have hnextLeft : (spots (column + 1)).isLeft = true := by
      rw [hnextLook, lookAt, hfrontNext, hpair]
      rfl
    rw [putDouble_third, hleft]
    exact if_pos hnextLeft
  refine ⟨fun c hc => ?_, fun c hc hcwidth => ?_, fun _ _ => ?_, fun _ hnext => ?_,
    fun hthird _ _ hfrontThird => hhalved hthird hfrontThird⟩
  · obtain hlt | rfl := Nat.lt_succ_iff_lt_or_eq.mp hc
    · rw [putDouble_before hright hlt, hsweep.behind c hlt]
    · rw [putDouble_self, lookAt, hcont, hwide]
      rfl
  · obtain rfl | hnext := Nat.eq_or_lt_of_le hc
    · exact .inr (.inr ⟨rfl, hnextCont⟩)
    obtain rfl | hfar := Nat.eq_or_lt_of_le (Nat.succ_le_of_lt hnext)
    · cases hfrontThird : (front (column + 1 + 1)).isContinuation with
      | true => exact .inr (.inl ⟨hhalved hcwidth hfrontThird, rfl, hthirdCont hcwidth⟩)
      | false =>
          left
          have hnextLeft : (spots (column + 1)).isLeft = false := by
            rw [hnextLook, lookAt]
            cases hfrontNext : (front (column + 1)).isContinuation with
            | true => rfl
            | false =>
                rw [← hfront.next hnextWidth hcwidth, hfrontThird]
                rfl
          have hnone : (if (spots column).isLeft = true then Spot.blank
              else spots (column + 1)).isLeft = false := by
            split
            · rfl
            · exact hnextLeft
          rw [Nat.succ_eq_add_one, putDouble_third, hnone]
          exact hsweep.ahead_look (by omega) hcwidth (hthirdCont hcwidth) hfrontThird
    · rw [putDouble_far hfar]
      obtain hahead | hahead | ⟨rfl, -⟩ := hsweep.ahead c (by omega) hcwidth
      · exact .inl hahead
      · exact .inr (.inl hahead)
      · omega
  · rw [putDouble_next, lookAt, hnextCont]
    rfl
  · rw [hnextCont] at hnext
    cases hnext

end Sweep

end Term

end Cnegative
