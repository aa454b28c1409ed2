import Mathlib.Data.List.Basic

namespace Library

/-! Pieces of a line of positions, in order, with gaps between them. -/

variable {α : Type*} {start stop : α → Nat} {gap : Nat → Nat → Prop}

/-- The pieces cut the positions from `first` to `last`, and every stretch that they
leave out is a gap. -/
inductive Tiled (start stop : α → Nat) (gap : Nat → Nat → Prop) : Nat → Nat → List α → Prop
  | nil {first last : Nat} (hle : first ≤ last) (hgap : gap first last) :
      Tiled start stop gap first last []
  | cons {first last : Nat} {piece : α} {rest : List α} (hle : first ≤ start piece)
      (hgap : gap first (start piece)) (hlt : start piece < stop piece)
      (htail : Tiled start stop gap (stop piece) last rest) :
      Tiled start stop gap first last (piece :: rest)

namespace Tiled

theorem le_start {first last : Nat} {pieces : List α}
    (htiled : Tiled start stop gap first last pieces) : ∀ piece ∈ pieces, first ≤ start piece := by
  induction htiled with
  | nil _ _ => simp
  | cons hle _ hlt _ ih =>
      intro piece hmem
      rcases List.mem_cons.mp hmem with rfl | hmem
      · exact hle
      · have hstart := ih piece hmem
        omega

theorem lt_stop {first last : Nat} {pieces : List α}
    (htiled : Tiled start stop gap first last pieces) :
    ∀ piece ∈ pieces, start piece < stop piece := by
  induction htiled with
  | nil _ _ => simp
  | cons _ _ hlt _ ih =>
      intro piece hmem
      rcases List.mem_cons.mp hmem with rfl | hmem
      · exact hlt
      · exact ih piece hmem

theorem pairwise {first last : Nat} {pieces : List α}
    (htiled : Tiled start stop gap first last pieces) :
    pieces.Pairwise fun left right => stop left ≤ start right := by
  induction htiled with
  | nil _ _ => exact List.Pairwise.nil
  | cons _ _ _ htail ih => exact List.pairwise_cons.mpr ⟨htail.le_start, ih⟩

/-- A position outside of the pieces lies in a gap that no piece reaches into. -/
theorem covers {first last : Nat} {pieces : List α}
    (htiled : Tiled start stop gap first last pieces) {position : Nat}
    (hfirst : first ≤ position) (hlast : position < last) :
    (∃ piece ∈ pieces, start piece ≤ position ∧ position < stop piece) ∨
      ∃ low high, gap low high ∧ first ≤ low ∧ low ≤ position ∧ position < high ∧
        ∀ piece ∈ pieces, stop piece ≤ low ∨ high ≤ start piece := by
  induction htiled with
  | nil _ hgap => exact Or.inr ⟨_, _, hgap, Nat.le_refl _, hfirst, hlast, by simp⟩
  | @cons first last piece rest hle hgap hlt htail ih =>
      by_cases hbefore : position < start piece
      · refine Or.inr ⟨_, _, hgap, Nat.le_refl _, hfirst, hbefore, fun other hmem => Or.inr ?_⟩
        rcases List.mem_cons.mp hmem with rfl | hmem
        · exact Nat.le_refl _
        · have hstart := htail.le_start other hmem
          omega
      by_cases hinside : position < stop piece
      · exact Or.inl ⟨piece, by simp, by omega, hinside⟩
      rcases ih (by omega) hlast with ⟨other, hmem, hother⟩ |
        ⟨low, high, hlow, hreach, hle', hlt', hout⟩
      · exact Or.inl ⟨other, List.mem_cons_of_mem _ hmem, hother⟩
      · refine Or.inr ⟨low, high, hlow, by omega, hle', hlt', fun other hmem => ?_⟩
        rcases List.mem_cons.mp hmem with rfl | hmem
        · exact Or.inl hreach
        · exact hout other hmem

end Tiled

end Library
