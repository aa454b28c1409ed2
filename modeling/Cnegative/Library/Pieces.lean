import Mathlib.Tactic

namespace Library

namespace Pieces

/-! Consecutive pieces of a list, and lists that are put together piecewise. -/

variable {α β : Type}

/-- The pieces of at most `size` elements; the empty list is one piece. The list gets shorter
with each piece, so that `list.length + 1` turns are enough. -/
def piecesFrom (size : Nat) : Nat → List α → List (List α)
  | 0, _ => []
  | turns + 1, list =>
      if list.length ≤ size then [list]
      else list.take size :: piecesFrom size turns (list.drop size)

def pieces (size : Nat) (list : List α) : List (List α) := piecesFrom size (list.length + 1) list

theorem piecesFrom_eq {size : Nat} (hsize : 0 < size) {turns turns' : Nat} {list : List α}
    (hturns : list.length < turns) (hturns' : list.length < turns') :
    piecesFrom size turns list = piecesFrom size turns' list := by
  induction turns generalizing turns' list with
  | zero => omega
  | succ turns ih =>
      cases turns' with
      | zero => omega
      | succ turns' =>
          rw [piecesFrom, piecesFrom]
          split
          · rfl
          · have hdrop : (list.drop size).length < list.length := by
              rw [List.length_drop]
              omega
            exact congrArg _ (ih (by omega) (by omega))

theorem pieces_of_le {size : Nat} {list : List α} (hle : list.length ≤ size) :
    pieces size list = [list] := if_pos hle

theorem pieces_of_lt {size : Nat} (hsize : 0 < size) {list : List α} (hlt : size < list.length) :
    pieces size list = list.take size :: pieces size (list.drop size) := by
  have hdrop : (list.drop size).length < list.length := by
    rw [List.length_drop]
    omega
  rw [pieces, piecesFrom, if_neg (by omega), pieces,
    piecesFrom_eq hsize hdrop (Nat.lt_succ_self _)]

theorem length_flatMap_le {parts parts' : α → List β} {list : List α}
    (hle : ∀ x ∈ list, (parts' x).length ≤ (parts x).length) :
    (list.flatMap parts').length ≤ (list.flatMap parts).length := by
  induction list with
  | nil => simp
  | cons x list ih =>
      have hhead := hle x List.mem_cons_self
      have hrest := ih fun y hy => hle y (List.mem_cons_of_mem _ hy)
      simp only [List.flatMap_cons, List.length_append]
      omega

/-- Where every part of one list is at least as long as the part of another, the two are equal
only part by part. -/
theorem flatMap_eq_iff {parts parts' : α → List β} {list : List α}
    (hle : ∀ x ∈ list, (parts' x).length ≤ (parts x).length) :
    list.flatMap parts = list.flatMap parts' ↔ ∀ x ∈ list, parts x = parts' x := by
  induction list with
  | nil => simp
  | cons x list ih =>
      have hrest : ∀ y ∈ list, (parts' y).length ≤ (parts y).length :=
        fun y hy => hle y (List.mem_cons_of_mem _ hy)
      rw [List.forall_mem_cons, List.flatMap_cons, List.flatMap_cons]
      refine Iff.trans ?_ (and_congr_right fun _ => ih hrest)
      constructor
      · intro heq
        have hlength := congrArg List.length heq
        have hhead := hle x List.mem_cons_self
        have hback := length_flatMap_le hrest
        simp only [List.length_append] at hlength
        exact List.append_inj heq (by omega)
      · rintro ⟨hhead, hback⟩
        rw [hhead, hback]

end Pieces

end Library
