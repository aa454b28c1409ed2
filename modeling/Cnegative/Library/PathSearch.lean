import Mathlib.Data.Set.Function
import Mathlib.Logic.Relation

namespace Library

/-! A search along all paths that never comes back to a node of the path it is on, and that says
yes when the path gets too long. -/

section Walks

variable {α : Type*} {r : α → α → Prop} {avoided : Set α}

/-- One step to a node outside `avoided`. -/
def StepOutside (r : α → α → Prop) (avoided : Set α) (first second : α) : Prop :=
  r first second ∧ second ∉ avoided

/-- A walk that ends elsewhere leaves its start for good at its last visit there. -/
theorem leaves_start {start target : α}
    (hwalk : Relation.ReflTransGen (StepOutside r avoided) start target) :
    target = start ∨ ∃ next, r start next ∧ next ∉ insert start avoided ∧
      Relation.ReflTransGen (StepOutside r (insert start avoided)) next target := by
  induction hwalk with
  | refl => exact .inl rfl
  | @tail middle last _ hstep ih =>
      obtain ⟨hr, hlast⟩ := hstep
      by_cases hback : last = start
      · exact .inl hback
      have houtside : last ∉ insert start avoided := fun hmem => hmem.elim hback hlast
      obtain rfl | ⟨next, hnext, hnotin, hrest⟩ := ih
      · exact .inr ⟨last, hr, houtside, .refl⟩
      · exact .inr ⟨next, hnext, hnotin, hrest.tail ⟨hr, houtside⟩⟩

end Walks

variable {α κ : Type*} [BEq κ] (key : α → κ) (goal : α → Bool) (next : α → List α)

/-- `room` is how many more nodes the path may get; `stack` holds the keys of its nodes. -/
def pathSearch : Nat → List κ → α → Bool
  | room, stack, node =>
      if stack.contains (key node) then false
      else
        match room with
        | 0 => true
        | room + 1 =>
            goal node || (next node).any (pathSearch room (key node :: stack))

variable {key goal next}

theorem pathSearch_succ [LawfulBEq κ] {room : Nat} {stack : List κ} {node : α}
    (hfresh : key node ∉ stack) :
    pathSearch key goal next (room + 1) stack node =
      (goal node || (next node).any (pathSearch key goal next room (key node :: stack))) := by
  rw [pathSearch, if_neg (by simpa using hfresh)]

theorem pathSearch_zero [LawfulBEq κ] {stack : List κ} {node : α} (hfresh : key node ∉ stack) :
    pathSearch key goal next 0 stack node = true := by
  rw [pathSearch, if_neg (by simpa using hfresh)]

/-- The nodes `known` that the stack stands for. -/
def onStack (key : α → κ) (known : Set α) (stack : List κ) : Set α :=
  {node | node ∈ known ∧ key node ∈ stack}

omit [BEq κ] in
theorem onStack_cons {known : Set α} (hkey : Set.InjOn key known) {node : α} (hnode : node ∈ known)
    (stack : List κ) :
    onStack key known (key node :: stack) = insert node (onStack key known stack) := by
  ext other
  constructor
  · rintro ⟨hknown, hmem⟩
    obtain heq | hmem := List.mem_cons.mp hmem
    · exact .inl (hkey hknown hnode heq)
    · exact .inr ⟨hknown, hmem⟩
  · rintro (rfl | ⟨hknown, hmem⟩)
    · exact ⟨hnode, List.mem_cons_self⟩
    · exact ⟨hknown, List.mem_cons_of_mem _ hmem⟩

/-- A search that says no has a goal nowhere outside its stack. -/
theorem pathSearch_outside [LawfulBEq κ] {known : Set α} (hkey : Set.InjOn key known)
    (hclosed : ∀ node ∈ known, ∀ other ∈ next node, other ∈ known) {room : Nat} {stack : List κ}
    {node target : α} (hnode : node ∈ known) (hfresh : key node ∉ stack)
    (hno : pathSearch key goal next room stack node = false)
    (hwalk : Relation.ReflTransGen
      (StepOutside (fun first second => second ∈ next first) (onStack key known stack)) node target) :
    goal target = false := by
  induction room generalizing stack node with
  | zero =>
      rw [pathSearch_zero hfresh] at hno
      cases hno
  | succ room ih =>
      rw [pathSearch_succ hfresh, Bool.or_eq_false_iff] at hno
      obtain rfl | ⟨other, hother, houtside, hrest⟩ := leaves_start hwalk
      · exact hno.1
      · have hknown := hclosed node hnode other hother
        rw [← onStack_cons hkey hnode] at houtside hrest
        exact ih hknown (fun hmem => houtside ⟨hknown, hmem⟩)
          (Bool.eq_false_iff.mpr (List.any_eq_false.mp hno.2 other hother)) hrest

/-- A search from an empty stack that says no has a goal nowhere. -/
theorem goal_of_pathSearch [LawfulBEq κ] {known : Set α} (hkey : Set.InjOn key known)
    (hclosed : ∀ node ∈ known, ∀ other ∈ next node, other ∈ known) {room : Nat} {node target : α}
    (hnode : node ∈ known) (hno : pathSearch key goal next room [] node = false)
    (hwalk : Relation.ReflTransGen (fun first second => second ∈ next first) node target) :
    goal target = false := by
  refine pathSearch_outside hkey hclosed hnode List.not_mem_nil hno ?_
  exact Relation.ReflTransGen.mono
    (fun first second hstep => ⟨hstep, fun hmem => List.not_mem_nil hmem.2⟩) _ _ hwalk

end Library
