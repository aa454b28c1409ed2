import Mathlib.Data.Set.Card
import Mathlib.Logic.Relation

namespace Library

/-! Relations without cycles, and numbers that go down along them. -/

variable {α : Type*} {r : α → α → Prop}

/-- The numbers decrease along every step. -/
def Ranks (r : α → α → Prop) (rank : α → Nat) : Prop :=
  ∀ first second, r first second → rank second < rank first

theorem Ranks.lt_of_transGen {rank : α → Nat} (hranks : Ranks r rank) {first second : α}
    (hpath : Relation.TransGen r first second) : rank second < rank first := by
  induction hpath with
  | single hstep => exact hranks _ _ hstep
  | tail _ hstep ih => exact Nat.lt_trans (hranks _ _ hstep) ih

theorem Ranks.acyclic {rank : α → Nat} (hranks : Ranks r rank) (item : α) :
    ¬ Relation.TransGen r item item :=
  fun hcycle => Nat.lt_irrefl _ (hranks.lt_of_transGen hcycle)

theorem acc_of_reaches {first second : α} (hacc : Acc (fun target source => r source target) first)
    (hpath : Relation.ReflTransGen r first second) :
    Acc (fun target source => r source target) second := by
  induction hpath with
  | refl => exact hacc
  | tail _ hstep ih => exact ih.inv hstep

theorem not_cycle_of_acc {item : α} (hacc : Acc (fun target source => r source target) item) :
    ¬ Relation.TransGen r item item := by
  induction hacc with
  | intro item _ ih =>
      intro hcycle
      obtain ⟨next, hstep, hback⟩ := Relation.TransGen.head'_iff.mp hcycle
      exact ih next hstep (Relation.TransGen.tail' hback hstep)

/-- With finitely many targets, a relation without a cycle has such numbers: count
what can be reached. -/
theorem exists_ranks (hfinite : {target | ∃ source, r source target}.Finite)
    (hacyclic : ∀ item, ¬ Relation.TransGen r item item) : ∃ rank : α → Nat, Ranks r rank := by
  have hreachable : ∀ source, {target | Relation.TransGen r source target}.Finite := by
    intro source
    refine hfinite.subset fun target hpath => ?_
    cases hpath with
    | single hstep => exact ⟨_, hstep⟩
    | tail _ hstep => exact ⟨_, hstep⟩
  refine ⟨fun source => {target | Relation.TransGen r source target}.ncard, ?_⟩
  intro first second hstep
  refine Set.ncard_lt_ncard ⟨fun target hpath => .head hstep hpath, fun hsubset => ?_⟩
    (hreachable first)
  exact hacyclic second (hsubset (.single hstep))

/-- Where all targets are among some items, the numbers stay below how many these are. -/
theorem exists_ranks_lt {items : Finset α}
    (htargets : ∀ source target, r source target → target ∈ items)
    (hacyclic : ∀ item, ¬ Relation.TransGen r item item) :
    ∃ rank : α → Nat, Ranks r rank ∧ ∀ item ∈ items, rank item < items.card := by
  have hreachable : ∀ source, {target | Relation.TransGen r source target} ⊆ (items : Set α) := by
    intro source target hpath
    cases hpath with
    | single hstep => exact htargets _ _ hstep
    | tail _ hstep => exact htargets _ _ hstep
  refine ⟨fun source => {target | Relation.TransGen r source target}.ncard, ?_, ?_⟩
  · intro first second hstep
    refine Set.ncard_lt_ncard ⟨fun target hpath => .head hstep hpath, fun hsubset => ?_⟩
      (items.finite_toSet.subset (hreachable first))
    exact hacyclic second (hsubset (.single hstep))
  · intro item hitem
    rw [← Set.ncard_coe_finset items]
    exact Set.ncard_lt_ncard ⟨hreachable item, fun hsubset => hacyclic item (hsubset hitem)⟩
      items.finite_toSet

/-- The answers of a list of questions asked in order, up to the first that says no;
`none` is a question without an answer. -/
def allInOrder : List (Option Bool) → Option Bool
  | [] => some true
  | none :: _ => none
  | some false :: _ => some false
  | some true :: rest => allInOrder rest

theorem allInOrder_mono {β : Type*} {items : List β} {first second : β → Option Bool}
    (hanswers : ∀ item ∈ items, ∀ answer, first item = some answer → second item = some answer)
    {answer : Bool} (hall : allInOrder (items.map first) = some answer) :
    allInOrder (items.map second) = some answer := by
  induction items with
  | nil => exact hall
  | cons item rest ih =>
      rw [List.map_cons] at hall ⊢
      have hitem := hanswers item (by simp)
      cases hfirst : first item with
      | none => simp [hfirst, allInOrder] at hall
      | some reply =>
          rw [hfirst] at hall
          rw [hitem reply hfirst]
          cases reply with
          | false => exact hall
          | true =>
              exact ih (fun other hother => hanswers other (List.mem_cons_of_mem _ hother)) hall

theorem of_allInOrder_true {answers : List (Option Bool)} (hall : allInOrder answers = some true) :
    ∀ answer ∈ answers, answer = some true := by
  induction answers with
  | nil => simp
  | cons answer rest ih =>
      match answer, hall with
      | some true, hall =>
          intro other hother
          rcases List.mem_cons.mp hother with rfl | hother
          · rfl
          · exact ih hall other hother

/-- A question is asked when every one in front of it is answered yes. -/
theorem allInOrder_asks {before after : List (Option Bool)} {question : Option Bool}
    (hbefore : ∀ answer ∈ before, answer = some true ∨ answer = none)
    (hall : allInOrder (before ++ question :: after) ≠ none) : question ≠ none := by
  induction before with
  | nil =>
      rintro rfl
      exact hall rfl
  | cons answer rest ih =>
      rcases hbefore answer (by simp) with rfl | rfl
      · exact ih (fun other hother => hbefore other (List.mem_cons_of_mem _ hother)) hall
      · exact absurd rfl hall

end Library
