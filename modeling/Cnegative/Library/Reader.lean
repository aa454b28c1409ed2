import Mathlib.Tactic

namespace Library

/-! Readers that answer from the front of a stream, one unit a call. -/

variable {α β : Type}

/-- The reader takes the unit and nothing of what follows, which does not change its answer. -/
def Takes (read : List β → α × List β) (unit : List β) : Prop :=
  ∃ answer, ∀ rest, read (unit ++ rest) = (answer, rest)

/-- Some of the unit is left, or some of what follows is gone. -/
def Misses (read : List β → α × List β) (unit : List β) : Prop :=
  ∀ rest, (read (unit ++ rest)).2 ≠ rest

/-- Calls one after the other; a call that is interrupted reads nothing. -/
def readAll (read : List β → α × List β) : List (Option α) → List β → List α × List β
  | [], input => ([], input)
  | some answer :: calls, input =>
      let (answers, rest) := readAll read calls input
      (answer :: answers, rest)
  | none :: calls, input =>
      let (answer, rest) := read input
      let (answers, rest) := readAll read calls rest
      (answer :: answers, rest)

/-- The answers when each call that reads is given one unit alone. -/
def unitAnswers (read : List β → α × List β) : List (Option α) → List (List β) → List α
  | [], _ => []
  | some answer :: calls, units => answer :: unitAnswers read calls units
  | none :: calls, [] => (read []).1 :: unitAnswers read calls []
  | none :: calls, unit :: units => (read unit).1 :: unitAnswers read calls units

/-- The calls take one unit each, as far as there are units. -/
def InStep (read : List β → α × List β) (calls : List (Option α)) (units : List (List β)) : Prop :=
  readAll read calls units.flatten = (unitAnswers read calls units,
    (units.drop (calls.countP Option.isNone)).flatten)

variable {read : List β → α × List β} {unit : List β} {units : List (List β)}

theorem Takes.alone (htakes : Takes read unit) (rest : List β) :
    read (unit ++ rest) = ((read unit).1, rest) := by
  obtain ⟨answer, hread⟩ := htakes
  have halone := hread []
  rw [List.append_nil] at halone
  rw [hread, halone]

theorem InStep.of_takes (hempty : (read []).2 = []) (htakes : ∀ unit ∈ units, Takes read unit)
    (calls : List (Option α)) : InStep read calls units := by
  induction calls generalizing units with
  | nil => rfl
  | cons call calls ih =>
      cases call with
      | some answer =>
          have hrest : readAll read calls units.flatten = _ := ih htakes
          rw [InStep, readAll, hrest]
          rfl
      | none =>
          cases units with
          | nil =>
              have hrest : readAll read calls [] = _ := ih htakes
              have hread : read [] = ((read []).1, []) := Prod.ext rfl hempty
              rw [InStep, List.flatten_nil, readAll, hread]
              dsimp only
              rw [hrest, unitAnswers]
              simp
          | cons unit units =>
              obtain ⟨hunit, hunits⟩ := List.forall_mem_cons.mp htakes
              have hrest : readAll read calls units.flatten = _ := ih hunits
              rw [InStep, List.flatten_cons, readAll, hunit.alone]
              dsimp only
              rw [hrest, unitAnswers, List.countP_cons_of_pos rfl, List.drop_succ_cons]

theorem takes_of_inStep (hdecided : ∀ unit ∈ units, Takes read unit ∨ Misses read unit)
    (hstep : ∀ count, InStep read (List.replicate count none) units) :
    ∀ unit ∈ units, Takes read unit := by
  induction units with
  | nil => exact fun _ hmem => (by cases hmem)
  | cons unit units ih =>
      obtain ⟨hunit, hunits⟩ := List.forall_mem_cons.mp hdecided
      have hfirst : (readAll read [none] (unit :: units).flatten).2 = units.flatten :=
        congrArg Prod.snd (hstep 1)
      rw [List.flatten_cons] at hfirst
      obtain htakes | hmisses := hunit
      · refine List.forall_mem_cons.mpr ⟨htakes, ih hunits fun count => ?_⟩
        have hnext := hstep (count + 1)
        rw [List.replicate_succ, InStep, List.flatten_cons, readAll, htakes.alone, unitAnswers,
          List.countP_cons_of_pos rfl, List.drop_succ_cons] at hnext
        obtain ⟨hanswers, hrest⟩ := Prod.mk.inj hnext
        exact Prod.ext (List.cons.inj hanswers).2 hrest
      · exact absurd hfirst (hmisses units.flatten)

end Library
