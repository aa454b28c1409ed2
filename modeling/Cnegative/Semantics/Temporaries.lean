import Cnegative.Semantics.Keeps

namespace Cnegative

open Library.Runs
open Semantics (Growing Allocating store?_eq_some)

variable {ω : Type}

/-! Copies of values on the stack: which expressions make none. -/

/-- No cell goes, none is stored elsewhere, and none that is dead lives again. -/
def State.Retires (before after : State ω) : Prop :=
  ∀ (index : Nat) (cell : Cell), before.cells[index]? = some cell →
    ∃ later, after.cells[index]? = some later ∧ later.storage = cell.storage ∧
      (later.live = true → cell.live = true)

theorem State.Retires.length_le {before after : State ω} (hretires : before.Retires after) :
    before.cells.length ≤ after.cells.length := by
  by_contra hshorter
  have hlt : after.cells.length < before.cells.length := Nat.lt_of_not_le hshorter
  obtain ⟨later, hlater, -⟩ := hretires _ _ (List.getElem?_eq_getElem hlt)
  rw [List.getElem?_eq_none (Nat.le_refl _)] at hlater
  cases hlater

theorem State.retires_kill (state : State ω) (dies : Nat → Cell → Bool) :
    state.Retires (state.kill dies) := by
  intro index cell hcell
  simp only [State.kill, List.getElem?_mapIdx, hcell, Option.map_some, Option.some.injEq,
    exists_eq_left']
  split
  · exact ⟨rfl, fun hlive => by cases hlive⟩
  · exact ⟨rfl, fun hlive => hlive⟩

theorem State.retires_store {state after : State ω} {place : Place} {value : Value}
    (hstored : state.store? place value = some after) : state.Retires after := by
  obtain ⟨old, changed, hold, hlive, -, rfl⟩ := store?_eq_some hstored
  intro index cell hcell
  by_cases hsame : place.cell = index
  · subst hsame
    rw [hcell] at hold
    obtain rfl := Option.some.inj hold
    refine ⟨_, List.getElem?_set_self (List.getElem?_eq_some_iff.mp hcell).1, rfl, ?_⟩
    exact fun _ => hlive
  · exact ⟨cell, by simp only [List.getElem?_set_ne hsame, hcell], rfl, fun hlive => hlive⟩

instance : Growing (@State.Retires ω) where
  refl _ _ cell hcell := ⟨cell, hcell, rfl, fun hlive => hlive⟩
  trans _ _ _ hfirst hsecond index cell hcell := by
    obtain ⟨middle, hmiddle, hstorage, hlive⟩ := hfirst index cell hcell
    obtain ⟨later, hlater, hsame, hstill⟩ := hsecond index middle hmiddle
    exact ⟨later, hlater, hsame.trans hstorage, fun hlast => hlive (hstill hlast)⟩
  allocate state storage value index cell hcell := by
    have hlt := (List.getElem?_eq_some_iff.mp hcell).1
    exact ⟨cell, (List.getElem?_append_left hlt).trans hcell, rfl, fun hlive => hlive⟩
  log _ _ _ cell hcell := ⟨cell, hcell, rfl, fun hlive => hlive⟩
  kill := State.retires_kill
  store := State.retires_store
  enterZone _ _ cell hcell := ⟨cell, hcell, rfl, fun hlive => hlive⟩
  releaseZone state _ := State.retires_kill state _

/-- Nor is there a new cell on the stack. -/
structure State.Quiet (before after : State ω) : Prop where
  retires : before.Retires after
  stack : ∀ {index : Nat} {cell : Cell}, after.cells[index]? = some cell → cell.live = true →
    cell.storage = .stack → index < before.cells.length

namespace State

variable {before after : State ω}

theorem Retires.quiet (hretires : before.Retires after)
    (hlength : after.cells.length ≤ before.cells.length) : before.Quiet after :=
  ⟨hretires, fun hcell _ _ => Nat.lt_of_lt_of_le (List.getElem?_eq_some_iff.mp hcell).1 hlength⟩

instance : Std.Refl (@State.Quiet ω) where
  refl state := Retires.quiet (Std.Refl.refl state) (Nat.le_refl _)

instance : IsTrans (State ω) State.Quiet where
  trans _ _ _ hfirst hsecond := by
    refine ⟨IsTrans.trans _ _ _ hfirst.retires hsecond.retires,
      fun {index cell} hcell hlive hstack => ?_⟩
    -- A cell that was there in the middle was no live cell of the stack unless it was there before.
    have hlt := hsecond.stack hcell hlive hstack
    obtain ⟨later, hlater, hstorage, hkept⟩ :=
      hsecond.retires index _ (List.getElem?_eq_getElem hlt)
    rw [hcell] at hlater
    obtain rfl := Option.some.inj hlater
    exact hfirst.stack (List.getElem?_eq_getElem hlt) (hkept hlive) (hstorage.symm.trans hstack)

theorem quiet_allocate (state : State ω) {storage : Storage} (hstorage : storage ≠ .stack)
    (value : Value) : state.Quiet (state.allocate storage value) where
  retires := Allocating.allocate state storage value
  stack := by
    intro index cell hcell _ hstack
    rw [State.allocate, List.getElem?_append] at hcell
    split at hcell
    · next hlt => exact hlt
    · obtain rfl := List.mem_singleton.mp (List.mem_of_getElem? hcell)
      exact absurd hstack hstorage

/-- A frame that is dropped leaves nothing on the stack. -/
theorem Retires.dropFrame (hretires : before.Retires after) :
    before.Quiet (after.dropFrame before.cells.length) where
  retires := IsTrans.trans _ _ _ hretires (retires_kill after _)
  stack := by
    intro index cell hcell hlive hstack
    simp only [State.dropFrame, State.kill, List.getElem?_mapIdx, Option.map_eq_some_iff] at hcell
    obtain ⟨old, hold, rfl⟩ := hcell
    split at hlive
    · cases hlive
    · next hstays =>
        rw [if_neg hstays] at hstack
        simp only [hstack, decide_true, Bool.and_true, decide_eq_true_eq] at hstays
        exact Nat.lt_of_not_le hstays

end State

namespace Semantics

variable {α : Type} {structs : StructTable} {callee : Callee ω} {env : Env}

theorem quiet_allocate {storage : Storage} (hstorage : storage ≠ .stack) (value : Value) :
    Keeps State.Quiet (Eval.allocate storage value : Eval ω Place) := by
  intro state place after hrun
  obtain ⟨-, rfl⟩ := allocate_eq_ok hrun
  exact state.quiet_allocate hstorage value

theorem quiet_zoneAllocate (zone value : Value) :
    Keeps State.Quiet (Eval.zoneAllocate zone value : Eval ω Value) := by
  unfold Eval.zoneAllocate
  split
  · refine keeps_get.bind fun state => Keeps.ite ?_ keeps_undefined
    exact (quiet_allocate (by simp) _).bind fun _ => keeps_pure _
  · exact keeps_pure _
  · exact keeps_undefined

/-- To put nothing on the stack, as a property of the expressions that copy nothing. -/
def quietRules (ω : Type) : ExprRules ω where
  region := .all
  copies := false
  Allows run P := KeepsWith State.Quiet run P
  allows_pure := keepsWith_pure
  allows_throw := keepsWith_throw
  allows_bind := KeepsWith.bind
  allows_load _ := (keeps_load _).satisfying Value.inside_all
  allows_allocate hstorage _ :=
    (quiet_allocate (fun hstack => by cases hstorage hstack) _).satisfying fun _ => trivial
  allows_equal _ _ := (keeps_equal _ _).satisfying fun _ => trivial
  allows_zoneAllocate _ _ := (quiet_zoneAllocate _ _).satisfying Value.inside_all

theorem quiet_modify {change : State ω → State ω}
    (hretires : ∀ state, State.Retires state (change state))
    (hlength : ∀ state, (change state).cells.length ≤ state.cells.length) :
    Keeps State.Quiet (modify change : Eval ω Unit) :=
  keeps_modify fun state => (hretires state).quiet (hlength state)

theorem quiet_evalCall (hcallee : callee.Keeps State.Quiet) : callee.CallsKeep State.Quiet := by
  intro target moduleName functionName arguments
  unfold evalCall
  refine .ite ?_ ?_
  · split
    · refine Keeps.bind ?_ fun _ => keeps_pure _
      unfold Eval.releaseZone
      split
      · refine keeps_get.bind fun _ => Keeps.ite (quiet_modify ?_ ?_) keeps_undefined
        · exact fun state => State.retires_kill state _
        · exact fun state => by simp [State.releaseZone, State.kill]
      · exact keeps_pure _
      · exact keeps_undefined
    · exact keeps_undefined
  · refine Keeps.bind (quiet_modify ?_ fun _ => Nat.le_refl _) fun _ => hcallee _ _ _ _
    exact fun state => Growing.log state _

theorem Callee.Keeps.retires (hcallee : callee.Keeps State.Quiet) : callee.Keeps State.Retires :=
  fun _ _ _ _ state value after hrun => (hcallee _ _ _ _ state value after hrun).retires

theorem quiet_callFunction (hcallee : callee.Keeps State.Retires) (fuel : Nat)
    (function : IrFunction) (arguments : List Value) :
    Keeps State.Quiet (callFunction structs callee fuel function arguments) := by
  intro state value after hrun
  obtain ⟨current, _, hget, hrun⟩ := bind_eq_ok.mp hrun
  cases hget
  obtain ⟨bound, entered, hbind, hrun⟩ := bind_eq_ok.mp hrun
  obtain ⟨flow, left, hbody, hrun⟩ := bind_eq_ok.mp hrun
  obtain ⟨result, fallen, hresult, hrun⟩ := bind_eq_ok.mp hrun
  obtain ⟨_, dropped, hdrop, hend⟩ := bind_eq_ok.mp hrun
  cases hdrop
  cases hend
  have hrules := hcallee.allows
  have hentered : state.Retires entered := ((keepsRules State.Retires).allows_bindArguments _
    (fun _ _ _ _ _ => trivial) (Value.itemsInside_all _) _ _ _ hbind).1
  have hleft := (keepsRules State.Retires).allows_execStmts hrules
    function.body bound (fun _ _ _ _ _ => trivial) _ _ _ hbody
  have hfallen : left.Retires fallen :=
    ((keepsRules State.Retires).allows_fallOff _ hleft.2 _ _ _ hresult).1
  have hbefore : state.Retires left := IsTrans.trans _ _ _ hentered hleft.1
  exact State.Retires.dropFrame (IsTrans.trans _ _ _ hbefore hfallen)

theorem quiet_runCall {program : IrProgram} {runtime : Callee ω}
    (hruntime : runtime.Keeps State.Quiet) (fuel : Nat) :
    (runCall program runtime fuel).Keeps State.Quiet := by
  cases fuel with
  | zero => exact fun _ _ _ _ => keeps_throw _
  | succ fuel =>
      intro target moduleName functionName arguments
      cases target with
      | builtin => exact hruntime _ _ _ _
      | «local» | module =>
          refine (keeps_ofOption _).bind fun function => ?_
          exact quiet_callFunction (keeps_runCall hruntime.retires fuel) fuel function arguments

/-- The place of a rooted target that copies nothing is found without a copy. -/
theorem quiet_place (hcallee : callee.Keeps State.Quiet) {target : IrExpr}
    (hcopies : target.copiesNothing = true) (hrooted : target.Rooted) :
    Keeps State.Quiet (denote structs callee env target).place := by
  have hcalls : (quietRules ω).AllowsCalls callee :=
    fun _ _ _ _ _ => (quiet_evalCall hcallee _ _ _ _).satisfying Value.inside_all
  have hmeaning : (quietRules ω).AllowsMeaning (denote structs callee env target) target :=
    (quietRules ω).allows_denote hcalls target (fun _ _ _ _ => trivial) (.inr hcopies)
  exact (hmeaning.place (.inr (decide_eq_true hrooted))).keeps

end Semantics

end Cnegative
