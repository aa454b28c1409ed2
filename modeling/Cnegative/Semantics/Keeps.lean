import Cnegative.Semantics.Returns
import Cnegative.Semantics.Rules

namespace Cnegative

namespace Semantics

open Library.Runs

variable {ω α β : Type}

/-! What a run of the program keeps of the state, from what its steps keep. -/

theorem store?_eq_some {state after : State ω} {place : Place} {value : Value}
    (hstored : state.store? place value = some after) :
    ∃ cell changed, state.cells[place.cell]? = some cell ∧ cell.live = true ∧
      cell.value.set? value place.path = some changed ∧
      after = { state with
        cells := state.cells.set place.cell { cell with value := changed }
        events := .store place value :: state.events } := by
  simp only [State.store?, Option.bind_eq_bind, Option.bind_eq_some_iff] at hstored
  obtain ⟨cell, hcell, hstored⟩ := hstored
  split at hstored
  · next hlive =>
      simp only [Option.bind_eq_some_iff, Option.pure_def, Option.some.injEq] at hstored
      obtain ⟨changed, hchanged, hafter⟩ := hstored
      exact ⟨cell, changed, hcell, hlive, hchanged, hafter.symm⟩
  · cases hstored

class Allocating (related : State ω → State ω → Prop) : Prop
    extends Std.Refl related, IsTrans (State ω) related where
  allocate : ∀ state storage value, related state (State.allocate state storage value)

class Growing (related : State ω → State ω → Prop) : Prop extends Allocating related where
  log : ∀ state event, related state (State.log state event)
  kill : ∀ state dies, related state (State.kill state dies)
  store : ∀ {state after place value}, State.store? state place value = some after →
    related state after
  enterZone : ∀ state : State ω, related state { state with
    zones := state.zones ++ [true]
    events := .zoneEnter state.zones.length :: state.events }
  releaseZone : ∀ state handle, related state (State.releaseZone state handle)

def Callee.Keeps (related : State ω → State ω → Prop) (callee : Callee ω) : Prop :=
  ∀ target moduleName functionName arguments,
    Library.Runs.Keeps related (callee target moduleName functionName arguments)

def Callee.CallsKeep (related : State ω → State ω → Prop) (callee : Callee ω) : Prop :=
  ∀ target moduleName functionName arguments,
    Library.Runs.Keeps related (evalCall callee target moduleName functionName arguments)

theorem ofOption_eq_ok {option : Option α} {a : α} {state after : State ω} :
    (Eval.ofOption option : Eval ω α) state = .ok a after ↔ option = some a ∧ state = after := by
  cases option with
  | none =>
      constructor
      · intro hrun
        cases hrun
      · rintro ⟨hnone, -⟩
        cases hnone
  | some value => rw [Eval.ofOption, pure_eq_ok, Option.some.injEq]

theorem store_eq_ok {place : Place} {value : Value} {state after : State ω} :
    Eval.store place value state = .ok () after ↔ state.store? place value = some after := by
  refine ⟨fun hrun => ?_, fun hstored => ?_⟩
  · obtain ⟨current, middle, hget, hset⟩ := bind_eq_ok.mp hrun
    obtain ⟨changed, behind, hchanged, hput⟩ := bind_eq_ok.mp hset
    cases hget
    obtain ⟨hstored, rfl⟩ := ofOption_eq_ok.mp hchanged
    cases hput
    exact hstored
  · refine bind_eq_ok.mpr ⟨state, state, rfl, ?_⟩
    exact bind_eq_ok.mpr ⟨after, state, ofOption_eq_ok.mpr ⟨hstored, rfl⟩, rfl⟩

section Expressions

variable {related : State ω → State ω → Prop}

theorem keeps_undefined : Keeps related (Eval.undefined : Eval ω α) :=
  keeps_throw _

section

variable [Std.Refl related] [IsTrans (State ω) related]

omit [IsTrans (State ω) related] in
theorem keeps_ofOption (value : Option α) : Keeps related (Eval.ofOption value : Eval ω α) := by
  cases value with
  | none => exact keeps_undefined
  | some value => exact keeps_pure value

theorem keeps_load (place : Place) : Keeps related (Eval.load place : Eval ω Value) :=
  keeps_get.bind fun _ => keeps_ofOption _

theorem keeps_equal (left right : Value) :
    Keeps related (Eval.equal left right : Eval ω Bool) := by
  refine keeps_get.bind fun state => keeps_get.bind fun _ => ?_
  exact Keeps.ite (keeps_ofOption _) keeps_undefined

end

variable [Allocating related]

theorem allocate_eq_ok {storage : Storage} {value : Value} {state after : State ω}
    {place : Place} (hrun : Eval.allocate storage value state = .ok place after) :
    place = ⟨state.cells.length, []⟩ ∧ after = state.allocate storage value := by
  cases hrun
  exact ⟨rfl, rfl⟩

theorem keeps_allocate (storage : Storage) (value : Value) :
    Keeps related (Eval.allocate storage value : Eval ω Place) := by
  intro state place after hrun
  obtain ⟨-, rfl⟩ := allocate_eq_ok hrun
  exact Allocating.allocate state storage value

theorem keeps_zoneAllocate (zone value : Value) :
    Keeps related (Eval.zoneAllocate zone value : Eval ω Value) := by
  unfold Eval.zoneAllocate
  split
  · refine keeps_get.bind fun state => Keeps.ite ?_ keeps_undefined
    exact (keeps_allocate _ _).bind fun _ => keeps_pure _
  · exact keeps_pure _
  · exact keeps_undefined

def keepsExprRules (related : State ω → State ω → Prop) [Allocating related] : ExprRules ω where
  region := .all
  copies := true
  Allows run P := KeepsWith related run P
  allows_pure := keepsWith_pure
  allows_throw := keepsWith_throw
  allows_bind := KeepsWith.bind
  allows_load _ := (keeps_load _).satisfying Value.inside_all
  allows_allocate _ _ := (keeps_allocate _ _).satisfying fun _ => trivial
  allows_equal _ _ := (keeps_equal _ _).satisfying fun _ => trivial
  allows_zoneAllocate _ _ := (keeps_zoneAllocate _ _).satisfying Value.inside_all

structure Meaning.Keeps (related : State ω → State ω → Prop) (meaning : Meaning ω) : Prop where
  value : Library.Runs.Keeps related meaning.value
  place : Library.Runs.Keeps related meaning.place

theorem keeps_denote {structs : StructTable} {callee : Callee ω} {env : Env}
    (hcalls : callee.CallsKeep related) (expression : IrExpr) :
    (denote structs callee env expression).Keeps related := by
  have hdenote : (keepsExprRules related).AllowsMeaning (denote structs callee env expression)
      expression := (keepsExprRules related).allows_denote
      (fun _ _ _ _ _ => (hcalls _ _ _ _).satisfying Value.inside_all) expression
      (fun _ _ _ _ => trivial) (.inl rfl)
  exact ⟨hdenote.value.keeps, (hdenote.place (.inl rfl)).keeps⟩

end Expressions

/-! Statements and calls. -/

section Statements

variable {related : State ω → State ω → Prop} [Growing related]

theorem keeps_log (event : Event) : Keeps related (Eval.log event : Eval ω Unit) :=
  keeps_modify fun state => Growing.log state event

theorem keeps_releaseZone (value : Value) :
    Keeps related (Eval.releaseZone value : Eval ω Unit) := by
  unfold Eval.releaseZone
  split
  · refine keeps_get.bind fun _ => Keeps.ite (keeps_modify ?_) keeps_undefined
    exact fun state => Growing.releaseZone state _
  · exact keeps_pure _
  · exact keeps_undefined

theorem keeps_store (place : Place) (value : Value) :
    Keeps related (Eval.store place value : Eval ω Unit) :=
  fun _ _ _ hrun => Growing.store (store_eq_ok.mp hrun)

theorem keeps_enterZone : Keeps related (Eval.enterZone : Eval ω Nat) := by
  intro state handle after hrun
  cases hrun
  exact Growing.enterZone state

theorem keeps_free (value : Value) : Keeps related (Eval.free value : Eval ω Unit) := by
  have hkill : ∀ dies : Nat → Cell → Bool, Keeps related
      (modify (fun state => state.kill dies) : Eval ω Unit) :=
    fun dies => keeps_modify fun state => Growing.kill state dies
  unfold Eval.free
  split
  · refine keeps_get.bind fun state => ?_
    split
    · exact Keeps.ite ((hkill _).bind fun _ => keeps_log _) keeps_undefined
    · exact keeps_undefined
  · exact (hkill _).bind fun _ => keeps_log _
  · exact keeps_log _
  · exact keeps_log _
  · exact keeps_undefined

theorem keeps_activation {P : α → Prop} {body : Eval ω α} (hbody : KeepsWith related body P) :
    KeepsWith related (do
      let base := (← get).cells.length
      let a ← body
      modify fun state => state.dropFrame base
      return a) P := by
  have hdrop : ∀ base, Keeps related
      (modify (fun state => state.dropFrame base) : Eval ω Unit) :=
    fun base => keeps_modify fun state => Growing.kill state _
  refine (keeps_get.satisfying fun _ => trivial).bind fun state _ => hbody.bind fun a ha => ?_
  exact ((hdrop _).satisfying fun _ => trivial).bind fun _ _ => keepsWith_pure a ha

def keepsRules (related : State ω → State ω → Prop) [Growing related] : StmtRules ω where
  toExprRules := keepsExprRules related
  copies_eq := rfl
  allows_log _ := (keeps_log _).satisfying fun _ => trivial
  allows_releaseZone _ := (keeps_releaseZone _).satisfying fun _ => trivial
  allows_store _ _ := (keeps_store _ _).satisfying fun _ => trivial
  allows_enterZone := keeps_enterZone.satisfying fun _ => trivial
  allows_free _ := (keeps_free _).satisfying fun _ => trivial
  allows_activation := keeps_activation

theorem Callee.Keeps.allows {callee : Callee ω} (hcallee : callee.Keeps related) :
    (keepsRules related).AllowsCallee callee :=
  fun _ _ _ _ _ => (hcallee _ _ _ _).satisfying Value.inside_all

theorem keeps_evalCall {callee : Callee ω} (hcallee : callee.Keeps related) :
    callee.CallsKeep related :=
  fun _ _ _ arguments => ((keepsRules related).allows_evalCall hcallee.allows _ _ _ arguments
    (Value.itemsInside_all arguments)).keeps

theorem keeps_runCall {program : IrProgram} {runtime : Callee ω}
    (hruntime : runtime.Keeps related) (fuel : Nat) :
    (runCall program runtime fuel).Keeps related :=
  fun _ _ _ arguments => ((keepsRules related).allows_runCall hruntime.allows fuel _ _ _ arguments
    (Value.itemsInside_all arguments)).keeps

end Statements

end Semantics

end Cnegative
