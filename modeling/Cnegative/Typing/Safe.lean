import Cnegative.Backend.Compiled
import Cnegative.Typing.Sound

namespace Cnegative

open Library (Chain)

open Library.Runs

open Semantics

open Typing (TypeEnv exprTyped stmtTyped elseTyped stmtsTyped functionTyped programTyped
  assignable scopeAfter paramTypes)

namespace Llvm

variable {ω : Type}

/-! A typed statement of the core fragment goes wrong nowhere. -/

def flowTyped (returnType : TypeRef) : Flow → Prop
  | .next => True
  | .returned none => returnType = .void
  | .returned (some value) => value.HasType returnType

def Intact (frame : List Cell) (joint : Joint) (returnType : TypeRef) (flow : Flow)
    (state : State ω) : Prop :=
  Kept frame joint state ∧ flowTyped returnType flow

theorem asInt_sound {pre : State ω → Prop} {value : Value} (hvalue : value.HasType .int) :
    Sound pre value.asInt (fun _ state => pre state) := by
  cases hvalue
  exact .pure fun _ hpre => hpre

theorem round_again {pre : Prop} {post : Flow → Prop} (hpre : pre) :
    ((none : Option Flow) = none → pre) ∧ ∀ flow, none = some flow → post flow :=
  ⟨fun _ => hpre, fun _ hflow => absurd hflow (by simp)⟩

theorem round_over {pre : Prop} {post : Flow → Prop} {flow : Flow} (hpost : post flow) :
    (some flow = none → pre) ∧ ∀ found, some flow = some found → post found :=
  ⟨fun hnone => absurd hnone (by simp), fun _ hfound => Option.some.inj hfound ▸ hpost⟩

theorem iterate_sound {pre : State ω → Prop} {post : Flow → State ω → Prop}
    {body : Eval ω (Option Flow)}
    (hbody : Sound pre body (fun round state => (round = none → pre state) ∧
      ∀ flow, round = some flow → post flow state)) (rounds : Nat) :
    Sound pre (iterate body rounds) post := by
  induction rounds with
  | zero => exact .throw rfl
  | succ rounds ih =>
      rw [iterate]
      apply hbody.bind
      intro round
      cases round with
      | none => exact ih.weaken (fun _ hround => hround.1 rfl) fun _ _ hpost => hpost
      | some flow => exact .pure fun _ hround => hround.2 flow rfl

section

variable {frame : List Cell} {joint : Joint} {name : Name} {slot : Nat} {value : BitVec 64}

theorem load_counter_sound :
    Sound (Kept frame ((name, counterAt slot value) :: joint))
      (Eval.load ⟨slot, []⟩ : Eval ω Value) (fun found state =>
        Kept frame ((name, counterAt slot value) :: joint) state ∧ found.HasType .int) := by
  apply Triple.of_ok
  intro state hkept
  have ⟨joint', hlayout, hheld⟩ := hkept
  obtain ⟨counter, rest, rfl, hsame, -⟩ := Joint.layout_eq_cons hlayout
  obtain rfl := hsame rfl
  exact ⟨.int value, state, load_counter hheld, hkept, .int value⟩

theorem store_counter_sound (next : BitVec 64) :
    Sound (Kept frame ((name, counterAt slot value) :: joint))
      (Eval.store ⟨slot, []⟩ (.int next) : Eval ω Unit)
      (fun _ state => Kept frame ((name, counterAt slot next) :: joint) state) := by
  apply Triple.of_ok
  intro state hkept
  obtain ⟨joint', hlayout, hheld⟩ := hkept
  obtain ⟨counter, rest, rfl, hsame, hrest⟩ := Joint.layout_eq_cons hlayout
  obtain rfl := hsame rfl
  obtain ⟨after, hstore, hafter, -⟩ := store_counter hheld next
  refine ⟨(), after, hstore, _, ?_, hafter⟩
  simp only [Joint.layout, List.map_cons] at hrest ⊢
  rw [hrest]

end

section

variable {program : IrProgram} {fragment : Fragment} {callee : Callee ω} {structs : StructTable}
  {returnType : TypeRef} {fuel : Nat} {frame : List Cell} {joint : Joint} {env : Env}
  {types : TypeEnv}

theorem again_sound {run : Eval ω Flow}
    (hrun : Sound (Kept frame joint) run (Intact frame joint returnType)) :
    Sound (Kept frame joint) (do return (← run).again) (fun round state =>
      (round = none → Kept frame joint state) ∧
        ∀ flow, round = some flow → Intact frame joint returnType flow state) := by
  apply hrun.bind
  intro flow
  apply Triple.pure
  intro state hintact
  cases flow with
  | next => exact round_again hintact.1
  | returned value => exact round_over hintact

theorem condition_sound (hcallee : SoundCallee program fragment callee)
    (htotal : fragment.IsTotal) (hplaced : Placed joint env types) {condition : IrExpr}
    (htyped : exprTyped program types condition = true) (hbool : condition.type = .bool)
    (hcore : condition.isCore fragment = true) {α : Type} {branch : Bool → Eval ω α}
    {post : α → State ω → Prop} (hbranch : ∀ truth, Sound (Kept frame joint) (branch truth) post) :
    Sound (Kept frame joint)
      (do branch (← (← (denote structs callee env condition).value).asBool)) post := by
  have hcondition : Sound (Kept frame joint) (denote structs callee env condition).value
      (fun value state => Kept frame joint state ∧ value.HasType condition.type) :=
    denote_sound hcallee htotal hplaced condition htyped hcore
  rw [hbool] at hcondition
  exact choose_sound hcondition hbranch

theorem while_sound (hcallee : SoundCallee program fragment callee) (htotal : fragment.IsTotal)
    (hplaced : Placed joint env types) {condition : IrExpr} {body : List IrStmt}
    (htyped : exprTyped program types condition = true) (hbool : condition.type = .bool)
    (hcore : condition.isCore fragment = true)
    (hbody : Sound (Kept frame joint) (execStmts structs callee fuel env.push body)
      (Intact frame joint returnType)) (rounds : Nat) :
    Sound (Kept frame joint) (iterate (do
      if ← (← (denote structs callee env condition).value).asBool then
        return (← execStmts structs callee fuel env.push body).again
      else return some .next) rounds) (Intact frame joint returnType) := by
  apply iterate_sound
  refine condition_sound hcallee htotal hplaced htyped hbool hcore fun truth => ?_
  cases truth with
  | true => exact again_sound hbody
  | false =>
      apply Triple.pure
      intro state hkept
      exact round_over ⟨hkept, trivial⟩

theorem for_sound {name : Name} {body : List IrStmt} {slot : Nat} {last : BitVec 64}
    (hbody : ∀ value, Sound (Kept frame ((name, counterAt slot value) :: joint))
      (execStmts structs callee fuel ((env.push.define name slot).push) body)
      (Intact frame ((name, counterAt slot value) :: joint) returnType)) (rounds : Nat) :
    Sound (fun state => ∃ value, Kept frame ((name, counterAt slot value) :: joint) state)
      (iterate (do
        let current ← (← Eval.load ⟨slot, []⟩).asInt
        if current.slt last then
          match ← execStmts structs callee fuel ((env.push.define name slot).push) body with
          | .next => do
              let reached ← (← Eval.load ⟨slot, []⟩).asInt
              Eval.store ⟨slot, []⟩ (.int (reached + 1))
              return none
          | .returned value => return some (.returned value)
        else return some .next) rounds) (Intact frame joint returnType) := by
  apply iterate_sound
  apply Triple.of_exists
  intro value
  refine load_counter_sound.bind fun found => .of_and fun hfound =>
    (asInt_sound hfound).bind fun current => ?_
  cases current.slt last with
  | false =>
      apply Triple.pure
      intro state hkept
      exact round_over ⟨hkept.tail, trivial⟩
  | true =>
      refine (hbody value).bind fun flow => ?_
      cases flow with
      | next =>
          refine .of_and fun _ => load_counter_sound.bind fun reload => .of_and fun hreload =>
            (asInt_sound hreload).bind fun reached =>
              (store_counter_sound (reached + 1)).bind fun _ => ?_
          apply Triple.pure
          intro state hkept
          exact round_again ⟨reached + 1, hkept⟩
      | returned value =>
          apply Triple.pure
          intro state hintact
          exact round_over ⟨hintact.1.tail, hintact.2⟩

def Leaves (frame : List Cell) (joint : Joint) (returnType : TypeRef) (types : TypeEnv)
    (result : Env × Flow) (state : State ω) : Prop :=
  ∃ added : Joint, Placed (added ++ joint) result.1 types ∧
    Intact frame (added ++ joint) returnType result.2 state

theorem Placed.leaves (hplaced : Placed joint env types) {pre : State ω → Prop}
    {run : Eval ω Flow} (hrun : Sound pre run (Intact frame joint returnType)) :
    Sound pre (do return (env, ← run)) (Leaves frame joint returnType types) := by
  apply hrun.bind
  intro flow
  apply Triple.pure
  intro state hintact
  exact ⟨[], hplaced, hintact⟩

theorem assign_sound (hcallee : SoundCallee program fragment callee) (htotal : fragment.IsTotal)
    (hplaced : Placed joint env types) {type : TypeRef} {name : Name} {value : IrExpr}
    (htyped : stmtTyped program returnType types (.assign (.local type name) value) = true)
    (hcore : value.isCore fragment = true) :
    Sound (Kept frame joint) (execStmt structs callee fuel env (.assign (.local type name) value))
      (Leaves frame joint returnType types) := by
  simp only [stmtTyped, exprTyped, Bool.and_eq_true, decide_eq_true_eq] at htyped
  obtain ⟨⟨⟨htypeOf, hvalueTyped⟩, hsame⟩, hassignable⟩ := htyped
  obtain ⟨found, hfound, htype⟩ := Option.map_eq_some_iff.mp htypeOf
  have hmutable : found.2.isMutable = true := by simpa [assignable, hfound] using hassignable
  have hfind : (Chain.find? types name).map Prod.snd = some found.2 := by rw [hfound]; rfl
  obtain ⟨entry, hlookup, -⟩ := hplaced.entry_of_find hfind
  have hplace : Sound (Kept frame joint)
      (if (IrExpr.local type name).isPlace then (denote structs callee env (.local type name)).place
        else Eval.undefined)
      (fun place state => Kept frame joint state ∧ place = ⟨entry.slot, []⟩) := by
    apply Triple.of_ok
    intro state hkept
    exact ⟨_, state, local_place hplaced type hlookup state, hkept, rfl⟩
  rw [execStmt]
  refine hplace.bind fun place => .of_and fun hslot =>
    (denote_sound hcallee htotal hplaced value hvalueTyped hcore).bind fun stored =>
      .of_and fun hstored => .of_ok fun state hkept => ?_
  obtain ⟨joint', hlayout, hheld⟩ := hkept
  have hplaced' := hplaced.layout hlayout
  obtain ⟨entry', hlookup', hentry⟩ := hplaced'.entry_of_find hfind
  -- The scope binds the name to one cell, whatever the locals hold.
  have hcells : entry'.slot = entry.slot := by
    have hboth := (hplaced'.place hlookup' state).symm.trans (hplaced.place hlookup state)
    simpa using hboth
  rw [hentry] at htype hmutable
  obtain ⟨front, behind, hjoint, -⟩ := List.lookup_eq_some_iff.mp hlookup'
  have hhas : stored.HasType entry'.type := by
    rw [show entry'.type = value.type from htype.trans hsame]
    exact hstored
  obtain ⟨after, hstore, hafter, -⟩ :=
    store_eq stored (hheld.cell (name, entry') (by simp [hjoint]))
  obtain ⟨joint'', -, hlayout', hheld'⟩ := hheld.assign hlookup' hmutable hhas hafter
  rw [hslot, ← hcells]
  exact ⟨(env, .next), after, bind_of_ok hstore, [], hplaced,
    ⟨joint'', hlayout'.trans hlayout, hheld'⟩, trivial⟩

mutual

theorem execStmt_sound (hcallee : SoundCallee program fragment callee)
    (htotal : fragment.IsTotal) :
    (statement : IrStmt) → ∀ {joint : Joint} {env : Env} {types : TypeEnv},
      Placed joint env types → stmtTyped program returnType types statement = true →
      statement.isCore fragment = true →
        Sound (Kept frame joint) (execStmt structs callee fuel env statement)
          (Leaves frame joint returnType (scopeAfter types statement))
  | .letStmt name isMutable type initializer, joint, env, types, hplaced, htyped, hcore => by
      simp only [stmtTyped, Bool.and_eq_true, decide_eq_true_eq] at htyped
      obtain ⟨hinitializer, rfl⟩ := htyped
      rw [IrStmt.isCore] at hcore
      rw [execStmt]
      refine (denote_sound hcallee htotal hplaced initializer hinitializer hcore).bind fun value =>
        .of_and fun hvalue => .of_ok fun state hkept => ?_
      exact ⟨(env.define name state.cells.length, .next), state.allocate .stack value, rfl,
        [(name, ⟨initializer.type, isMutable, 0, state.cells.length, value⟩)],
        hplaced.define name ⟨initializer.type, isMutable, 0, state.cells.length, value⟩,
        hkept.allocate hvalue name isMutable, trivial⟩
  | .assign target value, joint, env, types, hplaced, htyped, hcore => by
      cases target with
      | «local» type name => exact assign_sound hcallee htotal hplaced htyped hcore
      | int | bool | string | null | unary | binary | ifExpr | call | arrayLiteral
      | sliceFromArray | index | sliceView | field | structLiteral | ok | err | alloc | zalloc
      | addr | deref => simp [IrStmt.isCore] at hcore
  | .returnStmt value, joint, env, types, hplaced, htyped, hcore => by
      rw [execStmt]
      cases value with
      | none =>
          apply Triple.pure
          intro state hkept
          exact ⟨[], hplaced, hkept, by simpa [stmtTyped, flowTyped] using htyped⟩
      | some value =>
          simp only [stmtTyped, Bool.and_eq_true, decide_eq_true_eq] at htyped
          obtain ⟨hvalueTyped, rfl⟩ := htyped
          have hvalue : Sound (Kept frame joint) (denote structs callee env value).value
              (fun found state => Kept frame joint state ∧ found.HasType value.type) :=
            denote_sound hcallee htotal hplaced value hvalueTyped
              (by simpa [IrStmt.isCore] using hcore)
          refine (hvalue.bind fun found => .pure fun state hfound => hfound : Sound
            (Kept frame joint) (returnValue structs callee env (some value))
            (fun result state => Kept frame joint state ∧
              flowTyped value.type (.returned result))).bind fun result => ?_
          exact .pure fun state hintact => ⟨[], hplaced, hintact⟩
  | .expr value, joint, env, types, hplaced, htyped, hcore => by
      rw [Typing.stmtTyped_expr] at htyped
      rw [IrStmt.isCore] at hcore
      rw [execStmt]
      refine (denote_sound hcallee htotal hplaced value htyped hcore).bind fun found => ?_
      exact .pure fun state hfound => ⟨[], hplaced, hfound.1, trivial⟩
  | .ifStmt condition thenBlock elseBlock, joint, env, types, hplaced, htyped, hcore => by
      simp only [stmtTyped, Bool.and_eq_true, decide_eq_true_eq] at htyped
      simp only [IrStmt.isCore, Bool.and_eq_true] at hcore
      obtain ⟨⟨⟨hconditionTyped, hbool⟩, hthen⟩, helse⟩ := htyped
      rw [execStmt]
      refine condition_sound hcallee htotal hplaced hconditionTyped hbool hcore.1.1 fun truth => ?_
      cases truth with
      | true =>
          exact hplaced.leaves (execStmts_sound hcallee htotal thenBlock hplaced.push hthen
            hcore.1.2)
      | false =>
          exact hplaced.leaves (execElse_sound hcallee htotal elseBlock hplaced helse hcore.2)
  | .whileStmt condition body, joint, env, types, hplaced, htyped, hcore => by
      simp only [stmtTyped, Bool.and_eq_true, decide_eq_true_eq] at htyped
      simp only [IrStmt.isCore, Bool.and_eq_true] at hcore
      obtain ⟨⟨hcondition, hbool⟩, hbodyTyped⟩ := htyped
      rw [execStmt]
      exact hplaced.leaves (while_sound hcallee htotal hplaced hcondition hbool hcore.1
        (execStmts_sound hcallee htotal body hplaced.push hbodyTyped hcore.2) fuel)
  | .loop body, joint, env, types, hplaced, htyped, hcore => by
      rw [stmtTyped] at htyped
      rw [IrStmt.isCore] at hcore
      rw [execStmt]
      exact hplaced.leaves (iterate_sound (again_sound
        (execStmts_sound hcallee htotal body hplaced.push htyped hcore)) fuel)
  | .forStmt name type start stop body, joint, env, types, hplaced, htyped, hcore => by
      simp only [stmtTyped, Bool.and_eq_true, decide_eq_true_eq] at htyped
      simp only [IrStmt.isCore, Bool.and_eq_true] at hcore
      obtain ⟨⟨⟨⟨⟨-, hstartTyped⟩, hstartType⟩, hstopTyped⟩, hstopType⟩, hbodyTyped⟩ := htyped
      rw [execStmt]
      refine (denote_sound hcallee htotal hplaced start hstartTyped hcore.1.1).bind fun first =>
        .of_and fun hfirst =>
          (denote_sound hcallee htotal hplaced stop hstopTyped hcore.1.2).bind fun last =>
            .of_and fun hlast => ?_
      rw [hstartType] at hfirst
      rw [hstopType] at hlast
      refine (asInt_sound hlast).bind fun number => ?_
      cases hfirst with
      | int value =>
          intro state hkept
          have hcounter : Eval.allocate .stack (.int value) state =
              .ok ⟨state.cells.length, []⟩ (state.allocate .stack (.int value)) := rfl
          rw [bind_of_ok hcounter]
          have hbody := fun value => execStmts_sound hcallee htotal body
            ((hplaced.push.define name (counterAt state.cells.length value)).push) hbodyTyped
            hcore.2
          exact hplaced.leaves (for_sound hbody fuel)
            ⟨value, hkept.allocate (.int value) name false⟩
  | .zone _ _, _, _, _, _, _, hcore | .free _, _, _, _, _, _, hcore => by
      simp [IrStmt.isCore] at hcore

theorem execElse_sound (hcallee : SoundCallee program fragment callee)
    (htotal : fragment.IsTotal) :
    (block : Option (List IrStmt)) → ∀ {joint : Joint} {env : Env} {types : TypeEnv},
      Placed joint env types → elseTyped program returnType types block = true →
      elseCore fragment block = true →
        Sound (Kept frame joint) (execElse structs callee fuel env block)
          (Intact frame joint returnType)
  | none, _, _, _, _, _, _ => .pure fun _ hkept => ⟨hkept, trivial⟩
  | some block, _, _, _, hplaced, htyped, hcore =>
      execStmts_sound hcallee htotal block hplaced.push htyped hcore

theorem execStmts_sound (hcallee : SoundCallee program fragment callee)
    (htotal : fragment.IsTotal) :
    (block : List IrStmt) → ∀ {joint : Joint} {env : Env} {types : TypeEnv},
      Placed joint env types → stmtsTyped program returnType types block = true →
      blockCore fragment block = true →
        Sound (Kept frame joint) (execStmts structs callee fuel env block)
          (Intact frame joint returnType)
  | [], joint, env, types, _, _, _ => by
      rw [execStmts]
      exact .pure fun _ hkept => ⟨hkept, trivial⟩
  | statement :: rest, joint, env, types, hplaced, htyped, hcore => by
      rw [Typing.stmtsTyped_cons, Bool.and_eq_true] at htyped
      simp only [blockCore, Bool.and_eq_true] at hcore
      rw [execStmts]
      apply (execStmt_sound hcallee htotal statement hplaced htyped.1 hcore.1).bind
      intro result
      obtain ⟨after, flow⟩ := result
      apply Triple.of_exists
      intro added
      cases flow with
      | next =>
          rintro state ⟨hplaced', hkept, -⟩
          exact (execStmts_sound hcallee htotal rest hplaced' htyped.2 hcore.2).weaken
            (fun _ hstate => hstate) (fun _ _ hintact => ⟨hintact.1.drop, hintact.2⟩) hkept
      | returned value =>
          exact .pure fun _ hleaves => ⟨hleaves.2.1.drop, hleaves.2.2⟩

end

end

/-! Calls, and the program as a whole. -/

section

variable {program : IrProgram} {fragment : Fragment} {callee : Callee ω} {structs : StructTable}

theorem bindArguments_sound {frame : List Cell} {params : List Param} {arguments : List Value}
    {joint : Joint} {env : Env} {types : TypeEnv} (hplaced : Placed joint env types)
    (harguments : List.Forall₂ (fun param value => Value.HasType value param.type) params
      arguments) :
    Sound (Kept frame joint) (bindArguments env params arguments : Eval ω Env) (fun env' state =>
      ∃ joint', Kept frame joint' state ∧ Placed joint' env' (params.foldl (fun typeEnv param =>
        typeEnv.define param.name param.type false) types)) := by
  induction harguments generalizing joint env types with
  | nil =>
      rw [bindArguments]
      exact .pure fun _ hkept => ⟨joint, hkept, hplaced⟩
  | @cons param value params arguments hvalue _ ih =>
      intro state hkept
      have hplace : Eval.allocate .stack value state =
          .ok ⟨state.cells.length, []⟩ (state.allocate .stack value) := rfl
      rw [bindArguments, bind_of_ok hplace]
      exact ih (hplaced.define param.name ⟨param.type, false, 0, state.cells.length, value⟩)
        (hkept.allocate hvalue param.name false)

theorem fallOff_sound {pre : State ω → Prop} {returnType : TypeRef} {flow : Flow}
    (hflow : flowTyped returnType flow) (hnext : flow = .next → returnType = .void) :
    Sound pre (fallOff returnType flow)
      (fun value state => pre state ∧ value.HasType returnType) := by
  cases flow with
  | next =>
      obtain rfl := hnext rfl
      exact .pure fun _ hpre => ⟨hpre, .void⟩
  | returned value =>
      cases value with
      | none =>
          obtain rfl : returnType = .void := hflow
          exact .pure fun _ hpre => ⟨hpre, .void⟩
      | some value => exact .pure fun _ hpre => ⟨hpre, hflow⟩

theorem callFunction_sound (hcallee : SoundCallee program fragment callee)
    (htotal : fragment.IsTotal) {fuel : Nat} {function : IrFunction} {arguments : List Value}
    (htyped : functionTyped program function = true)
    (hcore : blockCore fragment function.body = true)
    (hleaves : function.returnType ≠ .void → blockLeaves function.body = true)
    (harguments : List.Forall₂ (fun param value => Value.HasType value param.type)
      function.parameters arguments) (cells : List Cell) :
    Sound (fun state => cells <+: state.cells)
      (callFunction structs callee fuel function arguments)
      (fun value state => cells <+: state.cells ∧ value.HasType function.returnType) := by
  intro state hbefore
  have hget : (get : Eval ω (State ω)) state = .ok state state := rfl
  rw [callFunction, bind_of_ok hget]
  have hplaced : Placed [] (Env.push []) (TypeEnv.push []) :=
    ⟨List.cons_ne_nil _ _, List.cons_ne_nil _ _, rfl, rfl⟩
  have hkept : Kept state.cells [] state :=
    ⟨[], rfl, List.prefix_rfl, by simp, by simp, by simp, List.nodup_nil⟩
  have hbody : Sound (Kept state.cells []) (do
      let env ← bindArguments (Env.push []) function.parameters arguments
      let flow ← execStmts structs callee fuel env function.body
      let value ← fallOff function.returnType flow
      modify fun state' => state'.dropFrame state.cells.length
      return value)
      (fun value after => state.cells <+: after.cells ∧ value.HasType function.returnType) := by
    apply (bindArguments_sound hplaced harguments).bind
    intro env
    refine .of_exists fun joint => .of_and fun hplaced' => ?_
    have hexec : Sound (Kept state.cells joint) (execStmts structs callee fuel env function.body)
        (Intact state.cells joint function.returnType) :=
      execStmts_sound hcallee htotal function.body hplaced' htyped hcore
    refine (hexec.strengthen fun before flow after hrun hnext => ?_).bind fun flow =>
      .of_and fun hnext => .of_and fun hflow => (fallOff_sound hflow hnext).bind fun value =>
        .of_and fun hvalue => .of_ok fun last hlast => ?_
    · by_contra hvoid
      subst hnext
      exact execStmts_leaves function.body (hleaves hvoid) hrun
    · exact ⟨value, last.dropFrame state.cells.length, rfl, prefix_dropFrame hlast.frame_prefix,
        hvalue⟩
  exact hbody.weaken (fun _ hstate => hstate) (fun _ _ hend => ⟨hbefore.trans hend.1, hend.2⟩) hkept

/-- The offered builtins end well, leave the cells of their callers alone and return values of
their types. -/
def SoundRuntime (fragment : Fragment) (runtime : Callee ω) : Prop :=
  ∀ ⦃type moduleName functionName types arguments⦄,
    fragment.offers type moduleName functionName types = true →
    List.Forall₂ Value.HasType arguments types →
    ∀ cells : List Cell, Sound (fun state => cells <+: state.cells)
      (runtime .builtin moduleName functionName arguments)
      (fun value state => cells <+: state.cells ∧ value.HasType type)

theorem functionTyped_of_programTyped (htyped : programTyped program = true)
    {moduleName functionName : Name} {function : IrFunction}
    (hfunction : program.findFunction moduleName functionName = some function) :
    functionTyped program function = true := by
  obtain ⟨module, hmodule, hmember⟩ := IrProgram.mem_of_findFunction hfunction
  simp only [programTyped, List.all_eq_true, Bool.and_eq_true] at htyped
  exact (htyped module hmodule).2 function hmember

theorem runCall_sound {runtime : Callee ω} (htyped : programTyped program = true)
    (hcore : program.isCore fragment = true) (htotal : fragment.IsTotal)
    (hleaves : ∀ module ∈ program.modules, ∀ function ∈ module.functions,
      function.returnType ≠ .void → blockLeaves function.body = true)
    (hruntime : SoundRuntime fragment runtime) (fuel : Nat) :
    SoundCallee program fragment (runCall program runtime fuel) := by
  induction fuel with
  | zero =>
      intro type target moduleName functionName types arguments _ _ _ cells
      exact .throw rfl
  | succ fuel ih =>
      intro type target moduleName functionName types arguments hcall hoffered harguments cells
      cases target with
      | builtin => exact hruntime (Bool.and_eq_true_iff.mp hoffered).1 harguments cells
      | «local» | module =>
          cases hfunction : program.findFunction moduleName functionName with
          | none => simp [Typing.callTyped, hfunction] at hcall
          | some function =>
              simp only [Typing.callTyped, hfunction, Bool.and_eq_true, decide_eq_true_eq] at hcall
              obtain ⟨rfl, rfl⟩ := hcall
              have hpassed : List.Forall₂ (fun param value => Value.HasType value param.type)
                  function.parameters arguments :=
                (List.forall₂_map_right_iff.mp harguments).flip
              obtain ⟨module, hmodule, hmember⟩ := IrProgram.mem_of_findFunction hfunction
              simp only [runCall, hfunction, Eval.ofOption, pure_bind]
              exact callFunction_sound ih htotal (functionTyped_of_programTyped htyped hfunction)
                (IrProgram.blockCore_of_isCore hcore hfunction)
                (hleaves module hmodule function hmember) hpassed cells

end

/-- Accepted programs of the core fragment do not go wrong.  That their lowering is typed is a
condition of its own: `literal_branch_loses_type`, `deferred_name_loses_type`. -/
theorem accepted_core_program_sound {ω : Type} (project : Project) (program : IrProgram)
    (fragment : Fragment) (runtime : Callee ω) (fuel : Nat) (moduleName functionName : Name)
    (function : IrFunction) (arguments : List Value) (state : State ω)
    (haccepted : Check.Accepted project) (hlowered : Lower.lowerProject project = some program)
    (htyped : programTyped program = true) (hcore : program.isCore fragment = true)
    (htotal : fragment.IsTotal) (hruntime : SoundRuntime fragment runtime)
    (hfunction : program.findFunction moduleName functionName = some function)
    (harguments : List.Forall₂ (fun param value => Value.HasType value param.type)
      function.parameters arguments) :
    (∀ value after,
      runCall program runtime fuel .local moduleName functionName arguments state =
        .ok value after → value.HasType function.returnType ∧ state.cells <+: after.cells) ∧
    ∀ fault after,
      runCall program runtime fuel .local moduleName functionName arguments state =
        .error fault after → fault = .outOfFuel := by
  have hcallee := runCall_sound htyped hcore htotal (Lower.lowerProject_leaves haccepted hlowered)
    hruntime fuel
  have hcall : Typing.callTyped program function.returnType .local moduleName functionName
      (function.parameters.map (·.type)) = true := by
    simp [Typing.callTyped, hfunction]
  have hpassed : List.Forall₂ Value.HasType arguments (function.parameters.map (·.type)) :=
    List.forall₂_map_right_iff.mpr harguments.flip
  obtain ⟨hok, herror⟩ := hcallee hcall rfl hpassed state.cells
    (List.prefix_rfl : state.cells <+: state.cells)
  exact ⟨fun value after hrun => ⟨(hok hrun).2, (hok hrun).1⟩, fun fault after hrun => herror hrun⟩

/-- `let mut n:int = 7; for i in 0..3 { n = n * 2 % 10; } println(n); return n;` -/
def digitBody : Block := [
  .letStmt "n" true .int (.int 7),
  .forStmt "i" .int (.int 0) (.int 3) [
    .assign (.name "n") (.binary .mod (.binary .mul (.name "n") (.int 2)) (.int 10))],
  .expr (.call (.name "println") [.name "n"]),
  .returnStmt (some (.name "n"))]

theorem println_sound : SoundRuntime printingFragment printer := by
  intro type moduleName functionName types arguments hoffers harguments cells
  simp only [printingFragment, Bool.and_eq_true, decide_eq_true_eq] at hoffers
  obtain ⟨⟨⟨rfl, rfl⟩, rfl⟩, rfl⟩ := hoffers
  cases harguments with
  | cons hnumber hrest =>
      cases hrest
      cases hnumber with
      | int number =>
          apply Triple.of_ok
          intro state hbefore
          exact ⟨.void, { state with world := number :: state.world }, rfl, hbefore, .void⟩

def digitProgram : IrProgram := ⟨[⟨"main", [], [], [⟨false, "main", "main", .int, [], [
  .letStmt "n" true .int (.int .int 7),
  .forStmt "i" .int (.int .int 0) (.int .int 3) [
    .assign (.local .int "n") (.binary .int .mod
      (.binary .int .mul (.local .int "n") (.int .int 2)) (.int .int 10))],
  .expr (.call .void .builtin "" "println" [.local .int "n"]),
  .returnStmt (some (.local .int "n"))]⟩]⟩]⟩

def faultOf : EStateM.Result Fault (State ω) Value → Option Fault
  | .ok _ _ => none
  | .error fault _ => some fault

theorem digit_program_sound :
    ∃ value after, runCall digitProgram printer 5 .local "main" "main" [] ⟨[], [], [], []⟩ =
      .ok value after ∧ value.HasType .int := by
  have hnone : faultOf (runCall digitProgram printer 5 .local "main" "main" [] ⟨[], [], [], []⟩) =
      none := by decide +kernel
  have hsound := accepted_core_program_sound (mainProject digitBody) digitProgram printingFragment
    printer 5 "main" "main" _ [] ⟨[], [], [], []⟩ (by decide +kernel) rfl (by decide +kernel)
    (by decide +kernel) (fun _ _ _ htotal => htotal) println_sound rfl .nil
  cases hrun : runCall digitProgram printer 5 .local "main" "main" [] ⟨[], [], [], []⟩ with
  | ok value after => exact ⟨value, after, rfl, (hsound.1 value after hrun).1⟩
  | error fault after =>
      rw [hrun] at hnone
      cases hnone

/-! Acceptance does not type the lowering. -/

/-- An accepted program of the core fragment with an ill-typed lowering. -/
def LosesTypes (body : Block) : Prop :=
  ∃ program, Check.Accepted (mainProject body) ∧
    Lower.lowerProject (mainProject body) = some program ∧
    program.isCore printingFragment = true ∧ programTyped program = false

/-- `let b:u8 = 1; println(if true { 5 } else { b }); return 0;`: the checker goes back to the
literal with the type of its peer, the lowering does not. -/
theorem literal_branch_loses_type : LosesTypes [
    .letStmt "b" false .u8 (.int 1),
    .expr (.call (.name "println") [.ifExpr (.bool true) (.int 5) (.name "b")]),
    .returnStmt (some (.int 0))] :=
  ⟨_, by decide +kernel, rfl, by decide +kernel, by decide +kernel⟩

/-- `let n:int = 1; defer println(n); if true { let n:bool = true; return 0; } return 0;`: the
deferred call is put behind the inner `n`, which is no `int`. -/
theorem deferred_name_loses_type : LosesTypes [
    .letStmt "n" false .int (.int 1),
    .defer (.expr (.call (.name "println") [.name "n"])),
    .ifStmt (.bool true) [
      .letStmt "n" false .bool (.bool true),
      .returnStmt (some (.int 0))] none,
    .returnStmt (some (.int 0))] :=
  ⟨_, by decide +kernel, rfl, by decide +kernel, by decide +kernel⟩

end Llvm

end Cnegative
