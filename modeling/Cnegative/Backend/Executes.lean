import Cnegative.Backend.Denotes

namespace Cnegative

open Library (Chain)

open Library.Runs (bind_eq_ok pure_eq_ok)

open Scalar (Oracle Outside Outcome Exec Store Local eval range range_of_lt range_of_le)

open Semantics

open Typing (TypeEnv exprTyped stmtTyped elseTyped stmtsTyped assignable scopeAfter)

namespace Llvm

variable {ω : Type}

/-! A block that runs in the memory runs without it too, to the same end. -/

/-- The end of a run in the memory, and its end without it. -/
inductive Ends (frame : List Cell) (joint : Joint) (after : State ω) : Flow → Outcome ω → Prop where
  | next {joint' : Joint} {outside : Outside ω} :
      joint'.layout = joint.layout → Housed frame joint' after → outside.world = after.world →
      Ends frame joint after .next (.next joint'.store outside)
  | returned {value : Option Value} {outside : Outside ω} :
      frame <+: after.cells → outside.world = after.world →
      Ends frame joint after (.returned value) (.returned (value.getD .void) outside)

namespace Ends

variable {frame : List Cell} {joint : Joint} {after : State ω} {flow : Flow} {outcome : Outcome ω}

theorem layout {joint' : Joint} (hends : Ends frame joint' after flow outcome)
    (hlayout : joint'.layout = joint.layout) : Ends frame joint after flow outcome := by
  cases hends with
  | next hlayout' hheld hworld => exact .next (hlayout'.trans hlayout) hheld hworld
  | returned hframe hworld => exact .returned hframe hworld

/-- The newest local ends. -/
theorem leave {name : Name} {entry : Entry}
    (hends : Ends frame ((name, entry) :: joint) after flow outcome) :
    Ends frame joint after flow outcome.leave := by
  cases hends with
  | next hlayout hheld hworld =>
      obtain ⟨entry', rest, rfl, -, hrest⟩ := Joint.layout_eq_cons hlayout
      exact .next hrest hheld.tail hworld
  | returned hframe hworld => exact .returned hframe hworld

end Ends

section

variable {program : IrProgram} {fragment : Fragment}
  {oracle : Oracle ω} {callee : Callee ω} {structs : StructTable} {returnType : TypeRef}
  {fuel : Nat} {frame : List Cell} {joint : Joint} {env : Env} {types : TypeEnv}

/-- A run that ends well does what the task says. -/
def Executes (oracle : Oracle ω) (frame : List Cell) (joint : Joint) (run : Eval ω Flow)
    (task : Scalar.Task) : Prop :=
  ∀ ⦃joint' : Joint⦄ ⦃state after flow outside⦄, joint'.layout = joint.layout →
    Housed frame joint' state → outside.world = state.world → run state = .ok flow after →
      ∃ outcome, Exec oracle joint'.store outside task outcome ∧
        Ends frame joint after flow outcome

/-- What is known of the body of a loop. -/
theorem again_eq_ok {run : Eval ω Flow} {state after : State ω} {round : Option Flow}
    (hrun : (do return (← run).again) state = .ok round after) :
    ∃ flow, run state = .ok flow after ∧ round = flow.again := by
  obtain ⟨flow, middle, hflow, hround⟩ := bind_eq_ok.mp hrun
  obtain ⟨rfl, rfl⟩ := pure_eq_ok.mp hround
  exact ⟨flow, hflow, rfl⟩

/-- A condition, read as a truth value. -/
theorem condition_evaluates (hfollows : Follows program fragment oracle callee)
    (hplaced : Placed joint env types) {condition : IrExpr}
    (htyped : exprTyped program types condition = true) (hcore : condition.isCore fragment = true)
    {joint' : Joint} (hlayout : joint'.layout = joint.layout)
    {state middle after : State ω} {outside : Outside ω} {value : Value} {truth : Bool}
    (hheld : Housed frame joint' state) (hworld : outside.world = state.world)
    (hvalue : (denote structs callee env condition).value state = .ok value middle)
    (htruth : value.asBool middle = .ok truth after) :
    ∃ outside', eval oracle joint'.store condition outside = some (.bool truth, outside') ∧
      outside'.world = after.world ∧ Housed frame joint' after := by
  obtain ⟨rfl, rfl⟩ := asBool_eq_ok_iff.mp htruth
  obtain ⟨outside', heval, hworld', hgrow, -⟩ :=
    denote_evaluates hfollows (hplaced.layout hlayout) condition htyped hcore hheld hworld hvalue
  exact ⟨outside', heval, hworld', hheld.grow hgrow⟩

theorem while_executes (hfollows : Follows program fragment oracle callee)
    (hplaced : Placed joint env types) {condition : IrExpr} {body : List IrStmt}
    (htyped : exprTyped program types condition = true) (hcore : condition.isCore fragment = true)
    (hbody : Executes oracle frame joint (execStmts structs callee fuel env.push body)
      (.block body)) (rounds : Nat) :
    Executes oracle frame joint (iterate (do
      if ← (← (denote structs callee env condition).value).asBool then
        return (← execStmts structs callee fuel env.push body).again
      else return some .next) rounds) (.whileRounds condition body) := by
  induction rounds with
  | zero =>
      intro joint' state after flow outside _ _ _ hrun
      cases hrun
  | succ rounds ih =>
      intro joint' state after flow outside hlayout hheld hworld hrun
      rw [iterate] at hrun
      obtain ⟨round, middle, hround, hrest⟩ := bind_eq_ok.mp hrun
      obtain ⟨value, before, hvalue, hround⟩ := bind_eq_ok.mp hround
      obtain ⟨truth, tested, htruth, hround⟩ := bind_eq_ok.mp hround
      obtain ⟨outside', heval, hworld', hheld'⟩ := condition_evaluates hfollows hplaced htyped
        hcore hlayout hheld hworld hvalue htruth
      cases truth with
      | false =>
          obtain ⟨rfl, rfl⟩ := pure_eq_ok.mp hround
          obtain ⟨rfl, rfl⟩ := pure_eq_ok.mp hrest
          exact ⟨_, .whileEnd heval, .next hlayout hheld' hworld'⟩
      | true =>
          obtain ⟨found, hfound, rfl⟩ := again_eq_ok hround
          obtain ⟨outcome, hexec, hends⟩ := hbody hlayout hheld' hworld' hfound
          cases hends with
          | next hlayout'' hheld'' hworld'' =>
              obtain ⟨outcome', hexec', hends'⟩ := ih hlayout'' hheld'' hworld'' hrest
              exact ⟨outcome', .whileNext heval hexec hexec', hends'⟩
          | returned hframe hworld'' =>
              obtain ⟨rfl, rfl⟩ := pure_eq_ok.mp hrest
              exact ⟨_, .whileLeave heval hexec, .returned hframe hworld''⟩

theorem loop_executes {body : List IrStmt}
    (hbody : Executes oracle frame joint (execStmts structs callee fuel env.push body)
      (.block body)) (rounds : Nat) :
    Executes oracle frame joint
      (iterate (do return (← execStmts structs callee fuel env.push body).again) rounds)
      (.loopRounds body) := by
  induction rounds with
  | zero =>
      intro joint' state after flow outside _ _ _ hrun
      cases hrun
  | succ rounds ih =>
      intro joint' state after flow outside hlayout hheld hworld hrun
      rw [iterate] at hrun
      obtain ⟨round, middle, hround, hrest⟩ := bind_eq_ok.mp hrun
      obtain ⟨found, hfound, rfl⟩ := again_eq_ok hround
      obtain ⟨outcome, hexec, hends⟩ := hbody hlayout hheld hworld hfound
      cases hends with
      | next hlayout' hheld' hworld' =>
          obtain ⟨outcome', hexec', hends'⟩ := ih hlayout' hheld' hworld' hrest
          exact ⟨outcome', .loopNext hexec hexec', hends'⟩
      | returned hframe hworld' =>
          obtain ⟨rfl, rfl⟩ := pure_eq_ok.mp hrest
          exact ⟨_, .loopLeave hexec, .returned hframe hworld'⟩

theorem for_executes {name : Name} {body : List IrStmt} {slot : Nat} {first last : BitVec 64}
    (hbody : ∀ value, Executes oracle frame ((name, counterAt slot value) :: joint)
      (execStmts structs callee fuel ((env.push.define name slot).push) body) (.block body))
    (rounds : Nat) :
    ∀ ⦃joint' : Joint⦄ ⦃state after flow outside⦄, joint'.layout = joint.layout →
      Housed frame ((name, counterAt slot first) :: joint') state →
      outside.world = state.world →
      iterate (do
        let current ← (← Eval.load ⟨slot, []⟩).asInt
        if current.slt last then
          match ← execStmts structs callee fuel ((env.push.define name slot).push) body with
          | .next => do
              let reached ← (← Eval.load ⟨slot, []⟩).asInt
              Eval.store ⟨slot, []⟩ (.int (reached + 1))
              return none
          | .returned value => return some (.returned value)
        else return some .next) rounds state = .ok flow after →
      ∃ outcome,
        Exec oracle joint'.store outside (.forRounds name (range first last) body) outcome ∧
          Ends frame joint after flow outcome := by
  induction rounds generalizing first with
  | zero =>
      intro joint' state after flow outside _ _ _ hrun
      cases hrun
  | succ rounds ih =>
      intro joint' state after flow outside hlayout hheld hworld hrun
      rw [iterate] at hrun
      obtain ⟨round, middle, hround, hrest⟩ := bind_eq_ok.mp hrun
      obtain ⟨value, _, hload, hround⟩ := bind_eq_ok.mp hround
      rw [load_counter hheld] at hload
      cases hload
      obtain ⟨current, _, hcurrent, hround⟩ := bind_eq_ok.mp hround
      obtain ⟨hsame, rfl⟩ := asInt_eq_ok_iff.mp hcurrent
      obtain rfl : first = current := Value.int.inj hsame
      cases hless : first.slt last with
      | false =>
          rw [hless, if_neg Bool.false_ne_true] at hround
          obtain ⟨rfl, rfl⟩ := pure_eq_ok.mp hround
          obtain ⟨rfl, rfl⟩ := pure_eq_ok.mp hrest
          have hle : last.toInt ≤ first.toInt := by simpa [BitVec.slt] using hless
          rw [range_of_le hle]
          exact ⟨_, .forEnd, .next hlayout hheld.tail hworld⟩
      | true =>
          rw [hless, if_pos rfl] at hround
          have hlt : first.toInt < last.toInt := by simpa [BitVec.slt] using hless
          rw [range_of_lt hlt]
          obtain ⟨found, reachedState, hfound, hround⟩ := bind_eq_ok.mp hround
          have hlayout' : Joint.layout ((name, counterAt slot first) :: joint') =
              Joint.layout ((name, counterAt slot first) :: joint) := by
            simp only [Joint.layout, List.map_cons] at hlayout ⊢
            rw [hlayout]
          obtain ⟨outcome, hexec, hends⟩ := hbody first hlayout' hheld hworld hfound
          cases hends with
          | returned hframe hworld' =>
              obtain ⟨rfl, rfl⟩ := pure_eq_ok.mp hround
              obtain ⟨rfl, rfl⟩ := pure_eq_ok.mp hrest
              exact ⟨_, .forLeave hexec, .returned hframe hworld'⟩
          | next hlayoutBody hheld' hworld' =>
              obtain ⟨counter, rest, rfl, hsame, hlayoutRest⟩ := Joint.layout_eq_cons hlayoutBody
              obtain rfl := hsame rfl
              obtain ⟨_, _, hreload, hround⟩ := bind_eq_ok.mp hround
              rw [load_counter hheld'] at hreload
              cases hreload
              obtain ⟨reached, _, hreached, hround⟩ := bind_eq_ok.mp hround
              obtain ⟨hcounted, rfl⟩ := asInt_eq_ok_iff.mp hreached
              obtain rfl : first = reached := Value.int.inj hcounted
              obtain ⟨_, stored, hstore, hround⟩ := bind_eq_ok.mp hround
              obtain ⟨rfl, rfl⟩ := pure_eq_ok.mp hround
              obtain ⟨counted, hcounter, hheld'', hworldStored⟩ :=
                store_counter hheld' (first + 1)
              rw [hcounter] at hstore
              cases hstore
              obtain ⟨outcome', hexec', hends'⟩ :=
                ih hlayoutRest hheld'' (hworld'.trans hworldStored.symm) hrest
              exact ⟨outcome', .forNext hexec hexec', hends'⟩

end

section

variable {program : IrProgram} {fragment : Fragment}
  {oracle : Oracle ω} {callee : Callee ω} {structs : StructTable} {returnType : TypeRef}
  {fuel : Nat} {frame : List Cell}

/-- The end of one statement: only a `let` changes the scope. -/
inductive Steps (oracle : Oracle ω) (frame : List Cell) (joint : Joint) (outside : Outside ω)
    (env : Env) (after : State ω) : IrStmt → Env → Flow → Prop where
  | letStmt {state : State ω} {outside' : Outside ω} {name : Name} {isMutable : Bool}
      {type : TypeRef} {initializer : IrExpr} {value : Value} :
      eval oracle joint.store initializer outside = some (value, outside') →
      value.HasType type → Housed frame joint state → outside'.world = state.world →
      after = state.allocate .stack value →
      Steps oracle frame joint outside env after (.letStmt name isMutable type initializer)
        (env.define name state.cells.length) .next
  | statement {statement : IrStmt} {flow : Flow} {outcome : Outcome ω} :
      (∀ types : TypeEnv, scopeAfter types statement = types) →
      Exec oracle joint.store outside (.statement statement) outcome →
      Ends frame joint after flow outcome →
      Steps oracle frame joint outside env after statement env flow

theorem assign_steps (hfollows : Follows program fragment oracle callee) {joint : Joint} {env : Env}
    {types : TypeEnv} (hplaced : Placed joint env types) {type : TypeRef} {name : Name}
    {value : IrExpr}
    (htyped : stmtTyped program returnType types (.assign (.local type name) value) = true)
    (hcore : value.isCore fragment = true) {state after : State ω} {env' : Env} {flow : Flow}
    {outside : Outside ω} (hheld : Housed frame joint state) (hworld : outside.world = state.world)
    (hrun : execStmt structs callee fuel env (.assign (.local type name) value) state =
      .ok (env', flow) after) :
    Steps oracle frame joint outside env after (.assign (.local type name) value) env' flow := by
  simp only [stmtTyped, exprTyped, Bool.and_eq_true, decide_eq_true_eq] at htyped
  obtain ⟨⟨⟨htypeOf, hvalueTyped⟩, hsame⟩, hassignable⟩ := htyped
  obtain ⟨found, hfound, htype⟩ := Option.map_eq_some_iff.mp htypeOf
  have hmutable : found.2.isMutable = true := by simpa [assignable, hfound] using hassignable
  have hfind : (Chain.find? types name).map Prod.snd = some found.2 := by rw [hfound]; rfl
  obtain ⟨entry, hlookup, hentry⟩ := hplaced.entry_of_find hfind
  rw [hentry] at htype hmutable
  rw [execStmt] at hrun
  obtain ⟨place, middle, hplace, hrun⟩ := bind_eq_ok.mp hrun
  cases (local_place hplaced type hlookup state).symm.trans hplace
  obtain ⟨stored, valued, hstored, hrun⟩ := bind_eq_ok.mp hrun
  obtain ⟨outside', heval, hworld', hgrow, hhas⟩ :=
    denote_evaluates hfollows hplaced value hvalueTyped hcore hheld hworld hstored
  have hheld' := hheld.grow hgrow
  obtain ⟨_, last, hstore, hrun⟩ := bind_eq_ok.mp hrun
  obtain ⟨hends, rfl⟩ := pure_eq_ok.mp hrun
  obtain ⟨rfl, rfl⟩ := Prod.mk.inj hends
  obtain ⟨front, behind, hjoint, -⟩ := List.lookup_eq_some_iff.mp hlookup
  obtain ⟨done, hdone, hcells, hworldStored⟩ :=
    store_eq stored (hheld'.cell (name, entry) (by simp [hjoint]))
  rw [hdone] at hstore
  cases hstore
  have hhas' : stored.HasType entry.type := by
    rw [show entry.type = value.type from htype.trans hsame]
    exact hhas
  obtain ⟨joint', hassign, hlayout, hheld''⟩ := hheld'.assign hlookup hmutable hhas' hcells
  exact .statement (fun _ => rfl) (.assign heval hassign)
    (.next hlayout hheld'' (hworld'.trans hworldStored.symm))

mutual

theorem execStmt_steps (hfollows : Follows program fragment oracle callee) :
    (statement : IrStmt) → ∀ {joint : Joint} {env : Env} {types : TypeEnv},
      Placed joint env types → stmtTyped program returnType types statement = true →
      statement.isCore fragment = true →
      ∀ ⦃state after : State ω⦄ ⦃env' : Env⦄ ⦃flow : Flow⦄ ⦃outside : Outside ω⦄,
        Housed frame joint state → outside.world = state.world →
        execStmt structs callee fuel env statement state = .ok (env', flow) after →
          Steps oracle frame joint outside env after statement env' flow
  | .letStmt name isMutable type initializer, joint, env, types, hplaced, htyped, hcore => by
      intro state after env' flow outside hheld hworld hrun
      simp only [stmtTyped, Bool.and_eq_true, decide_eq_true_eq] at htyped
      obtain ⟨hinitializer, rfl⟩ := htyped
      rw [IrStmt.isCore] at hcore
      rw [execStmt] at hrun
      obtain ⟨value, middle, hvalue, hrun⟩ := bind_eq_ok.mp hrun
      obtain ⟨outside', heval, hworld', hgrow, hhas⟩ :=
        denote_evaluates hfollows hplaced initializer hinitializer hcore hheld hworld hvalue
      obtain ⟨place, last, hplace, hrun⟩ := bind_eq_ok.mp hrun
      obtain ⟨rfl, rfl⟩ := allocate_eq_ok hplace
      obtain ⟨hends, rfl⟩ := pure_eq_ok.mp hrun
      obtain ⟨rfl, rfl⟩ := Prod.mk.inj hends
      exact .letStmt heval hhas (hheld.grow hgrow) hworld' rfl
  | .assign target value, joint, env, types, hplaced, htyped, hcore => by
      intro state after env' flow outside hheld hworld hrun
      cases target with
      | «local» type name => exact assign_steps hfollows hplaced htyped hcore hheld hworld hrun
      | int | bool | string | null | unary | binary | ifExpr | call | arrayLiteral
      | sliceFromArray | index | sliceView | field | structLiteral | ok | err | alloc | zalloc
      | addr | deref => simp [IrStmt.isCore] at hcore
  | .returnStmt value, joint, env, types, hplaced, htyped, hcore => by
      intro state after env' flow outside hheld hworld hrun
      rw [execStmt] at hrun
      obtain ⟨result, middle, hresult, hrun⟩ := bind_eq_ok.mp hrun
      obtain ⟨hends, rfl⟩ := pure_eq_ok.mp hrun
      obtain ⟨rfl, rfl⟩ := Prod.mk.inj hends
      cases value with
      | none =>
          obtain ⟨rfl, rfl⟩ := pure_eq_ok.mp hresult
          exact .statement (fun _ => rfl) .returnNothing (.returned hheld.frame_prefix hworld)
      | some value =>
          simp only [stmtTyped, Bool.and_eq_true] at htyped
          obtain ⟨found, _, hfound, hresult⟩ := bind_eq_ok.mp hresult
          obtain ⟨rfl, rfl⟩ := pure_eq_ok.mp hresult
          obtain ⟨outside', heval, hworld', hgrow, -⟩ := denote_evaluates hfollows hplaced value
            htyped.1 (by simpa [IrStmt.isCore] using hcore) hheld hworld hfound
          exact .statement (fun _ => rfl) (.returnValue heval)
            (.returned (hheld.frame_prefix.trans hgrow) hworld')
  | .expr value, joint, env, types, hplaced, htyped, hcore => by
      intro state after env' flow outside hheld hworld hrun
      rw [Typing.stmtTyped_expr] at htyped
      rw [IrStmt.isCore] at hcore
      rw [execStmt] at hrun
      obtain ⟨found, middle, hfound, hrun⟩ := bind_eq_ok.mp hrun
      obtain ⟨hends, rfl⟩ := pure_eq_ok.mp hrun
      obtain ⟨rfl, rfl⟩ := Prod.mk.inj hends
      obtain ⟨outside', heval, hworld', hgrow, -⟩ :=
        denote_evaluates hfollows hplaced value htyped hcore hheld hworld hfound
      exact .statement (fun _ => rfl) (.expr heval) (.next rfl (hheld.grow hgrow) hworld')
  | .ifStmt condition thenBlock elseBlock, joint, env, types, hplaced, htyped, hcore => by
      intro state after env' flow outside hheld hworld hrun
      simp only [stmtTyped, Bool.and_eq_true, decide_eq_true_eq] at htyped
      simp only [IrStmt.isCore, Bool.and_eq_true] at hcore
      obtain ⟨⟨⟨hcondition, hbool⟩, hthen⟩, helse⟩ := htyped
      rw [execStmt] at hrun
      obtain ⟨value, middle, hvalue, hrun⟩ := bind_eq_ok.mp hrun
      obtain ⟨truth, tested, htruth, hrun⟩ := bind_eq_ok.mp hrun
      obtain ⟨outside', heval, hworld', hheld'⟩ := condition_evaluates hfollows hplaced hcondition
        hcore.1.1 rfl hheld hworld hvalue htruth
      cases truth with
      | true =>
          obtain ⟨flow', last, hbranch, hrun⟩ := bind_eq_ok.mp hrun
          obtain ⟨hends, rfl⟩ := pure_eq_ok.mp hrun
          obtain ⟨rfl, rfl⟩ := Prod.mk.inj hends
          obtain ⟨outcome, hexec, hends⟩ := execStmts_executes hfollows thenBlock hplaced.push hthen
            hcore.1.2 rfl hheld' hworld' hbranch
          exact .statement (fun _ => rfl) (.ifStmt heval hexec) hends
      | false =>
          obtain ⟨flow', last, hbranch, hrun⟩ := bind_eq_ok.mp hrun
          obtain ⟨hends, rfl⟩ := pure_eq_ok.mp hrun
          obtain ⟨rfl, rfl⟩ := Prod.mk.inj hends
          obtain ⟨outcome, hexec, hends⟩ := execElse_executes hfollows elseBlock hplaced helse
            hcore.2 rfl hheld' hworld' hbranch
          exact .statement (fun _ => rfl) (.ifStmt heval hexec) hends
  | .whileStmt condition body, joint, env, types, hplaced, htyped, hcore => by
      intro state after env' flow outside hheld hworld hrun
      simp only [stmtTyped, Bool.and_eq_true, decide_eq_true_eq] at htyped
      simp only [IrStmt.isCore, Bool.and_eq_true] at hcore
      obtain ⟨⟨hcondition, hbool⟩, hbodyTyped⟩ := htyped
      rw [execStmt] at hrun
      obtain ⟨flow', last, hloop, hrun⟩ := bind_eq_ok.mp hrun
      obtain ⟨hends, rfl⟩ := pure_eq_ok.mp hrun
      obtain ⟨rfl, rfl⟩ := Prod.mk.inj hends
      have hbody := execStmts_executes hfollows body hplaced.push hbodyTyped hcore.2
      obtain ⟨outcome, hexec, hends⟩ := while_executes hfollows hplaced hcondition hcore.1 hbody
        fuel rfl hheld hworld hloop
      exact .statement (fun _ => rfl) (.whileStmt hexec) hends
  | .loop body, joint, env, types, hplaced, htyped, hcore => by
      intro state after env' flow outside hheld hworld hrun
      rw [stmtTyped] at htyped
      rw [IrStmt.isCore] at hcore
      rw [execStmt] at hrun
      obtain ⟨flow', last, hloop, hrun⟩ := bind_eq_ok.mp hrun
      obtain ⟨hends, rfl⟩ := pure_eq_ok.mp hrun
      obtain ⟨rfl, rfl⟩ := Prod.mk.inj hends
      have hbody := execStmts_executes hfollows body hplaced.push htyped hcore
      obtain ⟨outcome, hexec, hends⟩ := loop_executes hbody fuel rfl hheld hworld hloop
      exact .statement (fun _ => rfl) (.loop hexec) hends
  | .forStmt name type start stop body, joint, env, types, hplaced, htyped, hcore => by
      intro state after env' flow outside hheld hworld hrun
      simp only [stmtTyped, Bool.and_eq_true, decide_eq_true_eq] at htyped
      simp only [IrStmt.isCore, Bool.and_eq_true] at hcore
      obtain ⟨⟨⟨⟨⟨-, hstartTyped⟩, hstartType⟩, hstopTyped⟩, -⟩, hbodyTyped⟩ := htyped
      rw [execStmt] at hrun
      obtain ⟨first, started, hfirst, hrun⟩ := bind_eq_ok.mp hrun
      obtain ⟨outside', hstart, hworld', hgrow, hhas⟩ :=
        denote_evaluates hfollows hplaced start hstartTyped hcore.1.1 hheld hworld hfirst
      have hheld' := hheld.grow hgrow
      rw [hstartType] at hhas
      obtain ⟨last, stopped, hlast, hrun⟩ := bind_eq_ok.mp hrun
      obtain ⟨number, bounded, hnumber, hrun⟩ := bind_eq_ok.mp hrun
      obtain ⟨rfl, rfl⟩ := asInt_eq_ok_iff.mp hnumber
      obtain ⟨outside'', hstop, hworld'', hgrow', -⟩ :=
        denote_evaluates hfollows hplaced stop hstopTyped hcore.1.2 hheld' hworld' hlast
      obtain ⟨counter, placed, hcounter, hrun⟩ := bind_eq_ok.mp hrun
      obtain ⟨rfl, rfl⟩ := allocate_eq_ok hcounter
      obtain ⟨flow', final, hloop, hrun⟩ := bind_eq_ok.mp hrun
      obtain ⟨hends, rfl⟩ := pure_eq_ok.mp hrun
      obtain ⟨rfl, rfl⟩ := Prod.mk.inj hends
      cases hhas with
      | int first =>
          have hbody := fun value => execStmts_executes hfollows body
            ((hplaced.push.define name (counterAt stopped.cells.length value)).push) hbodyTyped
            hcore.2
          obtain ⟨outcome, hexec, hends⟩ := for_executes hbody fuel rfl
            ((hheld'.grow hgrow').allocate (.int first) name false) hworld'' hloop
          exact .statement (fun _ => rfl) (.forStmt hstart hstop hexec) hends
  | .zone _ _, _, _, _, _, _, hcore | .free _, _, _, _, _, _, hcore => by
      simp [IrStmt.isCore] at hcore

theorem execElse_executes (hfollows : Follows program fragment oracle callee) :
    (block : Option (List IrStmt)) → ∀ {joint : Joint} {env : Env} {types : TypeEnv},
      Placed joint env types → elseTyped program returnType types block = true →
      elseCore fragment block = true →
        Executes oracle frame joint (execElse structs callee fuel env block)
          (.block (block.getD []))
  | none, joint, env, types, _, _, _ => by
      intro joint' state after flow outside hlayout hheld hworld hrun
      obtain ⟨rfl, rfl⟩ := pure_eq_ok.mp hrun
      exact ⟨_, .done, .next hlayout hheld hworld⟩
  | some block, joint, env, types, hplaced, htyped, hcore =>
      execStmts_executes hfollows block hplaced.push htyped hcore

theorem execStmts_executes (hfollows : Follows program fragment oracle callee) :
    (block : List IrStmt) → ∀ {joint : Joint} {env : Env} {types : TypeEnv},
      Placed joint env types → stmtsTyped program returnType types block = true →
      blockCore fragment block = true →
        Executes oracle frame joint (execStmts structs callee fuel env block) (.block block)
  | [], joint, env, types, _, _, _ => by
      intro joint' state after flow outside hlayout hheld hworld hrun
      rw [execStmts] at hrun
      obtain ⟨rfl, rfl⟩ := pure_eq_ok.mp hrun
      exact ⟨_, .done, .next hlayout hheld hworld⟩
  | statement :: rest, joint, env, types, hplaced, htyped, hcore => by
      intro joint' state after flow outside hlayout hheld hworld hrun
      rw [Typing.stmtsTyped_cons, Bool.and_eq_true] at htyped
      simp only [blockCore, Bool.and_eq_true] at hcore
      rw [execStmts] at hrun
      obtain ⟨⟨env', found⟩, middle, hfirst, hrun⟩ := bind_eq_ok.mp hrun
      have hplaced' := hplaced.layout hlayout
      have hrest := @execStmts_executes hfollows rest
      cases execStmt_steps hfollows statement hplaced' htyped.1 hcore.1 hheld hworld hfirst with
      | letStmt heval hhas hheld' hworld' hafter =>
          subst hafter
          obtain ⟨outcome, hexec, hends⟩ := hrest
            (hplaced'.define _ ⟨_, _, 0, _, _⟩) htyped.2 hcore.2 rfl (hheld'.allocate hhas _ _)
            hworld' hrun
          exact ⟨_, .letStmt heval hexec, hends.leave.layout hlayout⟩
      | statement hscope hexec hends =>
          rw [hscope] at htyped
          cases hends with
          | next hlayout' hheld' hworld' =>
              obtain ⟨outcome, hexec', hends'⟩ := hrest (hplaced'.layout hlayout') htyped.2
                hcore.2 rfl hheld' hworld' hrun
              exact ⟨outcome, .next hexec hexec', hends'.layout (hlayout'.trans hlayout)⟩
          | returned hframe hworld' =>
              obtain ⟨rfl, rfl⟩ := pure_eq_ok.mp hrun
              exact ⟨_, .leave hexec, .returned hframe hworld'⟩

end

end

end Llvm

end Cnegative
