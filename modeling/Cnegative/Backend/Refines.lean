import Cnegative.Backend.Counting

namespace Cnegative

open Library (Line Code Chain Frame)

open Scalar (Oracle Outside Outcome Store Local Task Exec Returns bindArguments)

open Typing (TypeEnv LocalType stmtsTyped functionTyped paramTypes)

namespace Llvm

variable {ω : Type} {oracle : Oracle ω} {arguments : List Value} {whole : Code Inst}
  {context : EmitContext} {program : IrProgram} {returnType : TypeRef}

/-! The emitted function as a whole. -/

theorem exec_simulated (context : EmitContext) {store : Store} {outside : Outside ω}
    {task : Task} {outcome : Outcome ω}
    (hnodup : whole.labels.Nodup) (hexec : Exec oracle store outside task outcome) :
    Simulated oracle arguments whole context program returnType store outside task outcome := by
  induction hexec with
  | done => exact done_simulated
  | letStmt heval _ ih => exact letStmt_simulated hnodup heval ih
  | next _ _ ihStatement ihRest => exact next_simulated ihStatement ihRest
  | leave _ ih => exact leave_simulated ih
  | assign heval hassign => exact assign_simulated hnodup heval hassign
  | returnNothing => exact returnNothing_simulated
  | returnValue heval => exact returnValue_simulated hnodup heval
  | expr heval => exact expr_simulated hnodup heval
  | ifStmt heval _ ih => exact ifStmt_simulated hnodup heval ih
  | whileStmt _ ih => exact whileStmt_simulated hnodup ih
  | whileEnd heval => exact whileEnd_simulated hnodup heval
  | whileNext heval _ _ ihBody ihRounds => exact whileNext_simulated hnodup heval ihBody ihRounds
  | whileLeave heval _ ih => exact whileLeave_simulated hnodup heval ih
  | loop _ ih => exact loop_simulated hnodup ih
  | loopNext _ _ ihBody ihRounds => exact loopNext_simulated hnodup ihBody ihRounds
  | loopLeave _ ih => exact loopLeave_simulated ih
  | forStmt hstart hstop _ ih => exact forStmt_simulated hnodup hstart hstop ih
  | forEnd => exact forEnd_simulated hnodup
  | forNext _ _ ihBody ihRounds => exact forNext_simulated hnodup ihBody ihRounds
  | forLeave _ ih => exact forLeave_simulated hnodup ih

/-- The arguments that are not stored yet, with the store of the others. -/
theorem emitParameters_reaches (oracle : Oracle ω) (whole rest : Code Inst)
    {params : List Param} {scope scope' : Scope} {types : TypeEnv}
    {joint : Joint} {index : Nat} {state after : EmitState} {code : Code Inst}
    {machine : Machine ω} (hagrees : Scoped joint scope types)
    (hheld : Held joint state.nextTemp machine) (hopen : state.terminated = false)
    (hrun : emitParameters scope index params state = some (scope', code, after))
    (htyped : List.Forall₂ (fun param value => Value.HasType value param.type) params
      (arguments.drop index)) :
    ∃ joint' machine', Reaches oracle arguments whole (code ++ rest, machine) (rest, machine') ∧
      joint'.store = ((params.zip (arguments.drop index)).map fun entry =>
        (entry.1.name, (⟨entry.2, false⟩ : Local))).reverse ++ joint.store ∧
      Scoped joint' scope' (params.foldl (fun typeEnv param =>
        typeEnv.define param.name param.type false) types) ∧
      Held joint' after.nextTemp machine' ∧ after.terminated = false ∧
      machine'.outside = machine.outside := by
  induction params generalizing scope types joint index state machine code with
  | nil =>
      obtain ⟨rfl, rfl, rfl⟩ := Emit.pure_eq_some.mp hrun
      exact ⟨joint, machine, .refl, rfl, hagrees, hheld, hopen, rfl⟩
  | cons param params ih =>
      simp only [emitParameters, emitAlloca, Emit.bind_eq_some, Emit.result_eq_some,
        Emit.write_eq_some, ↓existsAndEq, true_and, and_true, exists_const] at hrun
      obtain ⟨restCode, hrest, rfl⟩ := hrun
      generalize hdrop : arguments.drop index = passed at htyped
      cases htyped with
      | @cons _ value _ passed hvalue hpassed =>
          have hbehind : passed = arguments.drop (index + 1) := by
            rw [← List.tail_drop, hdrop, List.tail_cons]
          have hargument : arguments[index]? = some value := by
            have hhead := congrArg (fun held : List Value => held[0]?) hdrop
            simpa using hhead
          subst hbehind
          have hexecute : execute oracle arguments (machine.room state.nextTemp)
              (.storeArgument param.type index (.reg state.nextTemp)) =
                some (machine.place state.nextTemp value) := by
            simp [execute, hargument, Machine.slot, Machine.room, Machine.place, Machine.write]
          have hplaced : Reaches oracle arguments whole
              (Line.inst (Inst.alloca state.nextTemp param.type) ::
                Line.inst (Inst.storeArgument param.type index (.reg state.nextTemp)) ::
                  (restCode ++ rest),
                machine) (restCode ++ rest, machine.place state.nextTemp value) :=
            place_reaches rfl hexecute
          obtain ⟨joint', machine', hreaches, hstore, hagrees', hheld', hopen', houtside⟩ :=
            ih (hagrees.define param.name ⟨param.type, false, state.nextTemp, machine.memory.length,
              value⟩) (hheld.place hvalue param.name false)
              (show EmitState.terminated ⟨state.nextTemp + 1, _, _⟩ = false from hopen) hrest
              hpassed
          refine ⟨joint', machine', hplaced.trans hreaches, ?_, hagrees', hheld', hopen', houtside⟩
          rw [hstore]
          simp [Joint.store]

theorem emitFunction_runs {function : IrFunction} {outside outside' : Outside ω} {value : Value}
    {code : Code Inst} (registers : Nat → Option Value)
    (htyped : functionTyped program function = true)
    (harguments : List.Forall₂ (fun param value => Value.HasType value param.type)
      function.parameters arguments)
    (hemit : emitFunction context function = some code)
    (hreturns : Returns oracle function arguments outside value outside') :
    value.HasType function.returnType ∧ ∃ fuel, ∃ machine : Machine ω, machine.outside = outside' ∧
      runCode oracle arguments code fuel (code, ⟨registers, [], outside⟩) =
        some (value, machine) := by
  have hnodup : code.labels.Nodup := (emitFunction_wellFormed hemit).labels_unique
  obtain ⟨⟨_, printed, after⟩, hrun, rfl⟩ := Option.map_eq_some_iff.mp hemit
  obtain ⟨scope, paramCode, started, _, hparams, hbehindRun, rfl⟩ := Emit.bind_eq_some.mp hrun
  obtain ⟨_, blockCode, finished, lastCode, hblockRun, hlastRun, rfl⟩ :=
    Emit.bind_eq_some.mp hbehindRun
  generalize hwhole : paramCode ++ (blockCode ++ lastCode) = whole at hnodup
  have hagrees : Scoped [] (Scope.push []) (TypeEnv.push []) :=
    ⟨List.cons_ne_nil _ _, List.cons_ne_nil _ _, rfl, rfl⟩
  have hheld : Held [] 0 (⟨registers, [], outside⟩ : Machine ω) :=
    ⟨by simp, by simp, by simp, by simp, List.nodup_nil⟩
  obtain ⟨joint, machine, hstored, hstore, hagrees', hheld', hopen, houtside⟩ :=
    emitParameters_reaches oracle whole (blockCode ++ lastCode) hagrees hheld rfl hparams harguments
  have hstore' : joint.store = bindArguments function.parameters arguments := by
    rw [hstore]
    simp [bindArguments, Joint.store]
  have hends : value.HasType function.returnType ∧ ∃ config : Config ω,
      Reaches oracle arguments whole (blockCode ++ lastCode, machine) config ∧
        returned? config = some value ∧ config.2.outside = outside' := by
    cases hreturns with
    | returned hexec =>
        obtain ⟨-, -, harrives⟩ := exec_simulated context hnodup hexec hstore' houtside
          hagrees' htyped hopen hheld' hblockRun hwhole.symm
        exact harrives
    | @fallOff store _ hvoid hexec =>
        obtain ⟨-, hnext, joint', machine', hbehind, -, houtside'⟩ := exec_simulated context hnodup
          hexec hstore' houtside hagrees' htyped hopen hheld' hblockRun hwhole.symm
        simp only [Emit.bind_eq_some, Emit.isTerminated_eq_some, hnext rfl, hvoid, ↓existsAndEq,
          true_and, Bool.false_eq_true, if_false, if_true, Emit.terminate_eq_some] at hlastRun
        obtain ⟨_, ⟨rfl, -⟩, rfl⟩ := hlastRun
        exact ⟨hvoid ▸ .void, _, hbehind.reaches, rfl, houtside'⟩
  obtain ⟨htype, config, hreaches, hreturned, houtside'⟩ := hends
  obtain ⟨fuel, hfuel⟩ := runCode_of_reaches (hstored.trans hreaches) hreturned
  subst hwhole
  exact ⟨htype, fuel, config.2, houtside', hfuel⟩

/-- A function of the core fragment: what it returns, and every call on the way, is what running
its text from `entry` gives. -/
theorem emitFunction_refines {ω : Type} (oracle : Oracle ω) (context : EmitContext)
    (program : IrProgram) (function : IrFunction) (arguments : List Value)
    (outside outside' : Outside ω) (value : Value) (code : Code Inst)
    (registers : Nat → Option Value)
    (htyped : functionTyped program function = true)
    (harguments : List.Forall₂ (fun param value => Value.HasType value param.type)
      function.parameters arguments)
    (hemit : emitFunction context function = some code)
    (hreturns : Returns oracle function arguments outside value outside') :
    value.HasType function.returnType ∧ ∃ fuel, ∃ machine : Machine ω,
      machine.outside = outside' ∧ ∀ fuel' ≥ fuel,
        runCode oracle arguments code fuel' (code, ⟨registers, [], outside⟩) =
          some (value, machine) := by
  obtain ⟨htype, fuel, machine, houtside, hrun⟩ :=
    emitFunction_runs registers htyped harguments hemit hreturns
  exact ⟨htype, fuel, machine, houtside, fun fuel' hle => runCode_le hle hrun⟩

/-- `let mut s = 0; for i in 0..n { s = s + i; } return s;` -/
def sumFunction : IrFunction :=
  ⟨false, "main", "sum", .int, [⟨"n", .int⟩], [
    .letStmt "s" true .int (.int .int 0),
    .forStmt "i" .int (.int .int 0) (.local .int "n")
      [.assign (.local .int "s") (.binary .int .add (.local .int "s") (.local .int "i"))],
    .returnStmt (some (.local .int "s"))]⟩

def zeroOracle : Oracle Unit where
  call type _ _ _ :=
    match type with
    | .int => some (.int 0, ())
    | .void => some (.void, ())
    | _ => none
  hasType := by
    intro type symbol arguments world value world' hcall
    cases type <;> cases hcall
    · exact .int 0
    · exact .void

theorem sumFunction_returns (outside : Outside Unit) :
    Returns zeroOracle sumFunction [.int 3] outside (.int 3) outside := by
  have hround : ∀ (total value : BitVec 64), Exec zeroOracle
      [("i", ⟨.int value, false⟩), ("s", ⟨.int total, true⟩), ("n", ⟨.int 3, false⟩)] outside
      (.block [.assign (.local .int "s")
        (.binary .int .add (.local .int "s") (.local .int "i"))])
      (.next [("i", ⟨.int value, false⟩), ("s", ⟨.int (total + value), true⟩),
        ("n", ⟨.int 3, false⟩)] outside) :=
    fun total value => .next (.assign rfl rfl) .done
  have hrange : Scalar.range 0 3 = [0, 1, 2] := by decide
  have hloop : Exec zeroOracle [("s", ⟨.int 0, true⟩), ("n", ⟨.int 3, false⟩)] outside
      (.forRounds "i" (Scalar.range 0 3) [.assign (.local .int "s")
        (.binary .int .add (.local .int "s") (.local .int "i"))])
      (.next [("s", ⟨.int 3, true⟩), ("n", ⟨.int 3, false⟩)] outside) := by
    rw [hrange]
    exact .forNext (hround 0 0) (.forNext (hround 0 1) (.forNext (hround 1 2) .forEnd))
  have hbody : Exec zeroOracle [("n", ⟨.int 3, false⟩)] outside (.block sumFunction.body)
      (Outcome.leave (.returned (.int 3) outside)) :=
    .letStmt rfl (.next (.forStmt rfl rfl hloop) (.leave (.returnValue rfl)))
  exact .returned hbody

theorem sum_text_returns_three :
    ∃ code, emitFunction ⟨[], []⟩ sumFunction = some code ∧ ∃ fuel, ∃ machine : Machine Unit,
      runCode zeroOracle [.int 3] code fuel (code, ⟨fun _ => none, [], ⟨(), []⟩⟩) =
        some (.int 3, machine) := by
  have hsome : (emitFunction ⟨[], []⟩ sumFunction).isSome = true := by decide +kernel
  obtain ⟨code, hemit⟩ := Option.isSome_iff_exists.mp hsome
  obtain ⟨-, fuel, machine, -, hrun⟩ := emitFunction_refines zeroOracle ⟨[], []⟩ ⟨[]⟩ sumFunction
    [.int 3] ⟨(), []⟩ ⟨(), []⟩ (.int 3) _ (fun _ => none) (by decide +kernel)
    (.cons (.int 3) .nil) hemit (sumFunction_returns ⟨(), []⟩)
  exact ⟨_, hemit, fuel, machine, hrun fuel (Nat.le_refl fuel)⟩

/-- From its entry the text ends with this result, and with no other. -/
def EndsWith (oracle : Oracle ω) (arguments : List Value) (code : Code Inst)
    (registers : Nat → Option Value) (outside : Outside ω) (value : Value)
    (outside' : Outside ω) : Prop :=
  ∃ machine : Machine ω, machine.outside = outside' ∧ ∀ result,
    (∃ fuel, runCode oracle arguments code fuel (code, ⟨registers, [], outside⟩) = some result) ↔
      result = (value, machine)

/-- The text of a function of the core fragment computes what the function returns, with the same
calls; and its `for` loops count from the first bound up to the second. -/
theorem emitted_function_computes {ω : Type} (oracle : Oracle ω) (context : EmitContext)
    (program : IrProgram) (function : IrFunction) (arguments : List Value) (code : Code Inst)
    (registers : Nat → Option Value)
    (htyped : functionTyped program function = true)
    (harguments : List.Forall₂ (fun param value => Value.HasType value param.type)
      function.parameters arguments)
    (hemit : emitFunction context function = some code) :
    (∀ outside value outside', Returns oracle function arguments outside value outside' →
      value.HasType function.returnType ∧
        EndsWith oracle arguments code registers outside value outside') ∧
    ∀ store outside name type start stop body store' outside',
      Exec oracle store outside (.statement (.forStmt name type start stop body))
          (.next store' outside') ↔
        ∃ first last after after',
          Scalar.eval oracle store start outside = some (.int first, after) ∧
          Scalar.eval oracle store stop after = some (.int last, after') ∧
          Scalar.CountsUp oracle name body (last.toInt - first.toInt).toNat first.toInt store after'
            store' outside' := by
  refine ⟨fun outside value outside' hreturns => ?_, fun _ _ _ _ _ _ _ _ _ => Scalar.forStmt_iff⟩
  obtain ⟨htype, fuel, machine, houtside, hrun⟩ :=
    emitFunction_runs registers htyped harguments hemit hreturns
  refine ⟨htype, machine, houtside, fun result => ⟨?_, ?_⟩⟩
  · rintro ⟨other, hother⟩
    -- The longer of the two runs ends like either of them.
    have hlong := runCode_le (Nat.le_max_left fuel other) hrun
    rw [runCode_le (Nat.le_max_right fuel other) hother] at hlong
    exact Option.some.inj hlong
  · rintro rfl
    exact ⟨fuel, hrun⟩

/-- `for i in 1..n { println(i); } return tell(n);` -/
def tellFunction : IrFunction :=
  ⟨false, "main", "tell", .int, [⟨"n", .int⟩], [
    .forStmt "i" .int (.int .int 1) (.local .int "n")
      [.expr (.call .void .builtin "" "println" [.local .int "i"])],
    .returnStmt (some (.call .int .local "main" "tell" [.local .int "n"]))]⟩

def toldCalls : List (Symbol × List Value) :=
  [(.function "main" "tell", [.int 3]), (.runtime "@cn_print_int", [.int 2]),
    (.runtime "@cn_print_int", [.int 1])]

theorem tellFunction_returns :
    Returns zeroOracle tellFunction [.int 3] ⟨(), []⟩ (.int 0) ⟨(), toldCalls⟩ := by
  have hloop : Exec zeroOracle [("n", ⟨.int 3, false⟩)] ⟨(), []⟩
      (.forRounds "i" (Scalar.range 1 3)
        [.expr (.call .void .builtin "" "println" [.local .int "i"])])
      (.next [("n", ⟨.int 3, false⟩)] ⟨(), toldCalls.tail⟩) := by
    have hrange : Scalar.range 1 3 = [1, 2] := by decide
    rw [hrange]
    exact .forNext (.next (.expr rfl) .done) (.forNext (.next (.expr rfl) .done) .forEnd)
  exact .returned (.next (.forStmt rfl rfl hloop) (.leave (.returnValue rfl)))

theorem tell_text_computes :
    ∃ code, emitFunction ⟨[], []⟩ tellFunction = some code ∧
      EndsWith zeroOracle [.int 3] code (fun _ => none) ⟨(), []⟩ (.int 0) ⟨(), toldCalls⟩ := by
  have hsome : (emitFunction ⟨[], []⟩ tellFunction).isSome = true := by decide +kernel
  obtain ⟨code, hemit⟩ := Option.isSome_iff_exists.mp hsome
  have hcomputes := emitted_function_computes zeroOracle ⟨[], []⟩
    ⟨[⟨"main", [], [], [tellFunction]⟩]⟩ tellFunction [.int 3] code (fun _ => none)
    (by decide +kernel) (.cons (.int 3) .nil) hemit
  exact ⟨code, hemit, (hcomputes.1 _ _ _ tellFunction_returns).2⟩

end Llvm

end Cnegative
