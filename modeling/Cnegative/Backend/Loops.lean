import Cnegative.Backend.Follow

namespace Cnegative

open Library (Line Code Chain Frame)

open Scalar (Oracle Outside Outcome Store Local Task Exec eval range)

open Typing (TypeEnv LocalType exprTyped stmtTyped stmtsTyped elseTyped scopeAfter assignable)

namespace Llvm

variable {ω : Type} {oracle : Oracle ω} {arguments : List Value} {whole : Code Inst}
  {context : EmitContext} {program : IrProgram} {returnType : TypeRef}

/-! Loops. -/

theorem whileStmt_simulated {store : Store} {outside : Outside ω} {condition : IrExpr}
    {body : List IrStmt} {outcome : Outcome ω} (hnodup : whole.labels.Nodup)
    (hrounds : Simulated oracle arguments whole context program returnType store outside
      (.whileRounds condition body) outcome) :
    Simulated oracle arguments whole context program returnType store outside
      (.statement (.whileStmt condition body)) outcome := by
  intro joint machine scope types hstore houtside hagrees htyped
  refine ⟨rfl, ?_⟩
  intro state after a code before rest hopen hheld hrun hwhole
  simp only [stmtTyped, Bool.and_eq_true, decide_eq_true_eq] at htyped
  obtain ⟨⟨hcondition, htype⟩, hbodyTyped⟩ := htyped
  obtain ⟨test, testCode, middle, bodyCode, middle', jump, bodyEnd, htestRun, hbodyRun, hjump,
    rfl, rfl, rfl⟩ := emitStatement_while_eq_some hrun
  have hwhole' : whole = (before ++ [Line.inst (Inst.br state.nextLabel)]) ++
      Line.label state.nextLabel ::
      whileRound test state.nextLabel testCode bodyCode jump rest := by
    simpa [whileRound] using hwhole
  have harrives := hrounds hstore houtside hagrees hcondition htype hbodyTyped
    (show EmitState.terminated ⟨state.nextTemp, _, false⟩ = false from rfl) hheld htestRun hbodyRun
    hjump hwhole'
  have hfind := findLabel_of_eq _ hnodup hwhole'
  refine ⟨rfl, fun _ => rfl, .step hheld ?_ harrives⟩
  simp [step, hfind]

theorem whileRound_arrives {joint : Joint} {scope : Scope} {types : TypeEnv} {condition : IrExpr}
    {state middle : EmitState} {machine : Machine ω} {truth : Bool} {outside : Outside ω}
    {test : LlvmValue} {testCode bodyCode jump before rest : Code Inst} {label : Nat}
    {outcome : Outcome ω} (hnodup : whole.labels.Nodup) (hagrees : Scoped joint scope types)
    (hcondition : exprTyped program types condition = true) (hopen : state.terminated = false)
    (heval : eval oracle joint.store condition machine.outside = some (.bool truth, outside))
    (hheld : Held joint state.nextTemp machine)
    (htestRun : (lowerExpression context scope condition).value state =
      some (test, testCode, middle))
    (hwhole : whole =
      before ++ Line.label label :: whileRound test label testCode bodyCode jump rest)
    (htarget : ∀ machine' : Machine ω, state.nextTemp ≤ middle.nextTemp →
      Held joint middle.nextTemp machine' → machine'.outside = outside →
        Arrives oracle arguments whole returnType joint.slots joint state.nextTemp rest
          (if truth then bodyCode ++ (jump ++ Line.label (label + 2) :: rest) else rest, machine')
          outcome) :
    Arrives oracle arguments whole returnType joint.slots joint state.nextTemp rest
      (whileRound test label testCode bodyCode jump rest, machine) outcome := by
  have hround := (findLabel_of_eq _ hnodup hwhole)
  have hwhole' : whole = (before ++ [Line.label label]) ++
      whileRound test label testCode bodyCode jump rest := by
    simpa using hwhole
  obtain ⟨-, hle, machine', hpasses, hheld', hholds, houtside⟩ :=
    expression_passes arguments hnodup hagrees hcondition hopen heval hheld htestRun hwhole'
  have hbodyFind : whole.findLabel (label + 1) =
      some (bodyCode ++ (jump ++ Line.label (label + 2) :: rest)) :=
    findLabel_of_eq (before ++ Line.label label :: (testCode ++
      [Line.inst (Inst.condBr test (label + 1) (label + 2))])) hnodup
      (by simpa [whileRound] using hwhole)
  obtain ⟨front, hfront⟩ := suffix_of_findLabel hbodyFind
  have hendFind : whole.findLabel (label + 2) = some rest :=
    findLabel_of_eq (front ++ (bodyCode ++ jump)) hnodup (by simpa using hfront)
  refine .head hpasses.reaches hpasses.spares (Nat.le_refl _) hheld
    (.branch (hheld'.of_layout rfl hheld) hholds.operand ?_
      (htarget machine' hle hheld' houtside))
  cases truth with
  | true => exact hbodyFind
  | false => exact hendFind

theorem whileEnd_simulated {store : Store} {outside outside' : Outside ω} {condition : IrExpr}
    {body : List IrStmt} (hnodup : whole.labels.Nodup)
    (heval : eval oracle store condition outside = some (.bool false, outside')) :
    Simulated oracle arguments whole context program returnType store outside
      (.whileRounds condition body) (.next store outside') := by
  intro joint machine scope types hstore houtside hagrees hcondition _ _ state middle middle'
    bodyEnd test testCode bodyCode jump before rest label hopen hheld htestRun _ _ hwhole
  subst hstore houtside
  refine whileRound_arrives hnodup hagrees hcondition hopen heval hheld htestRun hwhole ?_
  intro machine' _ hheld' houtside'
  exact ⟨joint, machine', ⟨.refl, .refl, hheld'.of_layout rfl hheld, rfl⟩, rfl, houtside'⟩

theorem whileNext_simulated {store reached : Store} {outside outside' outside'' : Outside ω}
    {condition : IrExpr} {body : List IrStmt} {outcome : Outcome ω} (hnodup : whole.labels.Nodup)
    (heval : eval oracle store condition outside = some (.bool true, outside'))
    (hbody : Simulated oracle arguments whole context program returnType store outside'
      (.block body) (.next reached outside''))
    (hrounds : Simulated oracle arguments whole context program returnType reached outside''
      (.whileRounds condition body) outcome) :
    Simulated oracle arguments whole context program returnType store outside
      (.whileRounds condition body) outcome := by
  intro joint machine scope types hstore houtside hagrees hcondition htype hbodyTyped state middle
    middle' bodyEnd test testCode bodyCode jump before rest label hopen hheld htestRun hbodyRun
    hjump hwhole
  subst hstore houtside
  refine whileRound_arrives hnodup hagrees hcondition hopen heval hheld htestRun hwhole ?_
  intro machine' hle hheld' houtside'
  have hwhole' : whole = (before ++ Line.label label :: (testCode ++
      [Line.inst (Inst.condBr test (label + 1) (label + 2)), Line.label (label + 1)])) ++
      (bodyCode ++ (jump ++ Line.label (label + 2) :: rest)) := by
    simpa [whileRound] using hwhole
  obtain ⟨-, hnext, harrives⟩ := hbody rfl houtside' hagrees.push hbodyTyped
    (show EmitState.terminated ⟨middle.nextTemp, _, false⟩ = false from rfl) hheld' hbodyRun hwhole'
  obtain ⟨joint', machine'', hbehind, hstore', houtside''⟩ :=
    harrives.jump hnext hjump (findLabel_of_eq _ hnodup hwhole)
  have hround := hrounds hstore' houtside'' (hagrees.layout hbehind.layout) hcondition htype
    hbodyTyped hopen (hbehind.held.of_layout hbehind.layout hheld) htestRun hbodyRun hjump hwhole
  rw [Joint.slots_of_layout hbehind.layout] at hround
  exact Behind.arrives ⟨hbehind.reaches, hbehind.spares.mono hle fun _ hslot _ => hslot,
    hbehind.held.of_layout hbehind.layout hheld, hbehind.layout⟩ hround (Nat.le_refl _)
    fun _ hslot _ => hslot

theorem whileLeave_simulated {store : Store} {outside outside' outside'' : Outside ω}
    {condition : IrExpr} {body : List IrStmt} {value : Value} (hnodup : whole.labels.Nodup)
    (heval : eval oracle store condition outside = some (.bool true, outside'))
    (hbody : Simulated oracle arguments whole context program returnType store outside'
      (.block body) (.returned value outside'')) :
    Simulated oracle arguments whole context program returnType store outside
      (.whileRounds condition body) (.returned value outside'') := by
  intro joint machine scope types hstore houtside hagrees hcondition htype hbodyTyped state middle
    middle' bodyEnd test testCode bodyCode jump before rest label hopen hheld htestRun hbodyRun
    hjump hwhole
  subst hstore houtside
  refine whileRound_arrives hnodup hagrees hcondition hopen heval hheld htestRun hwhole ?_
  intro machine' hle hheld' houtside'
  have hwhole' : whole = (before ++ Line.label label :: (testCode ++
      [Line.inst (Inst.condBr test (label + 1) (label + 2)), Line.label (label + 1)])) ++
      (bodyCode ++ (jump ++ Line.label (label + 2) :: rest)) := by
    simpa [whileRound] using hwhole
  obtain ⟨-, -, harrives⟩ := hbody rfl houtside' hagrees.push hbodyTyped
    (show EmitState.terminated ⟨middle.nextTemp, _, false⟩ = false from rfl) hheld' hbodyRun hwhole'
  exact .head .refl .refl hle (hheld'.of_layout rfl hheld) harrives

theorem loop_simulated {store : Store} {outside : Outside ω} {body : List IrStmt}
    {outcome : Outcome ω} (hnodup : whole.labels.Nodup)
    (hrounds : Simulated oracle arguments whole context program returnType store outside
      (.loopRounds body) outcome) :
    Simulated oracle arguments whole context program returnType store outside
      (.statement (.loop body)) outcome := by
  intro joint machine scope types hstore houtside hagrees htyped
  refine ⟨rfl, ?_⟩
  intro state after a code before rest hopen hheld hrun hwhole
  obtain ⟨bodyCode, middle, jump, bodyEnd, hbodyRun, hjump, rfl, rfl, rfl⟩ :=
    emitStatement_loop_eq_some hrun
  have hwhole' : whole = (before ++ [Line.inst (Inst.br state.nextLabel)]) ++
      Line.label state.nextLabel ::
      (bodyCode ++ (jump ++ Line.label (state.nextLabel + 1) :: rest)) := by
    simpa using hwhole
  have harrives := hrounds hstore houtside hagrees htyped
    (show EmitState.terminated ⟨state.nextTemp, _, false⟩ = false from rfl) hheld hbodyRun hjump
    hwhole' rest
  have hfind := findLabel_of_eq _ hnodup hwhole'
  refine ⟨rfl, fun _ => rfl, .step hheld ?_ harrives⟩
  simp [step, hfind]

theorem loopNext_simulated {store reached : Store} {outside outside' : Outside ω}
    {body : List IrStmt} {outcome : Outcome ω} (hnodup : whole.labels.Nodup)
    (hbody : Simulated oracle arguments whole context program returnType store outside
      (.block body) (.next reached outside'))
    (hrounds : Simulated oracle arguments whole context program returnType reached outside'
      (.loopRounds body) outcome) :
    Simulated oracle arguments whole context program returnType store outside (.loopRounds body)
      outcome := by
  intro joint machine scope types hstore houtside hagrees htyped state middle bodyEnd bodyCode
    jump before rest label hopen hheld hbodyRun hjump hwhole behind
  have hwhole' : whole = (before ++ [Line.label label]) ++ (bodyCode ++ (jump ++ rest)) := by
    simpa using hwhole
  obtain ⟨-, hnext, harrives⟩ :=
    hbody hstore houtside hagrees.push htyped hopen hheld hbodyRun hwhole'
  obtain ⟨joint', machine', hbehind, hstore', houtside'⟩ :=
    harrives.jump hnext hjump (findLabel_of_eq _ hnodup hwhole)
  have hround := hrounds hstore' houtside' (hagrees.layout hbehind.layout) htyped hopen
    hbehind.held hbodyRun hjump hwhole behind
  rw [Joint.slots_of_layout hbehind.layout] at hround
  exact hbehind.arrives hround (Nat.le_refl _) fun _ hslot _ => hslot

theorem loopLeave_simulated {store : Store} {outside outside' : Outside ω} {body : List IrStmt}
    {value : Value}
    (hbody : Simulated oracle arguments whole context program returnType store outside
      (.block body) (.returned value outside')) :
    Simulated oracle arguments whole context program returnType store outside (.loopRounds body)
      (.returned value outside') := by
  intro joint machine scope types hstore houtside hagrees htyped state middle bodyEnd bodyCode
    jump before rest label hopen hheld hbodyRun hjump hwhole behind
  have hwhole' : whole = (before ++ [Line.label label]) ++ (bodyCode ++ (jump ++ rest)) := by
    simpa using hwhole
  obtain ⟨-, -, harrives⟩ :=
    hbody hstore houtside hagrees.push htyped hopen hheld hbodyRun hwhole'
  exact harrives

end Llvm

end Cnegative
