import Cnegative.Backend.Arrives

namespace Cnegative

open Library (Line Code Chain Frame)

open Scalar (Oracle Outside Outcome Store Local Task Exec eval range)

open Typing (TypeEnv LocalType exprTyped stmtTyped stmtsTyped elseTyped scopeAfter assignable
  stmtsTyped_cons stmtTyped_expr)

namespace Llvm

variable {ω : Type} {oracle : Oracle ω} {arguments : List Value} {whole : Code Inst}

/-! A new local. -/

/-- The machine with a new slot, and a register that points to it. -/
def Machine.room (machine : Machine ω) (register : Nat) : Machine ω :=
  machine.allocate.write register (.ptr (some ⟨machine.memory.length, []⟩))

/-- The same with a value in the slot. -/
def Machine.place (machine : Machine ω) (register : Nat) (value : Value) : Machine ω :=
  (machine.room register).store machine.memory.length value

theorem Spares.room {bound register : Nat} {machine : Machine ω} (hle : bound ≤ register) :
    Spares [] bound machine (machine.room register) :=
  .allocate hle _

theorem Spares.place {bound register : Nat} {machine : Machine ω} (hle : bound ≤ register)
    (value : Value) : Spares [] bound machine (machine.place register value) := by
  refine (Spares.room hle).trans (Spares.store value) (Nat.le_refl _) ?_
  intro slot hmem hlt
  simp only [List.mem_singleton] at hmem
  omega

theorem Held.place {joint : Joint} {bound : Nat} {machine : Machine ω}
    (hheld : Held joint bound machine) {value : Value} {type : TypeRef}
    (htype : value.HasType type) (name : Name) (isMutable : Bool) :
    Held ((name, ⟨type, isMutable, bound, machine.memory.length, value⟩) :: joint) (bound + 1)
      (machine.place bound value) := by
  refine .cons (hheld.spares (.place (Nat.le_refl _) value) (Nat.le_succ _)) (Nat.lt_succ_self _) ?_
    ?_ htype ?_
  · simp [Machine.place, Machine.room, Machine.store, Machine.write]
  · simp [Machine.place, Machine.room, Machine.store, Machine.write, Machine.allocate]
  · intro hslot
    exact absurd (hheld.slots_lt hslot) (Nat.lt_irrefl _)

theorem room_step {register : Nat} {type : TypeRef} {rest : Code Inst} {machine : Machine ω} :
    step oracle arguments whole (.inst (.alloca register type) :: rest, machine) =
      some (rest, machine.room register) := rfl

theorem place_reaches {register : Nat} {type : TypeRef} {store : Inst} {found : Value}
    {rest : Code Inst} {machine : Machine ω} (hopen : store.isTerminator = false)
    (hexecute : execute oracle arguments (machine.room register) store =
      some (machine.place register found)) :
    Reaches oracle arguments whole
      (.inst (.alloca register type) :: .inst store :: rest, machine)
      (rest, machine.place register found) := by
  have hstore : step oracle arguments whole (.inst store :: rest, machine.room register) =
      some (rest, machine.place register found) := by
    rw [step_inst hopen, hexecute]
    rfl
  exact (Reaches.single room_step).trans (.single hstore)

theorem execute_store {register : Nat} {value : LlvmValue} {found : Value} {type : TypeRef}
    {bound slot : Nat} {machine : Machine ω} (hholds : Holds machine bound value found type)
    (hregister : machine.registers register = some (.ptr (some ⟨slot, []⟩))) :
    execute oracle arguments machine (.store value (.reg register)) =
      some (machine.store slot found) := by
  have hpointer : machine.slot (.reg register) = some slot := by
    simp [Machine.slot, hregister]
  simp [execute, hholds.operand, hpointer]

theorem store_step {register : Nat} {value : LlvmValue} {found : Value} {type : TypeRef}
    {bound slot : Nat} {rest : Code Inst} {machine : Machine ω}
    (hholds : Holds machine bound value found type)
    (hregister : machine.registers register = some (.ptr (some ⟨slot, []⟩))) :
    step oracle arguments whole (.inst (.store value (.reg register)) :: rest, machine) =
      some (rest, machine.store slot found) := by
  rw [step_inst rfl, execute_store hholds hregister]
  rfl

/-! Statements. -/

section

variable {context : EmitContext} {program : IrProgram} {returnType : TypeRef}

theorem emitBlock_grows {scope : Scope} {body : List IrStmt} {state after : EmitState}
    {code : Code Inst} (hrun : emitBlock context scope body state = some ((), code, after)) :
    state.nextTemp ≤ after.nextTemp := by
  obtain ⟨_, -, -, hsegment⟩ := emitBlock_prints context scope body hrun subset_rfl
  exact hsegment.registers_le

theorem emitStatement_grows {scope scope' : Scope} {statement : IrStmt} {state after : EmitState}
    {code : Code Inst} (hopen : state.terminated = false)
    (hrun : emitStatement context scope statement state = some (scope', code, after)) :
    state.nextTemp ≤ after.nextTemp := by
  obtain ⟨_, -, -, hsegment⟩ := emitStatement_prints context scope statement hrun hopen subset_rfl
  exact hsegment.registers_le

theorem emitBrIfOpen_nextTemp {target : Nat} {state after : EmitState} {code : Code Inst}
    (hrun : emitBrIfOpen target state = some ((), code, after)) :
    after.nextTemp = state.nextTemp := by
  obtain ⟨temp, label, terminated⟩ := state
  cases terminated with
  | false =>
      simp only [emitBrIfOpen, emitBr, Emit.bind_eq_some, Emit.isTerminated_eq_some, ↓existsAndEq,
        true_and, Bool.false_eq_true, if_false, Emit.terminate_eq_some, and_true] at hrun
      obtain ⟨rfl, rfl⟩ := hrun
      rfl
  | true =>
      simp only [emitBrIfOpen, Emit.bind_eq_some, Emit.isTerminated_eq_some, ↓existsAndEq,
        true_and, if_true, Emit.pure_eq_some, and_true] at hrun
      obtain ⟨rfl, rfl⟩ := hrun
      rfl

theorem emitBlock_cons_eq_some {scope : Scope} {statement : IrStmt} {rest : List IrStmt}
    {state after : EmitState} {code : Code Inst} (hopen : state.terminated = false)
    (hrun : emitBlock context scope (statement :: rest) state = some ((), code, after)) :
    ∃ scope' statementCode middle restCode,
      emitStatement context scope statement state = some (scope', statementCode, middle) ∧
      emitBlock context scope' rest middle = some ((), restCode, after) ∧
      code = statementCode ++ restCode := by
  obtain ⟨_, opening, started, _, hopening, hbehind, rfl⟩ := Emit.bind_eq_some.mp hrun
  obtain ⟨scope', statementCode, middle, restCode, hstatement, hrest, rfl⟩ :=
    Emit.bind_eq_some.mp hbehind
  simp only [beginUnreachableBlockIfNeeded, Emit.bind_eq_some, Emit.isTerminated_eq_some, hopen,
    ↓existsAndEq, true_and, Bool.false_eq_true, if_false, Emit.pure_eq_some] at hopening
  obtain ⟨rfl, rfl⟩ := hopening
  exact ⟨scope', statementCode, middle, restCode, hstatement, hrest, rfl⟩

/-- A `for` loop behind its label, up to its body. -/
def forHead (temp label iterPtr endPtr : Nat) : Code Inst :=
  [.inst (.load temp .int (.reg iterPtr)), .inst (.load (temp + 1) .int (.reg endPtr)),
    .inst (.icmp (temp + 2) .slt (.register .int temp) (.register .int (temp + 1))),
    .inst (.condBr (.register .bool (temp + 2)) (label + 1) (label + 2)), .label (label + 1)]

/-- The local of a `for` loop. -/
def counter (register slot : Nat) (value : BitVec 64) : Entry :=
  ⟨.int, false, register, slot, .int value⟩

/-- The slots of a `for` loop before a round: its local is at `first`, and `last` is in a slot
that no local has. -/
structure Counts (joint : Joint) (bound : Nat) (machine : Machine ω) (name : Name)
    (iterPtr iterSlot endPtr endSlot : Nat) (first last : BitVec 64) : Prop where
  held : Held ((name, counter iterPtr iterSlot first) :: joint) bound machine
  below : endPtr < bound
  register : machine.registers endPtr = some (.ptr (some ⟨endSlot, []⟩))
  memory : machine.memory[endSlot]? = some (.int last)
  apart : endSlot ∉ iterSlot :: joint.slots

/-- A `while` loop behind its label. -/
def whileRound (test : LlvmValue) (label : Nat) (testCode bodyCode jump rest : Code Inst) :
    Code Inst :=
  testCode ++ (.inst (.condBr test (label + 1) (label + 2)) :: .label (label + 1) ::
    (bodyCode ++ (jump ++ .label (label + 2) :: rest)))

section

variable (oracle arguments whole context program returnType)

/-- The emitted code of a task goes where the source goes; the rounds of a loop start behind
its label. -/
def Simulated (store : Store) (outside : Outside ω) : Task → Outcome ω → Prop
  | .block body, outcome => ∀ ⦃joint machine scope types⦄, Joint.store joint = store →
      machine.outside = outside → Scoped joint scope types →
        stmtsTyped program returnType types body = true →
          Simulates oracle arguments whole returnType joint machine
            (emitBlock context scope body) () outcome
  | .statement statement, outcome => ∀ ⦃joint machine scope types⦄, Joint.store joint = store →
      machine.outside = outside → Scoped joint scope types →
        stmtTyped program returnType types statement = true →
          scopeAfter types statement = types ∧
            Simulates oracle arguments whole returnType joint machine
              (emitStatement context scope statement)
              scope outcome
  | .whileRounds condition body, outcome => ∀ ⦃joint machine scope types⦄,
      Joint.store joint = store → machine.outside = outside → Scoped joint scope types →
        exprTyped program types condition = true → condition.type = .bool →
        stmtsTyped program returnType types.push body = true →
          ∀ ⦃state middle middle' bodyEnd : EmitState⦄ ⦃test : LlvmValue⦄
            ⦃testCode bodyCode jump before rest : Code Inst⦄ ⦃label : Nat⦄,
            state.terminated = false → Held joint state.nextTemp machine →
            (lowerExpression context scope condition).value state = some (test, testCode, middle) →
            emitBlock context scope.push body { middle with terminated := false } =
              some ((), bodyCode, middle') →
            emitBrIfOpen label middle' = some ((), jump, bodyEnd) →
            whole = before ++ .label label :: whileRound test label testCode bodyCode jump rest →
              Arrives oracle arguments whole returnType joint.slots joint state.nextTemp rest
                (whileRound test label testCode bodyCode jump rest, machine) outcome
  | .loopRounds body, outcome => ∀ ⦃joint machine scope types⦄,
      Joint.store joint = store → machine.outside = outside → Scoped joint scope types →
        stmtsTyped program returnType types.push body = true →
          ∀ ⦃state middle bodyEnd : EmitState⦄ ⦃bodyCode jump before rest : Code Inst⦄
            ⦃label : Nat⦄,
            state.terminated = false → Held joint state.nextTemp machine →
            emitBlock context scope.push body state = some ((), bodyCode, middle) →
            emitBrIfOpen label middle = some ((), jump, bodyEnd) →
            whole = before ++ .label label :: (bodyCode ++ (jump ++ rest)) →
              ∀ behind, Arrives oracle arguments whole returnType joint.slots joint
                state.nextTemp behind
                (bodyCode ++ (jump ++ rest), machine) outcome
  | .forRounds name values body, outcome => ∀ ⦃joint machine scope types⦄,
      Joint.store joint = store → machine.outside = outside → Scoped joint scope types →
        stmtsTyped program returnType ((types.push.define name .int false).push) body = true →
          ∀ ⦃first last : BitVec 64⦄ ⦃iterPtr iterSlot endPtr endSlot temp label nextLabel : Nat⦄
            ⦃middle bodyEnd : EmitState⦄ ⦃bodyCode stepCode before rest : Code Inst⦄,
            values = range first last →
            Counts joint temp machine name iterPtr iterSlot endPtr endSlot first last →
            emitBlock context ((scope.push.define name .int iterPtr).push) body
              ⟨temp + 3, nextLabel, false⟩ = some ((), bodyCode, middle) →
            emitNextIteration .int iterPtr label middle = some ((), stepCode, bodyEnd) →
            whole = before ++ .label label :: (forHead temp label iterPtr endPtr ++
              (bodyCode ++ (stepCode ++ .label (label + 2) :: rest))) →
              Arrives oracle arguments whole returnType (iterSlot :: joint.slots) joint temp rest
                (forHead temp label iterPtr endPtr ++
                  (bodyCode ++ (stepCode ++ .label (label + 2) :: rest)), machine) outcome

end

/-- What a loop or a branch finds behind its label. -/
theorem done_simulated {store : Store} {outside : Outside ω} :
    Simulated oracle arguments whole context program returnType store outside (.block [])
      (.next store outside) := by
  intro joint machine scope types hstore houtside _ _ state after a code before rest hopen hheld
    hrun _
  obtain ⟨rfl, rfl, rfl⟩ := Emit.pure_eq_some.mp hrun
  exact ⟨rfl, fun _ => hopen, joint, machine, ⟨.refl, .refl, hheld, rfl⟩, hstore, houtside⟩

theorem expression_passes (arguments : List Value) {joint : Joint} {scope : Scope}
    {types : TypeEnv} {expression : IrExpr} {state after : EmitState} {machine : Machine ω}
    {found : Value} {outside : Outside ω} {value : LlvmValue} {code before rest : Code Inst}
    (hnodup : whole.labels.Nodup) (hagrees : Scoped joint scope types)
    (htyped : exprTyped program types expression = true) (hopen : state.terminated = false)
    (heval : eval oracle joint.store expression machine.outside = some (found, outside))
    (hheld : Held joint state.nextTemp machine)
    (hrun : (lowerExpression context scope expression).value state = some (value, code, after))
    (hwhole : whole = before ++ (code ++ rest)) :
    after.terminated = false ∧ state.nextTemp ≤ after.nextTemp ∧ ∃ machine',
      Passes oracle arguments whole code rest [] state.nextTemp machine machine' ∧
        Held joint after.nextTemp machine' ∧
        Holds machine' after.nextTemp value found expression.type ∧
        machine'.outside = outside := by
  obtain ⟨hopen', hle, machine', hpasses, hholds, houtside⟩ :=
    lowerExpression_computes context hnodup hagrees expression htyped hopen heval hheld hrun hwhole
  exact ⟨hopen', hle, machine', hpasses, hheld.spares hpasses.spares hle, hholds, houtside⟩

theorem letStmt_simulated {store : Store} {outside outside' : Outside ω} {name : Name}
    {isMutable : Bool} {type : TypeRef} {initializer : IrExpr} {value : Value}
    {rest : List IrStmt} {outcome : Outcome ω} (hnodup : whole.labels.Nodup)
    (heval : eval oracle store initializer outside = some (value, outside'))
    (hrest : Simulated oracle arguments whole context program returnType
      ((name, ⟨value, isMutable⟩) :: store) outside' (.block rest) outcome) :
    Simulated oracle arguments whole context program returnType store outside
      (.block (.letStmt name isMutable type initializer :: rest)) outcome.leave := by
  intro joint machine scope types hstore houtside hagrees htyped state after a code before behind
    hopen hheld hrun hwhole
  subst hstore houtside
  simp only [stmtsTyped, stmtTyped, scopeAfter, Bool.and_eq_true, decide_eq_true_eq] at htyped
  obtain ⟨⟨hinitializer, htype⟩, hrestTyped⟩ := htyped
  obtain ⟨scope', statementCode, middle, restCode, hstatement, hrestRun, rfl⟩ :=
    emitBlock_cons_eq_some hopen hrun
  rw [emitStatement] at hstatement
  obtain ⟨found, valueCode, middle', placeCode, hvalueRun, hplace, rfl⟩ :=
    Emit.bind_eq_some.mp hstatement
  simp only [emitAlloca, emitStore, Emit.bind_eq_some, Emit.result_eq_some, Emit.write_eq_some,
    Emit.pure_eq_some, ↓existsAndEq, true_and, and_true, exists_const] at hplace
  obtain ⟨⟨rfl, rfl⟩, rfl⟩ := hplace
  simp only [List.append_assoc, List.cons_append, List.nil_append] at hwhole ⊢
  obtain ⟨hopen', hle, machine', hpasses, hheld', hholds, houtside⟩ :=
    expression_passes arguments hnodup hagrees hinitializer hopen heval hheld hvalueRun hwhole
  rw [htype] at hholds
  have hplaced : Reaches oracle arguments whole
      (Line.inst (Inst.alloca middle'.nextTemp type) ::
        Line.inst (Inst.store found (.reg middle'.nextTemp)) :: (restCode ++ behind), machine')
      (restCode ++ behind, machine'.place middle'.nextTemp value) :=
    place_reaches rfl (execute_store
      (hholds.spares (.room (Nat.le_refl _)) (Nat.le_refl _))
      (by simp [Machine.room, Machine.write]))
  have hspares : Spares [] state.nextTemp machine (machine'.place middle'.nextTemp value) :=
    hpasses.spares.trans (.place (Nat.le_refl _) value) hle (by simp)
  have hwhole' : whole = (before ++ (valueCode ++
      [Line.inst (Inst.alloca middle'.nextTemp type),
        Line.inst (Inst.store found (.reg middle'.nextTemp))])) ++ (restCode ++ behind) := by
    simpa using hwhole
  have houtside' : (machine'.place middle'.nextTemp value).outside = outside' := houtside
  obtain ⟨-, hnext, harrives⟩ := hrest rfl houtside'
    (hagrees.define name ⟨type, isMutable, _, machine'.memory.length, value⟩) hrestTyped
    (show EmitState.terminated ⟨middle'.nextTemp + 1, _, _⟩ = false from hopen')
    (hheld'.place hholds.hasType name isMutable) hrestRun hwhole'
  refine ⟨trivial, by simpa using hnext, Behind.arrives ⟨hpasses.reaches.trans hplaced, ?_,
    hheld.spares hspares (Nat.le_refl _), rfl⟩ harrives.leave (by simp only; omega) ?_⟩
  · exact hspares.mono (Nat.le_refl _) (by simp)
  · intro slot hmem hlt
    rcases List.mem_cons.mp hmem with rfl | hmem
    · exact absurd (Nat.lt_of_lt_of_le hlt hpasses.spares.length) (Nat.lt_irrefl _)
    · exact hmem

/-- A statement in a block, if the source goes on behind it. -/
theorem next_simulated {store middle : Store} {outside outside' : Outside ω} {statement : IrStmt}
    {rest : List IrStmt} {outcome : Outcome ω}
    (hstatement : Simulated oracle arguments whole context program returnType store outside
      (.statement statement) (.next middle outside'))
    (hrest : Simulated oracle arguments whole context program returnType middle outside'
      (.block rest) outcome) :
    Simulated oracle arguments whole context program returnType store outside
      (.block (statement :: rest)) outcome := by
  intro joint machine scope types hstore houtside hagrees htyped state after a code before behind
    hopen hheld hrun hwhole
  rw [stmtsTyped_cons, Bool.and_eq_true] at htyped
  obtain ⟨scope', statementCode, reached, restCode, hstatementRun, hrestRun, rfl⟩ :=
    emitBlock_cons_eq_some hopen hrun
  rw [List.append_assoc] at hwhole ⊢
  obtain ⟨hscope, hsimulates⟩ := hstatement hstore houtside hagrees htyped.1
  obtain ⟨rfl, hnext, joint', machine', hbehind, hstore', houtside'⟩ :=
    hsimulates hopen hheld hstatementRun hwhole
  have hle := emitStatement_grows hopen hstatementRun
  obtain ⟨-, hnext', harrives⟩ := hrest hstore' houtside' (hagrees.layout hbehind.layout)
    (hscope ▸ htyped.2) (hnext rfl)
    (hbehind.held.spares (.refl : Spares [] _ _ _) hle) hrestRun
    (hwhole.trans (List.append_assoc _ _ _).symm)
  refine ⟨rfl, hnext', hbehind.arrives harrives hle ?_⟩
  rw [Joint.slots_of_layout hbehind.layout]
  exact fun _ hslot _ => hslot

/-- What is behind a `return` is not run. -/
theorem leave_simulated {store : Store} {outside outside' : Outside ω} {statement : IrStmt}
    {rest : List IrStmt} {value : Value}
    (hstatement : Simulated oracle arguments whole context program returnType store outside
      (.statement statement) (.returned value outside')) :
    Simulated oracle arguments whole context program returnType store outside
      (.block (statement :: rest)) (.returned value outside') := by
  intro joint machine scope types hstore houtside hagrees htyped state after a code before behind
    hopen hheld hrun hwhole
  rw [stmtsTyped_cons, Bool.and_eq_true] at htyped
  obtain ⟨scope', statementCode, reached, restCode, hstatementRun, hrestRun, rfl⟩ :=
    emitBlock_cons_eq_some hopen hrun
  rw [List.append_assoc] at hwhole ⊢
  obtain ⟨-, hsimulates⟩ := hstatement hstore houtside hagrees htyped.1
  obtain ⟨-, -, harrives⟩ := hsimulates hopen hheld hstatementRun hwhole
  refine ⟨rfl, ?_, harrives⟩
  rintro ⟨⟩

theorem assign_simulated {store middle : Store} {outside outside' : Outside ω} {type : TypeRef}
    {name : Name} {expression : IrExpr} {value : Value} (hnodup : whole.labels.Nodup)
    (heval : eval oracle store expression outside = some (value, outside'))
    (hassign : store.assign name value = some middle) :
    Simulated oracle arguments whole context program returnType store outside
      (.statement (.assign (.local type name) expression)) (.next middle outside') := by
  intro joint machine scope types hstore houtside hagrees htyped
  subst hstore houtside
  refine ⟨rfl, ?_⟩
  intro state after a code before rest hopen hheld hrun hwhole
  simp only [stmtTyped, exprTyped, Bool.and_eq_true, decide_eq_true_eq] at htyped
  obtain ⟨⟨⟨htarget, hexpression⟩, htype⟩, -⟩ := htyped
  simp only [emitStatement, IrExpr.isPlace] at hrun
  obtain ⟨address, addressCode, addressed, _, haddress, hbehind, rfl⟩ := Emit.bind_eq_some.mp hrun
  obtain ⟨stored, valueCode, reached, storeCode, hvalueRun, hstoreRun, rfl⟩ :=
    Emit.bind_eq_some.mp hbehind
  simp only [lowerExpression, Lowered.ofAddress, Scope.lookup, Emit.bind_eq_some,
    Emit.ofOption_eq_some, Emit.pure_eq_some, ↓existsAndEq, true_and] at haddress
  simp only [emitStore, Emit.bind_eq_some, Emit.write_eq_some, Emit.pure_eq_some, ↓existsAndEq,
    true_and, and_true, exists_const] at hstoreRun
  obtain ⟨binding, ⟨hfind, -⟩, ⟨rfl, rfl⟩, rfl⟩ := haddress
  obtain ⟨⟨rfl, rfl⟩, rfl⟩ := hstoreRun
  simp only [List.append_assoc, List.cons_append, List.nil_append] at hwhole ⊢
  obtain ⟨hopen', hle, machine', hpasses, hheld', hholds, rfl⟩ :=
    expression_passes arguments hnodup hagrees hexpression hopen heval hheld hvalueRun hwhole
  obtain ⟨entry, joint', hlookup, hslot, hregister, hstore, hlayout, hchange⟩ :=
    Held.assign hassign hheld'
  have hbinding : binding = ⟨entry.type, entry.register⟩ := by
    rw [hagrees.binding hlookup] at hfind
    exact (Option.some.inj hfind).symm
  have hentry : expression.type = entry.type := by
    rw [hagrees.typeOf? hlookup] at htarget
    exact htype.symm.trans (Option.some.inj htarget).symm
  subst hbinding
  have hstored : step oracle arguments whole
      (.inst (.store stored (.reg entry.register)) :: rest, machine') =
        some (rest, machine'.store entry.slot value) :=
    store_step hholds hregister
  refine ⟨trivial, fun _ => hopen', joint', _, ⟨hpasses.reaches.trans (.single hstored), ?_,
    (hchange (hentry ▸ hholds.hasType)).of_layout hlayout hheld, hlayout⟩, hstore, rfl⟩
  refine (hpasses.spares.mono (Nat.le_refl _) (by simp)).trans (.store value) hle ?_
  rintro slot hmem -
  rw [List.mem_singleton.mp hmem]
  exact hslot

theorem returnNothing_simulated {store : Store} {outside : Outside ω} :
    Simulated oracle arguments whole context program returnType store outside
      (.statement (.returnStmt none)) (.returned .void outside) := by
  intro joint machine scope types hstore houtside hagrees htyped
  refine ⟨rfl, ?_⟩
  intro state after a code before rest hopen hheld hrun hwhole
  simp only [emitStatement, Emit.bind_eq_some, Emit.terminate_eq_some, Emit.pure_eq_some,
    ↓existsAndEq, true_and, and_true, exists_const] at hrun
  obtain ⟨⟨rfl, rfl⟩, rfl⟩ := hrun
  have hvoid : returnType = .void := by simpa [stmtTyped] using htyped
  refine ⟨rfl, ?_, hvoid ▸ .void, (_, machine), .refl, rfl, houtside⟩
  rintro ⟨⟩

theorem returnValue_simulated {store : Store} {outside outside' : Outside ω} {expression : IrExpr}
    {value : Value} (hnodup : whole.labels.Nodup)
    (heval : eval oracle store expression outside = some (value, outside')) :
    Simulated oracle arguments whole context program returnType store outside
      (.statement (.returnStmt (some expression))) (.returned value outside') := by
  intro joint machine scope types hstore houtside hagrees htyped
  subst hstore houtside
  refine ⟨rfl, ?_⟩
  intro state after a code before rest hopen hheld hrun hwhole
  simp only [stmtTyped, Bool.and_eq_true, decide_eq_true_eq] at htyped
  rw [emitStatement] at hrun
  obtain ⟨found, valueCode, reached, _, hvalueRun, hbehind, rfl⟩ := Emit.bind_eq_some.mp hrun
  obtain ⟨_, retCode, ended, _, hret, hdone, rfl⟩ := Emit.bind_eq_some.mp hbehind
  obtain ⟨rfl, rfl, rfl⟩ := Emit.pure_eq_some.mp hdone
  simp only [List.append_assoc, List.nil_append] at hwhole ⊢
  obtain ⟨hopen', hle, machine', hpasses, hheld', hholds, rfl⟩ :=
    expression_passes arguments hnodup hagrees htyped.1 hopen heval hheld hvalueRun hwhole
  refine ⟨trivial, ?_, htyped.2 ▸ hholds.hasType, (retCode ++ rest, machine'), hpasses.reaches, ?_,
    rfl⟩
  · rintro ⟨⟩
  · by_cases hvoid : found.data = .void
    · rw [emitRet, if_pos hvoid] at hret
      obtain ⟨rfl, -⟩ := Emit.terminate_eq_some.mp hret
      have hoperand := hholds.operand
      simp only [Machine.operand, hvoid] at hoperand
      exact hoperand
    · rw [emitRet, if_neg hvoid] at hret
      obtain ⟨rfl, -⟩ := Emit.terminate_eq_some.mp hret
      exact hholds.operand

theorem expr_simulated {store : Store} {outside outside' : Outside ω} {expression : IrExpr}
    {value : Value} (hnodup : whole.labels.Nodup)
    (heval : eval oracle store expression outside = some (value, outside')) :
    Simulated oracle arguments whole context program returnType store outside
      (.statement (.expr expression)) (.next store outside') := by
  intro joint machine scope types hstore houtside hagrees htyped
  subst hstore houtside
  refine ⟨rfl, ?_⟩
  intro state after a code before rest hopen hheld hrun hwhole
  rw [stmtTyped_expr] at htyped
  rw [emitStatement] at hrun
  obtain ⟨found, valueCode, reached, _, hvalueRun, hdone, rfl⟩ := Emit.bind_eq_some.mp hrun
  obtain ⟨rfl, rfl, rfl⟩ := Emit.pure_eq_some.mp hdone
  simp only [List.append_nil] at hwhole ⊢
  obtain ⟨hopen', hle, machine', hpasses, hheld', -, rfl⟩ :=
    expression_passes arguments hnodup hagrees htyped hopen heval hheld hvalueRun hwhole
  exact ⟨trivial, fun _ => hopen', joint, machine', ⟨hpasses.reaches, hpasses.spares.mono
    (Nat.le_refl _) (by simp), hheld.spares hpasses.spares (Nat.le_refl _), rfl⟩, rfl, rfl⟩

/-- Both branches of an `if` come together. -/
theorem ifStmt_simulated {store : Store} {outside outside' : Outside ω} {condition : IrExpr}
    {truth : Bool} {thenBlock : List IrStmt} {elseBlock : Option (List IrStmt)}
    {outcome : Outcome ω} (hnodup : whole.labels.Nodup)
    (heval : eval oracle store condition outside = some (.bool truth, outside'))
    (hblock : Simulated oracle arguments whole context program returnType store outside'
      (.block (if truth then thenBlock else elseBlock.getD [])) outcome) :
    Simulated oracle arguments whole context program returnType store outside
      (.statement (.ifStmt condition thenBlock elseBlock)) outcome := by
  intro joint machine scope types hstore houtside hagrees htyped
  subst hstore houtside
  refine ⟨rfl, ?_⟩
  intro state after a code before rest hopen hheld hrun hwhole
  simp only [stmtTyped, Bool.and_eq_true, decide_eq_true_eq] at htyped
  obtain ⟨⟨⟨hcondition, htype⟩, hthenTyped⟩, helseTyped⟩ := htyped
  obtain ⟨test, testCode, middle, thenCode, middle', thenJump, elseStart, elseCode, elseEnd,
    htestRun, hthenRun, hthenJump, helseRun, rfl, rfl, rfl⟩ := emitStatement_if_eq_some hrun
  simp only [List.append_assoc, List.cons_append, List.nil_append] at hwhole ⊢
  have hopen' : EmitState.terminated ⟨state.nextTemp, state.nextLabel + 3, state.terminated⟩ =
    false := hopen
  obtain ⟨-, hle, machine', hpasses, hheld', hholds, rfl⟩ :=
    expression_passes arguments hnodup hagrees hcondition hopen' heval hheld htestRun hwhole
  have hthenFind : whole.findLabel state.nextLabel = some (thenCode ++ (thenJump ++
      (elseCode ++ Line.label (state.nextLabel + 2) :: rest))) :=
    findLabel_of_eq (before ++ (testCode ++ [Line.inst (Inst.condBr test state.nextLabel
      (if elseBlock.isNone then state.nextLabel + 2 else state.nextLabel + 1))])) hnodup
      (by simpa using hwhole)
  obtain ⟨front, hfront⟩ := suffix_of_findLabel hthenFind
  have hmergeFind : whole.findLabel (state.nextLabel + 2) = some rest :=
    findLabel_of_eq (front ++ (thenCode ++ (thenJump ++ elseCode))) hnodup (by simpa using hfront)
  refine ⟨trivial, fun _ => trivial, .head hpasses.reaches hpasses.spares hle hheld ?_⟩
  cases truth with
  | true =>
      obtain ⟨-, hnext, harrives⟩ := hblock rfl rfl hagrees.push hthenTyped
        (show EmitState.terminated ⟨middle.nextTemp, _, false⟩ = false from rfl) hheld' hthenRun
        hfront
      exact .branch hheld' hholds.operand hthenFind (harrives.jump hnext hthenJump hmergeFind)
  | false =>
      cases elseBlock with
      | none =>
          obtain ⟨-, -, harrives⟩ := hblock rfl rfl hagrees.push rfl
            (show EmitState.terminated ⟨middle.nextTemp, 0, false⟩ = false from rfl) hheld'
            (Emit.pure_eq_some.mpr ⟨rfl, rfl, rfl⟩) (suffix_of_findLabel hmergeFind).choose_spec
          exact .branch hheld' hholds.operand hmergeFind harrives
      | some block =>
          obtain ⟨blockCode, blockEnd, jump, hblockRun, hjump, rfl⟩ :=
            emitElse_some_eq_some helseRun
          simp only [List.append_assoc, List.cons_append, List.nil_append] at hfront
          have helseFind : whole.findLabel (state.nextLabel + 1) = some (blockCode ++ (jump ++
              Line.label (state.nextLabel + 2) :: rest)) :=
            findLabel_of_eq (front ++ (thenCode ++ thenJump)) hnodup (by simpa using hfront)
          obtain ⟨elseFront, helseFront⟩ := suffix_of_findLabel helseFind
          have hgrown : middle.nextTemp ≤ elseStart.nextTemp := by
            have hthenGrown := emitBlock_grows hthenRun
            rw [emitBrIfOpen_nextTemp hthenJump]
            exact hthenGrown
          obtain ⟨-, hnext, harrives⟩ := hblock rfl rfl hagrees.push helseTyped
            (show EmitState.terminated ⟨elseStart.nextTemp, _, false⟩ = false from rfl)
            (hheld'.spares (.refl : Spares [] _ _ _) hgrown) hblockRun helseFront
          exact .branch hheld' hholds.operand helseFind (.head .refl .refl hgrown hheld'
            (harrives.jump hnext hjump hmergeFind))

end

end Llvm

end Cnegative
