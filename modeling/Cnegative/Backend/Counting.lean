import Cnegative.Backend.Loops

namespace Cnegative

open Library (Line Code Chain Frame)

open Scalar (Oracle Outside Outcome Store Local Task Exec eval range)

open Typing (TypeEnv LocalType exprTyped stmtTyped stmtsTyped elseTyped scopeAfter assignable)

namespace Llvm

variable {ω : Type} {oracle : Oracle ω} {arguments : List Value} {whole : Code Inst}
  {context : EmitContext} {program : IrProgram} {returnType : TypeRef}

/-! The rounds of a `for` loop. -/

theorem load_step {id register slot : Nat} {type : TypeRef} {rest : Code Inst} {value : Value}
    {machine : Machine ω} (hregister : machine.registers register = some (.ptr (some ⟨slot, []⟩)))
    (hmemory : machine.memory[slot]? = some value) :
    step oracle arguments whole (.inst (.load id type (.reg register)) :: rest, machine) =
      some (rest, machine.write id value) := by
  have hpointer : machine.slot (.reg register) = some slot := by
    simp [Machine.slot, hregister]
  simp [step, execute, hpointer, hmemory]

/-- The comparison in front of a round. -/
theorem forHead_reaches (oracle : Oracle ω) (arguments : List Value) {joint : Joint}
    {temp label iterPtr iterSlot endPtr endSlot : Nat}
    {name : Name} {first last : BitVec 64} {more rest : Code Inst} {machine : Machine ω}
    (hcounts : Counts joint temp machine name iterPtr iterSlot endPtr endSlot first last)
    (hbody : whole.findLabel (label + 1) = some more)
    (hend : whole.findLabel (label + 2) = some rest) :
    ∃ machine', Reaches oracle arguments whole
        (forHead temp label iterPtr endPtr ++ more, machine)
        (if first.toInt < last.toInt then more else rest, machine') ∧
      Spares [] temp machine machine' ∧ machine'.outside = machine.outside := by
  have hiterPtr : iterPtr < temp := hcounts.held.below _ List.mem_cons_self
  have hendPtr := hcounts.below
  have hiter : machine.registers iterPtr = some (.ptr (some ⟨iterSlot, []⟩)) :=
    hcounts.held.register _ List.mem_cons_self
  have hvalue : machine.memory[iterSlot]? = some (.int first) :=
    hcounts.held.memory _ List.mem_cons_self
  generalize hloaded : (machine.write temp (.int first)).write (temp + 1) (.int last) = loaded
  have hleft : loaded.registers temp = some (.int first) := by
    simp [← hloaded, Machine.write]
  have hright : loaded.registers (temp + 1) = some (.int last) := by
    simp [← hloaded, Machine.write]
  have hendPtr' : (machine.write temp (.int first)).registers endPtr =
      some (.ptr (some ⟨endSlot, []⟩)) := by
    have hne : endPtr ≠ temp := by omega
    simp [Machine.write, hne, hcounts.register]
  have hloads : Reaches oracle arguments whole (forHead temp label iterPtr endPtr ++ more, machine)
      ((forHead temp label iterPtr endPtr ++ more).drop 2, loaded) := by
    rw [← hloaded]
    exact (Reaches.single (load_step hiter hvalue)).trans
      (.single (load_step hendPtr' hcounts.memory))
  have hcompare : step oracle arguments whole
      ((forHead temp label iterPtr endPtr ++ more).drop 2, loaded) =
      some ((forHead temp label iterPtr endPtr ++ more).drop 3,
        loaded.write (temp + 2) (.bool (first.slt last))) := by
    simp [forHead, step, execute, Machine.operand, LlvmValue.register, hleft, hright,
      Predicate.compare, Predicate.holds]
  have hbranch : step oracle arguments whole
      ((forHead temp label iterPtr endPtr ++ more).drop 3,
        loaded.write (temp + 2) (.bool (first.slt last))) =
      some (if first.toInt < last.toInt then more else rest,
        loaded.write (temp + 2) (.bool (first.slt last))) := by
    by_cases hlt : first.toInt < last.toInt
    · simp [forHead, step, Machine.operand, LlvmValue.register, Machine.write,
        BitVec.slt_eq_decide, hlt, hbody]
    · simp [forHead, step, Machine.operand, LlvmValue.register, Machine.write,
        BitVec.slt_eq_decide, hlt, hend]
  refine ⟨_, hloads.trans ((Reaches.single hcompare).trans (.single hbranch)), ?_, ?_⟩
  · rw [← hloaded]
    exact ((Spares.refl.thenWrite (Nat.le_refl _) _).thenWrite (Nat.le_succ _) _).thenWrite
      (by omega) _
  · rw [← hloaded]
    rfl

theorem emitNextIteration_eq_some {type : TypeRef} {iterPtr label : Nat}
    {state after : EmitState} {code : Code Inst} (hopen : state.terminated = false)
    (hrun : emitNextIteration type iterPtr label state = some ((), code, after)) :
    code = [.inst (.load state.nextTemp type (.reg iterPtr)),
      .inst (.arith (state.nextTemp + 1) .add (.register type state.nextTemp) (constantInt 1)),
      .inst (.store (.register type (state.nextTemp + 1)) (.reg iterPtr)), .inst (.br label)] := by
  simp only [emitNextIteration, emitBr, emitLoad, emitStore, Emit.bind_eq_some,
    Emit.isTerminated_eq_some, ↓existsAndEq, true_and, hopen, Bool.false_eq_true, if_false,
    Emit.terminate_eq_some, Emit.result_eq_some, Emit.write_eq_some, Emit.pure_eq_some,
    exists_const, and_true] at hrun
  obtain ⟨-, rfl⟩ := hrun
  rfl

/-- A store to the local of the loop. -/
theorem Held.count {joint : Joint} {bound iterPtr iterSlot : Nat} {name : Name}
    {machine : Machine ω} {value : BitVec 64}
    (hheld : Held ((name, counter iterPtr iterSlot value) :: joint) bound machine)
    (value' : BitVec 64) :
    Held ((name, counter iterPtr iterSlot value') :: joint) bound
      (machine.store iterSlot (.int value')) := by
  have hfresh : iterSlot ∉ joint.slots := (List.nodup_cons.mp hheld.apart).1
  have hlt : iterSlot < machine.memory.length :=
    hheld.slot_lt (List.mem_cons_self (a := (name, counter iterPtr iterSlot value)))
  refine .cons (hheld.tail.memory_store hfresh _) (hheld.below _ List.mem_cons_self)
    (hheld.register (name, counter iterPtr iterSlot value) List.mem_cons_self) ?_ (.int _) hfresh
  simp [counter, Machine.store, hlt]

theorem nextIteration_reaches {joint : Joint} {bound label iterPtr iterSlot : Nat}
    {name : Name} {value : BitVec 64} {state after : EmitState} {stepCode more behind : Code Inst}
    {machine : Machine ω}
    (hheld : Held ((name, counter iterPtr iterSlot value) :: joint) bound machine)
    (hle : bound ≤ state.nextTemp) (hopen : state.terminated = false)
    (hrun : emitNextIteration .int iterPtr label state = some ((), stepCode, after))
    (hfind : whole.findLabel label = some behind) :
    ∃ machine', Reaches oracle arguments whole (stepCode ++ more, machine) (behind, machine') ∧
      Spares [iterSlot] bound machine machine' ∧
      Held ((name, counter iterPtr iterSlot (value + 1)) :: joint) bound machine' ∧
      machine'.outside = machine.outside := by
  have hiterPtr : iterPtr < bound := hheld.below _ List.mem_cons_self
  have hiter : machine.registers iterPtr = some (.ptr (some ⟨iterSlot, []⟩)) :=
    hheld.register _ List.mem_cons_self
  have hvalue : machine.memory[iterSlot]? = some (.int value) :=
    hheld.memory _ List.mem_cons_self
  have hcode := emitNextIteration_eq_some hopen hrun
  generalize hadded : (machine.write state.nextTemp (.int value)).write (state.nextTemp + 1)
    (.int (value + 1)) = added
  have hspares : Spares [] bound machine added := by
    rw [← hadded]
    exact (Spares.refl.thenWrite hle _).thenWrite (by omega) _
  have hiter' : added.registers iterPtr = some (.ptr (some ⟨iterSlot, []⟩)) := by
    rw [hspares.registers iterPtr hiterPtr, hiter]
  have hadd : step oracle arguments whole ((stepCode ++ more).drop 1,
      machine.write state.nextTemp (.int value)) = some ((stepCode ++ more).drop 2, added) := by
    rw [hcode, ← hadded]
    simp [step, execute, Machine.operand, LlvmValue.register, constantInt, Machine.write,
      ArithOp.apply, Value.ofInt]
  have hstore : step oracle arguments whole ((stepCode ++ more).drop 2, added) =
      some ((stepCode ++ more).drop 3, added.store iterSlot (.int (value + 1))) := by
    have hresult : added.registers (state.nextTemp + 1) = some (.int (value + 1)) := by
      simp [← hadded, Machine.write]
    rw [hcode]
    simp [step, execute, Machine.operand, Machine.slot, LlvmValue.register, hresult, hiter']
  have hjump : step oracle arguments whole ((stepCode ++ more).drop 3,
      added.store iterSlot (.int (value + 1))) =
        some (behind, added.store iterSlot (.int (value + 1))) := by
    rw [hcode]
    simp [step, hfind]
  have hload : step oracle arguments whole (stepCode ++ more, machine) =
      some ((stepCode ++ more).drop 1, machine.write state.nextTemp (.int value)) := by
    rw [hcode]
    exact load_step hiter hvalue
  refine ⟨_, (Reaches.single hload).trans ((Reaches.single hadd).trans
    ((Reaches.single hstore).trans (.single hjump))), ?_,
    (hheld.spares hspares (Nat.le_refl _)).count _, ?_⟩
  · exact (hspares.mono (Nat.le_refl _) (by simp)).trans (.store _) (Nat.le_refl _)
      fun _ hslot _ => hslot
  · rw [← hadded]
    rfl

/-- Where the labels of a `for` loop are. -/
theorem forHead_labels {temp label iterPtr endPtr : Nat} {more before rest : Code Inst}
    (hnodup : whole.labels.Nodup)
    (hwhole : whole = before ++ Line.label label ::
      (forHead temp label iterPtr endPtr ++ (more ++ Line.label (label + 2) :: rest))) :
    whole.findLabel (label + 1) = some (more ++ Line.label (label + 2) :: rest) ∧
      whole.findLabel (label + 2) = some rest := by
  have hbody : whole.findLabel (label + 1) = some (more ++ Line.label (label + 2) :: rest) :=
    findLabel_of_eq (before ++ Line.label label :: (forHead temp label iterPtr endPtr).dropLast)
      hnodup
      (by simpa [forHead] using hwhole)
  obtain ⟨front, hfront⟩ := suffix_of_findLabel hbody
  exact ⟨hbody, findLabel_of_eq (front ++ more) hnodup (by simpa using hfront)⟩

theorem forEnd_simulated {store : Store} {outside : Outside ω} {name : Name}
    {body : List IrStmt} (hnodup : whole.labels.Nodup) :
    Simulated oracle arguments whole context program returnType store outside
      (.forRounds name [] body) (.next store outside) := by
  intro joint machine scope types hstore houtside hagrees _ first last iterPtr iterSlot endPtr
    endSlot temp label nextLabel middle bodyEnd bodyCode stepCode before rest hrange hcounts _ _
    hwhole
  rw [← List.append_assoc bodyCode] at hwhole ⊢
  obtain ⟨hbody, hend⟩ := forHead_labels hnodup hwhole
  obtain ⟨machine', hreaches, hspares, houtside'⟩ :=
    forHead_reaches oracle arguments hcounts hbody hend
  have hle : ¬ first.toInt < last.toInt := by
    have hle := Scalar.range_eq_nil hrange
    omega
  rw [if_neg hle] at hreaches
  exact ⟨joint, machine', ⟨hreaches, hspares.mono (Nat.le_refl _) (by simp),
    hcounts.held.tail.spares hspares (Nat.le_refl _), rfl⟩, hstore, houtside'.trans houtside⟩

theorem forBody_arrives {joint : Joint} {scope : Scope} {types : TypeEnv} {name : Name}
    {body : List IrStmt} {first last : BitVec 64}
    {temp label nextLabel iterPtr iterSlot endPtr endSlot : Nat} {middle : EmitState}
    {machine : Machine ω} {bodyCode stepCode before rest : Code Inst} {outcome : Outcome ω}
    (hnodup : whole.labels.Nodup) (hagrees : Scoped joint scope types)
    (htyped : stmtsTyped program returnType ((types.push.define name .int false).push) body = true)
    (hcounts : Counts joint temp machine name iterPtr iterSlot endPtr endSlot first last)
    (hlt : first.toInt < last.toInt)
    (hbodyRun : emitBlock context ((scope.push.define name .int iterPtr).push) body
      ⟨temp + 3, nextLabel, false⟩ = some ((), bodyCode, middle))
    (hwhole : whole = before ++ Line.label label :: (forHead temp label iterPtr endPtr ++
      (bodyCode ++ (stepCode ++ Line.label (label + 2) :: rest))))
    (hbody : Simulated oracle arguments whole context program returnType
      ((name, ⟨.int first, false⟩) :: joint.store) machine.outside (.block body) outcome) :
    (outcome.isNext = true → middle.terminated = false) ∧
      Arrives oracle arguments whole returnType (iterSlot :: joint.slots)
        ((name, counter iterPtr iterSlot first) :: joint) temp
        (stepCode ++ Line.label (label + 2) :: rest)
        (forHead temp label iterPtr endPtr ++
          (bodyCode ++ (stepCode ++ Line.label (label + 2) :: rest)), machine) outcome := by
  obtain ⟨hbodyFind, hend⟩ := forHead_labels hnodup
    (hwhole.trans (by rw [← List.append_assoc bodyCode]))
  rw [List.append_assoc] at hbodyFind
  obtain ⟨machine', hreaches, hspares, houtside⟩ :=
    forHead_reaches oracle arguments hcounts hbodyFind hend
  rw [if_pos hlt] at hreaches
  obtain ⟨front, hfront⟩ := suffix_of_findLabel hbodyFind
  obtain ⟨-, hnext, harrives⟩ := hbody rfl houtside
    (hagrees.push.define name (counter iterPtr iterSlot first)).push htyped
    (show EmitState.terminated ⟨temp + 3, nextLabel, false⟩ = false from rfl)
    (hcounts.held.spares hspares (Nat.le_add_right temp 3)) hbodyRun hfront
  exact ⟨hnext, .head hreaches hspares (Nat.le_add_right temp 3) hcounts.held harrives⟩

theorem forNext_simulated {store reached : Store} {outside outside' : Outside ω} {name : Name}
    {counted : Name × Local} {value : BitVec 64} {values : List (BitVec 64)} {body : List IrStmt}
    {outcome : Outcome ω} (hnodup : whole.labels.Nodup)
    (hbody : Simulated oracle arguments whole context program returnType
      ((name, ⟨.int value, false⟩) :: store) outside (.block body)
      (.next (counted :: reached) outside'))
    (hrounds : Simulated oracle arguments whole context program returnType reached outside'
      (.forRounds name values body) outcome) :
    Simulated oracle arguments whole context program returnType store outside
      (.forRounds name (value :: values) body) outcome := by
  intro joint machine scope types hstore houtside hagrees htyped first last iterPtr iterSlot endPtr
    endSlot temp label nextLabel middle bodyEnd bodyCode stepCode before rest hrange hcounts
    hbodyRun hstepRun hwhole
  obtain ⟨hlt, rfl, hvalues⟩ := Scalar.range_eq_cons hrange
  subst hstore houtside
  obtain ⟨hnext, joint', machine', hbehind, hstore', houtside'⟩ :=
    forBody_arrives hnodup hagrees htyped hcounts hlt hbodyRun hwhole hbody
  obtain ⟨entry', joint'', rfl, hentry, hlayout⟩ := Joint.layout_eq_cons hbehind.layout
  obtain rfl := hentry rfl
  have hgrown : temp + 3 ≤ middle.nextTemp := emitBlock_grows hbodyRun
  obtain ⟨machine'', hreaches, hspares, hheld, houtside''⟩ :=
    nextIteration_reaches hbehind.held (by omega) (hnext rfl) hstepRun
      (findLabel_of_eq _ hnodup hwhole)
  have hboth : Spares (iterSlot :: joint.slots) temp machine machine'' :=
    hbehind.spares.trans hspares (Nat.le_refl _) (by simp)
  have hslots := Joint.slots_of_layout hlayout
  have hcounts' : Counts joint'' temp machine'' name iterPtr iterSlot endPtr endSlot (value + 1)
      last := by
    refine ⟨hheld, hcounts.below, ?_, ?_, hslots ▸ hcounts.apart⟩
    · rw [hboth.registers endPtr hcounts.below, hcounts.register]
    · have hlength := (List.getElem?_eq_some_iff.mp hcounts.memory).1
      rw [hboth.memory endSlot hlength hcounts.apart, hcounts.memory]
  have hround := hrounds (List.cons.inj hstore').2 (houtside''.trans houtside')
    (hagrees.layout hlayout) htyped hvalues hcounts' hbodyRun hstepRun hwhole
  rw [hslots] at hround
  exact Behind.arrives ⟨hbehind.reaches.trans hreaches, hboth, hheld.tail, hlayout⟩ hround
    (Nat.le_refl _) fun _ hslot _ => hslot

theorem forLeave_simulated {store : Store} {outside outside' : Outside ω} {name : Name}
    {value : BitVec 64} {values : List (BitVec 64)} {body : List IrStmt} {found : Value}
    (hnodup : whole.labels.Nodup)
    (hbody : Simulated oracle arguments whole context program returnType
      ((name, ⟨.int value, false⟩) :: store) outside (.block body) (.returned found outside')) :
    Simulated oracle arguments whole context program returnType store outside
      (.forRounds name (value :: values) body) (.returned found outside') := by
  intro joint machine scope types hstore houtside hagrees htyped first last iterPtr iterSlot endPtr
    endSlot temp label nextLabel middle bodyEnd bodyCode stepCode before rest hrange hcounts
    hbodyRun hstepRun hwhole
  obtain ⟨hlt, rfl, -⟩ := Scalar.range_eq_cons hrange
  subst hstore houtside
  exact (forBody_arrives hnodup hagrees htyped hcounts hlt hbodyRun hwhole hbody).2

theorem append_two {α : Type} (before after : List α) (first second : α) :
    before ++ first :: second :: after = (before ++ [first, second]) ++ after := by
  simp

theorem store_bounds_reaches (oracle : Oracle ω) (arguments : List Value)
    {iterPtr iterSlot endPtr endSlot label bound : Nat}
    {startValue stopValue : LlvmValue} {first last : BitVec 64} {round : Code Inst}
    {machine : Machine ω} (more : Code Inst) (hfind : whole.findLabel label = some round)
    (hstart : Holds machine bound startValue (.int first) .int)
    (hstop : Holds machine bound stopValue (.int last) .int)
    (hiter : machine.registers iterPtr = some (.ptr (some ⟨iterSlot, []⟩)))
    (hend : machine.registers endPtr = some (.ptr (some ⟨endSlot, []⟩))) :
    Reaches oracle arguments whole
      (.inst (.store startValue (.reg iterPtr)) :: .inst (.store stopValue (.reg endPtr)) ::
        .inst (.br label) :: more, machine)
      (round, (machine.store iterSlot (.int first)).store endSlot (.int last)) := by
  have hfirst : step oracle arguments whole
      (.inst (.store startValue (.reg iterPtr)) :: .inst (.store stopValue (.reg endPtr)) ::
        .inst (.br label) :: more, machine) =
      some (.inst (.store stopValue (.reg endPtr)) :: .inst (.br label) :: more,
        machine.store iterSlot (.int first)) := store_step hstart hiter
  have hsecond : step oracle arguments whole
      (.inst (.store stopValue (.reg endPtr)) :: .inst (.br label) :: more,
        machine.store iterSlot (.int first)) =
      some (.inst (.br label) :: more,
        (machine.store iterSlot (.int first)).store endSlot (.int last)) :=
    store_step (hstop.spares (.store _) (Nat.le_refl _)) hend
  have hjump : step oracle arguments whole (.inst (.br label) :: more,
      (machine.store iterSlot (.int first)).store endSlot (.int last)) =
      some (round, (machine.store iterSlot (.int first)).store endSlot (.int last)) := by
    simp [step, hfind]
  exact (Reaches.single hfirst).trans ((Reaches.single hsecond).trans (.single hjump))

/-- The slots of a `for` loop behind the stores of its bounds. -/
theorem counts_of_stored {joint : Joint} {temp bound : Nat} {machine machine' : Machine ω}
    {first last : BitVec 64} (hheld : Held joint temp machine)
    (hheld' : Held joint bound machine')
    (hspares : Spares [] (temp + 2) ((machine.room temp).room (temp + 1)) machine')
    (hle : temp + 2 ≤ bound) (name : Name) :
    Counts joint bound ((machine'.store machine.memory.length (.int first)).store
      (machine.memory.length + 1) (.int last)) name temp machine.memory.length (temp + 1)
      (machine.memory.length + 1) first last := by
  have hlength : machine.memory.length + 1 < machine'.memory.length := by
    have hgrown := hspares.length
    simp only [Machine.room, Machine.write, Machine.allocate, List.length_append,
      List.length_singleton] at hgrown
    omega
  have hfresh : ∀ slot ∈ joint.slots, slot < machine.memory.length :=
    fun _ hslot => hheld.slots_lt hslot
  have hiter : machine.memory.length ∉ joint.slots := fun hslot => Nat.lt_irrefl _ (hfresh _ hslot)
  have hend : machine.memory.length + 1 ∉ joint.slots := fun hslot => by
    have hlt := hfresh _ hslot
    omega
  have hiterPtr : machine'.registers temp = some (.ptr (some ⟨machine.memory.length, []⟩)) := by
    rw [hspares.registers temp (by omega)]
    simp [Machine.room, Machine.write, Machine.allocate]
  have hendPtr : machine'.registers (temp + 1) =
      some (.ptr (some ⟨machine.memory.length + 1, []⟩)) := by
    rw [hspares.registers (temp + 1) (by omega)]
    simp [Machine.room, Machine.write, Machine.allocate]
  refine ⟨.cons ((hheld'.memory_store hiter _).memory_store hend _) ?_ hiterPtr ?_ (.int _) hiter,
    by omega, hendPtr, ?_, ?_⟩
  · simp only [counter]
    omega
  · have hlt : machine.memory.length < machine'.memory.length := by omega
    simp [counter, Machine.store, hlt]
  · simp [Machine.store, hlength]
  · simp [hend]

theorem forStmt_simulated {store : Store} {outside outside' outside'' : Outside ω} {name : Name}
    {type : TypeRef} {start stop : IrExpr} {first last : BitVec 64} {body : List IrStmt}
    {outcome : Outcome ω} (hnodup : whole.labels.Nodup)
    (hstart : eval oracle store start outside = some (.int first, outside'))
    (hstop : eval oracle store stop outside' = some (.int last, outside''))
    (hrounds : Simulated oracle arguments whole context program returnType store outside''
      (.forRounds name (range first last) body) outcome) :
    Simulated oracle arguments whole context program returnType store outside
      (.statement (.forStmt name type start stop body)) outcome := by
  intro joint machine scope types hstore houtside hagrees htyped
  subst hstore houtside
  refine ⟨rfl, ?_⟩
  intro state after a code before rest hopen hheld hrun hwhole
  simp only [stmtTyped, Bool.and_eq_true, decide_eq_true_eq] at htyped
  obtain ⟨⟨⟨⟨⟨rfl, hstartTyped⟩, hstartType⟩, hstopTyped⟩, hstopType⟩, hbodyTyped⟩ := htyped
  obtain ⟨startValue, startCode, middle, stopValue, stopCode, middle', bodyCode, middle'',
    stepCode, bodyEnd, hstartRun, hstopRun, hbodyRun, hstepRun, rfl, rfl, hcode⟩ :=
    emitStatement_for_eq_some hrun
  generalize hround : forHead middle'.nextTemp state.nextLabel state.nextTemp
      (state.nextTemp + 1) ++
    (bodyCode ++ (stepCode ++ Line.label (state.nextLabel + 2) :: rest)) = round
  have hlines : code ++ rest = Line.inst (Inst.alloca state.nextTemp .int) ::
      Line.inst (Inst.alloca (state.nextTemp + 1) .int) :: (startCode ++ (stopCode ++
        (Line.inst (Inst.store startValue (.reg state.nextTemp)) ::
          .inst (.store stopValue (.reg (state.nextTemp + 1))) :: .inst (.br state.nextLabel) ::
          .label state.nextLabel :: round))) := by
    rw [hcode, ← hround]
    simp [forHead]
  rw [hlines] at hwhole ⊢
  have hroom : Spares [] state.nextTemp machine
      ((machine.room state.nextTemp).room (state.nextTemp + 1)) :=
    (Spares.room (Nat.le_refl _)).trans (.room (Nat.le_refl _)) (Nat.le_succ _) (by simp)
  have hopen' : EmitState.terminated
      ⟨state.nextTemp + 2, state.nextLabel + 3, state.terminated⟩ = false := hopen
  have hstart' : eval oracle joint.store start
      ((machine.room state.nextTemp).room (state.nextTemp + 1)).outside =
        some (.int first, outside') := hstart
  obtain ⟨hstartOpen, hle, started, hstartPasses, hstartHeld, hstartHolds, rfl⟩ :=
    expression_passes arguments hnodup hagrees hstartTyped hopen' hstart'
      (hheld.spares hroom (Nat.le_add_right _ 2)) hstartRun
      (hwhole.trans (append_two _ _ _ _))
  obtain ⟨hstopOpen, hle', stopped, hstopPasses, hstopHeld, hstopHolds, rfl⟩ :=
    expression_passes arguments hnodup hagrees hstopTyped hstartOpen hstop hstartHeld hstopRun
      (hwhole.trans ((append_two _ _ _ _).trans (List.append_assoc _ _ _).symm))
  rw [hstartType] at hstartHolds
  rw [hstopType] at hstopHolds
  have hbound : state.nextTemp + 2 ≤ middle'.nextTemp := Nat.le_trans hle hle'
  have hboth : Spares [] (state.nextTemp + 2)
      ((machine.room state.nextTemp).room (state.nextTemp + 1)) stopped :=
    hstartPasses.spares.trans hstopPasses.spares hle (by simp)
  have hcounts : Counts joint middle'.nextTemp _ name _ _ _ _ first last :=
    counts_of_stored hheld hstopHeld hboth hbound name
  have hlabel : whole = (before ++ Line.inst (Inst.alloca state.nextTemp .int) ::
      Line.inst (Inst.alloca (state.nextTemp + 1) .int) :: (startCode ++ (stopCode ++
        [Line.inst (Inst.store startValue (.reg state.nextTemp)),
          Line.inst (Inst.store stopValue (.reg (state.nextTemp + 1))),
          Line.inst (Inst.br state.nextLabel)]))) ++
      Line.label state.nextLabel :: round := by
    simpa using hwhole
  have hfind := findLabel_of_eq _ hnodup hlabel
  have hstored := store_bounds_reaches oracle arguments (.label state.nextLabel :: round) hfind
    (hstartHolds.spares hstopPasses.spares hle') hstopHolds
    (hcounts.held.register _ List.mem_cons_self) hcounts.register
  have hreaches : Reaches oracle arguments whole (Line.inst (Inst.alloca state.nextTemp .int) ::
      Line.inst (Inst.alloca (state.nextTemp + 1) .int) :: (startCode ++ (stopCode ++ _)), machine)
      (round, _) :=
    ((Reaches.single room_step).trans (.single room_step)).trans
      (hstartPasses.reaches.trans (hstopPasses.reaches.trans hstored))
  have hspares : Spares [] state.nextTemp machine
      ((stopped.store machine.memory.length (.int first)).store (machine.memory.length + 1)
        (.int last)) := by
    have hfirst : Spares [machine.memory.length, machine.memory.length + 1] state.nextTemp stopped
        (stopped.store machine.memory.length (.int first)) :=
      (Spares.store _).mono (Nat.le_refl _) (by simp)
    have hsecond : Spares [machine.memory.length, machine.memory.length + 1] state.nextTemp stopped
        ((stopped.store machine.memory.length (.int first)).store (machine.memory.length + 1)
          (.int last)) :=
      hfirst.trans (.store _ : Spares _ state.nextTemp _ _) (Nat.le_refl _) (by simp)
    refine (hroom.trans hboth (Nat.le_add_right _ 2) (by simp)).trans hsecond (Nat.le_refl _) ?_
    intro slot hslot hlt
    simp only [List.mem_cons, List.not_mem_nil, or_false] at hslot
    omega
  have houtside : ((stopped.store machine.memory.length (.int first)).store
      (machine.memory.length + 1) (.int last)).outside = stopped.outside := rfl
  rw [← hround] at hlabel
  have harrives := hrounds rfl houtside hagrees hbodyTyped rfl hcounts hbodyRun hstepRun hlabel
  rw [hround] at harrives
  refine ⟨rfl, fun _ => rfl, Behind.arrives ⟨hreaches, hspares.mono (Nat.le_refl _) (by simp),
    hheld.spares hspares (Nat.le_refl _), rfl⟩ harrives (by omega) ?_⟩
  intro slot hslot hlt
  rcases List.mem_cons.mp hslot with rfl | hslot
  · exact absurd hlt (Nat.lt_irrefl _)
  · exact hslot

end Llvm

end Cnegative
