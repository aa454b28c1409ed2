import Cnegative.Backend.Emits
import Cnegative.Backend.Operators

namespace Cnegative

open Library (Line Code Chain Frame)

open Scalar (Oracle Outside Store Local eval evalAll applyUnary applyBinary)

open Typing (TypeEnv LocalType exprTyped itemsTyped unaryTyped binaryTyped)

namespace Llvm

variable {ω : Type} {oracle : Oracle ω} {arguments : List Value} {whole : Code Inst}

/-! Either side of a branch leaves its value in the same slot. -/

theorem store_load_reaches {value : LlvmValue} {found : Value} {type : TypeRef}
    {slotRegister slot merge id bound : Nat} {more rest : Code Inst} {machine : Machine ω}
    (hholds : Holds machine bound value found type)
    (hregister : machine.registers slotRegister = some (.ptr (some ⟨slot, []⟩)))
    (hslot : slot < machine.memory.length)
    (hmerge : whole.findLabel merge = some (.inst (.load id type (.reg slotRegister)) :: rest)) :
    Reaches oracle arguments whole
      (.inst (.store value (.reg slotRegister)) :: .inst (.br merge) :: more, machine)
      (rest, (machine.store slot found).write id found) := by
  have hpointer : machine.slot (.reg slotRegister) = some slot := by
    simp [Machine.slot, hregister]
  have hstore : step oracle arguments whole
      (.inst (.store value (.reg slotRegister)) :: .inst (.br merge) :: more, machine) =
        some (.inst (.br merge) :: more, machine.store slot found) := by
    simp [step, execute, hholds.operand, hpointer]
  have hbranch : step oracle arguments whole
      (.inst (.br merge) :: more, machine.store slot found) =
        some (.inst (.load id type (.reg slotRegister)) :: rest, machine.store slot found) := by
    simp [step, hmerge]
  have hload : step oracle arguments whole
      (.inst (.load id type (.reg slotRegister)) :: rest, machine.store slot found) =
        some (rest, (machine.store slot found).write id found) := by
    have hsame : (machine.store slot found).slot (.reg slotRegister) = some slot := hpointer
    have hmemory : (machine.store slot found).memory[slot]? = some found := by
      simp [Machine.store, hslot]
    simp [step, execute, hsame, hmemory]
  exact (Reaches.single hstore).trans ((Reaches.single hbranch).trans (.single hload))

/-- From the branch through one arm to behind the label where the arms meet. -/
theorem choice_reaches {test value : LlvmValue} {truth : Bool} {found : Value} {type : TypeRef}
    {thenLabel elseLabel slotRegister slot merge id bound bound' : Nat}
    {armCode code more rest : Code Inst} {machine machine' : Machine ω}
    (htest : machine.operand test = some (.bool truth))
    (hfind : whole.findLabel (if truth then thenLabel else elseLabel) =
      some (armCode ++
        (Line.inst (Inst.store value (.reg slotRegister)) :: Line.inst (Inst.br merge) :: more)))
    (hpasses : Passes oracle arguments whole armCode
      (.inst (.store value (.reg slotRegister)) :: .inst (.br merge) :: more) [] bound machine
      machine')
    (hholds : Holds machine' bound' value found type)
    (hregister : machine'.registers slotRegister = some (.ptr (some ⟨slot, []⟩)))
    (hslot : slot < machine'.memory.length)
    (hmerge : whole.findLabel merge = some (.inst (.load id type (.reg slotRegister)) :: rest)) :
    Reaches oracle arguments whole (.inst (.condBr test thenLabel elseLabel) :: code, machine)
      (rest, (machine'.store slot found).write id found) := by
  have hbranch : step oracle arguments whole
      (Line.inst (Inst.condBr test thenLabel elseLabel) :: code, machine) =
        some (armCode ++ (Line.inst (Inst.store value (.reg slotRegister)) ::
          Line.inst (Inst.br merge) :: more),
          machine) := by
    simp [step, htest, hfind]
  exact (Reaches.single hbranch).trans
    (hpasses.reaches.trans (store_load_reaches hholds hregister hslot hmerge))

/-! Expressions. -/

section

variable (oracle arguments whole)

/-- The emitted code computes what the expression means, from every machine that holds the
locals. -/
def Computes (joint : Joint) (emitter : Emit LlvmValue)
    (evaluate : Outside ω → Option (Value × Outside ω)) (type : TypeRef) : Prop :=
  ∀ ⦃state : EmitState⦄ ⦃machine : Machine ω⦄ ⦃found : Value⦄ ⦃outside : Outside ω⦄,
    state.terminated = false → evaluate machine.outside = some (found, outside) →
      Held joint state.nextTemp machine →
        Yields oracle arguments whole state machine emitter (Value.post found type outside)

end

/-- The shape that short-circuit operators and `if` expressions share. -/
theorem choice_yields {joint : Joint} {state middle armState armAfter : EmitState}
    {machine : Machine ω} {type : TypeRef} {test value : LlvmValue} {truth : Bool} {found : Value}
    {outside outside' : Outside ω} {thenLabel elseLabel merge id : Nat}
    {arm : Emit LlvmValue} {evaluateArm : Outside ω → Option (Value × Outside ω)}
    {testCode armCode before code more rest : Code Inst}
    {condition : Emit LlvmValue} {evaluateTest : Outside ω → Option (Value × Outside ω)}
    (hheld : Held joint state.nextTemp machine)
    (hcondition : Computes oracle arguments whole joint condition evaluateTest .bool)
    (hopen : state.terminated = false) {labels : Nat}
    (htestRun : condition ⟨state.nextTemp + 1, labels, state.terminated⟩ =
      some (test, testCode, middle))
    (htest : evaluateTest machine.outside = some (.bool truth, outside))
    (hwhole : whole = before ++ (Line.inst (Inst.alloca state.nextTemp type) ::
      (testCode ++ (Line.inst (Inst.condBr test thenLabel elseLabel) :: code))))
    (harm : Computes oracle arguments whole joint arm evaluateArm type)
    (harmOpen : armState.terminated = false) (harmTemp : middle.nextTemp ≤ armState.nextTemp)
    (harmRun : arm armState = some (value, armCode, armAfter))
    (hevaluate : evaluateArm outside = some (found, outside'))
    (hfind : whole.findLabel (if truth then thenLabel else elseLabel) =
      some (armCode ++
        (Line.inst (Inst.store value (.reg state.nextTemp)) :: Line.inst (Inst.br merge) :: more)))
    (hmerge : whole.findLabel merge =
      some (.inst (.load id type (.reg state.nextTemp)) :: rest))
    (hid : armAfter.nextTemp ≤ id) :
    middle.nextTemp ≤ armAfter.nextTemp ∧ state.nextTemp ≤ middle.nextTemp ∧ ∃ machine',
      Reaches oracle arguments whole
        (Line.inst (Inst.alloca state.nextTemp type) ::
          (testCode ++ (Line.inst (Inst.condBr test thenLabel elseLabel) :: code)), machine)
        (rest, machine') ∧
      Spares [] state.nextTemp machine machine' ∧
      Holds machine' (id + 1) (.register type id) found type ∧ machine'.outside = outside' := by
  have halloca : Spares [] state.nextTemp machine
      (machine.allocate.write state.nextTemp (.ptr (some ⟨machine.memory.length, []⟩))) :=
    .allocate (Nat.le_refl _) _
  generalize hslotted : machine.allocate.write state.nextTemp
    (.ptr (some ⟨machine.memory.length, []⟩)) = slotted at halloca
  have hfirst : step oracle arguments whole (Line.inst (Inst.alloca state.nextTemp type) ::
      (testCode ++ (Line.inst (Inst.condBr test thenLabel elseLabel) :: code)), machine) =
      some (testCode ++ (Line.inst (Inst.condBr test thenLabel elseLabel) :: code), slotted) := by
    rw [← hslotted]
    rfl
  have houtside : slotted.outside = machine.outside := by
    rw [← hslotted]
    rfl
  have htestOpen :
      (⟨state.nextTemp + 1, labels, state.terminated⟩ : EmitState).terminated = false :=
    hopen
  obtain ⟨-, htestTemp, tested, htestPasses, htestHolds, htestOutside⟩ :=
    hcondition htestOpen (houtside ▸ htest) (hheld.spares halloca (Nat.le_succ _)) htestRun
      (hwhole.trans (by rw [← List.singleton_append, ← List.append_assoc]))
  have htestSpares : Spares [] state.nextTemp machine tested :=
    halloca.trans htestPasses.spares (Nat.le_succ _) (by simp)
  have hmiddle : state.nextTemp + 1 ≤ middle.nextTemp := htestTemp
  obtain ⟨armBefore, harmWhole⟩ := suffix_of_findLabel hfind
  obtain ⟨-, harmAfter, armed, harmPasses, harmHolds, harmOutside⟩ :=
    harm harmOpen (htestOutside ▸ hevaluate)
      (hheld.spares htestSpares (by omega)) harmRun harmWhole
  have hboth : Spares [] (state.nextTemp + 1) slotted armed :=
    htestPasses.spares.trans harmPasses.spares (by dsimp only; omega) (by simp)
  have hregister : armed.registers state.nextTemp =
      some (.ptr (some ⟨machine.memory.length, []⟩)) := by
    rw [hboth.registers _ (Nat.lt_succ_self _), ← hslotted]
    simp [Machine.write]
  have hslot : machine.memory.length < armed.memory.length := by
    refine Nat.lt_of_lt_of_le ?_ hboth.length
    rw [← hslotted]
    simp [Machine.write, Machine.allocate]
  refine ⟨Nat.le_trans harmTemp harmAfter, by omega,
    (armed.store machine.memory.length found).write id found, ?_, ?_, .written harmHolds.hasType,
    harmOutside⟩
  · exact (Reaches.single hfirst).trans (htestPasses.reaches.trans
      (choice_reaches htestHolds.operand hfind harmPasses harmHolds hregister hslot hmerge))
  · have hwritten : Spares [] id (armed.store machine.memory.length found)
        ((armed.store machine.memory.length found).write id found) :=
      .write (Nat.le_refl _) found
    have hstored : Spares [machine.memory.length] id armed
        ((armed.store machine.memory.length found).write id found) :=
      (Spares.store found).trans hwritten (Nat.le_refl _) (by simp)
    refine (htestSpares.trans harmPasses.spares (by omega) (by simp)).trans hstored (by omega) ?_
    intro slot hmem hlt
    simp only [List.mem_singleton] at hmem
    omega

/-- The registers of an arm that is not taken are skipped. -/
def Grows (emitter : Emit LlvmValue) : Prop :=
  ∀ ⦃state after : EmitState⦄ ⦃value : LlvmValue⦄ ⦃code : Code Inst⦄,
    emitter state = some (value, code, after) → state.terminated = false →
      state.nextTemp ≤ after.nextTemp

theorem Emits.grows {known : Set Nat} {emitter : Emit LlvmValue} {registers : LlvmValue → Set Nat}
    (hemits : Emits known emitter registers) : Grows emitter := by
  intro state after value code hrun hopen
  obtain ⟨-, _, -, -, hsegment⟩ := hemits hrun hopen subset_rfl
  exact hsegment.registers_le

theorem computes_constant {joint : Joint} (truth : Bool) :
    Computes oracle arguments whole joint (pure ⟨.bool, .bool truth⟩)
      (fun outside => some (.bool truth, outside)) .bool := by
  intro state machine found outside hopen hevaluate _
  cases hevaluate
  exact .pure hopen ⟨⟨rfl, by simp [LlvmValue.registers], rfl, .bool _⟩, rfl⟩

theorem lowerShortCircuit_yields {joint : Joint} {state : EmitState} {machine : Machine ω}
    {left right : Emit LlvmValue}
    {evaluateLeft evaluateRight : Outside ω → Option (Value × Outside ω)}
    {isAnd truth : Bool} {found : Value} {outside outside' : Outside ω}
    (hnodup : whole.labels.Nodup) (hopen : state.terminated = false)
    (hheld : Held joint state.nextTemp machine)
    (hleft : Computes oracle arguments whole joint left evaluateLeft .bool)
    (hright : Computes oracle arguments whole joint right evaluateRight .bool)
    (hgrows : Grows right)
    (htest : evaluateLeft machine.outside = some (.bool truth, outside))
    (hresult : if truth = isAnd then evaluateRight outside = some (found, outside')
      else found = .bool truth ∧ outside' = outside) :
    Yields oracle arguments whole state machine (lowerShortCircuit .bool left right isAnd)
      (Value.post found .bool outside') := by
  intro after value code before rest hrun hwhole
  obtain ⟨leftValue, leftCode, middle, rightValue, rightCode, middle', hleftRun, hrightRun, rfl,
    rfl, rfl⟩ := lowerShortCircuit_eq_some hrun
  simp only [List.append_assoc, List.cons_append, List.nil_append] at hwhole
  have harmOpen : ({ middle with terminated := false } : EmitState).terminated = false := rfl
  have hgrown : middle.nextTemp ≤ middle'.nextTemp := by
    have hle := hgrows hrightRun harmOpen
    exact hle
  have hconstantFind : whole.findLabel (state.nextLabel + 1) = some
      (.inst (.store ⟨.bool, .bool (!isAnd)⟩ (.reg state.nextTemp)) ::
        .inst (.br (state.nextLabel + 2)) :: .label (state.nextLabel + 2) ::
        Line.inst (Inst.load middle'.nextTemp .bool (.reg state.nextTemp)) :: rest) :=
    findLabel_of_eq (before ++ Line.inst (Inst.alloca state.nextTemp .bool) ::
      (leftCode ++ Line.inst (Inst.condBr leftValue
          (if isAnd then state.nextLabel else state.nextLabel + 1)
        (if isAnd then state.nextLabel + 1 else state.nextLabel)) :: Line.label state.nextLabel ::
        (rightCode ++ [Line.inst (Inst.store rightValue (.reg state.nextTemp)),
          Line.inst (Inst.br (state.nextLabel + 2))]))) hnodup (by simpa using hwhole)
  have hrightFind : whole.findLabel state.nextLabel = some (rightCode ++
      (Line.inst (Inst.store rightValue (.reg state.nextTemp)) ::
        Line.inst (Inst.br (state.nextLabel + 2)) ::
        .label (state.nextLabel + 1) ::
        .inst (.store ⟨.bool, .bool (!isAnd)⟩ (.reg state.nextTemp)) ::
        .inst (.br (state.nextLabel + 2)) :: .label (state.nextLabel + 2) ::
        Line.inst (Inst.load middle'.nextTemp .bool (.reg state.nextTemp)) :: rest)) :=
    findLabel_of_eq (before ++ Line.inst (Inst.alloca state.nextTemp .bool) ::
      (leftCode ++ [Line.inst (Inst.condBr leftValue
        (if isAnd then state.nextLabel else state.nextLabel + 1)
        (if isAnd then state.nextLabel + 1 else state.nextLabel))])) hnodup
      (by simpa using hwhole)
  obtain ⟨constantBefore, hconstantWhole⟩ := suffix_of_findLabel hconstantFind
  have hmergeFind : whole.findLabel (state.nextLabel + 2) = some
      (Line.inst (Inst.load middle'.nextTemp .bool (.reg state.nextTemp)) :: rest) :=
    findLabel_of_eq (constantBefore ++
      [Line.inst (Inst.store ⟨.bool, .bool (!isAnd)⟩ (.reg state.nextTemp)),
        Line.inst (Inst.br (state.nextLabel + 2))]) hnodup (by simpa using hconstantWhole)
  have hshape : ([Line.inst (Inst.alloca state.nextTemp .bool)] ++ leftCode ++
      [Line.inst (Inst.condBr leftValue (if isAnd then state.nextLabel else state.nextLabel + 1)
        (if isAnd then state.nextLabel + 1 else state.nextLabel)), Line.label state.nextLabel] ++
      rightCode ++ [Line.inst (Inst.store rightValue (.reg state.nextTemp)),
        Line.inst (Inst.br (state.nextLabel + 2)), Line.label (state.nextLabel + 1)] ++
      [] ++ [Line.inst (Inst.store ⟨.bool, .bool (!isAnd)⟩ (.reg state.nextTemp)),
        Line.inst (Inst.br (state.nextLabel + 2)), Line.label (state.nextLabel + 2),
        Line.inst (Inst.load middle'.nextTemp .bool (.reg state.nextTemp))] ++ rest : Code Inst) =
      Line.inst (Inst.alloca state.nextTemp .bool) :: (leftCode ++ (Line.inst (Inst.condBr leftValue
        (if isAnd then state.nextLabel else state.nextLabel + 1)
        (if isAnd then state.nextLabel + 1 else state.nextLabel)) :: Line.label state.nextLabel ::
      (rightCode ++ Line.inst (Inst.store rightValue (.reg state.nextTemp)) ::
        Line.inst (Inst.br (state.nextLabel + 2)) :: Line.label (state.nextLabel + 1) ::
        .inst (.store ⟨.bool, .bool (!isAnd)⟩ (.reg state.nextTemp)) ::
        .inst (.br (state.nextLabel + 2)) :: .label (state.nextLabel + 2) ::
        .inst (.load middle'.nextTemp .bool (.reg state.nextTemp)) :: rest))) := by
    simp
  by_cases htaken : truth = isAnd
  · rw [if_pos htaken] at hresult
    have htarget : (if truth then (if isAnd then state.nextLabel else state.nextLabel + 1)
        else (if isAnd then state.nextLabel + 1 else state.nextLabel)) = state.nextLabel := by
      cases truth <;> cases isAnd <;> simp_all
    obtain ⟨-, hle, machine', hreaches, hspares, hholds, houtside⟩ :=
      choice_yields hheld hleft hopen
      hleftRun htest hwhole hright harmOpen
      (Nat.le_refl _) hrightRun hresult (by rw [htarget]; exact hrightFind) hmergeFind
      (Nat.le_refl _)
    exact ⟨rfl, by dsimp only; omega, machine', ⟨hshape ▸ hreaches, hspares⟩, hholds, houtside⟩
  · rw [if_neg htaken] at hresult
    obtain ⟨rfl, rfl⟩ := hresult
    have htarget : (if truth then (if isAnd then state.nextLabel else state.nextLabel + 1)
        else (if isAnd then state.nextLabel + 1 else state.nextLabel)) = state.nextLabel + 1 := by
      cases truth <;> cases isAnd <;> simp_all
    have hconstant : (!isAnd) = truth := by
      cases truth <;> cases isAnd <;> simp_all
    rw [hconstant] at hconstantFind
    obtain ⟨-, hle, machine', hreaches, hspares, hholds, houtside⟩ :=
      choice_yields hheld hleft hopen
      hleftRun htest hwhole (computes_constant truth)
      harmOpen (Nat.le_refl _) rfl rfl
      (by rw [htarget]; exact hconstantFind) hmergeFind hgrown
    exact ⟨rfl, by dsimp only; omega, machine', ⟨hshape ▸ hreaches, hspares⟩, hholds, houtside⟩

theorem lowerIfExpression_yields {joint : Joint} {state : EmitState} {machine : Machine ω}
    {condition thenExpr elseExpr : Emit LlvmValue}
    {evaluateTest evaluateThen evaluateElse : Outside ω → Option (Value × Outside ω)}
    {type : TypeRef} {truth : Bool} {found : Value} {outside outside' : Outside ω}
    (hnodup : whole.labels.Nodup) (hopen : state.terminated = false)
    (hheld : Held joint state.nextTemp machine)
    (hcondition : Computes oracle arguments whole joint condition evaluateTest .bool)
    (hthen : Computes oracle arguments whole joint thenExpr evaluateThen type)
    (helse : Computes oracle arguments whole joint elseExpr evaluateElse type)
    (hthenGrows : Grows thenExpr) (helseGrows : Grows elseExpr)
    (htest : evaluateTest machine.outside = some (.bool truth, outside))
    (hresult : (if truth then evaluateThen outside else evaluateElse outside) =
      some (found, outside')) :
    Yields oracle arguments whole state machine (lowerIfExpression type condition thenExpr elseExpr)
      (Value.post found type outside') := by
  intro after value code before rest hrun hwhole
  obtain ⟨test, testCode, middle, thenValue, thenCode, middle', elseValue, elseCode, middle'',
    htestRun, hthenRun, helseRun, rfl, rfl, rfl⟩ := lowerIfExpression_eq_some hrun
  simp only [List.append_assoc, List.cons_append, List.nil_append] at hwhole
  have hthenOpen : ({ middle with terminated := false } : EmitState).terminated = false := rfl
  have helseOpen : ({ middle' with terminated := false } : EmitState).terminated = false := rfl
  have hthenGrown : middle.nextTemp ≤ middle'.nextTemp := by
    have hle := hthenGrows hthenRun hthenOpen
    exact hle
  have helseGrown : middle'.nextTemp ≤ middle''.nextTemp := by
    have hle := helseGrows helseRun helseOpen
    exact hle
  have hthenFind : whole.findLabel state.nextLabel = some (thenCode ++
      (Line.inst (Inst.store thenValue (.reg state.nextTemp)) ::
        Line.inst (Inst.br (state.nextLabel + 2)) ::
        Line.label (state.nextLabel + 1) :: (elseCode ++
        Line.inst (Inst.store elseValue (.reg state.nextTemp)) ::
        .inst (.br (state.nextLabel + 2)) :: .label (state.nextLabel + 2) ::
        Line.inst (Inst.load middle''.nextTemp type (.reg state.nextTemp)) :: rest))) :=
    findLabel_of_eq (before ++ Line.inst (Inst.alloca state.nextTemp type) ::
      (testCode ++ [Line.inst (Inst.condBr test state.nextLabel (state.nextLabel + 1))])) hnodup
      (by simpa using hwhole)
  obtain ⟨thenBefore, hthenWhole⟩ := suffix_of_findLabel hthenFind
  have helseFind : whole.findLabel (state.nextLabel + 1) = some (elseCode ++
      (Line.inst (Inst.store elseValue (.reg state.nextTemp)) ::
        Line.inst (Inst.br (state.nextLabel + 2)) ::
        .label (state.nextLabel + 2) ::
        Line.inst (Inst.load middle''.nextTemp type (.reg state.nextTemp)) :: rest)) :=
    findLabel_of_eq (thenBefore ++ (thenCode ++
      [Line.inst (Inst.store thenValue (.reg state.nextTemp)),
        Line.inst (Inst.br (state.nextLabel + 2))])) hnodup
      (by simpa using hthenWhole)
  obtain ⟨elseBefore, helseWhole⟩ := suffix_of_findLabel helseFind
  have hmergeFind : whole.findLabel (state.nextLabel + 2) = some
      (Line.inst (Inst.load middle''.nextTemp type (.reg state.nextTemp)) :: rest) :=
    findLabel_of_eq (elseBefore ++ (elseCode ++
      [Line.inst (Inst.store elseValue (.reg state.nextTemp)),
        Line.inst (Inst.br (state.nextLabel + 2))])) hnodup
      (by simpa using helseWhole)
  have hshape : ([Line.inst (Inst.alloca state.nextTemp type)] ++ testCode ++
      [Line.inst (Inst.condBr test state.nextLabel (state.nextLabel + 1)),
        Line.label state.nextLabel] ++
      thenCode ++ [Line.inst (Inst.store thenValue (.reg state.nextTemp)),
        Line.inst (Inst.br (state.nextLabel + 2)), Line.label (state.nextLabel + 1)] ++
      elseCode ++ [Line.inst (Inst.store elseValue (.reg state.nextTemp)),
        Line.inst (Inst.br (state.nextLabel + 2)), Line.label (state.nextLabel + 2),
        Line.inst (Inst.load middle''.nextTemp type (.reg state.nextTemp))] ++ rest : Code Inst) =
      Line.inst (Inst.alloca state.nextTemp type) :: (testCode ++
        (Line.inst (Inst.condBr test state.nextLabel (state.nextLabel + 1)) ::
          Line.label state.nextLabel ::
      (thenCode ++ Line.inst (Inst.store thenValue (.reg state.nextTemp)) ::
        Line.inst (Inst.br (state.nextLabel + 2)) :: Line.label (state.nextLabel + 1) ::
        (elseCode ++ Line.inst (Inst.store elseValue (.reg state.nextTemp)) ::
        Line.inst (Inst.br (state.nextLabel + 2)) :: Line.label (state.nextLabel + 2) ::
        .inst (.load middle''.nextTemp type (.reg state.nextTemp)) :: rest)))) := by
    simp
  cases truth with
  | true =>
      obtain ⟨-, hle, machine', hreaches, hspares, hholds, houtside⟩ := choice_yields hheld
        hcondition hopen htestRun htest hwhole hthen hthenOpen (Nat.le_refl _) hthenRun hresult
        hthenFind hmergeFind helseGrown
      exact ⟨rfl, by dsimp only; omega, machine', ⟨hshape ▸ hreaches, hspares⟩, hholds, houtside⟩
  | false =>
      obtain ⟨-, hle, machine', hreaches, hspares, hholds, houtside⟩ := choice_yields hheld
        hcondition hopen htestRun htest hwhole helse helseOpen hthenGrown helseRun hresult
        helseFind hmergeFind (Nat.le_refl _)
      exact ⟨rfl, by dsimp only; omega, machine', ⟨hshape ▸ hreaches, hspares⟩, hholds, houtside⟩

end Llvm

end Cnegative
