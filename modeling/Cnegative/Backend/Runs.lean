import Cnegative.Backend.Function

namespace Cnegative

open Library (Line Code Chain Frame)

namespace Llvm

/-! What a run of an emitter was made of. -/

namespace Emit

variable {α β : Type}

theorem bind_eq_some {first : Emit α} {next : α → Emit β} {state after : EmitState} {b : β}
    {code : Code Inst} :
    (first >>= next) state = some (b, code, after) ↔
      ∃ a before middle behind, first state = some (a, before, middle) ∧
        next a middle = some (b, behind, after) ∧ code = before ++ behind := by
  change (first state).bind _ = _ ↔ _
  constructor
  · intro h
    cases hfirst : first state with
    | none => simp [hfirst] at h
    | some found =>
        obtain ⟨a, before, middle⟩ := found
        cases hnext : next a middle with
        | none => simp [hfirst, hnext] at h
        | some reached =>
            obtain ⟨b', behind, after'⟩ := reached
            simp only [hfirst, hnext, Option.bind_eq_bind, Option.bind_some, Option.pure_def,
              Option.some.injEq, Prod.mk.injEq] at h
            obtain ⟨rfl, rfl, rfl⟩ := h
            exact ⟨a, before, middle, behind, rfl, hnext, rfl⟩
  · rintro ⟨a, before, middle, behind, hfirst, hnext, rfl⟩
    simp [hfirst, hnext]

/-- A first step that always gives the same. -/
theorem step_eq_some {first : Emit α} {next : α → Emit β} {state middle after : EmitState} {a : α}
    {b : β} {emitted code : Code Inst} (hrun : (first >>= next) state = some (b, code, after))
    (hfirst : first state = some (a, emitted, middle)) :
    ∃ rest, next a middle = some (b, rest, after) ∧ code = emitted ++ rest := by
  obtain ⟨a', before, middle', behind, hfirst', hnext, rfl⟩ := bind_eq_some.mp hrun
  rw [hfirst] at hfirst'
  obtain ⟨rfl, rfl, rfl⟩ := hfirst'
  exact ⟨behind, hnext, rfl⟩

@[simp] theorem pure_eq_some {a b : α} {state after : EmitState} {code : Code Inst} :
    (pure a : Emit α) state = some (b, code, after) ↔ a = b ∧ code = [] ∧ state = after := by
  change some (a, [], state) = some (b, code, after) ↔ _
  simp [eq_comm]

@[simp] theorem fail_eq_some {a : α} {state after : EmitState} {code : Code Inst} :
    (fail : Emit α) state = some (a, code, after) ↔ False := by
  simp [fail]

theorem ofOption_eq_some {option : Option α} {a : α} {state after : EmitState}
    {code : Code Inst} :
    ofOption option state = some (a, code, after) ↔
      option = some a ∧ code = [] ∧ state = after := by
  cases option <;> simp [ofOption]

@[simp] theorem nextLabel_eq_some {id : Nat} {state after : EmitState} {code : Code Inst} :
    nextLabel state = some (id, code, after) ↔
      state.nextLabel = id ∧ [] = code ∧ { state with nextLabel := state.nextLabel + 1 } = after := by
  simp [nextLabel]

@[simp] theorem isTerminated_eq_some {flag : Bool} {state after : EmitState} {code : Code Inst} :
    isTerminated state = some (flag, code, after) ↔
      state.terminated = flag ∧ [] = code ∧ state = after := by
  simp [isTerminated]

@[simp] theorem write_eq_some {done : Unit} {inst : Inst} {state after : EmitState}
    {code : Code Inst} :
    write inst state = some (done, code, after) ↔ [.inst inst] = code ∧ state = after := by
  simp [write]

@[simp] theorem terminate_eq_some {done : Unit} {inst : Inst} {state after : EmitState}
    {code : Code Inst} :
    terminate inst state = some (done, code, after) ↔
      [.inst inst] = code ∧ { state with terminated := true } = after := by
  simp [terminate]

@[simp] theorem label_eq_some {done : Unit} {id : Nat} {state after : EmitState}
    {code : Code Inst} :
    label id state = some (done, code, after) ↔
      [.label id] = code ∧ { state with terminated := false } = after := by
  simp [label]

theorem result_eq_some {inst : Nat → Inst} {id : Nat} {state after : EmitState}
    {code : Code Inst} :
    result inst state = some (id, code, after) ↔
      state.nextTemp = id ∧ [.inst (inst id)] = code ∧
        { state with nextTemp := state.nextTemp + 1 } = after := by
  have hrun : result inst state = some (state.nextTemp, [.inst (inst state.nextTemp)],
      { state with nextTemp := state.nextTemp + 1 }) := rfl
  rw [hrun]
  simp only [Option.some.injEq, Prod.mk.injEq]
  constructor
  · rintro ⟨rfl, rfl, rfl⟩
    exact ⟨rfl, rfl, rfl⟩
  · rintro ⟨rfl, rfl, rfl⟩
    exact ⟨rfl, rfl, rfl⟩

end Emit

/-- A value from either side of a branch: alloca, test, both sides, load. -/
theorem lowerShortCircuit_eq_some {type : TypeRef} {left right : Emit LlvmValue} {isAnd : Bool}
    {state after : EmitState} {value : LlvmValue} {code : Code Inst}
    (hrun : lowerShortCircuit type left right isAnd state = some (value, code, after)) :
    ∃ leftValue leftCode middle rightValue rightCode middle',
      left ⟨state.nextTemp + 1, state.nextLabel + 3, state.terminated⟩ =
        some (leftValue, leftCode, middle) ∧
      right { middle with terminated := false } = some (rightValue, rightCode, middle') ∧
      value = .register type middle'.nextTemp ∧
      after = ⟨middle'.nextTemp + 1, middle'.nextLabel, false⟩ ∧
      code = [Line.inst (Inst.alloca state.nextTemp type)] ++ leftCode ++
        [Line.inst (Inst.condBr leftValue (if isAnd then state.nextLabel else state.nextLabel + 1)
          (if isAnd then state.nextLabel + 1 else state.nextLabel)), Line.label state.nextLabel] ++
        rightCode ++ [Line.inst (Inst.store rightValue (.reg state.nextTemp)),
          Line.inst (Inst.br (state.nextLabel + 2)), Line.label (state.nextLabel + 1)] ++
        [] ++ [Line.inst (Inst.store ⟨type, .bool (!isAnd)⟩ (.reg state.nextTemp)),
          Line.inst (Inst.br (state.nextLabel + 2)), Line.label (state.nextLabel + 2),
          .inst (.load middle'.nextTemp type (.reg state.nextTemp))] := by
  unfold lowerShortCircuit at hrun
  obtain ⟨_, hrun₁, rfl⟩ := Emit.step_eq_some hrun rfl
  obtain ⟨_, hrun₂, rfl⟩ := Emit.step_eq_some hrun₁ rfl
  obtain ⟨_, hrun₃, rfl⟩ := Emit.step_eq_some hrun₂ rfl
  obtain ⟨_, hrun₄, rfl⟩ := Emit.step_eq_some hrun₃ rfl
  obtain ⟨leftValue, leftCode, middle, _, hleft, hrun₅, rfl⟩ := Emit.bind_eq_some.mp hrun₄
  obtain ⟨_, hrun₆, rfl⟩ := Emit.step_eq_some hrun₅ rfl
  obtain ⟨_, hrun₇, rfl⟩ := Emit.step_eq_some hrun₆ rfl
  obtain ⟨rightValue, rightCode, middle', _, hright, hrun₈, rfl⟩ := Emit.bind_eq_some.mp hrun₇
  obtain ⟨_, hrun₉, rfl⟩ := Emit.step_eq_some hrun₈ rfl
  obtain ⟨_, hrun₁₀, rfl⟩ := Emit.step_eq_some hrun₉ rfl
  obtain ⟨_, hrun₁₁, rfl⟩ := Emit.step_eq_some hrun₁₀ rfl
  obtain ⟨_, hrun₁₂, rfl⟩ := Emit.step_eq_some hrun₁₁ rfl
  obtain ⟨_, hrun₁₃, rfl⟩ := Emit.step_eq_some hrun₁₂ rfl
  obtain ⟨_, hrun₁₄, rfl⟩ := Emit.step_eq_some hrun₁₃ rfl
  obtain ⟨rfl, rfl, rfl⟩ := hrun₁₄
  exact ⟨leftValue, leftCode, middle, rightValue, rightCode, middle', hleft, hright, rfl, rfl,
    by simp⟩

theorem lowerIfExpression_eq_some {type : TypeRef} {condition thenExpr elseExpr : Emit LlvmValue}
    {state after : EmitState} {value : LlvmValue} {code : Code Inst}
    (hrun : lowerIfExpression type condition thenExpr elseExpr state =
      some (value, code, after)) :
    ∃ test testCode middle thenValue thenCode middle' elseValue elseCode middle'',
      condition ⟨state.nextTemp + 1, state.nextLabel + 3, state.terminated⟩ =
        some (test, testCode, middle) ∧
      thenExpr { middle with terminated := false } = some (thenValue, thenCode, middle') ∧
      elseExpr { middle' with terminated := false } = some (elseValue, elseCode, middle'') ∧
      value = .register type middle''.nextTemp ∧
      after = ⟨middle''.nextTemp + 1, middle''.nextLabel, false⟩ ∧
      code = [Line.inst (Inst.alloca state.nextTemp type)] ++ testCode ++
        [Line.inst (Inst.condBr test state.nextLabel (state.nextLabel + 1)),
          Line.label state.nextLabel] ++
        thenCode ++ [Line.inst (Inst.store thenValue (.reg state.nextTemp)),
          Line.inst (Inst.br (state.nextLabel + 2)), Line.label (state.nextLabel + 1)] ++
        elseCode ++ [Line.inst (Inst.store elseValue (.reg state.nextTemp)),
          Line.inst (Inst.br (state.nextLabel + 2)), Line.label (state.nextLabel + 2),
          .inst (.load middle''.nextTemp type (.reg state.nextTemp))] := by
  unfold lowerIfExpression at hrun
  obtain ⟨_, hrun₁, rfl⟩ := Emit.step_eq_some hrun rfl
  obtain ⟨_, hrun₂, rfl⟩ := Emit.step_eq_some hrun₁ rfl
  obtain ⟨_, hrun₃, rfl⟩ := Emit.step_eq_some hrun₂ rfl
  obtain ⟨_, hrun₄, rfl⟩ := Emit.step_eq_some hrun₃ rfl
  obtain ⟨test, testCode, middle, _, htest, hrun₅, rfl⟩ := Emit.bind_eq_some.mp hrun₄
  obtain ⟨_, hrun₆, rfl⟩ := Emit.step_eq_some hrun₅ rfl
  obtain ⟨_, hrun₇, rfl⟩ := Emit.step_eq_some hrun₆ rfl
  obtain ⟨thenValue, thenCode, middle', _, hthen, hrun₈, rfl⟩ := Emit.bind_eq_some.mp hrun₇
  obtain ⟨_, hrun₉, rfl⟩ := Emit.step_eq_some hrun₈ rfl
  obtain ⟨_, hrun₁₀, rfl⟩ := Emit.step_eq_some hrun₉ rfl
  obtain ⟨_, hrun₁₁, rfl⟩ := Emit.step_eq_some hrun₁₀ rfl
  obtain ⟨elseValue, elseCode, middle'', _, helse, hrun₁₂, rfl⟩ := Emit.bind_eq_some.mp hrun₁₁
  obtain ⟨_, hrun₁₃, rfl⟩ := Emit.step_eq_some hrun₁₂ rfl
  obtain ⟨_, hrun₁₄, rfl⟩ := Emit.step_eq_some hrun₁₃ rfl
  obtain ⟨_, hrun₁₅, rfl⟩ := Emit.step_eq_some hrun₁₄ rfl
  obtain ⟨rfl, rfl, rfl⟩ := hrun₁₅
  exact ⟨test, testCode, middle, thenValue, thenCode, middle', elseValue, elseCode, middle'',
    htest, hthen, helse, rfl, rfl, by simp⟩

section

variable {context : EmitContext} {scope scope' : Scope} {state after : EmitState}
  {code : Code Inst} {condition : IrExpr} {body : List IrStmt}

theorem emitStatement_if_eq_some {thenBlock : List IrStmt} {elseBlock : Option (List IrStmt)}
    (hrun : emitStatement context scope (.ifStmt condition thenBlock elseBlock) state =
      some (scope', code, after)) :
    ∃ test testCode middle thenCode middle' thenJump elseStart elseCode elseEnd,
      (lowerExpression context scope condition).value
        { state with nextLabel := state.nextLabel + 3 } = some (test, testCode, middle) ∧
      emitBlock context scope.push thenBlock { middle with terminated := false } =
        some ((), thenCode, middle') ∧
      emitBrIfOpen (state.nextLabel + 2) middle' = some ((), thenJump, elseStart) ∧
      emitElse context scope (state.nextLabel + 1) (state.nextLabel + 2) elseBlock elseStart =
        some ((), elseCode, elseEnd) ∧
      scope = scope' ∧ after = { elseEnd with terminated := false } ∧
      code = testCode ++ [Line.inst (Inst.condBr test state.nextLabel
          (if elseBlock.isNone then state.nextLabel + 2 else state.nextLabel + 1)),
        Line.label state.nextLabel] ++ thenCode ++ thenJump ++ elseCode ++
        [Line.label (state.nextLabel + 2)] := by
  rw [emitStatement] at hrun
  obtain ⟨_, hrun₁, rfl⟩ := Emit.step_eq_some hrun rfl
  obtain ⟨_, hrun₂, rfl⟩ := Emit.step_eq_some hrun₁ rfl
  obtain ⟨_, hrun₃, rfl⟩ := Emit.step_eq_some hrun₂ rfl
  obtain ⟨test, testCode, middle, _, htest, hrun₄, rfl⟩ := Emit.bind_eq_some.mp hrun₃
  obtain ⟨_, hrun₅, rfl⟩ := Emit.step_eq_some hrun₄ rfl
  obtain ⟨_, hrun₆, rfl⟩ := Emit.step_eq_some hrun₅ rfl
  obtain ⟨_, thenCode, middle', _, hthen, hrun₇, rfl⟩ := Emit.bind_eq_some.mp hrun₆
  obtain ⟨_, thenJump, elseStart, _, hjump, hrun₈, rfl⟩ := Emit.bind_eq_some.mp hrun₇
  obtain ⟨_, elseCode, elseEnd, _, helse, hrun₉, rfl⟩ := Emit.bind_eq_some.mp hrun₈
  obtain ⟨_, hrun₁₀, rfl⟩ := Emit.step_eq_some hrun₉ rfl
  obtain ⟨rfl, rfl, rfl⟩ := hrun₁₀
  exact ⟨test, testCode, middle, thenCode, middle', thenJump, elseStart, elseCode, elseEnd,
    htest, hthen, hjump, helse, rfl, rfl, by simp⟩

theorem emitElse_some_eq_some {elseLabel mergeLabel : Nat} {block : List IrStmt}
    (hrun : emitElse context scope elseLabel mergeLabel (some block) state =
      some ((), code, after)) :
    ∃ blockCode middle jump,
      emitBlock context scope.push block { state with terminated := false } =
        some ((), blockCode, middle) ∧
      emitBrIfOpen mergeLabel middle = some ((), jump, after) ∧
      code = [Line.label elseLabel] ++ blockCode ++ jump := by
  simp only [emitElse, Emit.bind_eq_some, Emit.label_eq_some, ↓existsAndEq, and_true, true_and,
    exists_const] at hrun
  obtain ⟨_, blockCode, middle, jump, ⟨hblock, hjump⟩, rfl⟩ := hrun
  exact ⟨blockCode, middle, jump, hblock, hjump, by simp⟩

theorem emitStatement_while_eq_some
    (hrun : emitStatement context scope (.whileStmt condition body) state =
      some (scope', code, after)) :
    ∃ test testCode middle bodyCode middle' jump bodyEnd,
      (lowerExpression context scope condition).value
        ⟨state.nextTemp, state.nextLabel + 3, false⟩ = some (test, testCode, middle) ∧
      emitBlock context scope.push body { middle with terminated := false } =
        some ((), bodyCode, middle') ∧
      emitBrIfOpen state.nextLabel middle' = some ((), jump, bodyEnd) ∧
      scope = scope' ∧ after = { bodyEnd with terminated := false } ∧
      code = [Line.inst (Inst.br state.nextLabel), Line.label state.nextLabel] ++ testCode ++
        [Line.inst (Inst.condBr test (state.nextLabel + 1) (state.nextLabel + 2)),
          Line.label (state.nextLabel + 1)] ++ bodyCode ++ jump ++
        [Line.label (state.nextLabel + 2)] := by
  rw [emitStatement] at hrun
  obtain ⟨_, hrun₁, rfl⟩ := Emit.step_eq_some hrun rfl
  obtain ⟨_, hrun₂, rfl⟩ := Emit.step_eq_some hrun₁ rfl
  obtain ⟨_, hrun₃, rfl⟩ := Emit.step_eq_some hrun₂ rfl
  obtain ⟨_, hrun₄, rfl⟩ := Emit.step_eq_some hrun₃ rfl
  obtain ⟨_, hrun₅, rfl⟩ := Emit.step_eq_some hrun₄ rfl
  obtain ⟨test, testCode, middle, _, htest, hrun₆, rfl⟩ := Emit.bind_eq_some.mp hrun₅
  obtain ⟨_, hrun₇, rfl⟩ := Emit.step_eq_some hrun₆ rfl
  obtain ⟨_, hrun₈, rfl⟩ := Emit.step_eq_some hrun₇ rfl
  obtain ⟨_, bodyCode, middle', _, hbody, hrun₉, rfl⟩ := Emit.bind_eq_some.mp hrun₈
  obtain ⟨_, jump, bodyEnd, _, hjump, hrun₁₀, rfl⟩ := Emit.bind_eq_some.mp hrun₉
  obtain ⟨_, hrun₁₁, rfl⟩ := Emit.step_eq_some hrun₁₀ rfl
  obtain ⟨rfl, rfl, rfl⟩ := hrun₁₁
  exact ⟨test, testCode, middle, bodyCode, middle', jump, bodyEnd, htest, hbody, hjump, rfl, rfl,
    by simp⟩

theorem emitStatement_loop_eq_some
    (hrun : emitStatement context scope (.loop body) state = some (scope', code, after)) :
    ∃ bodyCode middle jump bodyEnd,
      emitBlock context scope.push body ⟨state.nextTemp, state.nextLabel + 2, false⟩ =
        some ((), bodyCode, middle) ∧
      emitBrIfOpen state.nextLabel middle = some ((), jump, bodyEnd) ∧
      scope = scope' ∧ after = { bodyEnd with terminated := false } ∧
      code = [Line.inst (Inst.br state.nextLabel), Line.label state.nextLabel] ++ bodyCode ++
        jump ++
        [Line.label (state.nextLabel + 1)] := by
  rw [emitStatement] at hrun
  obtain ⟨_, hrun₁, rfl⟩ := Emit.step_eq_some hrun rfl
  obtain ⟨_, hrun₂, rfl⟩ := Emit.step_eq_some hrun₁ rfl
  obtain ⟨_, hrun₃, rfl⟩ := Emit.step_eq_some hrun₂ rfl
  obtain ⟨_, hrun₄, rfl⟩ := Emit.step_eq_some hrun₃ rfl
  obtain ⟨_, bodyCode, middle, _, hbody, hrun₅, rfl⟩ := Emit.bind_eq_some.mp hrun₄
  obtain ⟨_, jump, bodyEnd, _, hjump, hrun₆, rfl⟩ := Emit.bind_eq_some.mp hrun₅
  obtain ⟨_, hrun₇, rfl⟩ := Emit.step_eq_some hrun₆ rfl
  obtain ⟨rfl, rfl, rfl⟩ := hrun₇
  exact ⟨bodyCode, middle, jump, bodyEnd, hbody, hjump, rfl, rfl, by simp⟩

/-- The loop of a `for` statement compares and counts in registers of its own. -/
theorem emitStatement_for_eq_some {name : Name} {type : TypeRef} {start stop : IrExpr}
    (hrun : emitStatement context scope (.forStmt name type start stop body) state =
      some (scope', code, after)) :
    ∃ startValue startCode middle stopValue stopCode middle' bodyCode middle'' step bodyEnd,
      (lowerExpression context scope start).value
        ⟨state.nextTemp + 2, state.nextLabel + 3, state.terminated⟩ =
          some (startValue, startCode, middle) ∧
      (lowerExpression context scope stop).value middle = some (stopValue, stopCode, middle') ∧
      emitBlock context ((scope.push.define name type state.nextTemp).push) body
        ⟨middle'.nextTemp + 3, middle'.nextLabel, false⟩ = some ((), bodyCode, middle'') ∧
      emitNextIteration type state.nextTemp state.nextLabel middle'' =
        some ((), step, bodyEnd) ∧
      scope = scope' ∧ after = { bodyEnd with terminated := false } ∧
      code = [Line.inst (Inst.alloca state.nextTemp type),
        Line.inst (Inst.alloca (state.nextTemp + 1) type)] ++
        startCode ++ stopCode ++
        [Line.inst (Inst.store startValue (.reg state.nextTemp)),
          .inst (.store stopValue (.reg (state.nextTemp + 1))),
          .inst (.br state.nextLabel), .label state.nextLabel,
          .inst (.load middle'.nextTemp type (.reg state.nextTemp)),
          .inst (.load (middle'.nextTemp + 1) type (.reg (state.nextTemp + 1))),
          .inst (.icmp (middle'.nextTemp + 2) .slt (.register type middle'.nextTemp)
            (.register type (middle'.nextTemp + 1))),
          .inst (.condBr (.register .bool (middle'.nextTemp + 2)) (state.nextLabel + 1)
            (state.nextLabel + 2)),
          Line.label (state.nextLabel + 1)] ++ bodyCode ++ step ++
        [Line.label (state.nextLabel + 2)] := by
  rw [emitStatement] at hrun
  obtain ⟨_, hrun₁, rfl⟩ := Emit.step_eq_some hrun rfl
  obtain ⟨_, hrun₂, rfl⟩ := Emit.step_eq_some hrun₁ rfl
  obtain ⟨_, hrun₃, rfl⟩ := Emit.step_eq_some hrun₂ rfl
  obtain ⟨_, hrun₄, rfl⟩ := Emit.step_eq_some hrun₃ rfl
  obtain ⟨_, hrun₅, rfl⟩ := Emit.step_eq_some hrun₄ rfl
  obtain ⟨startValue, startCode, middle, _, hstart, hrun₆, rfl⟩ := Emit.bind_eq_some.mp hrun₅
  obtain ⟨stopValue, stopCode, middle', _, hstop, hrun₇, rfl⟩ := Emit.bind_eq_some.mp hrun₆
  obtain ⟨_, hrun₈, rfl⟩ := Emit.step_eq_some hrun₇ rfl
  obtain ⟨_, hrun₉, rfl⟩ := Emit.step_eq_some hrun₈ rfl
  obtain ⟨_, hrun₁₀, rfl⟩ := Emit.step_eq_some hrun₉ rfl
  obtain ⟨_, hrun₁₁, rfl⟩ := Emit.step_eq_some hrun₁₀ rfl
  obtain ⟨_, hrun₁₂, rfl⟩ := Emit.step_eq_some hrun₁₁ rfl
  obtain ⟨_, hrun₁₃, rfl⟩ := Emit.step_eq_some hrun₁₂ rfl
  obtain ⟨_, hrun₁₄, rfl⟩ := Emit.step_eq_some hrun₁₃ rfl
  obtain ⟨_, hrun₁₅, rfl⟩ := Emit.step_eq_some hrun₁₄ rfl
  obtain ⟨_, hrun₁₆, rfl⟩ := Emit.step_eq_some hrun₁₅ rfl
  obtain ⟨_, bodyCode, middle'', _, hbody, hrun₁₇, rfl⟩ := Emit.bind_eq_some.mp hrun₁₆
  obtain ⟨_, step, bodyEnd, _, hstep, hrun₁₈, rfl⟩ := Emit.bind_eq_some.mp hrun₁₇
  obtain ⟨_, hrun₁₉, rfl⟩ := Emit.step_eq_some hrun₁₈ rfl
  obtain ⟨rfl, rfl, rfl⟩ := hrun₁₉
  exact ⟨startValue, startCode, middle, stopValue, stopCode, middle', bodyCode, middle'', step,
    bodyEnd, hstart, hstop, hbody, hstep, rfl, rfl, by simp⟩

end

end Llvm

end Cnegative
