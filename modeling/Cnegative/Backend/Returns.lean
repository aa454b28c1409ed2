import Cnegative.Backend.WellFormed
import Cnegative.Library.Reach
import Cnegative.Semantics.Returns

namespace Cnegative

open Library (Line Code Chain Segment Closes Leaves)

namespace Llvm

/-! The code printed for statements that control does not get behind. -/

variable {context : EmitContext}

theorem emitRet_eq_some {value : LlvmValue} {state after : EmitState} {code : Code Inst}
    (hrun : emitRet value state = some ((), code, after)) :
    ∃ last : Inst, code = [.inst last] ∧ after.nextLabel = state.nextLabel ∧
      Library.Instruction.isTerminator last = true ∧ Library.Instruction.targets last = [] := by
  by_cases hvoid : value.data = .void
  · rw [emitRet, if_pos hvoid] at hrun
    obtain ⟨rfl, rfl⟩ := Emit.terminate_eq_some.mp hrun
    exact ⟨_, rfl, rfl, rfl, rfl⟩
  · rw [emitRet, if_neg hvoid] at hrun
    obtain ⟨rfl, rfl⟩ := Emit.terminate_eq_some.mp hrun
    exact ⟨_, rfl, rfl, rfl, rfl⟩

/-- The jump out of a block, or nothing behind a terminator. -/
theorem emitBrIfOpen_eq_some {target : Nat} {state after : EmitState} {code : Code Inst}
    (hrun : emitBrIfOpen target state = some ((), code, after)) :
    code.labels = [] ∧ (∀ other ∈ code.targets, other = target) ∧
      after.nextLabel = state.nextLabel := by
  obtain ⟨hleaves, -, hlabel, -⟩ :=
    @leaves_of_brIfOpen _ ∅ ∅ (Set.empty_subset _) _ _ _ hrun
  exact ⟨hleaves.labels_eq, fun other hother => hleaves.target_eq hother, hlabel⟩

mutual

theorem emitStatement_closes {scope scope' : Scope} {state after : EmitState} {code : Code Inst} :
    (statement : IrStmt) → statement.leaves = true →
      emitStatement context scope statement state = some (scope', code, after) →
      state.terminated = false → Closes state.nextLabel after.nextLabel code
  | .returnStmt none, _, hrun, _ => by
      rw [emitStatement] at hrun
      obtain ⟨_, before, middle, behind, hlast, hpure, rfl⟩ := Emit.bind_eq_some.mp hrun
      obtain ⟨-, rfl, rfl⟩ := Emit.pure_eq_some.mp hpure
      obtain ⟨rfl, rfl⟩ := Emit.terminate_eq_some.mp hlast
      have hnothing : Segment 0 state.nextLabel (some ∅) ([] : Code Inst) 0 state.nextLabel (some ∅) :=
        .nil
      exact Closes.terminator hnothing rfl rfl
  | .returnStmt (some value), _, hrun, hopen => by
      rw [emitStatement] at hrun
      obtain ⟨result, valueCode, middle, behind, hvalue, hrest, rfl⟩ := Emit.bind_eq_some.mp hrun
      obtain ⟨_, before, middle', last, hlast, hpure, rfl⟩ := Emit.bind_eq_some.mp hrest
      obtain ⟨-, rfl, rfl⟩ := Emit.pure_eq_some.mp hpure
      obtain ⟨inst, rfl, hlabel, hterminator, htargets⟩ := emitRet_eq_some hlast
      obtain ⟨-, defined, -, -, hsegment⟩ :=
        (lowerExpression_emits context scope _ subset_rfl value).value hvalue hopen subset_rfl
      rw [hlabel, List.append_nil]
      exact Closes.terminator hsegment hterminator htargets
  | .ifStmt condition thenBlock (some elseBlock), hleaves, hrun, hopen => by
      simp only [IrStmt.leaves, elseLeaves, Bool.and_eq_true] at hleaves
      obtain ⟨test, testCode, middle, thenCode, middle', thenJump, elseStart, elseCode, elseEnd,
        htestRun, hthenRun, hthenJumpRun, helseRun, rfl, rfl, rfl⟩ := emitStatement_if_eq_some hrun
      obtain ⟨blockCode, blockEnd, elseJump, hblockRun, helseJumpRun, rfl⟩ :=
        emitElse_some_eq_some helseRun
      obtain ⟨-, defined, -, hregs, htest⟩ :=
        (lowerExpression_emits context scope _ subset_rfl condition).value htestRun hopen subset_rfl
      have hthen := emitBlock_closes thenBlock hleaves.1 hthenRun
      have helse := emitBlock_closes elseBlock hleaves.2 hblockRun
      obtain ⟨_, -, -, hthenSegment⟩ := emitBlock_prints context scope.push thenBlock hthenRun subset_rfl
      obtain ⟨_, -, -, helseSegment⟩ := emitBlock_prints context scope.push elseBlock hblockRun subset_rfl
      have hthenLe := hthenSegment.labels_le
      have helseLe := helseSegment.labels_le
      obtain ⟨hthenLabels, -, hthenLabel⟩ := emitBrIfOpen_eq_some hthenJumpRun
      obtain ⟨helseLabels, -, helseLabel⟩ := emitBrIfOpen_eq_some helseJumpRun
      have hbranch := isBranch_condBr hregs state.nextLabel (state.nextLabel + 1) _ _
        (Or.inl rfl) (Or.inr rfl)
      dsimp only at hthen helse hthenLe helseLe
      rw [hthenLabel] at helse helseLe
      have hdiamond := Closes.diamond htest hbranch.targets hthen hthenLe
        hthenLabels helse helseLe helseLabels
      rw [← helseLabel] at hdiamond
      simpa using hdiamond
  | .ifStmt _ _ none, hleaves, _, _ => by simp [IrStmt.leaves, elseLeaves] at hleaves
  | .loop body, _, hrun, _ => by
      obtain ⟨bodyCode, middle, jump, bodyEnd, hbodyRun, hjumpRun, rfl, rfl, rfl⟩ :=
        emitStatement_loop_eq_some hrun
      obtain ⟨_, -, -, hbody⟩ := emitBlock_prints context scope.push body hbodyRun subset_rfl
      obtain ⟨-, htargets, hlabel⟩ := emitBrIfOpen_eq_some hjumpRun
      have hloop := @Closes.endlessLoop _ _ _ _ _ _ _ _ (Inst.br state.nextLabel) _ _ rfl hbody htargets
      rw [← hlabel] at hloop
      exact hloop
  | .letStmt _ _ _ _, hleaves, _, _ | .assign _ _, hleaves, _, _ | .expr _, hleaves, _, _
  | .zone _ _, hleaves, _, _ | .whileStmt _ _, hleaves, _, _
  | .forStmt _ _ _ _ _, hleaves, _, _ | .free _, hleaves, _, _ => by
      simp [IrStmt.leaves] at hleaves

theorem emitBlock_closes {scope : Scope} {state after : EmitState} {code : Code Inst} :
    (block : List IrStmt) → blockLeaves block = true →
      emitBlock context scope block state = some ((), code, after) →
      Closes state.nextLabel after.nextLabel code
  | [], hleaves, _ => by simp [blockLeaves] at hleaves
  | statement :: rest, hleaves, hrun => by
      obtain ⟨_, opening, started, _, hopenRun, hbehindRun, rfl⟩ := Emit.bind_eq_some.mp hrun
      obtain ⟨scope', statementCode, middle, restCode, hstatementRun, hrestRun, rfl⟩ :=
        Emit.bind_eq_some.mp hbehindRun
      obtain ⟨hstarted, hopening⟩ := beginUnreachable_prints scope.regs hopenRun
      obtain ⟨_, -, hregs, hstatement⟩ :=
        emitStatement_prints context scope statement hstatementRun hstarted subset_rfl
      obtain ⟨_, -, -, hrest⟩ := emitBlock_prints context scope' rest hrestRun hregs
      have hstatementLe := hstatement.labels_le
      have hrestLe := hrest.labels_le
      simp only [blockLeaves, Bool.or_eq_true] at hleaves
      cases hleaves with
      | inl hfirst =>
          have hcloses := emitStatement_closes statement hfirst hstatementRun hstarted
          exact (hcloses.followed hrest.fresh_labels.bounds hstatementLe hrestLe).behind hopening
            (Nat.le_trans hstatementLe hrestLe)
      | inr hsecond =>
          have hcloses := emitBlock_closes rest hsecond hrestRun
          exact (hcloses.behind hstatement hrestLe).behind hopening
            (Nat.le_trans hstatementLe hrestLe)

end

/-- `cn_llvm_emit_function` up to the test for a missing terminator. -/
def emitOpenBody (context : EmitContext) (function : IrFunction) : Emit Unit := do
  let scope ← emitParameters (Scope.push []) 0 function.parameters
  emitBlock context scope function.body

theorem emitFunction_of_openBody {function : IrFunction} {code : Code Inst} {after : EmitState}
    (htype : function.returnType ≠ .void) (hopen : after.terminated = false)
    (hrun : emitOpenBody context function ⟨0, 0, false⟩ = some ((), code, after)) :
    emitFunction context function = some (code ++ [.inst .unreachable]) := by
  obtain ⟨scope, paramCode, started, blockCode, hparams, hblock, rfl⟩ := Emit.bind_eq_some.mp hrun
  have hbody : emitBody context function ⟨0, 0, false⟩ =
      some ((), paramCode ++ (blockCode ++ [.inst .unreachable]),
        { after with terminated := true }) := by
    refine Emit.bind_eq_some.mpr ⟨scope, paramCode, started, _, hparams, ?_, rfl⟩
    refine Emit.bind_eq_some.mpr ⟨(), blockCode, after, _, hblock, ?_, rfl⟩
    refine Emit.bind_eq_some.mpr ⟨false, [], after, _, Emit.isTerminated_eq_some.mpr
      ⟨hopen, rfl, rfl⟩, ?_, rfl⟩
    rw [if_neg (by simp), if_neg htype]
    exact Emit.terminate_eq_some.mpr ⟨rfl, rfl⟩
  rw [emitFunction, hbody, Option.map_some, List.append_assoc]

theorem emitOpenBody_closes {function : IrFunction} {code : Code Inst} {after : EmitState}
    (hleaves : blockLeaves function.body = true)
    (hrun : emitOpenBody context function ⟨0, 0, false⟩ = some ((), code, after)) :
    Closes 0 after.nextLabel code := by
  obtain ⟨scope, paramCode, started, blockCode, hparams, hblock, rfl⟩ := Emit.bind_eq_some.mp hrun
  obtain ⟨-, defined, -, hscope, hsegment⟩ :=
    emitParameters_emits (Scope.push []) 0 function.parameters hparams rfl subset_rfl
  obtain ⟨_, -, -, hblockSegment⟩ := emitBlock_prints context scope function.body hblock hscope
  exact (emitBlock_closes function.body hleaves hblock).behind hsegment hblockSegment.labels_le

end Llvm

open Library (Instruction)
open Llvm (Inst EmitContext EmitState emitFunction emitOpenBody emitFunction_of_openBody
  emitOpenBody_closes)

/-- A function that must return a value never gets to its end: no run does, and no
path through the printed code leads to the `unreachable` behind it, nor to a block that
goes on to it. -/
theorem accepted_functions_return {project : Project} {program optimized : IrProgram}
    (haccepted : Check.Accepted project) (hlowered : Lower.lowerProject project = some program)
    (hoptimized : Optimize.optimizeProgram program = some optimized) :
    ∀ module ∈ optimized.modules, ∀ function ∈ module.functions, function.returnType ≠ .void →
      (∀ (ω : Type) (structs : StructTable) (callee : Semantics.Callee ω) (fuel : Nat)
          (env : Semantics.Env) (state after : State ω),
        Semantics.execStmts structs callee fuel env function.body state ≠ .ok .next after) ∧
      (∀ (context : EmitContext) (code : Code Inst) (after : EmitState),
        emitOpenBody context function ⟨0, 0, false⟩ = some ((), code, after) →
        after.terminated = false →
          emitFunction context function = some (code ++ [.inst .unreachable]) ∧
          ∀ (instructions : List Inst) (defined : List Nat),
            (∀ instruction ∈ instructions, Instruction.isTerminator instruction = false) →
            ¬ Code.Path (code ++ [.inst .unreachable]) defined
              (instructions.map .inst ++ [.inst .unreachable])) := by
  intro module hmodule function hfunction htype
  have hleaves := Optimize.optimizeProgram_leaves hoptimized
    (Lower.lowerProject_leaves haccepted hlowered) module hmodule function hfunction htype
  refine ⟨fun ω structs callee fuel env state after =>
    Semantics.execStmts_leaves function.body hleaves, ?_⟩
  intro context code after hrun hopen
  refine ⟨emitFunction_of_openBody htype hopen hrun, fun instructions defined hstraight => ?_⟩
  obtain ⟨dead, hcloses⟩ := emitOpenBody_closes hleaves hrun
  obtain ⟨havoids, hdead⟩ := hcloses dead (fun _ _ _ => rfl) true
  exact Code.Path.not_behind havoids hdead hstraight

/-- `if true { return 1; } else { return 2; }`: the merge block is never executed. -/
def branchingBody : Block :=
  [.ifStmt (.bool true) [.returnStmt (some (.int 1))] (some [.returnStmt (some (.int 2))])]

theorem branching_main_returns :
    ∃ optimized module function, module ∈ optimized.modules ∧ function ∈ module.functions ∧
      (Lower.lowerProject (mainProject branchingBody)).bind Optimize.optimizeProgram =
        some optimized ∧
      ∀ (fuel : Nat) (env : Semantics.Env) (state after : State Unit),
        Semantics.execStmts [] (fun _ _ _ _ => pure .void) fuel env function.body state ≠
          .ok .next after := by
  refine ⟨_, _, _, .head _, .head _, rfl, fun fuel env state after => ?_⟩
  exact (@accepted_functions_return (mainProject branchingBody) _ _ (by decide) rfl rfl
    _ (.head _) _ (.head _) (by decide)).1 Unit _ _ fuel env state after

end Cnegative
