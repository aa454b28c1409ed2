import Cnegative.Library.Related
import Cnegative.Optimize.Program

namespace Cnegative

namespace Optimize

open Library (mapM_settled)

/-! A second pass finds nothing to fold. -/

/-- A fold ends in a constant, or leaves the node. -/
def FoldsTo (type : TypeRef) (node folded : IrExpr) : Prop :=
  (∃ value, folded = .int type value) ∨ (∃ value, folded = .bool type value) ∨ folded = node

theorem checked_foldsTo {overflows : Bool} {type : TypeRef} {value : BitVec 64}
    {node folded : IrExpr} (hfold : checked overflows type value = some folded) :
    FoldsTo type node folded := by
  cases overflows with
  | true => simp [checked] at hfold
  | false => exact Or.inl ⟨value, by simpa [checked] using hfold.symm⟩

theorem foldUnary_foldsTo {type : TypeRef} {op : UnaryOp} {operand folded : IrExpr}
    (hfold : foldUnary type op operand = some folded) :
    FoldsTo type (.unary type op operand) folded := by
  unfold foldUnary at hfold
  split at hfold
  · exact checked_foldsTo hfold
  · exact Or.inr (Or.inl ⟨_, (Option.some.inj hfold).symm⟩)
  · exact Or.inr (Or.inr (Option.some.inj hfold).symm)

theorem foldInts_foldsTo {type : TypeRef} {op : BinaryOp} {left right folded : IrExpr}
    {lhs rhs : BitVec 64} (hfold : foldInts type op left right lhs rhs = some folded) :
    FoldsTo type (.binary type op left right) folded := by
  have hdivide : ∀ {overflows value}, (if rhs = 0 then some (.binary type op left right)
      else checked overflows type value) = some folded →
        FoldsTo type (.binary type op left right) folded := by
    intro overflows value hdivide
    split at hdivide
    · exact Or.inr (Or.inr (Option.some.inj hdivide).symm)
    · exact checked_foldsTo hdivide
  cases op with
  | add | sub | mul => exact checked_foldsTo hfold
  | div | mod => exact hdivide hfold
  | and | or => exact Or.inr (Or.inr (Option.some.inj hfold).symm)
  | _ => exact Or.inr (Or.inl ⟨_, (Option.some.inj hfold).symm⟩)

theorem foldBools_foldsTo {type : TypeRef} {op : BinaryOp} {left right : IrExpr}
    {lhs rhs : Bool} : FoldsTo type (.binary type op left right)
      (foldBools type op left right lhs rhs) := by
  cases op with
  | equal | notEqual | and | or => exact Or.inr (Or.inl ⟨_, rfl⟩)
  | _ => exact Or.inr (Or.inr rfl)

theorem foldStrings_foldsTo {type : TypeRef} {op : BinaryOp} {left right : IrExpr}
    {lhs rhs : List UInt8} : FoldsTo type (.binary type op left right)
      (foldStrings type op left right lhs rhs) := by
  cases op with
  | equal | notEqual => exact Or.inr (Or.inl ⟨_, rfl⟩)
  | _ => exact Or.inr (Or.inr rfl)

theorem foldBinary_foldsTo {type : TypeRef} {op : BinaryOp} {left right folded : IrExpr}
    (hfold : foldBinary type op left right = some folded) :
    FoldsTo type (.binary type op left right) folded := by
  unfold foldBinary at hfold
  split at hfold
  · exact foldInts_foldsTo hfold
  · rw [← Option.some.inj hfold]
    exact foldBools_foldsTo
  · rw [← Option.some.inj hfold]
    exact foldStrings_foldsTo
  · exact Or.inr (Or.inr (Option.some.inj hfold).symm)

/-- A folded node is settled where a second pass comes to the same fold. -/
theorem FoldsTo.settled {type : TypeRef} {node folded : IrExpr} (hfolds : FoldsTo type node folded)
    (hnode : optimizeExpr node = some folded) : optimizeExpr folded = some folded := by
  obtain ⟨value, rfl⟩ | ⟨value, rfl⟩ | rfl := hfolds
  · rw [optimizeExpr]
  · rw [optimizeExpr]
  · exact hnode

theorem foldIf_settled {type : TypeRef} {test first second : IrExpr}
    (htest : optimizeExpr test = some test) (hfirst : optimizeExpr first = some first)
    (hsecond : optimizeExpr second = some second) :
    optimizeExpr (foldIf type test first second) = some (foldIf type test first second) := by
  unfold foldIf
  split
  · exact hfirst
  · exact hsecond
  · rename_i htrue hfalse
    rw [optimizeExpr, htest, hfirst, hsecond]
    simp only [Option.bind_eq_bind, Option.bind_some, Option.pure_def, Option.some.injEq]
    unfold foldIf
    split
    · exact absurd rfl (htrue _)
    · exact absurd rfl (hfalse _)
    · rfl

mutual

theorem optimizeExpr_settled : (expression : IrExpr) → {folded : IrExpr} →
    optimizeExpr expression = some folded → optimizeExpr folded = some folded
  | .int _ _, _, hfold | .bool _ _, _, hfold | .string _ _, _, hfold | .null _, _, hfold
  | .local _ _, _, hfold | .err _, _, hfold | .alloc _ _, _, hfold
  | .zalloc _ _ _, _, hfold => by
      simp only [optimizeExpr, Option.some.injEq] at hfold
      subst hfold
      rw [optimizeExpr]
  | .unary type op operand, folded, hfold => by
      simp only [optimizeExpr, Option.bind_eq_bind, Option.bind_eq_some_iff] at hfold
      obtain ⟨first, hfirst, hfold⟩ := hfold
      refine (foldUnary_foldsTo hfold).settled ?_
      simp only [optimizeExpr, Option.bind_eq_bind, optimizeExpr_settled operand hfirst,
        Option.bind_some, hfold]
  | .binary type op left right, folded, hfold => by
      simp only [optimizeExpr, Option.bind_eq_bind, Option.bind_eq_some_iff] at hfold
      obtain ⟨first, hfirst, second, hsecond, hfold⟩ := hfold
      refine (foldBinary_foldsTo hfold).settled ?_
      simp only [optimizeExpr, Option.bind_eq_bind, optimizeExpr_settled left hfirst,
        optimizeExpr_settled right hsecond, Option.bind_some, hfold]
  | .ifExpr type condition thenExpr elseExpr, folded, hfold => by
      simp only [optimizeExpr, Option.bind_eq_bind, Option.bind_eq_some_iff, Option.pure_def,
        Option.some.injEq] at hfold
      obtain ⟨test, htest, first, hfirst, second, hsecond, rfl⟩ := hfold
      exact foldIf_settled (optimizeExpr_settled condition htest)
        (optimizeExpr_settled thenExpr hfirst) (optimizeExpr_settled elseExpr hsecond)
  | .call type target moduleName functionName arguments, folded, hfold => by
      simp only [optimizeExpr, Option.bind_eq_bind, Option.bind_eq_some_iff, Option.pure_def,
        Option.some.injEq] at hfold
      obtain ⟨items, hitems, rfl⟩ := hfold
      simp [optimizeExpr, optimizeItems_settled arguments hitems]
  | .arrayLiteral type items, folded, hfold => by
      simp only [optimizeExpr, Option.bind_eq_bind, Option.bind_eq_some_iff, Option.pure_def,
        Option.some.injEq] at hfold
      obtain ⟨items', hitems, rfl⟩ := hfold
      simp [optimizeExpr, optimizeItems_settled items hitems]
  | .sliceFromArray type base, folded, hfold => by
      simp only [optimizeExpr, Option.bind_eq_bind, Option.bind_eq_some_iff, Option.pure_def,
        Option.some.injEq] at hfold
      obtain ⟨base', hbase, rfl⟩ := hfold
      simp [optimizeExpr, optimizeExpr_settled base hbase]
  | .index type base index, folded, hfold => by
      simp only [optimizeExpr, Option.bind_eq_bind, Option.bind_eq_some_iff, Option.pure_def,
        Option.some.injEq] at hfold
      obtain ⟨base', hbase, index', hindex, rfl⟩ := hfold
      simp [optimizeExpr, optimizeExpr_settled base hbase, optimizeExpr_settled index hindex]
  | .sliceView type base start stop, folded, hfold => by
      simp only [optimizeExpr, Option.bind_eq_bind, Option.bind_eq_some_iff, Option.pure_def,
        Option.some.injEq] at hfold
      obtain ⟨base', hbase, start', hstart, stop', hstop, rfl⟩ := hfold
      simp [optimizeExpr, optimizeExpr_settled base hbase, optimizeBound_settled start hstart,
        optimizeBound_settled stop hstop]
  | .field type base fieldName, folded, hfold => by
      simp only [optimizeExpr, Option.bind_eq_bind, Option.bind_eq_some_iff, Option.pure_def,
        Option.some.injEq] at hfold
      obtain ⟨base', hbase, rfl⟩ := hfold
      simp [optimizeExpr, optimizeExpr_settled base hbase]
  | .structLiteral type moduleName typeName fields, folded, hfold => by
      simp only [optimizeExpr, Option.bind_eq_bind, Option.bind_eq_some_iff, Option.pure_def,
        Option.some.injEq] at hfold
      obtain ⟨fields', hfields, rfl⟩ := hfold
      simp [optimizeExpr, optimizeFields_settled fields hfields]
  | .ok type value, folded, hfold => by
      simp only [optimizeExpr, Option.bind_eq_bind, Option.bind_eq_some_iff, Option.pure_def,
        Option.some.injEq] at hfold
      obtain ⟨value', hvalue, rfl⟩ := hfold
      simp [optimizeExpr, optimizeExpr_settled value hvalue]
  | .addr type target, folded, hfold => by
      simp only [optimizeExpr, Option.bind_eq_bind, Option.bind_eq_some_iff, Option.pure_def,
        Option.some.injEq] at hfold
      obtain ⟨target', htarget, rfl⟩ := hfold
      simp [optimizeExpr, optimizeExpr_settled target htarget]
  | .deref type target, folded, hfold => by
      simp only [optimizeExpr, Option.bind_eq_bind, Option.bind_eq_some_iff, Option.pure_def,
        Option.some.injEq] at hfold
      obtain ⟨target', htarget, rfl⟩ := hfold
      simp [optimizeExpr, optimizeExpr_settled target htarget]

theorem optimizeBound_settled : (bound : Option IrExpr) → {folded : Option IrExpr} →
    optimizeBound bound = some folded → optimizeBound folded = some folded
  | none, folded, hfold => by
      simp only [optimizeBound, Option.some.injEq] at hfold
      subst hfold
      rw [optimizeBound]
  | some bound, folded, hfold => by
      simp only [optimizeBound, Option.bind_eq_bind, Option.bind_eq_some_iff, Option.pure_def,
        Option.some.injEq] at hfold
      obtain ⟨bound', hbound, rfl⟩ := hfold
      simp [optimizeBound, optimizeExpr_settled bound hbound]

theorem optimizeItems_settled : (items : List IrExpr) → {folded : List IrExpr} →
    optimizeItems items = some folded → optimizeItems folded = some folded
  | [], folded, hfold => by
      simp only [optimizeItems, Option.some.injEq] at hfold
      subst hfold
      rw [optimizeItems]
  | item :: rest, folded, hfold => by
      simp only [optimizeItems, Option.bind_eq_bind, Option.bind_eq_some_iff, Option.pure_def,
        Option.some.injEq] at hfold
      obtain ⟨first, hfirst, remaining, hremaining, rfl⟩ := hfold
      simp [optimizeItems, optimizeExpr_settled item hfirst, optimizeItems_settled rest hremaining]

theorem optimizeFields_settled : (fields : List (Name × IrExpr)) →
    {folded : List (Name × IrExpr)} →
    optimizeFields fields = some folded → optimizeFields folded = some folded
  | [], folded, hfold => by
      simp only [optimizeFields, Option.some.injEq] at hfold
      subst hfold
      rw [optimizeFields]
  | (fieldName, value) :: rest, folded, hfold => by
      simp only [optimizeFields, Option.bind_eq_bind, Option.bind_eq_some_iff, Option.pure_def,
        Option.some.injEq] at hfold
      obtain ⟨first, hfirst, remaining, hremaining, rfl⟩ := hfold
      simp [optimizeFields, optimizeExpr_settled value hfirst,
        optimizeFields_settled rest hremaining]

end

theorem isReturn_folded {statement folded : IrStmt} (hfold : optimizeStmt statement = some folded) :
    isReturn folded = isReturn statement := by
  cases statement <;>
    simp only [optimizeStmt, Option.bind_eq_bind, Option.bind_eq_some_iff, Option.pure_def,
      Option.some.injEq] at hfold <;>
    grind [isReturn]

mutual

theorem optimizeStmt_settled : (statement : IrStmt) → {folded : IrStmt} →
    optimizeStmt statement = some folded → optimizeStmt folded = some folded
  | .letStmt name isMutable type initializer, folded, hfold => by
      simp only [optimizeStmt, Option.bind_eq_bind, Option.bind_eq_some_iff, Option.pure_def,
        Option.some.injEq] at hfold
      obtain ⟨value, hvalue, rfl⟩ := hfold
      simp [optimizeStmt, optimizeExpr_settled initializer hvalue]
  | .assign target value, folded, hfold => by
      simp only [optimizeStmt, Option.bind_eq_bind, Option.bind_eq_some_iff, Option.pure_def,
        Option.some.injEq] at hfold
      obtain ⟨first, hfirst, second, hsecond, rfl⟩ := hfold
      simp [optimizeStmt, optimizeExpr_settled target hfirst, optimizeExpr_settled value hsecond]
  | .returnStmt value, folded, hfold => by
      simp only [optimizeStmt, Option.bind_eq_bind, Option.bind_eq_some_iff, Option.pure_def,
        Option.some.injEq] at hfold
      obtain ⟨value', hvalue, rfl⟩ := hfold
      simp [optimizeStmt, optimizeBound_settled value hvalue]
  | .expr value, folded, hfold => by
      simp only [optimizeStmt, Option.bind_eq_bind, Option.bind_eq_some_iff, Option.pure_def,
        Option.some.injEq] at hfold
      obtain ⟨value', hvalue, rfl⟩ := hfold
      simp [optimizeStmt, optimizeExpr_settled value hvalue]
  | .zone zoneName body, folded, hfold => by
      simp only [optimizeStmt, Option.bind_eq_bind, Option.bind_eq_some_iff, Option.pure_def,
        Option.some.injEq] at hfold
      obtain ⟨body', hbody, rfl⟩ := hfold
      simp [optimizeStmt, optimizeBlock_settled body hbody]
  | .ifStmt condition thenBlock elseBlock, folded, hfold => by
      simp only [optimizeStmt, Option.bind_eq_bind, Option.bind_eq_some_iff, Option.pure_def,
        Option.some.injEq] at hfold
      obtain ⟨test, htest, first, hfirst, second, hsecond, rfl⟩ := hfold
      simp [optimizeStmt, optimizeExpr_settled condition htest,
        optimizeBlock_settled thenBlock hfirst, optimizeElse_settled elseBlock hsecond]
  | .whileStmt condition body, folded, hfold => by
      simp only [optimizeStmt, Option.bind_eq_bind, Option.bind_eq_some_iff, Option.pure_def,
        Option.some.injEq] at hfold
      obtain ⟨test, htest, body', hbody, rfl⟩ := hfold
      simp [optimizeStmt, optimizeExpr_settled condition htest, optimizeBlock_settled body hbody]
  | .loop body, folded, hfold => by
      simp only [optimizeStmt, Option.bind_eq_bind, Option.bind_eq_some_iff, Option.pure_def,
        Option.some.injEq] at hfold
      obtain ⟨body', hbody, rfl⟩ := hfold
      simp [optimizeStmt, optimizeBlock_settled body hbody]
  | .forStmt name type start stop body, folded, hfold => by
      simp only [optimizeStmt, Option.bind_eq_bind, Option.bind_eq_some_iff, Option.pure_def,
        Option.some.injEq] at hfold
      obtain ⟨first, hfirst, last, hlast, body', hbody, rfl⟩ := hfold
      simp [optimizeStmt, optimizeExpr_settled start hfirst, optimizeExpr_settled stop hlast,
        optimizeBlock_settled body hbody]
  | .free value, folded, hfold => by
      simp only [optimizeStmt, Option.bind_eq_bind, Option.bind_eq_some_iff, Option.pure_def,
        Option.some.injEq] at hfold
      obtain ⟨value', hvalue, rfl⟩ := hfold
      simp [optimizeStmt, optimizeExpr_settled value hvalue]

theorem optimizeElse_settled : (elseBlock : Option (List IrStmt)) →
    {folded : Option (List IrStmt)} →
    optimizeElse elseBlock = some folded → optimizeElse folded = some folded
  | none, folded, hfold => by
      simp only [optimizeElse, Option.some.injEq] at hfold
      subst hfold
      rw [optimizeElse]
  | some block, folded, hfold => by
      simp only [optimizeElse, Option.bind_eq_bind, Option.bind_eq_some_iff, Option.pure_def,
        Option.some.injEq] at hfold
      obtain ⟨block', hblock, rfl⟩ := hfold
      simp [optimizeElse, optimizeBlock_settled block hblock]

theorem optimizeBlock_settled : (block : List IrStmt) → {folded : List IrStmt} →
    optimizeBlock block = some folded → optimizeBlock folded = some folded
  | [], folded, hfold => by
      simp only [optimizeBlock, Option.some.injEq] at hfold
      subst hfold
      rw [optimizeBlock]
  | statement :: rest, folded, hfold => by
      simp only [optimizeBlock, Option.bind_eq_bind, Option.bind_eq_some_iff] at hfold
      obtain ⟨first, hfirst, hfold⟩ := hfold
      have hstatement := optimizeStmt_settled statement hfirst
      have hreturn := isReturn_folded hfirst
      split at hfold
      · rename_i hlast
        rw [Option.pure_def, Option.some.injEq] at hfold
        subst hfold
        simp [optimizeBlock, hstatement, hreturn, hlast]
      · rename_i hmore
        simp only [Option.bind_eq_some_iff, Option.pure_def, Option.some.injEq] at hfold
        obtain ⟨remaining, hremaining, rfl⟩ := hfold
        simp [optimizeBlock, hstatement, hreturn, hmore, optimizeBlock_settled rest hremaining]

end

theorem optimizeConst_settled {decl folded : IrConst} (hfold : optimizeConst decl = some folded) :
    optimizeConst folded = some folded := by
  simp only [optimizeConst, Option.bind_eq_bind, Option.bind_eq_some_iff, Option.pure_def,
    Option.some.injEq] at hfold
  obtain ⟨initializer, hinitializer, rfl⟩ := hfold
  simp [optimizeConst, optimizeExpr_settled decl.initializer hinitializer]

theorem optimizeFunction_settled {function folded : IrFunction}
    (hfold : optimizeFunction function = some folded) :
    optimizeFunction folded = some folded := by
  simp only [optimizeFunction, Option.bind_eq_bind, Option.bind_eq_some_iff, Option.pure_def,
    Option.some.injEq] at hfold
  obtain ⟨body, hbody, rfl⟩ := hfold
  simp [optimizeFunction, optimizeBlock_settled function.body hbody]

theorem optimizeModule_settled {module folded : IrModule}
    (hfold : optimizeModule module = some folded) : optimizeModule folded = some folded := by
  simp only [optimizeModule, Option.bind_eq_bind, Option.bind_eq_some_iff, Option.pure_def,
    Option.some.injEq] at hfold
  obtain ⟨consts, hconsts, functions, hfunctions, rfl⟩ := hfold
  have hconstsSettled := mapM_settled (fun _ _ => optimizeConst_settled) hconsts
  have hfunctionsSettled := mapM_settled (fun _ _ => optimizeFunction_settled) hfunctions
  simp [optimizeModule, hconstsSettled, hfunctionsSettled]

/-- Optimizing twice is optimizing once. -/
theorem optimizeProgram_idempotent {program optimized : IrProgram}
    (hfold : optimizeProgram program = some optimized) :
    optimizeProgram optimized = some optimized := by
  simp only [optimizeProgram, Option.bind_eq_bind, Option.bind_eq_some_iff, Option.pure_def,
    Option.some.injEq] at hfold
  obtain ⟨modules, hmodules, rfl⟩ := hfold
  simp [optimizeProgram, mapM_settled (fun _ _ => optimizeModule_settled) hmodules]

theorem foldingProgram_settled :
    ∃ optimized, optimizeProgram foldingProgram = some optimized ∧
      optimizeProgram optimized = some optimized := by
  have hsome : (optimizeProgram foldingProgram).isSome = true := by decide +kernel
  obtain ⟨optimized, hfold⟩ := Option.isSome_iff_exists.mp hsome
  exact ⟨optimized, hfold, optimizeProgram_idempotent hfold⟩

end Optimize

end Cnegative
