import Cnegative.Backend.Emit
import Cnegative.Check.ConstEval
import Cnegative.Optimize.Program

namespace Cnegative

namespace Optimize

open Check (constOperation operatorFits)
open Library.Signed (Operation Defined InWord instruction)

/-! When every fold of a program is an operation that C defines. -/

def unaryFits : UnaryOp → Option Constant → Bool
  | .negate, some (.int value) => decide (InWord (-value.toInt))
  | _, _ => true

def binaryFits (op : BinaryOp) : Option Constant → Option Constant → Bool
  | some (.int lhs), some (.int rhs) => operatorFits op lhs.toInt rhs.toInt
  | _, _ => true

mutual

def foldsFit : IrExpr → Bool
  | .unary _ op operand => foldsFit operand && unaryFits op (constant? operand)
  | .binary _ op left right =>
      (foldsFit left && foldsFit right) && binaryFits op (constant? left) (constant? right)
  | .ifExpr _ condition thenExpr elseExpr =>
      foldsFit condition && (foldsFit thenExpr && foldsFit elseExpr)
  | .call _ _ _ _ arguments => itemsFit arguments
  | .arrayLiteral _ items => itemsFit items
  | .sliceFromArray _ base => foldsFit base
  | .index _ base index => foldsFit base && foldsFit index
  | .sliceView _ base start stop => foldsFit base && (boundFits start && boundFits stop)
  | .field _ base _ => foldsFit base
  | .structLiteral _ _ _ fields => fieldsFit fields
  | .ok _ value => foldsFit value
  | .addr _ target => foldsFit target
  | .deref _ target => foldsFit target
  | .int _ _ | .bool _ _ | .string _ _ | .null _ | .local _ _ | .err _ | .alloc _ _
  | .zalloc _ _ _ => true

def boundFits : Option IrExpr → Bool
  | none => true
  | some bound => foldsFit bound

def itemsFit : List IrExpr → Bool
  | [] => true
  | item :: rest => foldsFit item && itemsFit rest

def fieldsFit : List (Name × IrExpr) → Bool
  | [] => true
  | (_, value) :: rest => foldsFit value && fieldsFit rest

end

mutual

def stmtFits : IrStmt → Bool
  | .letStmt _ _ _ initializer => foldsFit initializer
  | .assign target value => foldsFit target && foldsFit value
  | .returnStmt value => boundFits value
  | .expr value | .free value => foldsFit value
  | .zone _ body | .loop body => blockFits body
  | .ifStmt condition thenBlock elseBlock =>
      foldsFit condition && (blockFits thenBlock && elseFits elseBlock)
  | .whileStmt condition body => foldsFit condition && blockFits body
  | .forStmt _ _ start stop body => foldsFit start && (foldsFit stop && blockFits body)

def elseFits : Option (List IrStmt) → Bool
  | none => true
  | some block => blockFits block

/-- What stands behind a `return` is dropped, not folded. -/
def blockFits : List IrStmt → Bool
  | [] => true
  | statement :: rest => stmtFits statement && (isReturn statement || blockFits rest)

end

def programFits (program : IrProgram) : Bool :=
  program.modules.all fun module =>
    module.consts.all (fun decl => foldsFit decl.initializer) &&
      module.functions.all fun function => blockFits function.body

/-! One fold. -/

/-- What a fold comes to: nothing where C leaves it undefined, else an expression that is a
literal just when it is a constant, and then the constant. -/
structure Folds (folded : Option IrExpr) (fits : Bool) (constant : Option Constant) : Prop where
  isSome_eq : folded.isSome = fits
  literal_eq : ∀ expression, folded = some expression → literal? expression = constant

theorem Folds.kept {expression : IrExpr} {constant : Option Constant}
    (hliteral : literal? expression = constant) : Folds (some expression) true constant :=
  ⟨rfl, fun _ h => Option.some.inj h ▸ hliteral⟩

theorem Folds.undefined {constant : Option Constant} : Folds none false constant :=
  ⟨rfl, fun _ h => by cases h⟩

/-- The three overflow tests of the folder are tests of the exact result. -/
theorem checked_folds {overflows fits : Bool} (hfits : fits = !overflows) (type : TypeRef)
    (value : BitVec 64) : Folds (checked overflows type value) fits (some (.int value)) := by
  subst hfits
  cases overflows with
  | true => exact .undefined
  | false => exact .kept rfl

theorem inWord_eq (value : Int) :
    decide (InWord value) = !(decide (value ≥ 2 ^ 63) || decide (value < -2 ^ 63)) := by
  rw [Bool.eq_iff_iff, decide_eq_true_iff, Bool.not_eq_true', Bool.or_eq_false_iff,
    decide_eq_false_iff_not, decide_eq_false_iff_not]
  unfold InWord
  omega

theorem saddOverflow_eq (lhs rhs : BitVec 64) :
    decide (Defined .add lhs.toInt rhs.toInt) = !lhs.saddOverflow rhs :=
  inWord_eq (lhs.toInt + rhs.toInt)

theorem ssubOverflow_eq (lhs rhs : BitVec 64) :
    decide (Defined .sub lhs.toInt rhs.toInt) = !lhs.ssubOverflow rhs :=
  inWord_eq (lhs.toInt - rhs.toInt)

theorem smulOverflow_eq (lhs rhs : BitVec 64) :
    decide (Defined .mul lhs.toInt rhs.toInt) = !lhs.smulOverflow rhs :=
  inWord_eq (lhs.toInt * rhs.toInt)

theorem negOverflow_eq (value : BitVec 64) :
    decide (InWord (-value.toInt)) = !value.negOverflow := by
  have hword := Library.Signed.inWord_toInt value
  unfold InWord at hword
  rw [BitVec.negOverflow, Bool.eq_iff_iff]
  simp [InWord]
  omega

/-- A quotient leaves the range at the minimum divided by -1 only. -/
theorem divisionOverflows_eq {lhs rhs : BitVec 64} (hzero : rhs ≠ 0) :
    decide (rhs.toInt ≠ 0 ∧ InWord (lhs.toInt.tdiv rhs.toInt)) = !divisionOverflows lhs rhs := by
  have hrhs : rhs.toInt ≠ 0 := fun h => hzero ((Check.toInt_eq_zero_iff rhs).mp h)
  rw [Bool.eq_iff_iff, decide_eq_true_eq, Bool.not_eq_true', divisionOverflows]
  by_cases hboth : lhs = BitVec.intMin 64 ∧ rhs = -1
  · obtain ⟨rfl, rfl⟩ := hboth
    decide
  · refine iff_of_true ⟨hrhs, ?_⟩ ?_
    · rw [← BitVec.toInt_sdiv_of_ne_or_ne lhs rhs (not_and_or.mp hboth)]
      exact Library.Signed.inWord_toInt _
    · rw [← Bool.not_eq_true, Bool.and_eq_true, decide_eq_true_eq, decide_eq_true_eq]
      exact hboth

theorem foldUnary_folds (type : TypeRef) (op : UnaryOp) (operand : IrExpr) :
    Folds (foldUnary type op operand) (unaryFits op (literal? operand))
      ((literal? operand).bind (unaryConstant op)) := by
  cases operand with
  | int _ value =>
      cases op with
      | negate => exact checked_folds (negOverflow_eq value) type (-value)
      | not => exact .kept rfl
  | bool _ value => cases op <;> exact .kept rfl
  | _ => cases op <;> exact .kept rfl

theorem operatorFits_eq {op : BinaryOp} {operation : Operation}
    (hoperation : constOperation op = some operation) (left right : Int) :
    operatorFits op left right =
      (((operation = .div ∨ operation = .mod) ∧ right = 0) ||
        decide (Defined operation left right)) := by
  rw [operatorFits, hoperation]

theorem foldInts_folds (type : TypeRef) (op : BinaryOp) (leftType rightType : TypeRef)
    (lhs rhs : BitVec 64) :
    Folds (foldInts type op (.int leftType lhs) (.int rightType rhs) lhs rhs)
      (operatorFits op lhs.toInt rhs.toInt) (intsConstant op lhs rhs) := by
  have hdivision : ∀ {op : BinaryOp} {operation : Operation} (value : BitVec 64),
      constOperation op = some operation → operation = .div ∨ operation = .mod →
      Folds (if rhs = 0 then some (.binary type op (.int leftType lhs) (.int rightType rhs))
          else checked (divisionOverflows lhs rhs) type value)
        (operatorFits op lhs.toInt rhs.toInt)
        (if rhs = 0 then none else some (.int value)) := by
    intro op operation value hoperation hkind
    rw [operatorFits_eq hoperation]
    by_cases hzero : rhs = 0
    · rw [if_pos hzero, if_pos hzero,
        decide_eq_true ⟨hkind, (Check.toInt_eq_zero_iff rhs).mpr hzero⟩, Bool.true_or]
      exact .kept rfl
    · have hrhs : ¬ rhs.toInt = 0 := mt (Check.toInt_eq_zero_iff rhs).mp hzero
      rw [if_neg hzero, if_neg hzero, decide_eq_false fun h => hrhs h.2, Bool.false_or]
      rcases hkind with rfl | rfl
      · exact checked_folds (divisionOverflows_eq hzero) type value
      · exact checked_folds (divisionOverflows_eq hzero) type value
  cases op with
  | add => exact checked_folds (saddOverflow_eq lhs rhs) type (lhs + rhs)
  | sub => exact checked_folds (ssubOverflow_eq lhs rhs) type (lhs - rhs)
  | mul => exact checked_folds (smulOverflow_eq lhs rhs) type (lhs * rhs)
  | div => exact hdivision (lhs.sdiv rhs) rfl (Or.inl rfl)
  | mod => exact hdivision (lhs.srem rhs) rfl (Or.inr rfl)
  | _ => exact .kept rfl

theorem foldBinary_folds (type : TypeRef) (op : BinaryOp) (left right : IrExpr) :
    Folds (foldBinary type op left right) (binaryFits op (literal? left) (literal? right))
      (binaryConstant? op (literal? left) (literal? right)) := by
  cases left with
  | int leftType lhs =>
      cases right with
      | int rightType rhs => exact foldInts_folds type op leftType rightType lhs rhs
      | _ => exact .kept rfl
  | bool leftType lhs =>
      cases right with
      | bool rightType rhs => cases op <;> exact .kept rfl
      | _ => exact .kept rfl
  | string leftType lhs =>
      cases right with
      | string rightType rhs => cases op <;> exact .kept rfl
      | _ => exact .kept rfl
  | _ => exact .kept rfl

/-! The whole pass. -/

/-- A part of a node before the rest of it. -/
theorem Folds.after {Part : Type} {part : Option Part} {fits restFits : Bool}
    {constant : Option Constant} {rest : Part → Option IrExpr} (hpart : part.isSome = fits)
    (hrest : ∀ folded, part = some folded → Folds (rest folded) restFits constant) :
    Folds (part.bind rest) (fits && restFits) constant := by
  subst hpart
  cases part with
  | none => exact .undefined
  | some folded => exact hrest folded rfl

/-- The last part of a node. -/
theorem Folds.build {Part : Type} {part : Option Part} {fits : Bool} {constant : Option Constant}
    {node : Part → IrExpr} (hpart : part.isSome = fits)
    (hnode : ∀ folded, part = some folded → literal? (node folded) = constant) :
    Folds (part.bind fun folded => some (node folded)) fits constant := by
  subst hpart
  cases part with
  | none => exact .undefined
  | some folded => exact .kept (hnode folded rfl)

theorem isSome_after {Part Whole : Type} {part : Option Part} {fits restFits : Bool}
    {rest : Part → Option Whole} (hpart : part.isSome = fits)
    (hrest : ∀ folded, (rest folded).isSome = restFits) :
    (part.bind rest).isSome = (fits && restFits) := by
  subst hpart
  cases part with
  | none => rfl
  | some folded => exact hrest folded

theorem isSome_build {Part Whole : Type} {part : Option Part} {fits : Bool}
    {node : Part → Whole} (hpart : part.isSome = fits) :
    (part.bind fun folded => some (node folded)).isSome = fits := by
  subst hpart
  cases part <;> rfl

theorem foldIf_literal (type : TypeRef) (condition thenExpr elseExpr : IrExpr) :
    literal? (foldIf type condition thenExpr elseExpr) =
      match literal? condition with
      | some (.bool true) => literal? thenExpr
      | some (.bool false) => literal? elseExpr
      | _ => none := by
  cases condition with
  | bool _ value => cases value <;> rfl
  | _ => rfl

mutual

/-- The pass over an expression is defined just when its folds fit, and leaves a literal just
where the expression is made of literals, with the value of that constant. -/
theorem optimizeExpr_folds : (expression : IrExpr) →
    Folds (optimizeExpr expression) (foldsFit expression) (constant? expression)
  | .unary type op operand => by
      have hoperand := optimizeExpr_folds operand
      rw [optimizeExpr, foldsFit, constant?]
      refine .after hoperand.isSome_eq fun folded hfolded => ?_
      rw [← hoperand.literal_eq folded hfolded]
      exact foldUnary_folds type op folded
  | .binary type op left right => by
      have hleft := optimizeExpr_folds left
      have hright := optimizeExpr_folds right
      rw [optimizeExpr, foldsFit, constant?, Bool.and_assoc]
      refine .after hleft.isSome_eq fun first hfirst => ?_
      refine .after hright.isSome_eq fun second hsecond => ?_
      rw [← hleft.literal_eq first hfirst, ← hright.literal_eq second hsecond]
      exact foldBinary_folds type op first second
  | .ifExpr type condition thenExpr elseExpr => by
      have hcondition := optimizeExpr_folds condition
      have hthen := optimizeExpr_folds thenExpr
      have helse := optimizeExpr_folds elseExpr
      rw [optimizeExpr, foldsFit, constant?]
      refine .after hcondition.isSome_eq fun test htest => ?_
      refine .after hthen.isSome_eq fun first hfirst => ?_
      refine .build helse.isSome_eq fun second hsecond => ?_
      have hliteral := foldIf_literal type test first second
      rw [hcondition.literal_eq test htest, hthen.literal_eq first hfirst,
        helse.literal_eq second hsecond] at hliteral
      exact hliteral
  | .call type target moduleName functionName arguments => by
      rw [optimizeExpr, foldsFit]
      exact .build (optimizeItems_isSome arguments) fun _ _ => rfl
  | .arrayLiteral type items => by
      rw [optimizeExpr, foldsFit]
      exact .build (optimizeItems_isSome items) fun _ _ => rfl
  | .sliceFromArray type base => by
      rw [optimizeExpr, foldsFit]
      exact .build (optimizeExpr_folds base).isSome_eq fun _ _ => rfl
  | .index type base index => by
      rw [optimizeExpr, foldsFit]
      exact .after (optimizeExpr_folds base).isSome_eq fun _ _ =>
        .build (optimizeExpr_folds index).isSome_eq fun _ _ => rfl
  | .sliceView type base start stop => by
      rw [optimizeExpr, foldsFit]
      exact .after (optimizeExpr_folds base).isSome_eq fun _ _ =>
        .after (optimizeBound_isSome start) fun _ _ =>
          .build (optimizeBound_isSome stop) fun _ _ => rfl
  | .field type base fieldName => by
      rw [optimizeExpr, foldsFit]
      exact .build (optimizeExpr_folds base).isSome_eq fun _ _ => rfl
  | .structLiteral type moduleName typeName fields => by
      rw [optimizeExpr, foldsFit]
      exact .build (optimizeFields_isSome fields) fun _ _ => rfl
  | .ok type value => by
      rw [optimizeExpr, foldsFit]
      exact .build (optimizeExpr_folds value).isSome_eq fun _ _ => rfl
  | .addr type target => by
      rw [optimizeExpr, foldsFit]
      exact .build (optimizeExpr_folds target).isSome_eq fun _ _ => rfl
  | .deref type target => by
      rw [optimizeExpr, foldsFit]
      exact .build (optimizeExpr_folds target).isSome_eq fun _ _ => rfl
  | .int _ _ | .bool _ _ | .string _ _ | .null _ | .local _ _ | .err _ | .alloc _ _
  | .zalloc _ _ _ => .kept rfl

theorem optimizeBound_isSome : (bound : Option IrExpr) →
    (optimizeBound bound).isSome = boundFits bound
  | none => rfl
  | some bound => by
      rw [optimizeBound, boundFits]
      exact isSome_build (optimizeExpr_folds bound).isSome_eq

theorem optimizeItems_isSome : (items : List IrExpr) →
    (optimizeItems items).isSome = itemsFit items
  | [] => rfl
  | item :: rest => by
      rw [optimizeItems, itemsFit]
      exact isSome_after (optimizeExpr_folds item).isSome_eq fun _ =>
        isSome_build (optimizeItems_isSome rest)

theorem optimizeFields_isSome : (fields : List (Name × IrExpr)) →
    (optimizeFields fields).isSome = fieldsFit fields
  | [] => rfl
  | (_, value) :: rest => by
      rw [optimizeFields, fieldsFit]
      exact isSome_after (optimizeExpr_folds value).isSome_eq fun _ =>
        isSome_build (optimizeFields_isSome rest)

end

mutual

theorem optimizeStmt_isSome : (statement : IrStmt) →
    (optimizeStmt statement).isSome = stmtFits statement
  | .letStmt _ _ _ initializer => by
      rw [optimizeStmt, stmtFits]
      exact isSome_build (optimizeExpr_folds initializer).isSome_eq
  | .assign target value => by
      rw [optimizeStmt, stmtFits]
      exact isSome_after (optimizeExpr_folds target).isSome_eq fun _ =>
        isSome_build (optimizeExpr_folds value).isSome_eq
  | .returnStmt value => by
      rw [optimizeStmt, stmtFits]
      exact isSome_build (optimizeBound_isSome value)
  | .expr value | .free value => by
      rw [optimizeStmt, stmtFits]
      exact isSome_build (optimizeExpr_folds value).isSome_eq
  | .zone _ body | .loop body => by
      rw [optimizeStmt, stmtFits]
      exact isSome_build (optimizeBlock_isSome body)
  | .ifStmt condition thenBlock elseBlock => by
      rw [optimizeStmt, stmtFits]
      exact isSome_after (optimizeExpr_folds condition).isSome_eq fun _ =>
        isSome_after (optimizeBlock_isSome thenBlock) fun _ =>
          isSome_build (optimizeElse_isSome elseBlock)
  | .whileStmt condition body => by
      rw [optimizeStmt, stmtFits]
      exact isSome_after (optimizeExpr_folds condition).isSome_eq fun _ =>
        isSome_build (optimizeBlock_isSome body)
  | .forStmt _ _ start stop body => by
      rw [optimizeStmt, stmtFits]
      exact isSome_after (optimizeExpr_folds start).isSome_eq fun _ =>
        isSome_after (optimizeExpr_folds stop).isSome_eq fun _ =>
          isSome_build (optimizeBlock_isSome body)

theorem optimizeElse_isSome : (elseBlock : Option (List IrStmt)) →
    (optimizeElse elseBlock).isSome = elseFits elseBlock
  | none => rfl
  | some block => by
      rw [optimizeElse, elseFits]
      exact isSome_build (optimizeBlock_isSome block)

theorem optimizeBlock_isSome : (block : List IrStmt) →
    (optimizeBlock block).isSome = blockFits block
  | [] => rfl
  | statement :: rest => by
      rw [optimizeBlock, blockFits]
      refine isSome_after (optimizeStmt_isSome statement) fun _ => ?_
      cases isReturn statement with
      | true => rfl
      | false => exact isSome_build (optimizeBlock_isSome rest)

end

theorem mapM_isSome_eq {Part : Type} {optimize : Part → Option Part} {fits : Part → Bool}
    (hpart : ∀ part, (optimize part).isSome = fits part) (parts : List Part) :
    (parts.mapM optimize).isSome = parts.all fits := by
  induction parts with
  | nil => rfl
  | cons part rest ih =>
      rw [List.mapM_cons, List.all_cons]
      exact isSome_after (hpart part) fun _ => isSome_build ih

theorem optimizeModule_isSome_eq (module : IrModule) :
    (optimizeModule module).isSome =
      (module.consts.all (fun decl => foldsFit decl.initializer) &&
        module.functions.all fun function => blockFits function.body) :=
  isSome_after
    (mapM_isSome_eq
      (fun decl : IrConst => isSome_build (optimizeExpr_folds decl.initializer).isSome_eq) _)
    fun _ => isSome_build
      (mapM_isSome_eq
        (fun function : IrFunction => isSome_build (optimizeBlock_isSome function.body)) _)

theorem optimizeProgram_isSome_eq (program : IrProgram) :
    (optimizeProgram program).isSome = programFits program :=
  isSome_build (mapM_isSome_eq optimizeModule_isSome_eq _)

end Optimize

namespace Llvm

open Library.Signed

/-! The subtraction of slice bounds. -/

/-- Two constants are subtracted as C defines it, and the result stands in for the
instruction. -/
def IntSubDefined (left right : LlvmValue) : Prop :=
  ∀ first second, left.data = .int first → right.data = .int second →
    evaluate .sub first second = some (first - second) ∧
      emitIntSub left right = pure (constantInt (first - second))

def intSubFits (left right : LlvmValue) : Bool :=
  match left.data, right.data with
  | .int first, .int second => decide (InWord (first.toInt - second.toInt))
  | _, _ => true

theorem emitIntSub_constants {left right : LlvmValue} {first second : BitVec 64}
    (hleft : left.data = .int first) (hright : right.data = .int second) :
    emitIntSub left right = pure (constantInt (first - second)) := by
  unfold emitIntSub
  rw [hleft, hright]

theorem intSubDefined_iff (left right : LlvmValue) :
    IntSubDefined left right ↔ intSubFits left right = true := by
  unfold IntSubDefined intSubFits
  constructor
  · intro hdefined
    split
    · rename_i first second hleft hright
      have hevaluate := (hdefined first second hleft hright).1
      rw [evaluate_eq] at hevaluate
      split at hevaluate
      · exact decide_eq_true (by assumption)
      · cases hevaluate
    · rfl
  · intro hfits first second hleft hright
    rw [hleft, hright] at hfits
    refine ⟨?_, emitIntSub_constants hleft hright⟩
    have hdefined : Defined .sub first.toInt second.toInt := of_decide_eq_true hfits
    rw [evaluate_eq, if_pos hdefined]
    rfl

end Llvm

namespace Optimize

open Check (evalConst exactSize sizeFits)

/-- The arithmetic of the compiler is defined just where its exact results fit in 64 bits, and
it gives the result of the instruction. -/
theorem compile_time_arithmetic_iff (program : IrProgram) (expression : IrExpr)
    (project : Project) (checks : Checker.Resolved ConstDecl → Bool) (fuel : Nat)
    (self : ModuleId) (size : Expr) (left right : Llvm.LlvmValue) :
    ((optimizeProgram program).isSome = true ↔ programFits program = true) ∧
    (∀ folded, optimizeExpr expression = some folded → literal? folded = constant? expression) ∧
    (evalConst project checks fuel self size ≠ .undefined ↔
      sizeFits project checks fuel self size = true) ∧
    (∀ word, evalConst project checks fuel self size = .value word →
      exactSize project checks fuel self size = some word.toInt) ∧
    (Llvm.IntSubDefined left right ↔ Llvm.intSubFits left right = true) := by
  refine ⟨by rw [optimizeProgram_isSome_eq], (optimizeExpr_folds expression).literal_eq,
    Check.evalConst_defined_iff project checks fuel self size, fun word hvalue => ?_,
    Llvm.intSubDefined_iff left right⟩
  exact Check.evalConst_value project checks hvalue

/-- `return (-9223372036854775807 - 1) / -1;`, which traps in the compiler. -/
def trappingBody : Block := [
  .returnStmt (some (.binary .div
    (.binary .sub (.unary .negate (.int (BitVec.intMax 64))) (.int 1)) (.unary .negate (.int 1))))]

theorem quotient_of_minimum_undefined :
    Check.Accepted (mainProject trappingBody) ∧
      ((Lower.lowerProject (mainProject trappingBody)).map fun program =>
        (optimizeProgram program).isSome) = some false :=
  ⟨by decide +kernel, by decide +kernel⟩

end Optimize

end Cnegative
