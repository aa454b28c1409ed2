import Cnegative.Optimize.Program

namespace Cnegative

namespace Optimize

open Library (forall₂_of_mapM mem_of_mapM find?_related findSome?_related filter_related)
open Typing (TypeEnv exprTyped itemsTyped boundTyped fieldsTyped callTyped assignable stmtTyped
  stmtsTyped elseTyped scopeAfter functionTyped programTyped)

/-! The optimized program is typed as the program is. -/

structure SameTypes (program optimized : IrProgram) : Prop where
  structs_eq : optimized.structTable = program.structTable
  calls_eq : ∀ type target moduleName functionName arguments,
    callTyped optimized type target moduleName functionName arguments =
      callTyped program type target moduleName functionName arguments

structure Retyped (optimized : IrProgram) (typeEnv : TypeEnv) (expression folded : IrExpr) :
    Prop where
  typed : exprTyped optimized typeEnv folded = true
  type_eq : folded.type = expression.type

theorem unaryDefined_of_fold {type : TypeRef} {op : UnaryOp} {operand folded : IrExpr}
    (hfold : foldUnary type op operand = some folded) :
    unaryDefined op (literal? operand) = true := by
  cases operand with
  | int operandType value =>
      cases op with
      | not => rfl
      | negate =>
          cases hoverflow : value.negOverflow with
          | true => simp [foldUnary, checked, hoverflow] at hfold
          | false => simp [unaryDefined, literal?, hoverflow]
  | _ => rfl

theorem overflows_of_checked {overflows : Bool} {type : TypeRef} {value : BitVec 64}
    {folded : IrExpr} (hfold : checked overflows type value = some folded) : overflows = false := by
  cases overflows with
  | true => simp [checked] at hfold
  | false => rfl

theorem binaryDefined_of_fold {type : TypeRef} {op : BinaryOp} {left right folded : IrExpr}
    (hfold : foldBinary type op left right = some folded) :
    binaryDefined op (literal? left) (literal? right) = true := by
  cases left with
  | int leftType lhs =>
      cases right with
      | int rightType rhs =>
          have hdivide : ∀ {node value}, (if rhs = 0 then some node
              else checked (divisionOverflows lhs rhs) type value) = some folded →
                (!divisionOverflows lhs rhs) = true := by
            intro node value hdivide
            split at hdivide
            · rename_i hzero
              subst hzero
              simp [divisionOverflows]
            · rw [overflows_of_checked hdivide]
              rfl
          cases op with
          | add | sub | mul =>
              have hno := overflows_of_checked hfold
              simp [binaryDefined, literal?, hno]
          | div | mod => exact hdivide hfold
          | _ => rfl
      | _ => rfl
  | _ => rfl

section

variable {program optimized : IrProgram} {typeEnv : TypeEnv}

theorem foldUnary_retyped {type : TypeRef} {op : UnaryOp} {operand folded : IrExpr}
    (htyped : exprTyped optimized typeEnv (.unary type op operand) = true)
    (hfold : foldUnary type op operand = some folded) :
    Retyped optimized typeEnv (.unary type op operand) folded := by
  obtain ⟨result, hresult, -, hsame⟩ := @foldUnary_same Unit optimized []
    (fun _ _ _ _ => pure .void) typeEnv type op operand htyped (unaryDefined_of_fold hfold)
  obtain rfl : result = folded := Option.some.inj (hresult.symm.trans hfold)
  exact ⟨hsame.typed, hsame.type_eq⟩

theorem foldBinary_retyped {type : TypeRef} {op : BinaryOp} {left right folded : IrExpr}
    (htyped : exprTyped optimized typeEnv (.binary type op left right) = true)
    (hfold : foldBinary type op left right = some folded) :
    Retyped optimized typeEnv (.binary type op left right) folded := by
  obtain ⟨result, hresult, -, hsame⟩ := @foldBinary_same Unit optimized []
    (fun _ _ _ _ => pure .void) typeEnv type op left right htyped (binaryDefined_of_fold hfold)
  obtain rfl : result = folded := Option.some.inj (hresult.symm.trans hfold)
  exact ⟨hsame.typed, hsame.type_eq⟩

theorem foldIf_retyped {type : TypeRef} {test first second : IrExpr}
    (htyped : exprTyped optimized typeEnv (.ifExpr type test first second) = true) :
    exprTyped optimized typeEnv (foldIf type test first second) = true ∧
      (foldIf type test first second).type = type := by
  have hparts := htyped
  simp only [exprTyped, Bool.and_eq_true, decide_eq_true_eq] at hparts
  obtain ⟨⟨⟨⟨⟨-, hfirst⟩, hsecond⟩, -⟩, hfirstType⟩, hsecondType⟩ := hparts
  unfold foldIf
  split
  · exact ⟨hfirst, hfirstType⟩
  · exact ⟨hsecond, hsecondType⟩
  · exact ⟨htyped, rfl⟩

theorem isPlace_folded {target folded : IrExpr} (hfold : optimizeExpr target = some folded)
    (hplace : target.isPlace = true) : folded.isPlace = true := by
  cases target with
  | «local» type name | field type base name | index type base position | deref type inner =>
      simp only [optimizeExpr, Option.bind_eq_bind, Option.bind_eq_some_iff, Option.pure_def,
        Option.some.injEq] at hfold
      grind [IrExpr.isPlace]
  | _ => simp [IrExpr.isPlace] at hplace

theorem assignable_folded {target folded : IrExpr} (hfold : optimizeExpr target = some folded)
    (hassignable : assignable typeEnv target = true) : assignable typeEnv folded = true := by
  cases target with
  | «local» type name =>
      simp only [optimizeExpr, Option.some.injEq] at hfold
      rw [← hfold]
      exact hassignable
  | _ =>
      have hplace := isPlace_folded hfold hassignable
      cases folded with
      | «local» type name =>
          simp only [optimizeExpr, Option.bind_eq_bind, Option.bind_eq_some_iff, Option.pure_def,
            Option.some.injEq] at hfold
          simp_all [assignable, IrExpr.isPlace]
      | _ => exact hplace

mutual

theorem optimizeExpr_retyped (hsame : SameTypes program optimized) : (expression : IrExpr) →
    {folded : IrExpr} → exprTyped program typeEnv expression = true →
    optimizeExpr expression = some folded → Retyped optimized typeEnv expression folded
  | .int _ _, _, htyped, hfold | .bool _ _, _, htyped, hfold | .string _ _, _, htyped, hfold
  | .null _, _, htyped, hfold | .local _ _, _, htyped, hfold | .err _, _, htyped, hfold
  | .alloc _ _, _, htyped, hfold | .zalloc _ _ _, _, htyped, hfold => by
      simp only [optimizeExpr, Option.some.injEq] at hfold
      subst hfold
      refine ⟨?_, rfl⟩
      rw [exprTyped] at htyped ⊢
      exact htyped
  | .unary type op operand, folded, htyped, hfold => by
      simp only [exprTyped, Bool.and_eq_true] at htyped
      simp only [optimizeExpr, Option.bind_eq_bind, Option.bind_eq_some_iff] at hfold
      obtain ⟨first, hfirst, hfold⟩ := hfold
      have hoperand := optimizeExpr_retyped hsame operand htyped.1 hfirst
      have hnode : exprTyped optimized typeEnv (.unary type op first) = true := by
        simp [exprTyped, hoperand.typed, hoperand.type_eq, htyped.2]
      exact ⟨(foldUnary_retyped hnode hfold).typed, (foldUnary_retyped hnode hfold).type_eq⟩
  | .binary type op left right, folded, htyped, hfold => by
      simp only [exprTyped, Bool.and_eq_true] at htyped
      simp only [optimizeExpr, Option.bind_eq_bind, Option.bind_eq_some_iff] at hfold
      obtain ⟨first, hfirst, second, hsecond, hfold⟩ := hfold
      have hleft := optimizeExpr_retyped hsame left htyped.1.1 hfirst
      have hright := optimizeExpr_retyped hsame right htyped.1.2 hsecond
      have hnode : exprTyped optimized typeEnv (.binary type op first second) = true := by
        simp [exprTyped, hleft.typed, hright.typed, hleft.type_eq, hright.type_eq, htyped.2]
      exact ⟨(foldBinary_retyped hnode hfold).typed, (foldBinary_retyped hnode hfold).type_eq⟩
  | .ifExpr type condition thenExpr elseExpr, folded, htyped, hfold => by
      simp only [exprTyped, Bool.and_eq_true, decide_eq_true_eq] at htyped
      simp only [optimizeExpr, Option.bind_eq_bind, Option.bind_eq_some_iff, Option.pure_def,
        Option.some.injEq] at hfold
      obtain ⟨⟨⟨⟨⟨hcondition, hthen⟩, helse⟩, htestType⟩, hthenType⟩, helseType⟩ := htyped
      obtain ⟨test, htest, first, hfirst, second, hsecond, rfl⟩ := hfold
      have htestTyped := optimizeExpr_retyped hsame condition hcondition htest
      have hfirstTyped := optimizeExpr_retyped hsame thenExpr hthen hfirst
      have hsecondTyped := optimizeExpr_retyped hsame elseExpr helse hsecond
      have hnode : exprTyped optimized typeEnv (.ifExpr type test first second) = true := by
        simp [exprTyped, htestTyped.typed, hfirstTyped.typed, hsecondTyped.typed,
          htestTyped.type_eq, htestType, hfirstTyped.type_eq, hthenType, hsecondTyped.type_eq,
          helseType]
      exact ⟨(foldIf_retyped hnode).1, (foldIf_retyped hnode).2⟩
  | .call type target moduleName functionName arguments, folded, htyped, hfold => by
      simp only [exprTyped, Bool.and_eq_true] at htyped
      simp only [optimizeExpr, Option.bind_eq_bind, Option.bind_eq_some_iff, Option.pure_def,
        Option.some.injEq] at hfold
      obtain ⟨items, hitems, rfl⟩ := hfold
      obtain ⟨hitemsTyped, htypes⟩ := optimizeItems_retyped hsame arguments htyped.1 hitems
      exact ⟨by simp [exprTyped, hitemsTyped, htypes, hsame.calls_eq, htyped.2], rfl⟩
  | .arrayLiteral type items, folded, htyped, hfold => by
      simp only [exprTyped, Bool.and_eq_true] at htyped
      simp only [optimizeExpr, Option.bind_eq_bind, Option.bind_eq_some_iff, Option.pure_def,
        Option.some.injEq] at hfold
      obtain ⟨items', hitems, rfl⟩ := hfold
      obtain ⟨hitemsTyped, htypes⟩ := optimizeItems_retyped hsame items htyped.1 hitems
      have hlength : items'.length = items.length := by
        simpa using congrArg List.length htypes
      have hall : ∀ type, (items'.all fun item => item.type = type) =
          items.all fun item => item.type = type := by
        intro type
        have htypes := congrArg (fun types => types.all fun found => decide (found = type)) htypes
        simpa only [List.all_map, Function.comp_def] using htypes
      refine ⟨?_, rfl⟩
      cases type with
      | array inner size =>
          simp only [exprTyped, hitemsTyped, hlength, hall, Bool.true_and]
          exact htyped.2
      | _ => simp at htyped
  | .sliceFromArray type base, folded, htyped, hfold => by
      simp only [exprTyped, Bool.and_eq_true] at htyped
      simp only [optimizeExpr, Option.bind_eq_bind, Option.bind_eq_some_iff, Option.pure_def,
        Option.some.injEq] at hfold
      obtain ⟨base', hbase, rfl⟩ := hfold
      have hbaseTyped := optimizeExpr_retyped hsame base htyped.1 hbase
      exact ⟨by simp [exprTyped, hbaseTyped.typed, hbaseTyped.type_eq, htyped.2], rfl⟩
  | .index type base index, folded, htyped, hfold => by
      simp only [exprTyped, Bool.and_eq_true] at htyped
      simp only [optimizeExpr, Option.bind_eq_bind, Option.bind_eq_some_iff, Option.pure_def,
        Option.some.injEq] at hfold
      obtain ⟨base', hbase, index', hindex, rfl⟩ := hfold
      have hbaseTyped := optimizeExpr_retyped hsame base htyped.1.1.1 hbase
      have hindexTyped := optimizeExpr_retyped hsame index htyped.1.1.2 hindex
      exact ⟨by simp [exprTyped, hbaseTyped.typed, hindexTyped.typed, hbaseTyped.type_eq,
        hindexTyped.type_eq, htyped.1.2, htyped.2], rfl⟩
  | .sliceView type base start stop, folded, htyped, hfold => by
      simp only [exprTyped, Bool.and_eq_true] at htyped
      simp only [optimizeExpr, Option.bind_eq_bind, Option.bind_eq_some_iff, Option.pure_def,
        Option.some.injEq] at hfold
      obtain ⟨base', hbase, start', hstart, stop', hstop, rfl⟩ := hfold
      have hbaseTyped := optimizeExpr_retyped hsame base htyped.1.1.1 hbase
      have hstartTyped := optimizeBound_retyped hsame start htyped.1.1.2 hstart
      have hstopTyped := optimizeBound_retyped hsame stop htyped.1.2 hstop
      exact ⟨by simp [exprTyped, hbaseTyped.typed, hstartTyped, hstopTyped, hbaseTyped.type_eq,
        htyped.2], rfl⟩
  | .field type base fieldName, folded, htyped, hfold => by
      simp only [exprTyped, Bool.and_eq_true] at htyped
      simp only [optimizeExpr, Option.bind_eq_bind, Option.bind_eq_some_iff, Option.pure_def,
        Option.some.injEq] at hfold
      obtain ⟨base', hbase, rfl⟩ := hfold
      have hbaseTyped := optimizeExpr_retyped hsame base htyped.1 hbase
      refine ⟨?_, rfl⟩
      rw [exprTyped, hbaseTyped.typed, hbaseTyped.type_eq, hsame.structs_eq]
      exact htyped.2
  | .structLiteral type moduleName typeName fields, folded, htyped, hfold => by
      simp only [exprTyped, Bool.and_eq_true] at htyped
      simp only [optimizeExpr, Option.bind_eq_bind, Option.bind_eq_some_iff, Option.pure_def,
        Option.some.injEq] at hfold
      obtain ⟨htype, hfields⟩ := htyped
      obtain ⟨fields', hfold, rfl⟩ := hfold
      cases hdecl : program.structTable.find moduleName typeName with
      | none => simp [hdecl] at hfields
      | some decl =>
          rw [hdecl] at hfields
          refine ⟨?_, rfl⟩
          rw [exprTyped, hsame.structs_eq, hdecl, htype]
          exact optimizeFields_retyped hsame fields hfields hfold
  | .ok type value, folded, htyped, hfold => by
      simp only [exprTyped, Bool.and_eq_true] at htyped
      simp only [optimizeExpr, Option.bind_eq_bind, Option.bind_eq_some_iff, Option.pure_def,
        Option.some.injEq] at hfold
      obtain ⟨value', hvalue, rfl⟩ := hfold
      have hvalueTyped := optimizeExpr_retyped hsame value htyped.1 hvalue
      exact ⟨by simp [exprTyped, hvalueTyped.typed, hvalueTyped.type_eq, htyped.2], rfl⟩
  | .addr type target, folded, htyped, hfold => by
      simp only [exprTyped, Bool.and_eq_true] at htyped
      simp only [optimizeExpr, Option.bind_eq_bind, Option.bind_eq_some_iff, Option.pure_def,
        Option.some.injEq] at hfold
      obtain ⟨target', htarget, rfl⟩ := hfold
      have htargetTyped := optimizeExpr_retyped hsame target htyped.1.1 htarget
      exact ⟨by simp [exprTyped, htargetTyped.typed, htargetTyped.type_eq,
        isPlace_folded htarget htyped.1.2, htyped.2], rfl⟩
  | .deref type target, folded, htyped, hfold => by
      simp only [exprTyped, Bool.and_eq_true] at htyped
      simp only [optimizeExpr, Option.bind_eq_bind, Option.bind_eq_some_iff, Option.pure_def,
        Option.some.injEq] at hfold
      obtain ⟨target', htarget, rfl⟩ := hfold
      have htargetTyped := optimizeExpr_retyped hsame target htyped.1 htarget
      exact ⟨by simp [exprTyped, htargetTyped.typed, htargetTyped.type_eq, htyped.2], rfl⟩

theorem optimizeBound_retyped (hsame : SameTypes program optimized) : (bound : Option IrExpr) →
    {folded : Option IrExpr} → boundTyped program typeEnv bound = true →
    optimizeBound bound = some folded → boundTyped optimized typeEnv folded = true
  | none, folded, _, hfold => by
      simp only [optimizeBound, Option.some.injEq] at hfold
      subst hfold
      rfl
  | some bound, folded, htyped, hfold => by
      simp only [boundTyped, Bool.and_eq_true] at htyped
      simp only [optimizeBound, Option.bind_eq_bind, Option.bind_eq_some_iff, Option.pure_def,
        Option.some.injEq] at hfold
      obtain ⟨bound', hbound, rfl⟩ := hfold
      have hboundTyped := optimizeExpr_retyped hsame bound htyped.1 hbound
      simp [boundTyped, hboundTyped.typed, hboundTyped.type_eq, htyped.2]

theorem optimizeItems_retyped (hsame : SameTypes program optimized) : (items : List IrExpr) →
    {folded : List IrExpr} → itemsTyped program typeEnv items = true →
    optimizeItems items = some folded → itemsTyped optimized typeEnv folded = true ∧
      folded.map IrExpr.type = items.map IrExpr.type
  | [], folded, _, hfold => by
      simp only [optimizeItems, Option.some.injEq] at hfold
      subst hfold
      exact ⟨rfl, rfl⟩
  | item :: rest, folded, htyped, hfold => by
      simp only [itemsTyped, Bool.and_eq_true] at htyped
      simp only [optimizeItems, Option.bind_eq_bind, Option.bind_eq_some_iff, Option.pure_def,
        Option.some.injEq] at hfold
      obtain ⟨first, hfirst, remaining, hremaining, rfl⟩ := hfold
      have hitem := optimizeExpr_retyped hsame item htyped.1 hfirst
      obtain ⟨hrest, htypes⟩ := optimizeItems_retyped hsame rest htyped.2 hremaining
      exact ⟨by simp [itemsTyped, hitem.typed, hrest], by simp [hitem.type_eq, htypes]⟩

theorem optimizeFields_retyped (hsame : SameTypes program optimized) {decl : IrStruct} :
    (fields : List (Name × IrExpr)) → {folded : List (Name × IrExpr)} →
    fieldsTyped program typeEnv decl fields = true → optimizeFields fields = some folded →
    fieldsTyped optimized typeEnv decl folded = true
  | [], folded, _, hfold => by
      simp only [optimizeFields, Option.some.injEq] at hfold
      subst hfold
      rfl
  | (fieldName, value) :: rest, folded, htyped, hfold => by
      simp only [fieldsTyped, Bool.and_eq_true, decide_eq_true_eq] at htyped
      simp only [optimizeFields, Option.bind_eq_bind, Option.bind_eq_some_iff, Option.pure_def,
        Option.some.injEq] at hfold
      obtain ⟨first, hfirst, remaining, hremaining, rfl⟩ := hfold
      have hvalue := optimizeExpr_retyped hsame value htyped.1.1 hfirst
      have hrest := optimizeFields_retyped hsame rest htyped.2 hremaining
      simp [fieldsTyped, hvalue.typed, hvalue.type_eq, htyped.1.2, hrest]

end

/-! Statements. -/

theorem scopeAfter_folded {statement folded : IrStmt}
    (hfold : optimizeStmt statement = some folded) :
    scopeAfter typeEnv folded = scopeAfter typeEnv statement := by
  cases statement <;>
    simp only [optimizeStmt, Option.bind_eq_bind, Option.bind_eq_some_iff, Option.pure_def,
      Option.some.injEq] at hfold <;>
    grind [scopeAfter]

end

section

variable {program optimized : IrProgram} {returnType : TypeRef}

mutual

theorem optimizeStmt_retyped (hsame : SameTypes program optimized) {typeEnv : TypeEnv} :
    (statement : IrStmt) → {folded : IrStmt} →
    stmtTyped program returnType typeEnv statement = true →
    optimizeStmt statement = some folded → stmtTyped optimized returnType typeEnv folded = true
  | .letStmt name isMutable type initializer, folded, htyped, hfold => by
      simp only [stmtTyped, Bool.and_eq_true] at htyped
      simp only [optimizeStmt, Option.bind_eq_bind, Option.bind_eq_some_iff, Option.pure_def,
        Option.some.injEq] at hfold
      obtain ⟨value, hvalue, rfl⟩ := hfold
      have hvalueTyped := optimizeExpr_retyped hsame initializer htyped.1 hvalue
      simp [stmtTyped, hvalueTyped.typed, hvalueTyped.type_eq, htyped.2]
  | .assign target value, folded, htyped, hfold => by
      simp only [stmtTyped, Bool.and_eq_true] at htyped
      simp only [optimizeStmt, Option.bind_eq_bind, Option.bind_eq_some_iff, Option.pure_def,
        Option.some.injEq] at hfold
      obtain ⟨first, hfirst, second, hsecond, rfl⟩ := hfold
      have htargetTyped := optimizeExpr_retyped hsame target htyped.1.1.1 hfirst
      have hvalueTyped := optimizeExpr_retyped hsame value htyped.1.1.2 hsecond
      simp [stmtTyped, htargetTyped.typed, hvalueTyped.typed, htargetTyped.type_eq,
        hvalueTyped.type_eq, htyped.1.2, assignable_folded hfirst htyped.2]
  | .returnStmt none, folded, htyped, hfold => by
      simp only [optimizeStmt, optimizeBound, Option.bind_eq_bind, Option.bind_some,
        Option.pure_def, Option.some.injEq] at hfold
      subst hfold
      simp only [stmtTyped] at htyped ⊢
      exact htyped
  | .returnStmt (some value), folded, htyped, hfold => by
      simp only [stmtTyped, Bool.and_eq_true] at htyped
      simp only [optimizeStmt, optimizeBound, Option.bind_eq_bind, Option.bind_eq_some_iff,
        Option.pure_def, Option.some.injEq] at hfold
      obtain ⟨_, ⟨value', hvalue, rfl⟩, rfl⟩ := hfold
      have hvalueTyped := optimizeExpr_retyped hsame value htyped.1 hvalue
      simp [stmtTyped, hvalueTyped.typed, hvalueTyped.type_eq, htyped.2]
  | .expr value, folded, htyped, hfold => by
      simp only [stmtTyped] at htyped
      simp only [optimizeStmt, Option.bind_eq_bind, Option.bind_eq_some_iff, Option.pure_def,
        Option.some.injEq] at hfold
      obtain ⟨value', hvalue, rfl⟩ := hfold
      simp [stmtTyped, (optimizeExpr_retyped hsame value htyped hvalue).typed]
  | .zone zoneName body, folded, htyped, hfold => by
      simp only [stmtTyped] at htyped
      simp only [optimizeStmt, Option.bind_eq_bind, Option.bind_eq_some_iff, Option.pure_def,
        Option.some.injEq] at hfold
      obtain ⟨body', hbody, rfl⟩ := hfold
      simp [stmtTyped, optimizeBlock_retyped hsame body htyped hbody]
  | .ifStmt condition thenBlock elseBlock, folded, htyped, hfold => by
      simp only [stmtTyped, Bool.and_eq_true] at htyped
      simp only [optimizeStmt, Option.bind_eq_bind, Option.bind_eq_some_iff, Option.pure_def,
        Option.some.injEq] at hfold
      obtain ⟨test, htest, first, hfirst, second, hsecond, rfl⟩ := hfold
      have htestTyped := optimizeExpr_retyped hsame condition htyped.1.1.1 htest
      simp [stmtTyped, htestTyped.typed, htestTyped.type_eq, htyped.1.1.2,
        optimizeBlock_retyped hsame thenBlock htyped.1.2 hfirst,
        optimizeElse_retyped hsame elseBlock htyped.2 hsecond]
  | .whileStmt condition body, folded, htyped, hfold => by
      simp only [stmtTyped, Bool.and_eq_true] at htyped
      simp only [optimizeStmt, Option.bind_eq_bind, Option.bind_eq_some_iff, Option.pure_def,
        Option.some.injEq] at hfold
      obtain ⟨test, htest, body', hbody, rfl⟩ := hfold
      have htestTyped := optimizeExpr_retyped hsame condition htyped.1.1 htest
      simp [stmtTyped, htestTyped.typed, htestTyped.type_eq, htyped.1.2,
        optimizeBlock_retyped hsame body htyped.2 hbody]
  | .loop body, folded, htyped, hfold => by
      simp only [stmtTyped] at htyped
      simp only [optimizeStmt, Option.bind_eq_bind, Option.bind_eq_some_iff, Option.pure_def,
        Option.some.injEq] at hfold
      obtain ⟨body', hbody, rfl⟩ := hfold
      simp [stmtTyped, optimizeBlock_retyped hsame body htyped hbody]
  | .forStmt name type start stop body, folded, htyped, hfold => by
      simp only [stmtTyped, Bool.and_eq_true] at htyped
      simp only [optimizeStmt, Option.bind_eq_bind, Option.bind_eq_some_iff, Option.pure_def,
        Option.some.injEq] at hfold
      obtain ⟨⟨⟨⟨⟨htype, hstart⟩, hstartType⟩, hstop⟩, hstopType⟩, hbody⟩ := htyped
      obtain ⟨first, hfirst, last, hlast, body', hfold, rfl⟩ := hfold
      have hfirstTyped := optimizeExpr_retyped hsame start hstart hfirst
      have hlastTyped := optimizeExpr_retyped hsame stop hstop hlast
      simp [stmtTyped, hfirstTyped.typed, hfirstTyped.type_eq, hlastTyped.typed,
        hlastTyped.type_eq, htype, hstartType, hstopType,
        optimizeBlock_retyped hsame body hbody hfold]
  | .free value, folded, htyped, hfold => by
      simp only [stmtTyped, Bool.and_eq_true] at htyped
      simp only [optimizeStmt, Option.bind_eq_bind, Option.bind_eq_some_iff, Option.pure_def,
        Option.some.injEq] at hfold
      obtain ⟨value', hvalue, rfl⟩ := hfold
      have hvalueTyped := optimizeExpr_retyped hsame value htyped.1 hvalue
      rw [stmtTyped, hvalueTyped.typed, hvalueTyped.type_eq]
      exact htyped.2

theorem optimizeElse_retyped (hsame : SameTypes program optimized) {typeEnv : TypeEnv} :
    (elseBlock : Option (List IrStmt)) → {folded : Option (List IrStmt)} →
    elseTyped program returnType typeEnv elseBlock = true →
    optimizeElse elseBlock = some folded → elseTyped optimized returnType typeEnv folded = true
  | none, folded, _, hfold => by
      simp only [optimizeElse, Option.some.injEq] at hfold
      subst hfold
      rfl
  | some block, folded, htyped, hfold => by
      simp only [elseTyped] at htyped
      simp only [optimizeElse, Option.bind_eq_bind, Option.bind_eq_some_iff, Option.pure_def,
        Option.some.injEq] at hfold
      obtain ⟨block', hblock, rfl⟩ := hfold
      simp [elseTyped, optimizeBlock_retyped hsame block htyped hblock]

theorem optimizeBlock_retyped (hsame : SameTypes program optimized) {typeEnv : TypeEnv} :
    (block : List IrStmt) → {folded : List IrStmt} →
    stmtsTyped program returnType typeEnv block = true →
    optimizeBlock block = some folded → stmtsTyped optimized returnType typeEnv folded = true
  | [], folded, _, hfold => by
      simp only [optimizeBlock, Option.some.injEq] at hfold
      subst hfold
      rfl
  | statement :: rest, folded, htyped, hfold => by
      rw [Typing.stmtsTyped_cons, Bool.and_eq_true] at htyped
      simp only [optimizeBlock, Option.bind_eq_bind, Option.bind_eq_some_iff] at hfold
      obtain ⟨first, hfirst, hfold⟩ := hfold
      have hstatement := optimizeStmt_retyped hsame statement htyped.1 hfirst
      split at hfold
      · rw [Option.pure_def, Option.some.injEq] at hfold
        subst hfold
        rw [Typing.stmtsTyped_cons, hstatement]
        rfl
      · simp only [Option.bind_eq_some_iff, Option.pure_def, Option.some.injEq] at hfold
        obtain ⟨remaining, hremaining, rfl⟩ := hfold
        rw [Typing.stmtsTyped_cons, hstatement, scopeAfter_folded hfirst]
        exact optimizeBlock_retyped hsame rest htyped.2 hremaining

end

end

/-! What the callers of a function see of it stays. -/

structure SameHeader (function folded : IrFunction) : Prop where
  name_eq : folded.name = function.name
  returnType_eq : folded.returnType = function.returnType
  parameters_eq : folded.parameters = function.parameters

structure SameHeaders (module folded : IrModule) : Prop where
  name_eq : folded.name = module.name
  structs_eq : folded.structs = module.structs
  functions : List.Forall₂ SameHeader module.functions folded.functions

theorem optimizeFunction_header {function folded : IrFunction}
    (hfold : optimizeFunction function = some folded) : SameHeader function folded := by
  simp only [optimizeFunction, Option.bind_eq_bind, Option.bind_eq_some_iff, Option.pure_def,
    Option.some.injEq] at hfold
  obtain ⟨body, -, rfl⟩ := hfold
  exact ⟨rfl, rfl, rfl⟩

theorem optimizeModule_headers {module folded : IrModule}
    (hfold : optimizeModule module = some folded) : SameHeaders module folded := by
  simp only [optimizeModule, Option.bind_eq_bind, Option.bind_eq_some_iff, Option.pure_def,
    Option.some.injEq] at hfold
  obtain ⟨consts, -, functions, hfunctions, rfl⟩ := hfold
  exact ⟨rfl, rfl, forall₂_of_mapM hfunctions fun _ _ _ => optimizeFunction_header⟩

theorem sameTypes_of_headers {program optimized : IrProgram}
    (hmodules : List.Forall₂ SameHeaders program.modules optimized.modules) :
    SameTypes program optimized where
  structs_eq := by
    obtain ⟨modules⟩ := program
    obtain ⟨folded⟩ := optimized
    simp only [IrProgram.structTable] at hmodules ⊢
    induction hmodules with
    | nil => rfl
    | cons hhead _ ih => simp [hhead.name_eq, hhead.structs_eq, ih]
  calls_eq := by
    intro type target moduleName functionName arguments
    have hfind : Option.Rel SameHeader (program.findFunction moduleName functionName)
        (optimized.findFunction moduleName functionName) := by
      refine findSome?_related (filter_related hmodules fun module folded hsame => ?_)
        fun module folded hsame => find?_related hsame.functions fun function folded hsame => ?_
      · rw [hsame.name_eq]
      · rw [hsame.name_eq]
    cases target with
    | builtin => rfl
    | «local» | module =>
        simp only [callTyped]
        generalize program.findFunction moduleName functionName = found at hfind ⊢
        generalize optimized.findFunction moduleName functionName = folded at hfind ⊢
        cases hfind with
        | none => rfl
        | some hsame => simp only [hsame.returnType_eq, hsame.parameters_eq]

/-- The optimizer keeps a program well typed. -/
theorem optimizeProgram_typed {program optimized : IrProgram}
    (htyped : programTyped program = true) (hfold : optimizeProgram program = some optimized) :
    programTyped optimized = true := by
  simp only [optimizeProgram, Option.bind_eq_bind, Option.bind_eq_some_iff, Option.pure_def,
    Option.some.injEq] at hfold
  obtain ⟨modules, hmodules, rfl⟩ := hfold
  have hsame : SameTypes program ⟨modules⟩ :=
    sameTypes_of_headers (forall₂_of_mapM hmodules fun _ _ _ => optimizeModule_headers)
  simp only [programTyped, List.all_eq_true, Bool.and_eq_true, decide_eq_true_eq] at htyped ⊢
  intro folded hfolded
  obtain ⟨module, hmodule, hfold⟩ := mem_of_mapM hmodules hfolded
  obtain ⟨htypedConsts, htypedFunctions⟩ := htyped module hmodule
  simp only [optimizeModule, Option.bind_eq_bind, Option.bind_eq_some_iff, Option.pure_def,
    Option.some.injEq] at hfold
  obtain ⟨consts, hconsts, functions, hfunctions, rfl⟩ := hfold
  constructor
  · intro decl hdecl
    obtain ⟨source, hsource, hfold⟩ := mem_of_mapM hconsts hdecl
    simp only [optimizeConst, Option.bind_eq_bind, Option.bind_eq_some_iff, Option.pure_def,
      Option.some.injEq] at hfold
    obtain ⟨initializer, hinitializer, rfl⟩ := hfold
    have hretyped := optimizeExpr_retyped hsame source.initializer
      (htypedConsts source hsource).1 hinitializer
    exact ⟨hretyped.typed, hretyped.type_eq.trans (htypedConsts source hsource).2⟩
  · intro function hfunction
    obtain ⟨source, hsource, hfold⟩ := mem_of_mapM hfunctions hfunction
    simp only [optimizeFunction, Option.bind_eq_bind, Option.bind_eq_some_iff, Option.pure_def,
      Option.some.injEq] at hfold
    obtain ⟨body, hbody, rfl⟩ := hfold
    exact optimizeBlock_retyped hsame source.body (htypedFunctions source hsource) hbody

theorem foldingProgram_typed :
    ∃ optimized, optimizeProgram foldingProgram = some optimized ∧
      programTyped optimized = true := by
  have hsome : (optimizeProgram foldingProgram).isSome = true := by decide +kernel
  obtain ⟨optimized, hfold⟩ := Option.isSome_iff_exists.mp hsome
  exact ⟨optimized, hfold, optimizeProgram_typed (by decide +kernel) hfold⟩

end Optimize

end Cnegative
